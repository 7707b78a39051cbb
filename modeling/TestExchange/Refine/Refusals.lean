import TestExchange.Proof.Drafts
import TestExchange.Refine.Course
import TestExchange.Spec.Paths

/-!
# Services refuse, they do not break

Each service, from a database that is in order: it returns, or says no with a
reason of its own. Where something else is needed, the lemma asks for it.
-/

namespace TestExchange

open Txn Txn.Session

/-- What is queued is sure to be written. -/
def Arrives (c : Conn) : Prop := ∃ t, OnCourse c t

variable {α : Type} {P : Prop} {now n : Nat} {db t : Db} {c : Conn} {id u : Uuid}

theorem Reaches.arrives (h : Reaches t c) : Arrives c := by
  obtain ⟨t', ht', -⟩ := h
  exact ⟨t', ht'⟩

theorem arrives_start (h : db.Orderly n) : Arrives ⟨db, [], n⟩ := ⟨db, onCourse_start h⟩

/-- The usual end: the queue is flushed and the result returned. -/
theorem course_return {a : α} {E : Failure → Prop} (h : Reaches t c) :
    Ends (do flush; pure a : Session α) now c (fun _ => Arrives) E :=
  course_flush_bind h fun _ horderly _ => ends_pure (arrives_start horderly)

theorem not_knows (hu : ¬db.Knows u) : db.profiles.contains u = false := by
  rw [Table.contains_eq_false]
  cases hp : db.profiles.get? u with
  | none => rfl
  | some p => exact absurd ⟨p, hp⟩ hu

theorem event_refused {action entityType : String} {details : List (String × Json)} {k : Uuid}
    (hu : ¬db.Knows u) :
    (insertAuditEvent ⟨some u, action, entityType, k, details⟩).violates db ≠ none := by
  simp [insertAuditEvent, Db.missingProfile, not_knows hu]

/-! ## Between the participants -/

section Participants

variable (h : db.Orderly n)

include h

theorem addMessage_endsWell {payload : MessageCreate} :
    EndsWell P (addMessage id u payload) now ⟨db, [], n⟩ fun _ => Arrives := by
  refine endsWell_getAssignment_bind fun a ha => endsWell_participant_bind fun x hx hu =>
    ends_uuid4_bind (ends_add_bind ?_)
  have hsender : db.Knows u := by
    rcases hu with rfl | rfl
    · exact h.testers id a ha
    · exact h.owners _ x hx
  have hassignment : db.assignments.contains id = true := Table.contains_eq_true.mpr ⟨a, ha⟩
  have hv : (insertMessage n ⟨id, u, payload.body⟩).violates db = none := by
    simp only [insertMessage, firstViolated_cons, firstViolated_nil, and_true]
    exact ⟨Table.contains_eq_false.mpr (h.messages.free (Nat.le_refl _)),
      by simpa using hassignment, hsender.contains⟩
  refine (onCourse_start h).ends_flush_bind (applyAll_cons.mpr ⟨hv, rfl⟩) ?_
  have hstored := orderly_insertMessage (m := ⟨id, u, payload.body⟩) (h.later (Nat.le_succ n))
    (Nat.lt_succ_self n)
  refine course_event_bind (reaches_self (onCourse_start hstored)) hsender fun ws hevent =>
    endsWell_getCampaign_bind fun y hy => course_notify_bind hevent ?_ fun c' hc' =>
    ends_pure hc'.arrives
  show db.Knows (if u = a.testerId then y.ownerId else a.testerId)
  split
  · exact h.owners _ y hy
  · exact h.testers id a ha

theorem acceptAssignment_endsWell :
    EndsWell P (acceptAssignment id u) now ⟨db, [], n⟩ fun _ => Arrives := by
  refine ends_query_bind (endsWell_orRaise_bind (by decide) fun campaignId hid =>
    ends_select_bind (endsWell_orRaise_bind (by decide) fun x hx =>
    endsWell_raiseIf_bind (by decide) fun howner => endsWell_raiseIf_bind (by decide) fun _ =>
    ends_select_bind (endsWell_orRaise_bind (by decide) fun a ha =>
    endsWell_raiseIf_bind (by decide) fun _ => ends_query_bind (endsWell_raiseIf_bind (by decide)
    fun _ => ends_utcnow_bind ?_))))
  have hactor : db.Knows u := not_not.mp howner ▸ h.owners _ x hx
  refine course_assignment_bind (reaches_self (onCourse_start h)) (fun _ => rfl) fun _ hset =>
    course_event_bind hset hactor fun _ hevent => ?_
  exact course_notify_bind hevent (h.testers id a ha) fun _ hsent => course_return hsent

theorem declineAssignment_endsWell :
    EndsWell P (declineAssignment id u) now ⟨db, [], n⟩ fun _ => Arrives := by
  refine ends_select_bind (endsWell_orRaise_bind (by decide) fun a ha =>
    endsWell_getCampaign_bind fun x hx => endsWell_raiseIf_bind (by decide) fun howner =>
    endsWell_raiseIf_bind (by decide) fun _ => ends_utcnow_bind ?_)
  have hactor : db.Knows u := not_not.mp howner ▸ h.owners _ x hx
  refine course_assignment_bind (reaches_self (onCourse_start h)) (fun _ => rfl) fun _ hset =>
    course_event_bind hset hactor fun _ hevent => ?_
  exact course_notify_bind hevent (h.testers id a ha) fun _ hsent => course_return hsent

theorem withdrawAssignment_endsWell :
    EndsWell P (withdrawAssignment id u) now ⟨db, [], n⟩ fun _ => Arrives := by
  refine ends_select_bind (endsWell_orRaise_bind (by decide) fun a ha =>
    endsWell_raiseIf_bind (by decide) fun htester => endsWell_raiseIf_bind (by decide) fun _ =>
    ends_select_bind (endsWell_orRaise_bind (by decide) fun x hx => ends_utcnow_bind ?_))
  have hactor : db.Knows u := not_not.mp htester ▸ h.testers id a ha
  refine course_assignment_bind (reaches_self (onCourse_start h)) (fun _ => rfl) fun _ hset =>
    course_event_bind hset hactor fun _ hevent => ends_query_bind ?_
  exact course_notify_bind hevent (h.owners _ x hx) fun _ hsent =>
    course_completion_bind hsent hactor fun _ _ hdone => course_return hdone

theorem applyToCampaign_endsWell {payload : AssignmentApply} :
    EndsWell P (applyToCampaign id u payload) now ⟨db, [], n⟩ fun _ => Arrives := by
  refine endsWell_getProfile_bind fun p hp => ends_select_bind (endsWell_orRaise_bind (by decide)
    fun x hx => endsWell_raiseIf_bind (by decide) fun _ => endsWell_raiseIf_bind (by decide) fun _ =>
    ends_query_bind (endsWell_raiseIf_bind (by decide) fun hfirst => ends_query_bind
    (endsWell_raiseIf_bind (by decide) fun _ => ends_uuid4_bind (ends_add_bind ?_))))
  have htester : db.Knows u := ⟨p, hp⟩
  have hcampaign : db.campaigns.contains id = true := Table.contains_eq_true.mpr ⟨x, hx⟩
  have hunapplied := Table.find?_eq_none.mp (by simpa using hfirst)
  let a : Assignment := { campaignId := id, testerId := u, applicationNote := payload.applicationNote }
  have hv : (insertAssignment n a).violates db = none := by
    simp only [insertAssignment, firstViolated_cons, firstViolated_nil, and_true]
    exact ⟨Table.contains_eq_false.mpr (h.assignments.free (Nat.le_refl _)),
      Table.any_eq_false.mpr hunapplied, by simpa using hcampaign, htester.contains⟩
  refine (onCourse_start h).ends_flush_bind (applyAll_cons.mpr ⟨hv, rfl⟩) ?_
  have hstored := onCourse_start (orderly_insertAssignment (a := a) (h.later (Nat.le_succ n))
    (Nat.lt_succ_self n) htester)
  refine course_event_bind (reaches_self hstored) htester fun _ hevent => ends_query_bind ?_
  exact course_notify_bind hevent (h.owners _ x hx) fun _ hsent => ends_pure hsent.arrives

/-- A session under the next identifier, of a day that has none yet. -/
theorem testingSession_accepted {x : TestingSession} (hfree : ∀ k t, db.testingSessions.get? k = some t →
      (t.assignmentId = x.assignmentId && t.sessionDate = x.sessionDate) = false)
    (hassignment : ∃ a, db.assignments.get? x.assignmentId = some a) :
    (insertTestingSession n x).violates db = none := by
  simp only [insertTestingSession, firstViolated_cons, firstViolated_nil, and_true]
  refine ⟨Table.contains_eq_false.mpr (h.testingSessions.free (Nat.le_refl _)),
    Table.any_eq_false.mpr hfree, ?_⟩
  rw [Bool.not_eq_false', Table.contains_eq_true]
  exact hassignment

/-- The work of an assignment that is running is recorded. -/
theorem recordTestingSession_endsWell {payload : TestingSessionCreate} :
    EndsWell P (recordTestingSession id u payload) now ⟨db, [], n⟩ fun _ => Arrives := by
  refine ends_select_bind (endsWell_orRaise_bind (by decide) fun a ha =>
    endsWell_raiseIf_bind (by decide) fun htester => endsWell_raiseIf_bind (by decide) fun _ =>
    ends_utcnow_bind (ends_query_bind (endsWell_raiseIf_bind (by decide) fun hfirst =>
    ends_uuid4_bind (ends_add_bind ?_))))
  have hactor : db.Knows u := not_not.mp htester ▸ h.testers id a ha
  have hunrecorded := Table.find?_eq_none.mp (by simpa using hfirst)
  refine (onCourse_start h).ends_flush_bind (applyAll_cons.mpr
    ⟨testingSession_accepted (x := ⟨id, Time.date now, payload.note⟩) h hunrecorded ⟨a, ha⟩, rfl⟩) ?_
  have hstored := onCourse_start (orderly_insertTestingSession (x := ⟨id, Time.date now, payload.note⟩)
    (h.later (Nat.le_succ n)) (Nat.lt_succ_self n))
  exact course_event_bind (reaches_self hstored) hactor fun _ hevent => ends_pure hevent.arrives

/-- The start of a test and its first session, if none has been recorded for it. -/
theorem reaches_started (hthere : ∃ a, db.assignments.get? id = some a)
    (hidle : ∀ k x, db.testingSessions.get? k = some x → x.assignmentId ≠ id) :
    Reaches db ⟨db, [writeAssignment id fun a =>
        { a with status := .inProgress, startedAt := some now },
      insertTestingSession n ⟨id, Time.date now, some "Testing started"⟩], n + 1⟩ := by
  have hstarted := onCourse_add (onCourse_start h) (taken_assignment (k := id)
    (f := fun a => { a with status := .inProgress, startedAt := some now }) h fun _ => rfl)
  have hlater := onCourse_draw hstarted
  have hnone : ∀ k x, db.testingSessions.get? k = some x →
      (x.assignmentId = id && x.sessionDate = Time.date now) = false := by
    intro k x hx
    rw [decide_eq_false (hidle k x hx)]
    rfl
  exact ⟨_, onCourse_add hlater ⟨testingSession_accepted
    (x := ⟨id, Time.date now, some "Testing started"⟩) hstarted.holds hnone (stays_modify hthere),
    orderly_insertTestingSession hlater.holds (Nat.lt_succ_self n), rfl⟩, rfl⟩

/-- A test is started, given that no session has been recorded for it. -/
theorem startAssignment_endsWell
    (hidle : ∀ a, db.assignments.get? id = some a → a.status = .accepted →
      ∀ k x, db.testingSessions.get? k = some x → x.assignmentId ≠ id) :
    EndsWell P (startAssignment id u) now ⟨db, [], n⟩ fun _ => Arrives := by
  refine endsWell_getAssignment_bind fun a ha => endsWell_raiseIf_bind (by decide) fun htester =>
    endsWell_raiseIf_bind (by decide) fun haccepted => ends_utcnow_bind (ends_add_bind
    (ends_uuid4_bind (ends_add_bind ?_)))
  have hactor : db.Knows u := not_not.mp htester ▸ h.testers id a ha
  exact course_event_bind (reaches_started h ⟨a, ha⟩ (hidle a ha (not_not.mp haccepted))) hactor
    fun _ hevent => course_return hevent

/-! ## Recruitment -/

omit h in
theorem declinePending_endsWell {x : Campaign} {rest : List (Uuid × Assignment)} (hc : Reaches db c)
    (hactor : db.Knows u) (hrest : ∀ r ∈ rest, db.Knows r.2.testerId) :
    EndsWell P (declinePending x u now rest) now c fun _ => Reaches db := by
  induction rest generalizing c with
  | nil => exact ends_pure hc
  | cons r rest ih =>
      refine course_assignment_bind hc (fun _ => rfl) fun _ hset => course_event_bind hset hactor
        fun _ hevent => course_notify_bind hevent (hrest r List.mem_cons_self) fun c' hsent => ?_
      exact ih hsent fun q hq => hrest q (List.mem_cons_of_mem _ hq)

theorem performTransition_endsWell {x : Campaign} {action : TransitionAction} (hactor : db.Knows u) :
    EndsWell P (performTransition id x u action) now ⟨db, [], n⟩ fun _ => Reaches db := by
  have hstart := reaches_self (onCourse_start h)
  cases action with
  | pause =>
      exact endsWell_raiseIf_bind (by decide) fun _ =>
        course_campaign_bind hstart (fun _ => rfl) fun _ hset => ends_pure hset
  | resume =>
      exact endsWell_raiseIf_bind (by decide) fun _ => ends_query_bind
        (endsWell_raiseIf_bind (by decide) fun _ => course_campaign_bind hstart (fun _ => rfl) fun _ hset =>
        ends_pure hset)
  | close =>
      refine endsWell_raiseIf_bind (by decide) fun _ => course_campaign_bind hstart (fun _ => rfl) fun _ hset =>
        ends_queryForUpdate_bind (ends_utcnow_bind ?_)
      refine (declinePending_endsWell hset hactor fun r hr => ?_).bind fun _ _ hc => ends_pure hc
      exact h.testers r.1 r.2 (Table.mem_where'.mp hr).1

theorem transitionCampaign_endsWell {action : TransitionAction} :
    EndsWell P (transitionCampaign id u action) now ⟨db, [], n⟩ fun _ => Arrives := by
  refine ends_select_bind (endsWell_orRaise_bind (by decide) fun x hx =>
    endsWell_raiseIf_bind (by decide) fun howner => ?_)
  have hactor : db.Knows u := not_not.mp howner ▸ h.owners _ x hx
  refine (performTransition_endsWell h hactor).bind fun status c hc =>
    course_event_bind hc hactor fun ws hevent => ?_
  unfold completeIfClosed
  split
  · exact course_completion_bind hevent hactor fun _ _ hdone => course_return hdone
  · exact ends_pure_bind (course_return hevent)

/-! ## Decisions -/

omit h in
theorem applyDecision_endsWell {submissionId : Uuid} {a : Assignment} {x : Campaign}
    {decision : ReviewDecision} (hc : Reaches t c) (hactor : t.Knows u) (htester : t.Knows a.testerId) :
    EndsWell P (applyDecision submissionId id a x u decision) now c fun _ => Reaches t := by
  cases decision with
  | approved =>
      refine ends_utcnow_bind (course_submission_bind hc fun _ hjudged =>
        course_assignment_bind hjudged (fun _ => rfl) fun _ hset => endsWell_credit_bind hset htester ?_
        fun _ _ hpaid => course_flush_bind hpaid fun s horderly hprofiles => ?_)
      · rintro m hm
        exact Option.some.inj hm ▸ hactor
      · have hflushed : Reaches t ⟨s, [], _⟩ := ⟨s, onCourse_start horderly, hprofiles⟩
        exact course_completion_bind hflushed hactor fun _ _ hdone => ends_pure hdone
  | changesRequested => exact course_submission_bind hc fun _ hjudged => course_assignment hjudged fun _ => rfl
  | rejected => exact course_submission_bind hc fun _ hjudged => course_assignment hjudged fun _ => rfl

/-- A submission is reviewed, given that it belongs to an assignment and has no review if it is
pending. -/
theorem createReview_endsWell {payload : ReviewCreate}
    (hplaced : ∀ e, db.evidenceSubmissions.get? id = some e →
      ∃ a, db.assignments.get? e.assignmentId = some a)
    (hpending : ∀ e, db.evidenceSubmissions.get? id = some e → e.status = .submitted →
      ∀ k r, db.reviews.get? k = some r → r.submissionId ≠ id) :
    EndsWell P (createReview id u payload) now ⟨db, [], n⟩ fun _ => Arrives := by
  refine ends_query_bind (endsWell_orRaise_bind (by decide) fun assignmentId hid =>
    ends_select_bind (ends_orRaise_bind (fun hnone _ => ?_) fun a ha =>
    ends_select_bind (endsWell_orRaise_bind (by decide) fun e he =>
    ends_select_bind (endsWell_orRaise_bind (by decide) fun x hx =>
    endsWell_raiseIf_bind (by decide) fun howner => ends_query_bind
    (endsWell_raiseIf_bind (by decide) fun _ => endsWell_raiseIf_bind (by decide) fun hsubmitted =>
    endsWell_raiseIf_bind (by decide) fun _ => ends_uuid4_bind (ends_add_bind ?_))))))
  · obtain ⟨e, he, rfl⟩ := Option.map_eq_some_iff.mp hid
    obtain ⟨a, ha⟩ := hplaced e he
    exact absurd (ha.symm.trans hnone) (by simp)
  have hactor : db.Knows u := not_not.mp howner ▸ h.owners _ x hx
  have htester : db.Knows a.testerId := h.testers _ a ha
  have hsubmission : db.evidenceSubmissions.contains id = true :=
    Table.contains_eq_true.mpr ⟨e, he⟩
  have hunreviewed : ∀ k r, db.reviews.get? k = some r → decide (r.submissionId = id) = false :=
    fun k r hr => decide_eq_false (hpending e he (not_not.mp hsubmitted) k r hr)
  have hv : (insertReview n ⟨id, u, payload.decision, payload.notes⟩).violates db = none := by
    simp only [insertReview, firstViolated_cons, firstViolated_nil, and_true]
    exact ⟨Table.contains_eq_false.mpr (h.reviews.free (Nat.le_refl _)),
      Table.any_eq_false.mpr hunreviewed, by simpa using hsubmission, hactor.contains⟩
  refine (onCourse_start h).ends_flush_bind (applyAll_cons.mpr ⟨hv, rfl⟩) ?_
  have hstored := onCourse_start (orderly_insertReview (r := ⟨id, u, payload.decision, payload.notes⟩)
    (h.later (Nat.le_succ n)) (Nat.lt_succ_self n))
  refine (applyDecision_endsWell (reaches_self hstored) hactor htester).bind fun _ c hc =>
    course_event_bind hc hactor fun _ hevent => ?_
  exact course_notify_bind hevent htester fun _ hsent => course_return hsent

/-! ## Disputes -/

theorem openDispute_endsWell {payload : DisputeCreate} :
    EndsWell P (openDispute id u payload) now ⟨db, [], n⟩ fun _ => Arrives := by
  refine ends_select_bind (endsWell_orRaise_bind (by decide) fun a ha =>
    endsWell_participant_bind fun x hx _ => endsWell_raiseIf_bind (by decide) fun htester =>
    endsWell_raiseIf_bind (by decide) fun _ => endsWell_orRaise_bind (by decide)
    fun submissionId hsub => ends_query_bind (endsWell_orRaise_bind (by decide) fun e he =>
    endsWell_raiseIf_bind (by decide) fun _ => ?_))
  have hchecked : EndsWell P (checkEscalation a e) now ⟨db, [], n⟩ fun _ c => c = ⟨db, [], n⟩ := by
    unfold checkEscalation
    split
    · refine endsWell_raiseIf_bind (by decide) fun _ => Ends.bind (Q := fun _ c => c = ⟨db, [], n⟩)
        (ends_query_bind (endsWell_orRaise_bind (by decide) fun _ _ =>
          ends_query_bind (ends_pure rfl))) ?_
      rintro contract _ rfl
      exact ends_utcnow_bind (endsWell_raiseIf (by decide) fun _ => rfl)
    · exact endsWell_raiseIf (by decide) fun _ => rfl
  refine hchecked.bind ?_
  rintro _ _ rfl
  refine ends_query_bind (endsWell_raiseIf_bind (by decide) fun _ => ends_uuid4_bind
    (ends_add_bind ?_))
  have hactor : db.Knows u := not_not.mp htester ▸ h.testers id a ha
  have hassignment : db.assignments.contains id = true := Table.contains_eq_true.mpr ⟨a, ha⟩
  have hsubmission : db.evidenceSubmissions.contains submissionId = true :=
    Table.contains_eq_true.mpr ⟨e, he⟩
  let d : Dispute :=
    { assignmentId := id, submissionId := some submissionId, openedBy := u, reason := payload.reason }
  have hv : (insertDispute n d).violates db = none := by
    simp only [insertDispute, firstViolated_cons, firstViolated_nil, and_true]
    exact ⟨Table.contains_eq_false.mpr (h.disputes.free (Nat.le_refl _)),
      by simpa using hassignment, by simpa [d] using hsubmission, hactor.contains⟩
  refine (onCourse_start h).ends_flush_bind (applyAll_cons.mpr ⟨hv, rfl⟩) ?_
  have hstored := onCourse_start (orderly_insertDispute (d := d) (h.later (Nat.le_succ n))
    (Nat.lt_succ_self n))
  refine course_event_bind (reaches_self hstored) hactor fun _ hevent =>
    endsWell_getCampaign_bind fun y hy => ?_
  exact course_notify_bind hevent (h.owners _ y hy) fun _ hsent => ends_pure hsent.arrives

/-- A claim goes wrong only where the moderator has no profile to store. -/
theorem claimDispute_endsWell
    (hP : ∀ d, db.disputes.get? id = some d → d.status = .open → ¬db.Knows u → P) :
    EndsWell P (claimDispute id u) now ⟨db, [], n⟩ fun _ => Arrives := by
  refine ends_select_bind (endsWell_orRaise_bind (by decide) fun d hd => ?_)
  split
  · exact endsWell_raiseIf_bind (by decide) fun _ => ends_pure (arrives_start h)
  · refine endsWell_raiseIf_bind (by decide) fun hopen => ends_utcnow_bind ?_
    by_cases hu : db.Knows u
    · exact course_dispute_bind (reaches_self (onCourse_start h)) hu fun _ hset =>
        course_event_bind hset hu fun _ hevent => course_return hevent
    · refine ends_add_bind (ends_add_bind (ends_flush_refused_bind
        (applyAll_stopped ?_) fun _ _ _ _ _ _ => hP d hd (not_not.mp hopen) hu))
      simp [writeDispute, not_knows hu]

omit h in
theorem disputedSubmission_endsWell {o : Option EvidenceSubmission} :
    EndsWell P (disputedSubmission id o) now c fun e c' => (o = some e ∧ e.assignmentId = id) ∧ c' = c :=
  endsWell_orRaise_bind (by decide) fun _ he => endsWell_raiseIf_bind (by decide) fun hof =>
    ends_pure ⟨⟨he, not_not.mp hof⟩, rfl⟩

theorem applyRemedy_endsWell {d : Dispute} {a : Assignment} {payload : DisputeResolve}
    (hactor : db.Knows u) (htester : db.Knows a.testerId) :
    EndsWell P (applyRemedy d a u payload) now ⟨db, [], n⟩ fun _ => Reaches db := by
  have hstart := reaches_self (onCourse_start h)
  unfold applyRemedy
  split
  · refine endsWell_orRaise_bind (by decide) fun _ _ => endsWell_raiseIf_bind (by decide) fun _ =>
      ends_select_bind (disputedSubmission_endsWell.bind ?_)
    rintro e _ ⟨-, rfl⟩
    refine ends_select_bind (endsWell_orRaise_bind (by decide) fun x hx => ends_utcnow_bind
      (course_submission_bind hstart fun _ hjudged => course_assignment_bind hjudged
      (fun _ => rfl) fun _ hset => endsWell_credit_bind hset htester ?_ fun _ _ hpaid =>
      course_flush_bind hpaid fun t horderly hprofiles => ?_))
    · rintro m hm
      exact Option.some.inj hm ▸ hactor
    · have hflushed : Reaches db ⟨t, [], _⟩ := ⟨t, onCourse_start horderly, hprofiles⟩
      exact course_completion_bind hflushed hactor fun _ _ hdone => ends_pure hdone
  · split
    · refine endsWell_raiseIf_bind (by decide) fun _ => endsWell_orRaise_bind (by decide) fun _ _ =>
        ends_query_bind (disputedSubmission_endsWell.bind ?_)
      rintro e _ ⟨-, rfl⟩
      exact ends_utcnow_bind (course_submission_bind hstart fun _ hjudged =>
        course_assignment hjudged fun _ => rfl)
    · exact ends_pure hstart

/-- A dispute is decided, given that whoever it is assigned to has a profile. -/
theorem resolveDispute_endsWell {payload : DisputeResolve}
    (hassigned : ∀ d, db.disputes.get? id = some d → d.assignedTo = some u → db.Knows u) :
    EndsWell P (resolveDispute id u payload) now ⟨db, [], n⟩ fun _ => Arrives := by
  refine ends_select_bind (endsWell_orRaise_bind (by decide) fun d hd =>
    endsWell_raiseIf_bind (by decide) fun _ => endsWell_raiseIf_bind (by decide) fun hmine =>
    ends_select_bind (endsWell_orRaise_bind (by decide) fun a ha => ?_))
  have hactor := hassigned d hd (not_not.mp hmine)
  have htester := h.testers _ a ha
  refine (applyRemedy_endsWell h hactor htester).bind fun _ c hc => ends_utcnow_bind
    (course_dispute_bind hc hactor fun _ hset => course_event_bind hset hactor fun _ hevent =>
    endsWell_getCampaign_bind fun x hx => course_notify_bind hevent htester fun _ hsent => ?_)
  exact course_notify_bind hsent (reaches_owner hevent hx) fun _ htold => course_return htold

end Participants

/-! ## Submissions -/

theorem le_foldl_max {ρ : Type} {g : ρ → Nat} {rows : List ρ} {v : Nat} :
    v ≤ rows.foldl (fun w e => max w (g e)) v
      ∧ ∀ e ∈ rows, g e ≤ rows.foldl (fun w e => max w (g e)) v := by
  induction rows generalizing v with
  | nil => exact ⟨Nat.le_refl v, fun e he => absurd he List.not_mem_nil⟩
  | cons r rows ih =>
      obtain ⟨hstart, hrest⟩ := ih (v := max v (g r))
      refine ⟨Nat.le_trans (Nat.le_max_left _ _) hstart, fun e he => ?_⟩
      rcases List.mem_cons.mp he with rfl | he
      · exact Nat.le_trans (Nat.le_max_right _ _) hstart
      · exact hrest e he

/-- The version that comes next is a new one. -/
theorem version_le_latest {k : Uuid} {e : EvidenceSubmission}
    (he : db.evidenceSubmissions.get? k = some e) (hof : e.assignmentId = id) :
    e.version ≤ db.latestVersion id :=
  (le_foldl_max (g := fun e : Uuid × EvidenceSubmission => e.2.version)).2 (k, e)
    (Table.mem_where'.mpr ⟨he, decide_eq_true hof⟩)

/-- The item holds something. -/
def EvidenceItemCreate.Filled (item : EvidenceItemCreate) : Prop :=
  ¬(item.storageKey = none ∧ item.externalUrl = none ∧ item.note = none)

theorem checkItems_endsWell {items : List EvidenceItemCreate} :
    EndsWell P (checkItems id items) now c fun _ c' => (∀ item ∈ items, item.Filled) ∧ c' = c := by
  induction items with
  | nil => exact ends_pure ⟨fun item h => absurd h List.not_mem_nil, rfl⟩
  | cons item items ih =>
      have hrest (hfilled : item.Filled) : EndsWell P (checkItems id items) now c fun _ c' =>
          (∀ x ∈ item :: items, x.Filled) ∧ c' = c :=
        ih.mono (fun _ _ h => ⟨List.forall_mem_cons.mpr ⟨hfilled, h.1⟩, h.2⟩) fun _ h => h
      refine endsWell_raiseIf_bind (by decide) fun hfilled => ?_
      cases hkey : item.storageKey with
      | none => exact ends_pure_bind (hrest hfilled)
      | some storageKey =>
          rcases validateStorageKey_cases id storageKey with ⟨-, hvalid⟩ | ⟨-, hvalid⟩
          · simp only [hvalid]
            exact ends_pure_bind (hrest hfilled)
          · simp only [hvalid]
            exact endsWell_raise_bind (by decide)

/-- The contract of a campaign and its tasks, as they are stored. -/
theorem endsWell_contract_for_bind {α : Type} {a : Assignment} {R : α → Conn → Prop}
    {g : (Uuid × TestingContract) × List (Uuid × ContractTask) → Session α}
    (h : ∀ contract, EndsWell P (g (contract, c.db.tasksOf contract.1)) now c R) :
    EndsWell P (contractForAssignment a >>= g) now c R := by
  have hall : EndsWell P (contractForAssignment a) now c fun r c' =>
      (∃ contract, r = (contract, c.db.tasksOf contract.1)) ∧ c' = c :=
    ends_query_bind (endsWell_orRaise_bind (by decide) fun contract _ =>
      ends_query_bind (ends_pure ⟨⟨contract, rfl⟩, rfl⟩))
  refine Ends.there hall ?_
  rintro _ ⟨contract, rfl⟩
  exact h contract

theorem addItems_reaches {k : Uuid} {items : List EvidenceItemCreate} {E : Failure → Prop}
    (h : OnCourse c t)
    (hsubmission : t.evidenceSubmissions.contains k = true) (hfilled : ∀ item ∈ items, item.Filled)
    (htasks : ∀ item ∈ items, ∀ taskId, item.taskId = some taskId →
      t.contractTasks.contains taskId = true) :
    Ends (addItems k items) now c (fun _ c' => Reaches t c' ∧ c'.db = c.db) E := by
  induction items generalizing c t with
  | nil => exact ends_pure ⟨reaches_self h, rfl⟩
  | cons item items ih =>
      have hv : (insertEvidenceItem c.next (item.item k)).violates t = none := by
        simp only [insertEvidenceItem, firstViolated_cons, firstViolated_nil, and_true]
        refine ⟨Table.contains_eq_false.mpr (h.holds.evidenceItems.free (Nat.le_refl _)), ?_, ?_, ?_⟩
        · have hcontent := hfilled item List.mem_cons_self
          simpa [EvidenceItemCreate.item, EvidenceItemCreate.Filled, Option.isSome_iff_ne_none]
            using hcontent
        · show (!t.evidenceSubmissions.contains k) = false
          rw [hsubmission]
          rfl
        · cases htask : item.taskId with
          | none => simp [EvidenceItemCreate.item, htask]
          | some taskId =>
              simp [EvidenceItemCreate.item, htask, htasks item List.mem_cons_self taskId htask]
      have hdrawn := onCourse_draw h
      have hqueued := onCourse_add hdrawn ⟨hv,
        orderly_insertEvidenceItem hdrawn.holds (Nat.lt_succ_self c.next), rfl⟩
      exact ends_uuid4_bind (ends_add_bind ((ih hqueued hsubmission
        (fun x hx => hfilled x (List.mem_cons_of_mem _ hx))
        (fun x hx => htasks x (List.mem_cons_of_mem _ hx))).mono
        (fun _ _ hc => ⟨reaches_trans hc.1 rfl, hc.2⟩) fun _ he => he))

/-- The next version of an assignment's evidence. -/
def nextSubmission (db : Db) (id : Uuid) (summary : String) (now : Time) : EvidenceSubmission where
  assignmentId := id
  version := db.latestVersion id + 1
  summary := summary
  submittedAt := now

theorem nextSubmission_accepted (summary : String) (h : db.Orderly n)
    (hthere : ∃ a, db.assignments.get? id = some a) :
    (insertEvidenceSubmission n (nextSubmission db id summary now)).violates db = none := by
  have hassignment : db.assignments.contains id = true := Table.contains_eq_true.mpr hthere
  have hfirst : ∀ k f, db.evidenceSubmissions.get? k = some f →
      (f.assignmentId = id && f.version = db.latestVersion id + 1) = false := by
    intro k f hf
    by_cases hof : f.assignmentId = id
    · have hle := version_le_latest hf hof
      have hne : f.version ≠ db.latestVersion id + 1 := by omega
      simp [hne]
    · simp [hof]
  simp only [insertEvidenceSubmission, firstViolated_cons, firstViolated_nil, and_true]
  exact ⟨Table.contains_eq_false.mpr (h.evidenceSubmissions.free (Nat.le_refl _)),
    Table.any_eq_false.mpr hfirst, decide_eq_false (Nat.succ_ne_zero _),
    by simpa [nextSubmission] using hassignment⟩

theorem createSubmission_endsWell {payload : SubmissionCreate} (h : db.Orderly n) :
    EndsWell P (createSubmission id u payload) now ⟨db, [], n⟩ fun _ => Arrives := by
  refine ends_select_bind (endsWell_orRaise_bind (by decide) fun a ha =>
    endsWell_raiseIf_bind (by decide) fun htester => endsWell_raiseIf_bind (by decide) fun _ =>
    endsWell_contract_for_bind fun contract => ends_utcnow_bind (endsWell_orRaise_bind (by decide)
    fun startedAt _ => endsWell_raiseIf_bind (by decide) fun _ => ends_query_bind
    (endsWell_raiseIf_bind (by decide) fun _ => endsWell_raiseIf_bind (by decide) fun hforeign =>
    endsWell_raiseIf_bind (by decide) fun _ => Ends.there checkItems_endsWell fun _ hfilled =>
    ends_query_bind (ends_uuid4_bind (ends_utcnow_bind (ends_add_bind ?_))))))
  have hactor : db.Knows u := not_not.mp htester ▸ h.testers id a ha
  have htasks : ∀ item ∈ payload.items, ∀ taskId, item.taskId = some taskId →
      db.contractTasks.contains taskId = true := by
    intro item hitem taskId htask
    have hvalid : taskId ∈ (db.tasksOf contract.1).map Prod.fst := by
      by_contra hno
      exact hforeign ⟨taskId, List.mem_filterMap.mpr ⟨item, hitem, htask⟩, hno⟩
    obtain ⟨x, hx, rfl⟩ := List.mem_map.mp hvalid
    exact Table.contains_eq_true.mpr ⟨x.2, (Table.mem_where'.mp hx).1⟩
  refine (onCourse_start h).ends_flush_bind (applyAll_cons.mpr
    ⟨nextSubmission_accepted payload.summary h ⟨a, ha⟩, rfl⟩) ?_
  have hfree : db.evidenceSubmissions.get? n = none := h.evidenceSubmissions.free (Nat.le_refl _)
  have hstored := onCourse_start (orderly_insertEvidenceSubmission
    (e := nextSubmission db id payload.summary now) (h.later (Nat.le_succ n)) (Nat.lt_succ_self n))
  refine (addItems_reaches hstored (Table.contains_eq_true.mpr ⟨_, Table.get?_insert_self hfree⟩)
    hfilled htasks).bind fun _ c hc => ends_utcnow_bind (course_assignment_bind hc.1 (fun _ => rfl)
    fun _ hset => course_event_bind hset hactor fun _ hevent => endsWell_getCampaign_bind
    fun x hx => ends_query_bind ?_)
  exact course_notify_bind hevent (reaches_owner hevent hx) fun _ hsent => course_return hsent

/-! ## Links to attachments -/

section Links

variable {settings : Settings} {answer : SigningAnswer}

/-- There is a service to ask for links, below this base. -/
def Settings.Signs (settings : Settings) (base : String) : Prop :=
  configured settings.supabaseUrl = some base
    ∧ ∃ role, configured settings.supabaseServiceRoleKey = some role

/-- The answer has a link to the file with that key. -/
def SigningAnswer.Signs (answer : SigningAnswer) (storageKey signedPath : String) : Prop :=
  answer.signedUrl = some signedPath
    ∧ ("/object/sign/test-evidence/" ++ quote storageKey ++ "?token=").toList <+: signedPath.toList

/-- The attachment belongs to the dispute, and a link to it can be asked for. -/
def Db.Attached (db : Db) (settings : Settings) (disputeId evidenceId : Uuid)
    (storageKey : String) : Prop :=
  ∃ d item e base, db.disputes.get? disputeId = some d
    ∧ db.evidenceItems.get? evidenceId = some item
    ∧ db.evidenceSubmissions.get? item.submissionId = some e
    ∧ e.assignmentId = d.assignmentId
    ∧ configured item.storageKey = some storageKey ∧ KeyAccepted d.assignmentId storageKey
    ∧ settings.Signs base

/-- A link to the attachment has been signed. -/
def Db.Opens (db : Db) (settings : Settings) (disputeId evidenceId : Uuid)
    (answer : SigningAnswer) : Prop :=
  ∃ storageKey signedPath, db.Attached settings disputeId evidenceId storageKey
    ∧ answer.Signs storageKey signedPath

/-- A link to the attachment has been asked for, and what came of it is not caught. -/
def Db.Trips (db : Db) (settings : Settings) (disputeId evidenceId : Uuid)
    (answer : SigningAnswer) : Prop :=
  ∃ storageKey exception, db.Attached settings disputeId evidenceId storageKey
    ∧ answer = .uncaught exception

/-- **How signing ends**: with the link in the answer, or with a failure of its own or uncaught. -/
theorem ends_signStorageEvidence {storageKey : String} {E : Failure → Prop}
    (hdomain : ∀ detail statusCode, statusCode ≠ 500 → E (.domain detail statusCode))
    (huncaught : ∀ base exception, settings.Signs base → answer = .uncaught exception →
      E (.unhandled exception)) :
    Ends (signStorageEvidence settings storageKey answer) now c (fun url c' =>
      (∃ base signedPath, settings.Signs base ∧ answer.Signs storageKey signedPath
        ∧ url = rstripSlash base ++ "/storage/v1" ++ signedPath) ∧ c' = c) E := by
  unfold signStorageEvidence
  split
  · rename_i base role hbase hrole
    dsimp only
    refine ends_orRaise_bind (fun _ => ?_) fun signedPath hpath => ?_
    · cases answer with
      | uncaught exception => exact huncaught base exception ⟨hbase, role, hrole⟩ rfl
      | failed => exact hdomain _ _ (by decide)
      | json body => exact hdomain _ _ (by decide)
    · exact ends_raiseIf_bind (fun _ => hdomain _ _ (by decide)) fun hprefix =>
        ends_pure ⟨⟨base, signedPath, ⟨hbase, role, hrole⟩, ⟨hpath, not_not.mp hprefix⟩, rfl⟩, rfl⟩
  · exact ends_raise (hdomain _ _ (by decide))

end Links

/-! ## Moderators

A moderator needs no profile to be let in, but the audit trail does.
-/

section Moderators

variable (h : db.Orderly n)

include h

/-- Nothing but the event is written, so nothing but its actor can be missing. -/
theorem endsWell_record {a : α} {k : Uuid} {action entityType : String}
    {details : List (String × Json)} (hP : ¬db.Knows u → P) :
    EndsWell P (do addAuditEvent (some u) action entityType k details; flush; pure a : Session α)
      now ⟨db, [], n⟩ fun _ => Arrives := by
  by_cases hu : db.Knows u
  · exact course_event_bind (reaches_self (onCourse_start h)) hu fun _ hevent =>
      course_return hevent
  · exact ends_add_bind (ends_flush_refused_bind
      (applyAll_stopped (event_refused hu)) fun _ _ _ _ _ _ => hP hu)

theorem moderatorEvidenceUrl_endsWell {settings : Settings} {evidenceId : Uuid}
    {answer : SigningAnswer} (htrips : db.Trips settings id evidenceId answer → P)
    (hopens : db.Opens settings id evidenceId answer → ¬db.Knows u → P) :
    EndsWell P (moderatorEvidenceUrl settings id evidenceId u answer) now ⟨db, [], n⟩
      fun _ => Arrives := by
  unfold moderatorEvidenceUrl
  dsimp only
  refine ends_query_bind (ends_query_bind (ends_query_bind (endsWell_orRaise_bind (by decide)
    fun d hd => endsWell_orRaise_bind (by decide) fun item hitem =>
    endsWell_orRaise_bind (by decide) fun e he => endsWell_raiseIf_bind (by decide) fun hcase =>
    endsWell_orRaise_bind (by decide) fun storageKey hkey => ?_)))
  have hitem' : db.evidenceItems.get? evidenceId = some item := hitem
  have he' : (db.evidenceItems.get? evidenceId).bind
      (fun item => db.evidenceSubmissions.get? item.submissionId) = some e := he
  rw [hitem'] at he'
  rcases validateStorageKey_cases d.assignmentId storageKey with ⟨hfits, hvalid⟩ | ⟨-, hvalid⟩
  · rw [hvalid]
    refine ends_pure_bind ?_
    have hattached : ∀ base, settings.Signs base →
        db.Attached settings id evidenceId storageKey := fun base hbase =>
      ⟨d, item, e, base, hd, hitem', he', not_not.mp hcase, hkey, hfits, hbase⟩
    refine Ends.there (ends_signStorageEvidence (fun _ _ hstatus hinternal => ?_) ?_) ?_
    · exact absurd hinternal hstatus
    · exact fun base exception hbase huncaught _ =>
        htrips ⟨storageKey, exception, hattached base hbase, huncaught⟩
    · rintro url ⟨base, signedPath, hbase, hsigned, -⟩
      exact endsWell_record h (hopens ⟨storageKey, signedPath, hattached base hbase, hsigned⟩)
  · rw [hvalid]
    exact endsWell_raise_bind (by decide)

/-- A profile is changed under its name, and that is recorded. -/
theorem endsWell_profile {a : α} {f : Profile → Profile} {k : Uuid} {action entityType : String}
    {details : List (String × Json)} (hf : ∀ p, (f p).username = p.username) (hP : ¬db.Knows u → P) :
    EndsWell P (do
        add (writeProfile k f)
        addAuditEvent (some u) action entityType k details
        flush
        pure a : Session α) now ⟨db, [], n⟩ fun _ => Arrives := by
  have hset := onCourse_add (onCourse_start h) (taken_profile (k := k) h hf)
  have hsame : ((writeProfile k f).effect db).Knows u ↔ db.Knows u := by
    rw [knows_iff, knows_iff, hset.same]
  by_cases hu : db.Knows u
  · exact ends_add_bind (course_event_bind (reaches_self hset) (hsame.mpr hu) fun _ hevent =>
      course_return hevent)
  · refine ends_add_bind (ends_add_bind (ends_flush_refused_bind
      ((applyAll_passed rfl).trans (applyAll_stopped ?_)) fun _ _ _ _ _ _ => hP hu))
    exact event_refused fun hknown => hu (hsame.mp hknown)

theorem suspendParticipant_endsWell {reason : String}
    (hP : id ≠ u → db.Knows id → ¬db.Knows u → P) :
    EndsWell P (suspendParticipant id u reason) now ⟨db, [], n⟩ fun _ => Arrives :=
  endsWell_raiseIf_bind (by decide) fun hself => ends_select_bind
    (endsWell_orRaise_bind (by decide) fun p hp => ends_utcnow_bind
    (endsWell_profile h (fun _ => rfl) (hP hself ⟨p, hp⟩)))

theorem restoreParticipant_endsWell (hP : db.Knows id → ¬db.Knows u → P) :
    EndsWell P (restoreParticipant id u) now ⟨db, [], n⟩ fun _ => Arrives :=
  ends_select_bind (endsWell_orRaise_bind (by decide) fun p hp =>
    endsWell_profile h (fun _ => rfl) (hP ⟨p, hp⟩))

end Moderators

/-! ## Accounts -/

section Accounts

variable (h : db.Orderly n)

include h

theorem ensureCreditAccount_endsWell (hu : db.Knows u) :
    EndsWell P (ensureCreditAccount u) now ⟨db, [], n⟩ fun _ => Reaches db := by
  refine ends_query_bind ?_
  cases hget : db.creditAccounts.get? u with
  | some account => exact ends_pure (reaches_self (onCourse_start h))
  | none =>
      refine ends_add_bind ((onCourse_start h).ends_flush_bind (applyAll_cons.mpr
        ⟨insertCreditAccount_accepted hget hu, rfl⟩) (ends_pure ⟨_, onCourse_start ?_, rfl⟩))
      exact h.elsewhere rfl (fun _ hv => hv) h.names

theorem creditBalance_endsWell : EndsWell P (creditBalance u) now ⟨db, [], n⟩ fun _ => Arrives := by
  refine endsWell_getProfile_bind fun p hp => ?_
  exact (ensureCreditAccount_endsWell h ⟨p, hp⟩).bind fun _ c hc => ends_pure hc.arrives

theorem markNotificationRead_endsWell :
    EndsWell P (markNotificationRead id u) now ⟨db, [], n⟩ fun _ => Arrives := by
  refine ends_select_bind (endsWell_orRaise_bind (by decide) fun x hx =>
    endsWell_raiseIf_bind (by decide) fun _ => ?_)
  split
  · exact ends_pure (arrives_start h)
  · exact ends_utcnow_bind (ends_add_bind ((onCourse_start h).ends_flush_bind
      (applyAll_cons.mpr ⟨rfl, rfl⟩) (ends_pure (arrives_start (orderly_writeNotification h)))))

theorem markAllNotificationsRead_endsWell :
    EndsWell P (markAllNotificationsRead u) now ⟨db, [], n⟩ fun _ => Arrives :=
  ends_utcnow_bind (ends_queryForUpdate_bind
    (ends_execute rfl (arrives_start (orderly_writeNotificationsRead h))))

theorem lockBetaState_endsWell :
    EndsWell P lockBetaState now ⟨db, [], n⟩ fun _ => Reaches db := by
  refine ends_queryForUpdate_bind ?_
  dsimp only
  split
  · exact ends_pure (reaches_self (onCourse_start h))
  · rename_i hnone
    have hv : ∀ state, (insertBetaProgramState state).violates db = none := by
      intro state
      simp [insertBetaProgramState, hnone]
    refine ends_query_bind (ends_add_bind ((onCourse_start h).ends_flush_bind
      (applyAll_cons.mpr ⟨hv _, rfl⟩) (ends_pure ⟨_, onCourse_start ?_, rfl⟩)))
    exact h.elsewhere rfl (fun _ hu => hu) h.names

omit h in
/-- A newcomer gets a seat, a profile under a free name, and the starting credits. -/
theorem newProfile_endsWell {grant : Nat} {seats : BetaProgramState} {p : Profile} (hc : OnCourse c t)
    (hnew : t.profiles.get? u = none)
    (hfree : ∀ i q, t.profiles.get? i = some q → q.username ≠ p.username) :
    EndsWell P (do
        add (writeBetaProgramState seats)
        add (insertProfile u p)
        flush
        let _ ← ensureCreditAccount u
        grantSignupCredits grant u
        addAuditEvent (some u) "profile.created" "profile" u []
        flush
        pure (u, p) : Session (Uuid × Profile)) now c fun _ => Arrives := by
  have hv : (insertProfile u p).violates ((writeBetaProgramState seats).effect t) = none := by
    simp only [insertProfile, firstViolated_cons, firstViolated_nil, and_true]
    exact ⟨Table.contains_eq_false.mpr hnew, Table.any_eq_false.mpr fun i q hq =>
      decide_eq_false (hfree i q hq)⟩
  let joined := (insertProfile u p).effect ((writeBetaProgramState seats).effect t)
  have hnames : joined.Named := by
    intro i j p q hp hq hname
    rcases Table.get?_insert_cases hp with hold | ⟨rfl, rfl, -⟩
    · rcases Table.get?_insert_cases hq with hold' | ⟨rfl, rfl, -⟩
      · exact hc.holds.names i j p q hold hold' hname
      · exact absurd hname (hfree i p hold)
    · rcases Table.get?_insert_cases hq with hold' | ⟨rfl, rfl, -⟩
      · exact absurd hname.symm (hfree j q hold')
      · rfl
  have horderly : joined.Orderly c.next :=
    hc.holds.elsewhere rfl (fun _ hv => stays_insert hv) hnames
  have hactor : joined.Knows u := ⟨p, Table.get?_insert_self hnew⟩
  refine ends_add_bind (ends_add_bind ?_)
  simp only [List.append_assoc, List.cons_append, List.nil_append]
  refine hc.ends_flush_bind (applyAll_cons.mpr ⟨rfl, applyAll_cons.mpr ⟨hv, rfl⟩⟩) ?_
  refine (ensureCreditAccount_endsWell horderly hactor).bind fun _ c₁ hc₁ => ?_
  have hgranted : EndsWell P (grantSignupCredits grant u) now c₁ fun _ => Reaches joined := by
    unfold grantSignupCredits
    split
    · refine endsWell_credit_bind hc₁ hactor ?_ fun _ _ hpaid => ends_pure hpaid
      rintro m hm
      exact Option.some.inj hm ▸ hactor
    · exact ends_pure hc₁
  exact hgranted.bind fun _ _ hc₂ => course_event_bind hc₂ hactor fun _ hevent =>
    course_return hevent

theorem upsertProfile_endsWell {settings : Settings} {email : Option String} {payload : ProfileUpsert} :
    EndsWell P (upsertProfile settings u email payload) now ⟨db, [], n⟩ fun _ => Arrives := by
  refine ends_query_bind (endsWell_raiseIf_bind (by decide) fun htaken => ends_query_bind ?_)
  have hmine : ∀ i p, db.profiles.get? i = some p → p.username = payload.username → i = u := by
    intro i p hp hname
    cases hfind : db.profiles.find? fun _ q => q.username = payload.username with
    | none =>
        have hfree := Table.find?_eq_none.mp hfind i p hp
        exact absurd hname (of_decide_eq_false hfree)
    | some owner =>
        obtain ⟨o, q⟩ := owner
        obtain ⟨hq, hqname⟩ := Table.find?_eq_some hfind
        have howner : o = u := by
          by_contra hne
          exact htaken ⟨(o, q), hfind, hne⟩
        exact h.names i u p q hp (howner ▸ hq) (hname.trans (of_decide_eq_true hqname).symm)
  cases hget : db.profiles.get? u with
  | none =>
      refine endsWell_raiseIf_bind (by decide) fun _ => (lockBetaState_endsWell h).bind ?_
      rintro state c ⟨t, hc, hprofiles⟩
      refine endsWell_raiseIf_bind (by decide) fun _ => newProfile_endsWell hc ?_ ?_
      · rw [hprofiles]
        exact hget
      · intro i p hp hname
        rw [hprofiles] at hp
        obtain rfl := hmine i p hp hname
        exact absurd (hget.symm.trans hp) (by simp)
  | some profile =>
      have hsaved : Taken n db (writeSavedProfile u profile.username payload.username
          (payload.set email profile)) := by
        refine taken_savedProfile h (fun p hp => ?_) hmine
        obtain rfl := Option.some.inj (hget.symm.trans hp)
        exact setIfChanged_self _ _
      have hset := onCourse_add (onCourse_start h) hsaved
      exact ends_add_bind (course_event_bind (reaches_self hset) (stays_modify ⟨profile, hget⟩)
        fun _ hevent => course_return hevent)

theorem joinWaitlist_endsWell {email : String} :
    EndsWell P (joinWaitlist email) now ⟨db, [], n⟩ fun _ => Arrives := by
  refine ends_query_bind ?_
  cases hfind : db.waitlistEntries.find? fun _ e => e.email = email with
  | some existing => exact ends_pure (arrives_start h)
  | none =>
      have hnew := Table.find?_eq_none.mp hfind
      have hv : (insertWaitlistEntry n ⟨email⟩).violates db = none := by
        simp only [insertWaitlistEntry, firstViolated_cons, firstViolated_nil, and_true]
        exact ⟨Table.contains_eq_false.mpr (h.waitlistEntries.free (Nat.le_refl _)),
          Table.any_eq_false.mpr hnew⟩
      refine ends_uuid4_bind (ends_executeNested_bind hv (ends_pure (arrives_start ?_)))
      exact orderly_insertWaitlistEntry (h.later (Nat.le_succ n)) (Nat.lt_succ_self n)

end Accounts

/-! ## Campaigns -/

section Campaigns

theorem createCampaign_endsWell {payload : CampaignCreate} (h : db.Orderly n)
    (htarget : payload.targetTesters ≠ 0) (hreward : payload.rewardCredits ≠ 0) :
    EndsWell P (createCampaign u payload) now ⟨db, [], n⟩ fun r c => ∃ e, r.1 = n
      ∧ c = ⟨(insertCampaign n (payload.campaign u)).effect db, [insertAuditEvent e], n + 1⟩
      ∧ Reaches db c := by
  refine endsWell_getProfile_bind fun p hp => ends_query_bind (endsWell_raiseIf_bind (by decide)
    fun hslug => ends_uuid4_bind (ends_add_bind ?_))
  have hactor : db.Knows u := ⟨p, hp⟩
  have hfree : (db.campaigns.any fun _ c => c.slug = payload.slug) = false := by simpa using hslug
  have hv : (insertCampaign n (payload.campaign u)).violates db = none := by
    simp only [insertCampaign, firstViolated_cons, firstViolated_nil, and_true]
    exact ⟨Table.contains_eq_false.mpr (h.campaigns.free (Nat.le_refl _)), hfree, hactor.contains,
      decide_eq_false htarget, decide_eq_false hreward⟩
  have hstored := orderly_insertCampaign (x := payload.campaign u) (h.later (Nat.le_succ n))
    (Nat.lt_succ_self n) hactor
  have hevent := onCourse_add (onCourse_start hstored) (taken_event
    (e := ⟨some u, "campaign.created", "campaign", n, []⟩) hstored rfl hactor)
  exact (onCourse_start h).ends_flush_bind (applyAll_cons.mpr ⟨hv, rfl⟩)
    (ends_add_bind (ends_pure ⟨_, rfl, rfl, _, hevent, rfl⟩))

theorem updateCampaign_endsWell {payload : CampaignUpdate} (h : db.Orderly n) (hbounds : payload.Bounded)
    (hP : (∃ x, db.campaigns.get? id = some x ∧ x.ownerId = u ∧ x.status = .draft) →
      payload.Nulls → P) :
    EndsWell P (updateCampaign id u payload) now ⟨db, [], n⟩ fun _ => Arrives := by
  refine endsWell_getCampaign_bind fun x hx => endsWell_raiseIf_bind (by decide) fun howner =>
    endsWell_raiseIf_bind (by decide) fun hdraft => ?_
  have hactor : db.Knows u := not_not.mp howner ▸ h.owners _ x hx
  have hviolates : (patchCampaign id payload x).violates db = none ↔ ¬payload.Nulls :=
    patchCampaign_violates hbounds
  by_cases hnulls : payload.Nulls
  · refine ends_add_bind (ends_add_bind (ends_flush_refused_bind (applyAll_stopped ?_)
      fun _ _ _ _ _ _ => hP ⟨x, hx, not_not.mp howner, not_not.mp hdraft⟩ hnulls))
    exact fun hnone => hviolates.mp hnone hnulls
  · have hset := onCourse_add (onCourse_start h)
      ⟨hviolates.mpr hnulls, orderly_patchCampaign h, rfl⟩
    exact ends_add_bind (course_event_bind (reaches_self hset) hactor fun _ hevent =>
      course_return hevent)

/-- The tasks that are looked up are those that will be there. -/
structure Drafting (c : Conn) (t : Db) : Prop where
  course : OnCourse c t
  campaigns : t.campaigns = c.db.campaigns
  contracts : t.testingContracts = c.db.testingContracts
  tasks : t.contractTasks = c.db.contractTasks
  placed : c.db.TasksPlaced

/-- The contract is stored, and has no tasks. -/
def TakesTasks (t : Db) (contractId : Uuid) : Prop :=
  (∃ x, t.testingContracts.get? contractId = some x)
    ∧ ∀ i x, t.contractTasks.get? i = some x → x.contractId ≠ contractId

theorem saveContract_new {payload : ContractUpsert} (h : Drafting c t)
    (hthere : ∃ x, c.db.campaigns.get? id = some x) (hnone : c.db.contractOf id = none) :
    EndsWell P (saveContract id payload none) now c fun r c' =>
      ∃ t', OnCourse c' t' ∧ t'.profiles = t.profiles ∧ TakesTasks t' r.1 := by
  have hcampaign : t.campaigns.contains id = true := by
    rw [h.campaigns, Table.contains_eq_true]
    exact hthere
  have hfirst := Table.find?_eq_none.mp hnone
  rw [← h.contracts] at hfirst
  have hfree : t.testingContracts.get? c.next = none :=
    h.course.holds.testingContracts.free (Nat.le_refl _)
  have hv : (insertTestingContract c.next (payload.contract id)).violates t = none := by
    simp only [insertTestingContract, firstViolated_cons, firstViolated_nil, and_true]
    exact ⟨Table.contains_eq_false.mpr hfree, Table.any_eq_false.mpr hfirst, by rw [Bool.not_eq_false']; exact hcampaign⟩
  have hstored := orderly_insertTestingContract (x := payload.contract id)
    (onCourse_draw h.course).holds (Nat.lt_succ_self c.next) (Table.contains_eq_true.mp hcampaign)
  refine ends_uuid4_bind (ends_add_bind (h.course.ends_flush_bind (applyAll_cons.mpr ⟨hv, rfl⟩)
    (ends_pure ⟨_, onCourse_start hstored, rfl, ⟨_, Table.get?_insert_self hfree⟩, ?_⟩)))
  intro i x hx hof
  have htask : c.db.contractTasks.get? i = some x := by
    rw [← h.tasks]
    exact hx
  obtain ⟨k, hk⟩ := h.placed.belong i x htask
  rw [← h.contracts, hof] at hk
  exact absurd (hfree.symm.trans hk) (by simp)

theorem saveContract_again {payload : ContractUpsert} {found : Uuid × TestingContract}
    (h : db.Orderly n) (hfound : db.testingContracts.get? found.1 = some found.2) :
    EndsWell P (saveContract id payload (some found)) now ⟨db, [], n⟩ fun r c =>
      ∃ t, OnCourse c t ∧ t.profiles = db.profiles ∧ TakesTasks t r.1 := by
  refine endsWell_raiseIf_bind (by decide) fun _ => ends_add_bind (ends_queryForUpdate_bind
    (Ends.bind (Q := fun _ c => c = ⟨(deleteContractTasks ((db.tasksOf found.1).map Prod.fst)).effect db,
      [writeTestingContract found.1 fun current =>
        payload.set found.2 { current with version := found.2.version + 1 }], n⟩)
      (ends_execute rfl rfl) ?_))
  rintro _ _ rfl
  have hcleared : ((deleteContractTasks ((db.tasksOf found.1).map Prod.fst)).effect db).Orderly n :=
    orderly_deleteContractTasks h
  refine ends_pure ⟨_, ⟨rfl, hcleared, orderly_writeTestingContract hcleared fun _ => rfl, rfl⟩, rfl,
    stays_modify ⟨_, hfound⟩, ?_⟩
  intro i x hx hof
  obtain ⟨hkept, hold⟩ := Table.get?_of_erase hx
  refine hkept (List.mem_map.mpr ⟨(i, x), Table.mem_where'.mpr ⟨hold, ?_⟩, rfl⟩)
  exact decide_eq_true hof

theorem addTasks_endsWell {k : Uuid} {tasks : List ContractTaskInput} {position : Nat}
    (h : OnCourse c t) (hcontract : ∃ x, t.testingContracts.get? k = some x)
    (hplaces : ∀ i x, t.contractTasks.get? i = some x → x.contractId = k → x.position < position) :
    EndsWell P (addTasks k position tasks) now c fun _ => Reaches t := by
  induction tasks generalizing c t position with
  | nil => exact ends_pure (reaches_self h)
  | cons task tasks ih =>
      have hfree : t.contractTasks.get? c.next = none :=
        h.holds.contractTasks.free (Nat.le_refl _)
      have hplace : ∀ i x, t.contractTasks.get? i = some x →
          (x.contractId = k && x.position = position) = false := by
        intro i x hx
        by_cases hof : x.contractId = k
        · have hlt := hplaces i x hx hof
          have hne : x.position ≠ position := by omega
          simp [hne]
        · simp [hof]
      have hv : (insertContractTask c.next (task.task k position)).violates t = none := by
        simp only [insertContractTask, firstViolated_cons, firstViolated_nil, and_true]
        refine ⟨Table.contains_eq_false.mpr hfree, Table.any_eq_false.mpr hplace, ?_⟩
        rw [Bool.not_eq_false', Table.contains_eq_true]
        exact hcontract
      have hdrawn := onCourse_draw h
      have hqueued := onCourse_add hdrawn ⟨hv,
        orderly_insertContractTask hdrawn.holds (Nat.lt_succ_self c.next), rfl⟩
      refine ends_uuid4_bind (ends_add_bind ((ih hqueued hcontract ?_).mono
        (fun _ _ hc => reaches_trans hc rfl) fun _ he => he))
      intro i x hx hof
      rcases Table.get?_insert_cases hx with hold | ⟨-, rfl, -⟩
      · exact Nat.lt_succ_of_lt (hplaces i x hold hof)
      · exact Nat.lt_succ_self position

/-- A contract is saved: the first of a campaign, or a later version of one that is all there is. -/
theorem upsertContract_endsWell {payload : ContractUpsert} (h : Drafting c t)
    (hcase : c.db.contractOf id = none ∨ c.pending = []) :
    EndsWell P (upsertContract id u payload) now c fun _ c' =>
      c'.pending = [] ∧ c'.db.Orderly c'.next ∧ c'.db.profiles = t.profiles := by
  refine endsWell_getCampaign_bind fun x hx => endsWell_raiseIf_bind (by decide) fun howner =>
    endsWell_raiseIf_bind (by decide) fun _ => ends_query_bind (Ends.bind (Q := fun r c' =>
      ∃ t', OnCourse c' t' ∧ t'.profiles = t.profiles ∧ TakesTasks t' r.1) ?_ ?_)
  · cases hfind : c.db.contractOf id with
    | none => exact saveContract_new h ⟨x, hx⟩ hfind
    | some found =>
        have hqueue : c.pending = [] := hcase.resolve_left (by simp [hfind])
        have hsame : t = c.db := by
          have hsends := h.course.sends
          rw [hqueue] at hsends
          exact (Option.some.inj hsends).symm
        have hc : c = ⟨c.db, [], c.next⟩ := by rw [← hqueue]
        rw [hc, hsame]
        exact saveContract_again h.course.base (Table.find?_eq_some hfind).1
  · rintro r c₁ ⟨t₁, h₁, hprofiles, hcontract, hempty⟩
    have hactor : t.Knows u := by
      rw [← not_not.mp howner]
      exact onCourse_knows h.course (h.course.base.owners id x hx)
    refine (addTasks_endsWell h₁ hcontract fun i y hy hof => absurd hof (hempty i y hy)).bind
      fun _ c₂ hc₂ => course_event_bind (reaches_trans hc₂ hprofiles) hactor fun _ hevent =>
      course_flush_bind hevent fun t₂ horderly hsame => ends_pure ⟨rfl, horderly, hsame⟩

theorem publishCampaign_endsWell (h : db.Orderly n) :
    EndsWell P (publishCampaign id u) now ⟨db, [], n⟩ fun _ => Arrives := by
  refine ends_select_bind (endsWell_orRaise_bind (by decide) fun x hx =>
    endsWell_raiseIf_bind (by decide) fun howner => ?_)
  have hactor : db.Knows u := not_not.mp howner ▸ h.owners _ x hx
  split
  · exact ends_pure (arrives_start h)
  · refine endsWell_raiseIf_bind (by decide) fun _ => Ends.bind (Q := fun _ c => c = ⟨db, [], n⟩)
      (ends_query_bind (endsWell_orRaise_bind (by decide) fun _ _ =>
        ends_query_bind (ends_pure rfl))) ?_
    rintro contract _ rfl
    refine endsWell_raiseIf_bind (by decide) fun _ => endsWell_credit_bind
      (reaches_self (onCourse_start h)) hactor ?_ fun _ _ hpaid => ends_utcnow_bind
      (course_campaign_bind hpaid (fun _ => rfl) fun _ hset => course_contract_bind hset
      (fun _ => rfl) fun _ hlocked => course_event_bind hlocked hactor fun _ hevent => course_return hevent)
    rintro m hm
    exact Option.some.inj hm ▸ hactor

theorem launchCampaign_endsWell {payload : CampaignLaunch} (h : db.Orderly n)
    (htarget : payload.campaign.targetTesters ≠ 0) (hreward : payload.campaign.rewardCredits ≠ 0)
    (hplaced : db.TasksPlaced) :
    EndsWell P (launchCampaign u payload) now ⟨db, [], n⟩ fun _ => Arrives := by
  refine (createCampaign_endsWell h htarget hreward).bind ?_
  rintro r _ ⟨e, hr, rfl, t, hcourse, hprofiles⟩
  have ht : t = (insertAuditEvent e).effect ((insertCampaign n (payload.campaign.campaign u)).effect db) := by
    have hsends := hcourse.sends
    rw [applyAll_cons, applyAll_nil] at hsends
    exact hsends.2
  have hdrafting : Drafting ⟨(insertCampaign n (payload.campaign.campaign u)).effect db,
      [insertAuditEvent e], n + 1⟩ t := by
    subst ht
    exact ⟨hcourse, rfl, rfl, rfl, hplaced.belong, hplaced.apart⟩
  have hnone : ((insertCampaign n (payload.campaign.campaign u)).effect db).contractOf r.1 = none := by
    refine Table.find?_eq_none.mpr fun k x hx => decide_eq_false fun hof => ?_
    obtain ⟨y, hy⟩ := h.contracts k x hx
    rw [hof, hr] at hy
    exact absurd ((h.campaigns.free (Nat.le_refl n)).symm.trans hy) (by simp)
  refine (upsertContract_endsWell hdrafting (Or.inl hnone)).bind ?_
  rintro contract ⟨db', pending, n'⟩ ⟨hpending, horderly, -⟩
  obtain rfl : pending = [] := hpending
  exact publishCampaign_endsWell horderly

end Campaigns

end TestExchange
