import TestExchange.Proof.Settlement
import TestExchange.Refine.Endings

/-!
# What goes through

The requests that take a test from the application to the reward, each where its
checks are passed: the service cannot refuse, and nothing the database checks
stands in its way.
-/

namespace TestExchange

open Txn Txn.Session

variable {α β : Type} {now n : Nat} {db : Db} {c : Conn} {id u : Uuid} {a : Assignment}
  {x : Campaign} {user : CurrentUser} {m : Session α} {Q : α → Conn → Prop}

/-- The session returns, and what it has queued is sure to be written. -/
abbrev GoesThrough (m : Session α) (now : Nat) (c : Conn) : Prop :=
  Ends m now c (fun _ => Arrives) fun _ => False

theorem GoesThrough.commits (h : GoesThrough m now ⟨db, [], n⟩) :
    ∃ r db' n', m.commit.alone now db n = .ok (r, db', n') := by
  obtain ⟨r, c, hok, t, ht⟩ := returns_iff_ends.mpr h
  exact ⟨r, t, c.next, commit_alone.mpr ⟨c, hok, ht.sends, rfl⟩⟩

/-! ## In front of a service -/

/-- The account may use the API. -/
theorem ends_active_bind {g : Unit → Session β} {R : β → Conn → Prop} {E : Failure → Prop}
    (hactive : ¬c.db.Suspended user.id) (h : Ends (g ()) now c R E) :
    Ends (getActiveUser user >>= g) now c R E := ends_after (getActiveUser_ok.mpr ⟨hactive, rfl⟩) h

theorem ends_activeUser {L : Conn → Prop} {E : Failure → Prop} (hactive : ¬c.db.Suspended user.id)
    (h : Ends m now c (fun _ => L) E) :
    Ends (getActiveUser user >>= fun _ => discard m) now c (fun _ => L) E :=
  ends_active_bind hactive (h.bind fun _ _ hleft => ends_pure hleft)

theorem ends_activeBody {o : Option β} {q : β} {m : β → Session α} {L : Conn → Prop}
    {E : Failure → Prop} (hactive : ¬c.db.Suspended user.id) (hq : o = some q)
    (h : Ends (m q) now c (fun _ => L) E) :
    Ends (getActiveUser user >>= fun _ => validated o >>= fun q => discard (m q)) now c
      (fun _ => L) E :=
  ends_active_bind hactive (ends_found_bind hq (h.bind fun _ _ hleft => ends_pure hleft))

/-! ## The tester's part -/

section Tester

variable (h : db.Orderly n)

include h

/-- An application is accepted while there is room. -/
theorem acceptAssignment_goesThrough (hw : db.Works id a x) (hpublished : x.status = .published)
    (happlied : a.status = .applied) (hroom : db.occupiedSlots a.campaignId < x.targetTesters) :
    GoesThrough (acceptAssignment id x.ownerId) now ⟨db, [], n⟩ := by
  refine ends_query_bind (ends_found_bind (congrArg (Option.map (·.campaignId)) hw.ha)
    (ends_select_bind (ends_found_bind hw.hc (ends_passed_bind (not_not.mpr rfl)
    (ends_passed_bind (not_not.mpr hpublished) (ends_select_bind (ends_found_bind hw.ha
    (ends_passed_bind (not_not.mpr happlied) (ends_query_bind
    (ends_passed_bind (Nat.not_le.mpr hroom) (ends_utcnow_bind ?_)))))))))))
  have howner : db.Knows x.ownerId := h.owners _ x hw.hc
  refine course_assignment_bind (reaches_self (onCourse_start h)) (fun _ => rfl) fun _ hset =>
    course_event_bind hset howner fun _ hevent => ?_
  exact course_notify_bind hevent (h.testers id a hw.ha) fun _ hsent => course_return hsent

/-- An accepted test is started, if no session has been recorded for it. -/
theorem startAssignment_goesThrough (ha : db.assignments.get? id = some a)
    (haccepted : a.status = .accepted)
    (hidle : ∀ k x, db.testingSessions.get? k = some x → x.assignmentId ≠ id) :
    GoesThrough (startAssignment id a.testerId) now ⟨db, [], n⟩ := by
  refine ends_after (getAssignment_ok.mpr ⟨ha, rfl⟩) (ends_passed_bind (not_not.mpr rfl)
    (ends_passed_bind (not_not.mpr haccepted) (ends_utcnow_bind (ends_add_bind (ends_uuid4_bind
    (ends_add_bind ?_))))))
  exact course_event_bind (reaches_started h ⟨_, ha⟩ hidle) (h.testers id _ ha) fun _ hevent =>
    course_return hevent

/-- A session is recorded on a day that has none. -/
theorem recordTestingSession_goesThrough {payload : TestingSessionCreate}
    (ha : db.assignments.get? id = some a)
    (hrunning : a.status ∈ [AssignmentStatus.inProgress, .changesRequested])
    (hfree : ∀ k x, db.testingSessions.get? k = some x → x.assignmentId = id →
      x.sessionDate ≠ Time.date now) :
    GoesThrough (recordTestingSession id a.testerId payload) now ⟨db, [], n⟩ := by
  have hunrecorded : ∀ k x, db.testingSessions.get? k = some x →
      (x.assignmentId = id && x.sessionDate = Time.date now) = false := by
    intro k x hx
    rw [Bool.and_eq_false_imp]
    exact fun hof => decide_eq_false (hfree k x hx (of_decide_eq_true hof))
  have hnone : (db.testingSessions.find? fun _ x =>
      x.assignmentId = id && x.sessionDate = Time.date now) = none := Table.find?_eq_none.mpr hunrecorded
  refine ends_select_bind (ends_found_bind ha (ends_passed_bind (not_not.mpr rfl)
    (ends_passed_bind (not_not.mpr hrunning) (ends_utcnow_bind (ends_query_bind
    (ends_passed_bind (by simp [hnone]) (ends_uuid4_bind (ends_add_bind ?_))))))))
  refine (onCourse_start h).ends_flush_bind (applyAll_cons.mpr
    ⟨testingSession_accepted (x := ⟨id, Time.date now, payload.note⟩) h hunrecorded ⟨a, ha⟩, rfl⟩) ?_
  have hstored := onCourse_start (orderly_insertTestingSession (x := ⟨id, Time.date now, payload.note⟩)
    (h.later (Nat.le_succ n)) (Nat.lt_succ_self n))
  exact course_event_bind (reaches_self hstored) (h.testers id a ha) fun _ hevent =>
    ends_pure hevent.arrives

omit h in
/-- Notes pass the checks on items. -/
theorem checkItems_noted {items : List EvidenceItemCreate} {E : Failure → Prop}
    (hnotes : ∀ item ∈ items, item.storageKey = none ∧ item.note ≠ none) :
    Ends (checkItems id items) now c (fun _ c' => c' = c) E := by
  induction items with
  | nil => exact ends_pure rfl
  | cons item items ih =>
      obtain ⟨⟨hkey, hnote⟩, hrest⟩ := List.forall_mem_cons.mp hnotes
      refine ends_passed_bind (fun hempty => hnote hempty.2.2) ?_
      simp only [hkey]
      exact ends_pure_bind (ih hrest)

/-- Evidence for every task of the contract is taken, once the contract lets the tester submit. -/
theorem createSubmission_goesThrough {payload : SubmissionCreate} {k : Uuid × TestingContract}
    {started : Time} (hw : db.Works id a x)
    (hrunning : a.status ∈ [AssignmentStatus.inProgress, .changesRequested])
    (hk : db.contractOf a.campaignId = some k) (hstarted : a.startedAt = some started)
    (hlate : started + k.2.minimumDurationDays * oneDay ≤ now)
    (hmany : k.2.requiredSessions ≤ db.testingSessions.count fun t => t.assignmentId = id)
    (hnotes : ∀ item ∈ payload.items, item.storageKey = none ∧ item.note ≠ none)
    (hsubmitted : payload.items.filterMap (·.taskId) = (db.tasksOf k.1).map Prod.fst) :
    GoesThrough (createSubmission id a.testerId payload) now ⟨db, [], n⟩ := by
  have hcovered : ¬∃ taskId ∈ ((db.tasksOf k.1).filter (·.2.evidenceRequired)).map Prod.fst,
      taskId ∉ payload.items.filterMap (·.taskId) := by
    rintro ⟨taskId, hrequired, hmissing⟩
    rw [hsubmitted] at hmissing
    obtain ⟨r, hr, rfl⟩ := List.mem_map.mp hrequired
    exact hmissing (List.mem_map.mpr ⟨r, (List.mem_filter.mp hr).1, rfl⟩)
  refine ends_select_bind (ends_found_bind hw.ha (ends_passed_bind (not_not.mpr rfl)
    (ends_passed_bind (not_not.mpr hrunning) (ends_after (contractForAssignment_ok (r := (k, db.tasksOf k.1)).mpr
    ⟨hk, rfl, rfl⟩) (ends_utcnow_bind (ends_found_bind hstarted (ends_passed_bind
    (Nat.not_lt.mpr hlate) (ends_query_bind (ends_passed_bind (Nat.not_lt.mpr hmany)
    (ends_passed_bind (fun ⟨taskId, hin, hout⟩ => hout (hsubmitted ▸ hin))
    (ends_passed_bind hcovered ?_)))))))))))
  refine (checkItems_noted hnotes).bind ?_
  rintro _ _ rfl
  refine ends_query_bind (ends_uuid4_bind (ends_utcnow_bind (ends_add_bind ?_)))
  refine (onCourse_start h).ends_flush_bind (applyAll_cons.mpr
    ⟨nextSubmission_accepted payload.summary h ⟨a, hw.ha⟩, rfl⟩) ?_
  have hfree : db.evidenceSubmissions.get? n = none := h.evidenceSubmissions.free (Nat.le_refl _)
  have hstored := onCourse_start (orderly_insertEvidenceSubmission
    (e := nextSubmission db id payload.summary now) (h.later (Nat.le_succ n)) (Nat.lt_succ_self n))
  have htasks : ∀ item ∈ payload.items, ∀ taskId, item.taskId = some taskId →
      db.contractTasks.contains taskId = true := by
    intro item hitem taskId htask
    have hin : taskId ∈ (db.tasksOf k.1).map Prod.fst :=
      hsubmitted ▸ List.mem_filterMap.mpr ⟨item, hitem, htask⟩
    obtain ⟨r, hr, rfl⟩ := List.mem_map.mp hin
    exact Table.contains_eq_true.mpr ⟨r.2, (Table.mem_where'.mp hr).1⟩
  refine (addItems_reaches hstored (Table.contains_eq_true.mpr ⟨_, Table.get?_insert_self hfree⟩)
    (fun item hitem hempty => (hnotes item hitem).2 hempty.2.2) htasks).bind ?_
  rintro _ ⟨db', pending, n'⟩ ⟨hreaches, rfl⟩
  refine ends_utcnow_bind (course_assignment_bind hreaches (fun _ => rfl) fun _ hset =>
    course_event_bind hset (h.testers id a hw.ha) fun _ hevent =>
    ends_after (getCampaign_ok.mpr ⟨hw.hc, rfl⟩) (ends_query_bind ?_))
  exact course_notify_bind hevent (h.owners _ x hw.hc) fun _ hsent => course_return hsent

end Tester

/-! ## The owner's part -/

/-- Work that is waiting for its owner's decision. -/
structure Db.Awaits (db : Db) (k id : Uuid) (e : EvidenceSubmission) (a : Assignment) (x : Campaign) :
    Prop where
  he : db.evidenceSubmissions.get? k = some e
  hof : e.assignmentId = id
  works : db.Works id a x
  pending : e.status = .submitted
  awaiting : a.status = .submitted
  calm : db.activeDispute id = none
  unreviewed : ∀ i r, db.reviews.get? i = some r → r.submissionId ≠ k
  unrewarded : ∀ f ∈ db.creditLedgerEntries, f.idempotencyKey ≠ idempotencyKey "assignment" id "reward"

/-- Approving pays the reward. -/
theorem applyDecision_pays {k : Uuid} (h : Ready a.campaignId x.ownerId [a.testerId, x.ownerId] ⟨db, [], n⟩)
    (hpositive : 0 < x.rewardCredits)
    (hunrewarded : ∀ f ∈ db.creditLedgerEntries,
      f.idempotencyKey ≠ idempotencyKey "assignment" id "reward")
    (hsolvent : 0 ≤ db.exchange.balance a.testerId) :
    Ends (applyDecision k id a x x.ownerId .approved) now ⟨db, [], n⟩
      (fun _ c => Ready a.campaignId x.ownerId [a.testerId, x.ownerId] c
        ∧ Rewarded db id a x x.ownerId c.db.money) fun _ => False := by
  have hqueued := (h.add (passes_submission (k := k) (f := fun e => { e with status := .approved }))).add
    (passes_assignment (k := id) (f := fun a => { a with status := .approved, completedAt := some now }))
  refine ends_utcnow_bind (ends_add_bind (ends_add_bind ((returns_iff_ends.mp
    (recordCreditEntry_returns hqueued (by simp [rewardEntry]) (m := x.ownerId) (by simp) rfl
      (Int.natCast_pos.mpr hpositive) hunrewarded hsolvent)).bind ?_)))
  rintro _ c₁ ⟨h₁, ⟨t, hentry⟩, hpaid⟩
  refine (returns_iff_ends.mp h₁.flushed).bind ?_
  rintro _ c₂ ⟨h₂, hdesk⟩
  refine (returns_iff_ends.mp (maybeCompleteCampaign_returns h₂ (by simp))).bind ?_
  rintro _ c₃ ⟨h₃, hmoney⟩
  have hsame : c₃.db.money = c₁.db.money := hmoney.trans (money_of_desk hdesk)
  have hledger : c₃.db.creditLedgerEntries = c₁.db.creditLedgerEntries := congrArg Prod.fst hsame
  have haccounts : c₃.db.creditAccounts = c₁.db.creditAccounts := congrArg Prod.snd hsame
  exact ends_pure ⟨h₃, ⟨t, _, hledger.trans hentry⟩, haccounts.trans hpaid⟩

/-- **An approval goes through**, and its reward is all that it moves. -/
theorem createReview_approves {k : Uuid} {e : EvidenceSubmission} {notes : String}
    (h : db.Orderly n) (hw : db.Awaits k id e a x) (hpositive : 0 < x.rewardCredits)
    (hsolvent : 0 ≤ db.exchange.balance a.testerId) :
    Ends (createReview k x.ownerId ⟨.approved, notes⟩) now ⟨db, [], n⟩
      (fun _ c => Ready a.campaignId x.ownerId [a.testerId, x.ownerId] c
        ∧ Rewarded db id a x x.ownerId c.db.money) fun _ => False := by
  obtain ⟨he, rfl, hworks, hpending, hawaiting, hcalm, hunreviewed, hunrewarded⟩ := hw
  have howner : db.Knows x.ownerId := h.owners _ x hworks.hc
  refine ends_query_bind (ends_found_bind (congrArg (Option.map (·.assignmentId)) he)
    (ends_select_bind (ends_found_bind hworks.ha (ends_select_bind (ends_found_bind he
    (ends_select_bind (ends_found_bind hworks.hc (ends_passed_bind (not_not.mpr rfl) (ends_query_bind
    (ends_passed_bind (by simp [hcalm]) (ends_passed_bind (not_not.mpr hpending)
    (ends_passed_bind (not_not.mpr hawaiting) (ends_uuid4_bind (ends_add_bind ?_))))))))))))))
  have hv : (insertReview n ⟨k, x.ownerId, .approved, notes⟩).violates db = none := by
    simp only [insertReview, firstViolated_cons, firstViolated_nil, and_true]
    exact ⟨Table.contains_eq_false.mpr (h.reviews.free (Nat.le_refl _)),
      Table.any_eq_false.mpr fun i r hr => decide_eq_false (hunreviewed i r hr),
      by simp [Table.contains_eq_true.mpr ⟨e, he⟩], howner.contains⟩
  refine (onCourse_start h).ends_flush_bind (applyAll_cons.mpr ⟨hv, rfl⟩) ?_
  have hready : Ready a.campaignId x.ownerId [a.testerId, x.ownerId]
      ⟨(insertReview n ⟨k, x.ownerId, .approved, notes⟩).effect db, [], n + 1⟩ := by
    refine calm_start ⟨fun u hu => ?_, fun k m hm => ?_, congrArg (Option.map Campaign.ownerId) hworks.hc⟩
    · rcases List.mem_pair.mp hu with rfl | rfl
      · exact h.testers _ a hworks.ha
      · exact howner
    · exact Nat.lt_succ_of_lt (h.notifications k m hm)
  refine Ends.bind (applyDecision_pays hready hpositive hunrewarded hsolvent) ?_
  rintro _ c₁ ⟨h₁, hpaid⟩
  refine ends_add_bind ((returns_iff_ends.mp (addNotification_returns
    (h₁.add (passes_event rfl (h₁.holds.known x.ownerId (by simp)))) (by simp))).bind ?_)
  rintro _ c₂ ⟨h₂, hmoney₂⟩
  refine (returns_iff_ends.mp h₂.flushed).bind ?_
  rintro _ c₃ ⟨h₃, hdesk⟩
  refine ends_pure ⟨h₃, ?_⟩
  rw [money_of_desk hdesk, hmoney₂]
  exact hpaid

end TestExchange
