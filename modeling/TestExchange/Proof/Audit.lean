import TestExchange.Proof.Lifecycle

/-!
# The audit trail is a complete history

Replaying the audit events of an assignment or a campaign gives its current
status. The trail and the status are written by different lines of every
operation, so this holds only because none of them forgets or misnames an event;
in particular an application declined by a closing campaign and a completion
triggered by somebody else's request leave their own events.
-/

namespace TestExchange

open Txn Exchange

/-! ## Replaying -/

/-- The status after the events, each of which may set it. -/
def replay {σ : Type} (target : AuditEvent → Option σ) (events : List AuditEvent) : Option σ :=
  events.foldl (fun status e => (target e).or status) none

/-- The remedy a resolved dispute applied was to award the tester. -/
def AuditEvent.isAward (e : AuditEvent) : Bool :=
  e.action = "dispute.resolved" && ("remedy", Json.str "award_tester") ∈ e.details

/-- What each event about an assignment makes of its status; other events are neutral. -/
def assignmentTargets : List (String × AssignmentStatus) :=
  [("assignment.applied", .applied), ("assignment.accepted", .accepted),
   ("assignment.started", .inProgress), ("assignment.declined", .cancelled),
   ("assignment.withdrawn", .cancelled), ("submission.created", .submitted),
   ("submission.approved", .approved), ("submission.changes_requested", .changesRequested),
   ("submission.rejected", .rejected), ("dispute.rejected", .rejected)]

/-- The status an event gives its assignment. -/
def AuditEvent.assignmentTarget (e : AuditEvent) : Option AssignmentStatus :=
  if e.isAward then some .approved else assignmentTargets.lookup e.action

/-- What each event about a campaign makes of its status. -/
def campaignTargets : List (String × CampaignStatus) :=
  [("campaign.created", .draft), ("campaign.published", .published), ("campaign.paused", .paused),
   ("campaign.resumed", .published), ("campaign.closed", .cancelled),
   ("campaign.completed", .completed)]

/-- The status an event gives its campaign. -/
def AuditEvent.campaignTarget (e : AuditEvent) : Option CampaignStatus :=
  campaignTargets.lookup e.action

/-- The documented workflow: where an assignment may go from each status. -/
def documentedNext : AssignmentStatus → List AssignmentStatus
  | .applied => [.accepted, .cancelled]
  | .accepted => [.inProgress, .cancelled]
  | .inProgress => [.submitted, .cancelled]
  | .submitted => [.changesRequested, .rejected, .approved]
  | .changesRequested => [.submitted, .cancelled]
  | .rejected => [.approved]
  | .approved => []
  | .cancelled => []

/--
If the event changes the status, it moves along an edge of the documented
workflow: it starts it by an application, or goes on to a documented status, and
from `rejected` by an award only.
-/
def FollowsEdge (before : Option AssignmentStatus) (e : AuditEvent) : Prop :=
  ∀ status, e.assignmentTarget = some status → before ≠ some status →
    match before with
    | none => status = .applied
    | some old => status ∈ documentedNext old ∧ (old = .rejected → e.isAward = true)

/-- Every status-changing event of the list moves along an edge. -/
def FollowsEdges (events : List AuditEvent) : Prop :=
  ∀ before e after, events = before ++ e :: after →
    FollowsEdge (replay AuditEvent.assignmentTarget before) e

theorem replay_append {σ : Type} {target : AuditEvent → Option σ} {events : List AuditEvent}
    {e : AuditEvent} : replay target (events ++ [e]) = (target e).or (replay target events) := by
  rw [replay, List.foldl_append]
  rfl

theorem followsEdges_nil : FollowsEdges [] := by
  intro before e after h
  exact absurd h (by simp)

theorem FollowsEdges.append {events : List AuditEvent} {e : AuditEvent} (h : FollowsEdges events)
    (he : FollowsEdge (replay AuditEvent.assignmentTarget events) e) :
    FollowsEdges (events ++ [e]) := by
  intro before f after hsplit
  rcases List.eq_nil_or_concat after with rfl | ⟨rest, last, rfl⟩
  · obtain ⟨rfl, hlast⟩ := List.append_inj' hsplit rfl
    obtain rfl := (List.cons.inj hlast).1
    exact he
  · have hinit : events ++ [e] = (before ++ f :: rest) ++ [last] := by
      rw [hsplit]
      simp
    obtain ⟨hevents, _⟩ := List.append_inj' hinit rfl
    exact h before f rest hevents

/-! ## The invariant -/

/-- The current status of each assignment. -/
def Exchange.assignmentStatus (s : Exchange) (id : Uuid) : Option AssignmentStatus :=
  (s.assignments.get? id).map (·.status)

/-- The current status of each campaign. -/
def Exchange.campaignStatus (s : Exchange) (id : Uuid) : Option CampaignStatus :=
  (s.campaigns.get? id).map (·.status)

/-- **The invariant of the audit trail.** -/
structure AuditInv (s : Exchange) : Prop where
  /-- The events of an assignment tell its status. -/
  assignments : ∀ id,
    replay AuditEvent.assignmentTarget (s.history "assignment" id) = s.assignmentStatus id
  /-- Its events follow the documented workflow. -/
  edges : ∀ id, FollowsEdges (s.history "assignment" id)
  /-- The events of a campaign tell its status. -/
  campaigns : ∀ id, replay AuditEvent.campaignTarget (s.history "campaign" id) = s.campaignStatus id

theorem auditInv_empty : AuditInv Exchange.empty where
  assignments := fun _ => rfl
  edges := fun _ => followsEdges_nil
  campaigns := fun _ => rfl

variable {s s₁ s' : Exchange} {e : AuditEvent}

theorem history_record {entityType : String} {id : Uuid} :
    (s.record e).history entityType id
      = s.history entityType id ++ if e.entityType = entityType ∧ e.entityId = id then [e] else [] :=
  rfl

theorem assignmentStatus_modify {id i : Uuid} {a : Assignment} {f : Assignment → Assignment}
    (ha : s.assignments.get? id = some a) :
    (s.modifyAssignment id f).assignmentStatus i
      = if i = id then some (f a).status else s.assignmentStatus i := by
  unfold Exchange.assignmentStatus Exchange.modifyAssignment
  rw [Table.get?_modify]
  split
  · rw [ha]; rfl
  · rfl

theorem campaignStatus_modify {id i : Uuid} {c : Campaign} {f : Campaign → Campaign}
    (hc : s.campaigns.get? id = some c) :
    (s.modifyCampaign id f).campaignStatus i
      = if i = id then some (f c).status else s.campaignStatus i := by
  unfold Exchange.campaignStatus Exchange.modifyCampaign
  rw [Table.get?_modify]
  split
  · rw [hc]; rfl
  · rfl

/--
**One event is written and says what happened**: `s₁` is the state with
everything changed but the trail.
-/
theorem AuditInv.record (h : AuditInv s) (hhistory : s₁.history = s.history)
    (ha : ∀ i, s₁.assignmentStatus i
      = if e.entityType = "assignment" ∧ e.entityId = i
        then e.assignmentTarget.or (s.assignmentStatus i) else s.assignmentStatus i)
    (hedge : e.entityType = "assignment" → FollowsEdge (s.assignmentStatus e.entityId) e)
    (hc : ∀ i, s₁.campaignStatus i
      = if e.entityType = "campaign" ∧ e.entityId = i
        then e.campaignTarget.or (s.campaignStatus i) else s.campaignStatus i) :
    AuditInv (s₁.record e) where
  assignments := by
    intro i
    show replay _ ((s₁.record e).history "assignment" i) = s₁.assignmentStatus i
    rw [history_record, hhistory, ha i]
    split
    · rw [replay_append, h.assignments i]
    · rw [List.append_nil, h.assignments i]
  edges := by
    intro i
    rw [history_record, hhistory]
    split
    · rename_i he
      refine (h.edges i).append ?_
      rw [h.assignments i, ← he.2]
      exact hedge he.1
    · rw [List.append_nil]
      exact h.edges i
  campaigns := by
    intro i
    show replay _ ((s₁.record e).history "campaign" i) = s₁.campaignStatus i
    rw [history_record, hhistory, hc i]
    split
    · rw [replay_append, h.campaigns i]
    · rw [List.append_nil, h.campaigns i]

/-- An event that stands for no change of status. -/
theorem AuditInv.neutral (h : AuditInv s) (hhistory : s₁.history = s.history)
    (ha : s₁.assignmentStatus = s.assignmentStatus) (hc : s₁.campaignStatus = s.campaignStatus)
    (hta : e.assignmentTarget = none) (htc : e.campaignTarget = none) : AuditInv (s₁.record e) := by
  refine h.record hhistory ?_ ?_ ?_
  · intro i
    rw [ha, hta, Option.none_or, ite_self]
  · intro _ status ht
    rw [hta] at ht
    exact absurd ht (by simp)
  · intro i
    rw [hc, htc, Option.none_or, ite_self]

theorem neutral_targets (he : e.action ∈ neutralActions) :
    e.assignmentTarget = none ∧ e.campaignTarget = none := by
  have hall : ∀ action ∈ neutralActions, action ≠ "dispute.resolved"
      ∧ assignmentTargets.lookup action = none ∧ campaignTargets.lookup action = none := by decide
  obtain ⟨hne, ha, hc⟩ := hall _ he
  refine ⟨?_, hc⟩
  rw [AuditEvent.assignmentTarget, if_neg (by simp [AuditEvent.isAward, hne]), ha]

/-- An event about an assignment that moves it to `t`. -/
theorem AuditInv.assignment (h : AuditInv s) {k : Uuid} {t : AssignmentStatus}
    (hhistory : s₁.history = s.history) (htype : e.entityType = "assignment")
    (hid : e.entityId = k) (ht : e.assignmentTarget = some t)
    (ha : ∀ i, s₁.assignmentStatus i = if i = k then some t else s.assignmentStatus i)
    (hedge : FollowsEdge (s.assignmentStatus k) e) (hc : s₁.campaignStatus = s.campaignStatus) :
    AuditInv (s₁.record e) := by
  refine h.record hhistory ?_ ?_ ?_
  · intro i
    rw [ha i, htype, hid, ht]
    by_cases hi : i = k
    · simp [hi]
    · simp [hi, Ne.symm hi]
  · intro _
    rw [hid]
    exact hedge
  · intro i
    rw [htype, hc]
    simp

/-- An event about a campaign that gives it `t`. -/
theorem AuditInv.campaign (h : AuditInv s) {k : Uuid} {t : CampaignStatus}
    (hhistory : s₁.history = s.history) (htype : e.entityType = "campaign")
    (hid : e.entityId = k) (ht : e.campaignTarget = some t)
    (hc : ∀ i, s₁.campaignStatus i = if i = k then some t else s.campaignStatus i)
    (ha : s₁.assignmentStatus = s.assignmentStatus) : AuditInv (s₁.record e) := by
  refine h.record hhistory ?_ ?_ ?_
  · intro i
    rw [htype, ha]
    simp
  · intro hne
    rw [htype] at hne
    exact absurd hne (by simp)
  · intro i
    rw [hc i, htype, hid, ht]
    by_cases hi : i = k
    · simp [hi]
    · simp [hi, Ne.symm hi]

theorem assignmentStatus_congr (h : s₁.assignments = s.assignments) :
    s₁.assignmentStatus = s.assignmentStatus := by
  unfold Exchange.assignmentStatus
  rw [h]

theorem campaignStatus_congr (h : s₁.campaigns = s.campaigns) :
    s₁.campaignStatus = s.campaignStatus := by
  unfold Exchange.campaignStatus
  rw [h]

theorem assignmentTarget_event {u i : Uuid} {action : String} {l : List (String × Json)}
    (h : action ≠ "dispute.resolved") :
    (assignmentEvent u action i l).assignmentTarget = assignmentTargets.lookup action := by
  rw [AuditEvent.assignmentTarget, if_neg (by simp [AuditEvent.isAward, assignmentEvent, h])]
  rfl

theorem auditAction_resolved : DisputeOutcome.auditAction .resolved = "dispute.resolved" := rfl

theorem auditAction_rejected : DisputeOutcome.auditAction .rejected = "dispute.rejected" := rfl

theorem isAward_resolution {i m id : Uuid} {payload : DisputeResolve} :
    (resolutionEvent i m id payload).isAward = true
      ↔ payload.outcome = .resolved ∧ payload.remedy = .awardTester := by
  unfold AuditEvent.isAward resolutionEvent assignmentEvent
  cases ho : payload.outcome <;> cases hr : payload.remedy <;>
    simp [auditAction_resolved, auditAction_rejected, DisputeOutcome.value, DisputeRemedy.value]

/-- A resolution that awards nothing is neutral, and a rejection rejects. -/
theorem target_resolution {i m k : Uuid} {payload : DisputeResolve}
    (h : payload.remedy ≠ .awardTester) :
    (resolutionEvent i m k payload).assignmentTarget
      = if payload.outcome = .rejected then some .rejected else none := by
  rw [AuditEvent.assignmentTarget, if_neg (fun ha => h (isAward_resolution.1 ha).2)]
  unfold resolutionEvent assignmentEvent
  cases ho : payload.outcome with
  | resolved => rfl
  | rejected => rfl

/-- An assignment goes along a documented edge, without an award. -/
theorem followsEdge_of_mem {old status : AssignmentStatus} {e : AuditEvent}
    (ht : e.assignmentTarget = some status) (hnext : status ∈ documentedNext old)
    (hold : old ≠ .rejected) : FollowsEdge (some old) e := by
  intro status' ht' _
  obtain rfl := Option.some.inj (ht.symm.trans ht')
  exact ⟨hnext, fun h => absurd h hold⟩

theorem assignmentStatus_eq {id : Uuid} {a : Assignment} (ha : s.assignments.get? id = some a) :
    s.assignmentStatus id = some a.status := by
  rw [Exchange.assignmentStatus, ha]
  rfl

/-- One assignment changes its status, and its event says so. -/
theorem AuditInv.moved (h : AuditInv s) {id actor : Uuid} {a : Assignment}
    {f : Assignment → Assignment} {action : String} {details : List (String × Json)}
    (ha : s.assignments.get? id = some a) (haction : action ≠ "dispute.resolved")
    (ht : assignmentTargets.lookup action = some (f a).status)
    (hnext : (f a).status ∈ documentedNext a.status) (hold : a.status ≠ .rejected)
    (hhistory : s₁.history = s.history) (hc : s₁.campaigns = s.campaigns)
    (hs₁ : s₁.assignments = s.assignments.modify id f) :
    AuditInv (s₁.record (assignmentEvent actor action id details)) := by
  have htarget := (assignmentTarget_event (l := details) (u := actor) (i := id) haction).trans ht
  refine h.assignment hhistory rfl rfl htarget ?_ ?_ (campaignStatus_congr hc)
  · intro i
    show s₁.assignmentStatus i = if i = id then some (f a).status else s.assignmentStatus i
    rw [← assignmentStatus_modify ha]
    exact congrFun (assignmentStatus_congr hs₁) i
  · show FollowsEdge (s.assignmentStatus id) _
    rw [assignmentStatus_eq ha]
    exact followsEdge_of_mem htarget hnext hold

/-- One campaign changes its status, and its event says so. -/
theorem AuditInv.turned (h : AuditInv s) {id actor : Uuid} {c : Campaign} {f : Campaign → Campaign}
    {action : String} {details : List (String × Json)} (hc : s.campaigns.get? id = some c)
    (ht : campaignTargets.lookup action = some (f c).status)
    (hhistory : s₁.history = s.history) (ha : s₁.assignments = s.assignments)
    (hs₁ : s₁.campaigns = s.campaigns.modify id f) :
    AuditInv (s₁.record (campaignEvent actor action id details)) := by
  refine h.campaign hhistory rfl rfl ht ?_ (assignmentStatus_congr ha)
  intro i
  show s₁.campaignStatus i = if i = id then some (f c).status else s.campaignStatus i
  rw [← campaignStatus_modify hc]
  exact congrFun (campaignStatus_congr hs₁) i

/-- **The invariant of the audit trail is preserved by every step.** -/
theorem auditInv_step (g : Nat) (s : Exchange) (x : Action) (s' : Exchange) (hcase : CaseInv s)
    (h : AuditInv s) (hs : Step g s x s') : AuditInv s' := by
  cases hs with
  | addProfile hnew hgrant =>
      obtain ⟨_, hc, ha, _, _, _, hh⟩ := paid_frame hgrant
      exact h.neutral hh (assignmentStatus_congr ha) (campaignStatus_congr hc) rfl rfl
  | editProfile he =>
      obtain ⟨hta, htc⟩ := neutral_targets he
      exact h.neutral rfl rfl rfl hta htc
  | note he =>
      obtain ⟨hta, htc⟩ := neutral_targets he
      exact h.neutral rfl rfl rfl hta htc
  | openAccount => exact ⟨h.assignments, h.edges, h.campaigns⟩
  | @createCampaign id c actor hnew hdraft =>
      -- the event records the first status of the campaign
      refine h.campaign (k := id) (t := .draft) rfl rfl rfl rfl ?_ rfl
      intro i
      show ((s.campaigns.insert id c).get? i).map (·.status) = _
      rw [Table.get?_insert hnew]
      by_cases hi : i = id
      · simp [hi, hdraft]
      · simp [hi, Exchange.campaignStatus]
  | @editCampaign id c payload actor hc hdraft =>
      refine h.neutral rfl rfl ?_ rfl rfl
      -- a patch has no column for the status
      funext i
      rw [campaignStatus_modify hc]
      by_cases hi : i = id
      · simp [hi, Exchange.campaignStatus, hc, CampaignUpdate.set]
      · simp [hi]
  | @publish s₁ id c now hc hdraft hspend =>
      obtain ⟨_, hcs, ha, _, _, _, hh⟩ := hspend.frame
      refine h.turned (f := fun c => { c with status := .published, publishedAt := some now }) hc rfl
        hh ha ?_
      rw [← hcs]
      rfl
  | @transition id c action actor details hc hfrom hroom =>
      refine h.turned (f := fun c => { c with status := action.target }) hc ?_ rfl rfl rfl
      cases action <;> rfl
  | @complete id c actor details hc hstatus =>
      exact h.turned (f := fun c => { c with status := .completed }) hc rfl rfl rfl rfl
  | @apply id campaignId testerId c note hnew hc hpublished howner hfirst hroom =>
      -- the first event of an assignment that was not there before
      refine h.assignment (k := id) (t := .applied) rfl rfl rfl rfl ?_ ?_ rfl
      · intro i
        show ((s.assignments.insert id _).get? i).map (·.status) = _
        rw [Table.get?_insert hnew]
        by_cases hi : i = id
        · simp [hi]
        · simp [hi, Exchange.assignmentStatus]
      · intro status ht _
        rw [Exchange.assignmentStatus, hnew]
        exact (Option.some.inj ht).symm
  | @accept id a c now ha happlied hc hpublished hroom =>
      exact h.moved (f := fun a => { a with status := .accepted, acceptedAt := some now }) ha
        (by simp) rfl (by simp [happlied, documentedNext]) (by simp [happlied]) rfl rfl rfl
  | @decline id a actor now details ha happlied =>
      exact h.moved (f := fun a => { a with status := .cancelled, completedAt := some now }) ha
        (by simp) rfl (by simp [happlied, documentedNext]) (by simp [happlied]) rfl rfl rfl
  | @withdraw id a now details ha hstatus =>
      simp only [List.mem_cons, List.not_mem_nil, or_false] at hstatus
      refine h.moved (f := fun a => { a with status := .cancelled, completedAt := some now }) ha
        (by simp) rfl ?_ ?_ rfl rfl rfl
      · rcases hstatus with hs | hs | hs | hs <;> simp [hs, documentedNext]
      · rcases hstatus with hs | hs | hs | hs <;> simp [hs]
  | @start id a now ha haccepted =>
      exact h.moved (f := fun a => { a with status := .inProgress, startedAt := some now }) ha
        (by simp) rfl (by simp [haccepted, documentedNext]) (by simp [haccepted]) rfl rfl rfl
  | @submit id k a e now details ha hstatus hnew hof hversion hsubmitted =>
      simp only [List.mem_cons, List.not_mem_nil, or_false] at hstatus
      refine h.moved (f := fun a => { a with status := .submitted, submittedAt := some now }) ha
        (by simp) rfl ?_ ?_ rfl rfl rfl
      · rcases hstatus with hs | hs <;> simp [hs, documentedNext]
      · rcases hstatus with hs | hs <;> simp [hs]
  | @review s₁ i k id a e c r note now details he hof ha hc hcalm hpending hawaiting hnew hfirst
      hsub hby hpay =>
      obtain ⟨_, hcs, has, _, _, _, hh⟩ := paid_frame hpay
      refine h.moved (f := r.decision.conclude now) ha ?_ ?_ ?_ (by simp [hawaiting]) hh hcs has
      · cases hd : r.decision <;> decide
      · cases hd : r.decision <;> rfl
      · rw [hawaiting]
        cases hd : r.decision <;>
          simp [ReviewDecision.conclude, ReviewDecision.assignmentStatus, documentedNext]
  | openDispute hnew ha hby he hsub hof hstatus honce hopen hfresh =>
      exact h.neutral rfl rfl rfl rfl rfl
  | claim hd hopen => exact h.neutral rfl rfl rfl rfl rfl
  | @award s₁ i m k d a e c payload note now at' hc hremedy houtcome hstatus hsub he hof hcamp
      hpay =>
      obtain ⟨_, hcs, has, _, _, _, hh⟩ := hpay.frame
      -- the event of an award is told apart by its outcome and its remedy
      have haward : (resolutionEvent i m d.assignmentId payload).isAward = true :=
        isAward_resolution.2 ⟨houtcome, hremedy⟩
      have ht : (resolutionEvent i m d.assignmentId payload).assignmentTarget = some .approved := by
        rw [AuditEvent.assignmentTarget, if_pos haward]
      have hhistory : (s₁.settle i m payload at').history = s.history := hh
      refine h.assignment hhistory rfl rfl ht ?_ ?_ (campaignStatus_congr hcs)
      · intro j
        refine (congrFun (assignmentStatus_congr has) j).trans ?_
        exact assignmentStatus_modify (f := ReviewDecision.conclude .approved now) hc.ha
      · show FollowsEdge (s.assignmentStatus d.assignmentId) _
        rw [assignmentStatus_eq hc.ha]
        intro status hstatus' _
        obtain rfl := Option.some.inj (ht.symm.trans hstatus')
        refine ⟨?_, fun _ => haward⟩
        simp only [List.mem_cons, List.not_mem_nil, or_false] at hstatus
        -- both a rejected and an overdue assignment may be approved
        rcases hstatus with hs | hs <;> simp [hs, documentedNext]
  | @rejectOverdue i m k d a e payload now at' hc hremedy houtcome hstatus hsub he hof =>
      have ht : (resolutionEvent i m d.assignmentId payload).assignmentTarget = some .rejected := by
        rw [target_resolution hremedy, if_pos houtcome]
      refine h.assignment (k := d.assignmentId) rfl rfl rfl ht ?_ ?_ rfl
      · intro j
        exact assignmentStatus_modify
          (f := fun a => { a with status := .rejected, completedAt := some now }) hc.ha
      · rw [assignmentStatus_eq hc.ha, hstatus]
        exact followsEdge_of_mem ht (by simp [documentedNext]) (by simp)
  | @uphold i m d a payload at' hc hremedy hstatus =>
      -- The decision stands: a rejected assignment is rejected again, if the event says anything.
      obtain ⟨k, e, _, hescalated⟩ := hcase.underReview hc
      have hrejected : a.status = .rejected := by
        rcases hescalated with hs | hs
        · exact absurd hs.1 hstatus
        · exact hs.1
      have ht := target_resolution (i := i) (m := m) (k := d.assignmentId) hremedy
      refine h.record rfl ?_ ?_ ?_
      · intro j
        rw [ht]
        by_cases hj : d.assignmentId = j
        · subst hj
          split
          · show s.assignmentStatus d.assignmentId = _
            rw [assignmentStatus_eq hc.ha, hrejected]
            split <;> rfl
          · rfl
        · exact (if_neg fun hand => hj hand.2).symm
      · intro _
        show FollowsEdge (s.assignmentStatus d.assignmentId) _
        rw [assignmentStatus_eq hc.ha, hrejected]
        intro status hst hne
        rw [ht] at hst
        split at hst
        · exact absurd hst hne
        · exact absurd hst (by simp)
      · intro j
        refine (if_neg ?_).symm
        rintro ⟨htype, _⟩
        exact absurd htype (by simp [resolutionEvent, assignmentEvent])

/-- **The audit trail is in order in every possible marketplace.** -/
theorem auditInv_possible {g : Nat} {s : Exchange} (h : Possible g s) : AuditInv s := by
  have both : CaseInv s ∧ AuditInv s := by
    refine @Possible.invariant g (fun s => CaseInv s ∧ AuditInv s) s h
      ⟨caseInv_empty, auditInv_empty⟩ ?_
    intro s x s' hi hs
    exact ⟨caseInv_step g s x s' hi.1 hs, auditInv_step g s x s' hi.1 hi.2 hs⟩
  exact both.2

/-! ## The trail of a reachable database -/

/-- The audit events of a database, replayed, and the edges they follow. -/
structure CompleteHistory (db : Db) : Prop where
  assignments : ∀ id a, db.assignments.get? id = some a →
    replay AuditEvent.assignmentTarget (db.eventsOf "assignment" id) = some a.status
  edges : ∀ id, FollowsEdges (db.eventsOf "assignment" id)
  campaigns : ∀ id c, db.campaigns.get? id = some c →
    replay AuditEvent.campaignTarget (db.eventsOf "campaign" id) = some c.status

/--
**The audit trail is a complete history.** In every reachable database the events
of an assignment, in the order they were written, replay to its current status
along the documented edges, and those of a campaign to the status of the campaign.
-/
theorem complete_history (settings : Settings) (s : Service) (h : Reachable settings s) :
    CompleteHistory s.db := by
  have hinv := auditInv_possible (reachable_possible h)
  refine ⟨?_, hinv.edges, ?_⟩
  · intro id a ha
    exact (hinv.assignments id).trans (assignmentStatus_eq ha)
  · intro id c hc
    refine (hinv.campaigns id).trans ?_
    show (s.db.campaigns.get? id).map _ = _
    rw [hc]
    rfl

set_option maxRecDepth 4000 in
theorem complete_history_bench :
    (benchService.db.eventsOf "assignment" 8).map (·.action)
        = ["assignment.applied", "assignment.accepted", "assignment.started", "submission.created",
           "submission.rejected", "dispute.opened", "dispute.claimed", "dispute.resolved"]
      ∧ CompleteHistory benchService.db :=
  ⟨by decide +kernel, complete_history benchSettings benchService benchService_reachable⟩

end TestExchange
