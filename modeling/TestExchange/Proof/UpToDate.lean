import TestExchange.Proof.Completion
import TestExchange.Proof.References
import TestExchange.Refine.Calls

/-!
# Completion is decided on up-to-date counts

`maybe_complete_campaign` counts in the database, so what its caller has queued
is not counted. An approval sends everything with an explicit flush. A
withdrawal relies on its notification, whose insert sends what is queued before
it, and so does a closing that declines somebody; the keys of these
notifications are free in every reachable state, so the insert is never skipped.
A closing that declines nobody has only the campaign itself queued, which the
counts do not look at.
-/

namespace TestExchange

open Txn Txn.Session

variable {settings : Settings} {s : Service} {now n : Nat} {c c₁ : Conn} {db d : Db}
  {call : CompletionCall}

/-! ## The call, before and after a flush -/

/-- The answer of the call, and the status of the campaign once everything is sent. -/
def CompletionCall.outcome (call : CompletionCall) : Session (Bool × Option CampaignStatus) := do
  let completed ← call.run
  flush
  let status ← query fun db => (db.campaigns.get? call.campaignId).map (·.status)
  pure (completed, status)

/-- The call comes out, and leaves everything, as if all that is queued were sent first. -/
def CompletionCall.UpToDate (call : CompletionCall) (now : Time) (c : Conn) : Prop :=
  ∃ r, call.outcome.alone now c = .ok r
    ∧ (flush >>= fun _ => call.outcome : Session _).alone now c = .ok r

theorem completed_alone {w : Write} {u : Option Uuid} {action entityType : String} {id : Uuid}
    {details : List (String × Json)} :
    (do add w; addAuditEvent u action entityType id details; pure true : Session Bool).alone now c
      = .ok (true, { c with
          pending := c.pending ++ [w, insertAuditEvent ⟨u, action, entityType, id, details⟩] }) := by
  simp only [alone_bind, alone_add, addAuditEvent_ok, alone_pure, exists_eq_left, exists_const,
    List.append_assoc, List.cons_append, List.nil_append, and_self]

/-- The answer and the queued writes depend on the assignments in the database, and nothing else. -/
theorem run_counts (call : CompletionCall) (now : Time) (c c₁ : Conn)
    (h : c₁.db.assignments = c.db.assignments) :
    ∃ b ws, (∀ w ∈ ws, Passes (fun db : Db => db.Knows call.actorId) w)
      ∧ call.run.alone now c = .ok (b, { c with pending := c.pending ++ ws })
      ∧ call.run.alone now c₁ = .ok (b, { c₁ with pending := c₁.pending ++ ws }) := by
  have hclosed : ∃ b, (closedWorkSettled call.campaignId call.campaign).alone now c = .ok (b, c)
      ∧ (closedWorkSettled call.campaignId call.campaign).alone now c₁ = .ok (b, c₁) := by
    unfold closedWorkSettled
    split
    · rw [alone_query_bind, alone_query_bind, alone_query_bind, alone_query_bind, h]
      exact ⟨_, rfl, rfl⟩
    · exact ⟨_, rfl, rfl⟩
  obtain ⟨closed, hok, hok₁⟩ := hclosed
  unfold CompletionCall.run maybeCompleteCampaign
  rw [alone_query_bind, alone_query_bind, h, alone_bind_eq, alone_bind_eq, hok, hok₁]
  simp only [Except.bind]
  split
  · refine ⟨true, _, ?_, completed_alone, completed_alone⟩
    intro w hw
    rcases List.mem_pair.mp hw with rfl | rfl
    · exact fun db hdb => ⟨rfl, hdb⟩
    · exact fun db hdb => ⟨insertAuditEvent_accepted rfl hdb, hdb⟩
  · exact ⟨false, [], by simp, by rw [List.append_nil]; rfl, by rw [List.append_nil]; rfl⟩

/-- Sending what the call queued, and reading the campaign. -/
theorem outcome_alone {b : Bool} (hrun : call.run.alone now c = .ok (b, c₁))
    (hd : Flushes c₁ d) :
    call.outcome.alone now c
      = .ok ((b, (d.campaigns.get? call.campaignId).map (·.status)), ⟨d, [], c₁.next⟩) := by
  unfold CompletionCall.outcome
  rw [alone_bind_eq, hrun]
  exact (alone_flush_bind hd).trans alone_query_bind

/--
**A call is up to date if what is queued leaves the assignments alone**, can be
sent, and whoever completes the campaign is known then.
-/
theorem upToDate_of_flushes (hd : Flushes c d) (hsame : d.assignments = c.db.assignments)
    (hknown : d.Knows call.actorId) : call.UpToDate now c := by
  obtain ⟨b, ws, hpass, hrun, hrun₁⟩ := run_counts call now c ⟨d, [], c.next⟩ hsame
  obtain ⟨db, hdb, -⟩ := applyAll_passes hpass hknown
  have hflushed := outcome_alone hrun₁ hdb
  exact ⟨_, outcome_alone hrun (applyAll_append.mpr ⟨d, hd, hdb⟩),
    (alone_flush_bind hd).trans hflushed⟩

/-- Nothing is queued. -/
theorem upToDate_of_empty (hc : c.pending = []) (hknown : c.db.Knows call.actorId) :
    call.UpToDate now c :=
  upToDate_of_flushes (d := c.db) (by rw [Flushes, hc]; rfl) rfl hknown

/-! ## The callers -/

/-- An approval flushes before the call. -/
theorem approve_upToDate {submissionId id actorId : Uuid} {a : Assignment} {x : Campaign}
    {note : String} {p : AtCompletion Unit}
    (h : (approveToCompletion submissionId id a x note actorId).alone now ⟨db, [], n⟩ = .ok (p, c))
    (hknown : db.Knows actorId) : p.arg.UpToDate now c := by
  simp only [approveToCompletion, alone_bind, alone_utcnow, alone_add, alone_flush, alone_pure,
    and_assoc, exists_and_left, exists_eq_left, exists_const, List.nil_append,
    List.cons_append] at h
  obtain ⟨e, c₁, hrec, c₂, ⟨d, hd, rfl⟩, rfl, rfl⟩ := h
  have hkeeps : Only (Keeps Db.profiles) (recordCreditEntry (rewardEntry id a x note actorId)) :=
    only_recordCreditEntry (fun _ => rfl) (fun _ _ => rfl) (fun _ _ => rfl)
  obtain ⟨t, ht, hprofiles⟩ := hkeeps.flushes hrec hd
  simp only [applyAll_cons, applyAll_nil] at ht
  obtain ⟨-, -, rfl⟩ := ht
  refine upToDate_of_empty rfl ?_
  unfold Db.Knows at hknown ⊢
  rw [hprofiles]
  exact hknown

theorem review_upToDate {submissionId reviewerId : Uuid} {payload : ReviewCreate}
    {p : AtCompletion (Uuid × Review)}
    (h : (reviewToCompletion submissionId reviewerId payload).alone now ⟨db, [], n⟩ = .ok (p, c)) :
    p.arg.UpToDate now c := by
  simp only [reviewToCompletion, alone_bind, alone_query, selectForUpdate_ok, alone_orRaise,
    alone_raiseIf, requireCampaignOwner_ok, alone_uuid4, alone_add, alone_flush, alone_pure,
    and_assoc, exists_and_left, exists_eq_left, exists_const, List.nil_append, not_not] at h
  obtain ⟨id, hid, a, ha, e, he, x, hx, howner, hcalm, hpending, hawaiting, c₀, ⟨d, hd, rfl⟩, q,
    c₁, happrove, rfl, rfl⟩ := h
  simp only [applyAll_cons, applyAll_nil, insertReview, firstViolated_cons] at hd
  obtain ⟨hv, rfl⟩ := hd
  exact approve_upToDate happrove (knows_of_contains hv.2.2.2.1)

theorem resolve_upToDate (hs : Reachable settings s) {disputeId moderatorId : Uuid}
    {payload : DisputeResolve} {p : AtCompletion (Uuid × Dispute)}
    (h : (resolveToCompletion disputeId moderatorId payload).alone now ⟨s.db, [], n⟩
      = .ok (p, c)) : p.arg.UpToDate now c := by
  simp only [resolveToCompletion, awardToCompletion, alone_bind, selectForUpdate_ok,
    disputedSubmission_ok, alone_orRaise, alone_raiseIf, alone_pure, and_assoc, exists_and_left,
    exists_eq_left, exists_const, not_not] at h
  obtain ⟨dispute, hd, hunder, hassigned, a, ha, q, c₁, ⟨submissionId, hsub, hstatus, e, he, hof,
    x, hx, happrove⟩, rfl, rfl⟩ := h
  exact approve_upToDate happrove ((dispute_knows hs hd).2 moderatorId hassigned)

/-- A withdrawal is notified of for the first time, and the insert sends it. -/
theorem withdraw_upToDate (hinv : NoticeInv db) {id testerId : Uuid}
    {p : AtCompletion (Uuid × Assignment)}
    (h : (withdrawToCompletion id testerId).alone now ⟨db, [], n⟩ = .ok (p, c)) :
    p.arg.UpToDate now c := by
  simp only [withdrawToCompletion, alone_bind, selectForUpdate_ok, alone_orRaise, alone_raiseIf,
    alone_utcnow, alone_add, addAuditEvent_ok, alone_pure, and_assoc, exists_and_left,
    exists_eq_left, exists_const, List.nil_append, List.cons_append, not_not] at h
  obtain ⟨a, ha, htester, hstatus, x, hx, name, c₁, hname, _, c₂, hn, rfl, rfl⟩ := h
  obtain rfl := testerDisplayName_ok hname
  have hunsent := unsent_of_withdrawable hinv ha hstatus
  obtain ⟨d, k, hd, hk, rfl⟩ := addNotification_new (o := ⟨.withdrawn, id⟩) hn rfl hunsent
  simp only [Flushes, applyAll_cons, applyAll_nil, insertAuditEvent, Db.missingProfile,
    firstViolated_cons] at hd
  obtain ⟨-, hv, rfl⟩ := hd
  exact upToDate_of_empty rfl (knows_of_contains hv.1)

/-- A closing has sent every decline, or there was none. -/
theorem close_upToDate (hs : Reachable settings s) {id ownerId : Uuid}
    {p : AtCompletion (Uuid × Campaign)}
    (h : (closeToCompletion id ownerId).alone now ⟨s.db, [], n⟩ = .ok (p, c)) :
    p.arg.UpToDate now c := by
  simp only [closeToCompletion, performTransition, alone_bind, selectForUpdate_ok, alone_orRaise,
    requireCampaignOwner_ok, alone_raiseIf, alone_queryForUpdate, alone_utcnow, alone_add,
    addAuditEvent_ok, alone_pure, and_assoc, exists_and_left, exists_eq_left, exists_const,
    List.nil_append, not_and_or, not_not] at h
  obtain ⟨x, hx, rfl, hstatus, _, c₁, ⟨_, _, hdecline, rfl, rfl⟩, rfl, rfl⟩ := h
  have hknown : s.db.Knows x.ownerId := owner_knows hs hx (by
    intro hdraft
    rw [hdraft] at hstatus
    exact absurd hstatus (by decide))
  have hstart : ∀ d, Flushes ⟨s.db, [writeCampaign id fun c => { c with status := .cancelled }], n⟩ d
      → d = { s.db with
          campaigns := s.db.campaigns.modify id fun c => { c with status := .cancelled } } := by
    intro d hd
    simp only [Flushes, applyAll_cons, applyAll_nil] at hd
    exact hd.2
  obtain ⟨hsent, -⟩ := declinePending_sends hdecline pending_nodup
    (fun r hr => pending_unsent (noticeInv_reachable hs) hr) fun d hd => by rw [hstart d hd]
  have hkeeps : Only (Keeps Db.profiles)
      (declinePending x x.ownerId now (s.db.roster.pending id)) :=
    only_declinePending (fun _ _ => rfl) (fun _ _ => rfl) fun _ _ _ => rfl
  -- what is queued is the new status of the campaign and its event, or the event alone
  have hqueue : ∃ d, Flushes c₁ d ∧ d.assignments = c₁.db.assignments := by
    rcases hsent with hsent | rfl
    · exact ⟨c₁.db, by rw [Flushes, hsent]; rfl, rfl⟩
    · exact ⟨_, applyAll_cons.mpr ⟨rfl, rfl⟩, rfl⟩
  obtain ⟨d, hd, hsame⟩ := hqueue
  obtain ⟨t, ht, hprofiles⟩ := hkeeps.flushes hdecline hd
  have hknown₁ : d.Knows x.ownerId := by
    rw [hstart t ht] at hprofiles
    unfold Db.Knows at hknown ⊢
    rw [hprofiles]
    exact hknown
  refine upToDate_of_flushes (d := { d with auditEvents := _ })
    (applyAll_append.mpr ⟨d, hd, applyAll_cons.mpr ⟨?_, rfl⟩⟩) hsame hknown₁
  exact insertAuditEvent_accepted rfl hknown₁

theorem CompletionCaller.upToDate (hs : Reachable settings s) {caller : CompletionCaller}
    {p : AtCompletion Unit} (h : caller.toCompletion.alone now ⟨s.db, [], n⟩ = .ok (p, c)) :
    p.arg.UpToDate now c := by
  cases caller with
  | createReview submissionId reviewerId payload =>
      obtain ⟨q, c₁, hq, hpure⟩ := alone_bind.mp h
      obtain ⟨rfl, rfl⟩ := alone_pure.mp hpure
      exact review_upToDate hq
  | withdrawAssignment assignmentId testerId =>
      obtain ⟨q, c₁, hq, hpure⟩ := alone_bind.mp h
      obtain ⟨rfl, rfl⟩ := alone_pure.mp hpure
      exact withdraw_upToDate (noticeInv_reachable hs) hq
  | resolveDispute disputeId moderatorId payload =>
      obtain ⟨q, c₁, hq, hpure⟩ := alone_bind.mp h
      obtain ⟨rfl, rfl⟩ := alone_pure.mp hpure
      exact resolve_upToDate hs hq
  | closeCampaign campaignId ownerId =>
      obtain ⟨q, c₁, hq, hpure⟩ := alone_bind.mp h
      obtain ⟨rfl, rfl⟩ := alone_pure.mp hpure
      exact close_upToDate hs hq

/--
**Completion is decided on up-to-date counts.** Whichever service looks at a
campaign, in a reachable state, comes to the call of `maybe_complete_campaign`
with a session in which it answers, and leaves the campaign, as it would after a
flush. So no open campaign has as many approved assignments as it wants testers.
-/
theorem completion_up_to_date (settings : Settings) (s : Service) (h : Reachable settings s) :
    (∀ caller : CompletionCaller, caller.Looks →
      caller.service = caller.toCompletion >>= Paused.resume CompletionCall.run
        ∧ ∀ now p c, caller.toCompletion.alone now ⟨s.db, [], s.nextId⟩ = .ok (p, c) →
          p.arg.UpToDate now c)
      ∧ ∀ id c, s.db.campaigns.get? id = some c → c.status = .published ∨ c.status = .paused →
        (s.db.assignments.count fun a => a.campaignId = id && a.status = .approved)
          < c.targetTesters := by
  refine ⟨fun caller hlooks => ⟨caller.service_paused hlooks, fun now p c hok => ?_⟩, ?_⟩
  · exact caller.upToDate h hok
  · intro id c hc hopen
    by_contra hfull
    exact lacks_targetReached h id c hc ⟨hopen, not_lt.mp hfull⟩

/-- The owner's approval of the only submission comes to the call, and completes the campaign. -/
theorem completion_up_to_date_bench :
    ∃ p c, (CompletionCaller.createReview 12 1 ⟨.approved, "A fine bench"⟩).toCompletion.alone 0
        ⟨waitingService.db, [], waitingService.nextId⟩ = .ok (p, c)
      ∧ p.arg.UpToDate 0 c := by
  have hrun : (((CompletionCaller.createReview 12 1 ⟨.approved, "A fine bench"⟩).toCompletion.alone
      0 ⟨waitingService.db, [], waitingService.nextId⟩).toOption.map fun r => r.2.pending.length)
        = some 0 := by decide +kernel
  obtain ⟨⟨p, c⟩, hsome, -⟩ := Option.map_eq_some_iff.mp hrun
  have hok := ok_of_toOption hsome
  have hall := (completion_up_to_date benchSettings waitingService (reachable_run .init _)).1
    (.createReview 12 1 ⟨.approved, "A fine bench"⟩) rfl
  exact ⟨p, c, hok, hall.2 0 p c hok⟩

end TestExchange
