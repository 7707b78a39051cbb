import TestExchange.Concurrent.Dockets
import TestExchange.Proof.Lifecycle

/-!
# Owner and moderator under concurrency

Submissions, reviews, escalations, claims and decisions, interleaved statement
by statement. Whoever moves a docket holds the lock on its assignment, so every
commit is one step of one docket (`DecisionGuar`), and the claims that others
make of its dispute in the meantime do not show in it. What excludes owner and
moderator from each other in the docket therefore excludes them in the database,
although the disputes are read without a lock.
-/

namespace TestExchange

open Txn Txn.Session Txn.World

/-- The requests that decide an assignment, by the users who may send them. -/
inductive DecisionRequest where
  | submit (assignmentId testerId : Uuid) (payload : SubmissionCreate)
  | review (submissionId reviewerId : Uuid) (payload : ReviewCreate)
  | escalate (assignmentId openedBy : Uuid) (payload : DisputeCreate)
  | claim (disputeId moderatorId : Uuid)
  | resolve (disputeId moderatorId : Uuid) (payload : DisputeResolve)

/-- The service behind each request. -/
def DecisionRequest.service : DecisionRequest → Session Unit
  | .submit assignmentId testerId payload =>
      discard (createSubmission assignmentId testerId payload)
  | .review submissionId reviewerId payload =>
      discard (createReview submissionId reviewerId payload)
  | .escalate assignmentId openedBy payload => discard (openDispute assignmentId openedBy payload)
  | .claim disputeId moderatorId => discard (claimDispute disputeId moderatorId)
  | .resolve disputeId moderatorId payload =>
      discard (resolveDispute disputeId moderatorId payload)

/-- The transaction of each request. -/
def DecisionRequest.program (request : DecisionRequest) : Program Db Lock Failure Unit :=
  request.service.commit

/-- What happens in the database while assignments are decided. -/
abbrev DecisionWorld := World Db Lock Failure DecisionRequest

/-- What holds of every committed state. -/
structure DecisionInv (db : Db) : Prop where
  sound : ∀ id, (db.docket id).Sound
  orderly : db.casework.Orderly

/-- What a commit may do: a step of each docket whose assignment it has locked. -/
structure DecisionGuar (locks : List Lock) (db db' : Db) : Prop where
  dockets : ∀ id, db'.docket id = db.docket id
    ∨ .assignment id ∈ locks ∧ (db.docket id).Step (db'.docket id)
  rows : RowsKept locks db.casework db'.casework

/-- What the transactions agree on. -/
def decisionProtocol : Protocol Db Lock Failure DecisionRequest where
  Inv := DecisionInv
  Guar := DecisionGuar

variable {id i j k : Uuid} {held : List Lock} {c c' : Ctx Db Lock Failure} {D D' : Docket}
  {r : DecisionRequest}

/-! ## What a transaction may keep to itself -/

/-- While an assignment is locked, its docket does not move. -/
theorem stable_docket (h : .assignment id ∈ held) :
    decisionProtocol.Stable held fun s => s.docket id = D := by
  intro locks s s' hl _ _ hg hs
  rcases hg.dockets id with hsame | ⟨hid, _⟩
  · exact hsame.trans hs
  · exact absurd hid (hl _ h)

/-- Submissions stay with their assignment. -/
theorem stable_filed :
    decisionProtocol.Stable held fun s => (s.docket id).submissions k ≠ none := by
  intro locks s s' _ _ _ hg hs
  rcases hg.dockets id with hsame | ⟨_, hstep⟩
  · rw [hsame]
    exact hs
  · exact Docket.filed_step hstep hs

theorem stable_dispute {o : Option Dispute} (h : .dispute i ∈ held) :
    decisionProtocol.Stable held fun s => s.disputes.get? i = o := by
  intro locks s s' hl _ _ hg hs
  exact (hg.rows.disputes i (hl _ h)).trans hs

theorem stable_newSubmission (h : .evidenceSubmission k ∈ held) :
    decisionProtocol.Stable held fun s => s.evidenceSubmissions.get? k = none := by
  intro locks s s' hl _ _ hg hs
  exact hg.rows.submissions k (hl _ h) hs

theorem stable_newReview (h : .review j ∈ held) :
    decisionProtocol.Stable held fun s => s.reviews.get? j = none := by
  intro locks s s' hl _ _ hg hs
  exact hg.rows.reviews j (hl _ h) hs

/-! ## Commits -/

/-- A commit that moves the docket of an assignment it has locked. -/
theorem commits_step (hl : .assignment id ∈ c.held)
    (h : ∀ s, DecisionInv s → c.known s → ∃ D', (s.docket id).Step D'
      ∧ Amends c.held id s.casework (c.view s).casework D') : decisionProtocol.Commits c := by
  intro s hs hk
  obtain ⟨D', hstep, hamends⟩ := h s hs hk
  have hdocket : (c.view s).docket id = D' := hamends.docket
  refine ⟨⟨fun i => ?_, hamends.rows⟩, fun i => ?_, hamends.orderly⟩
  · by_cases hi : i = id
    · subst hi
      exact Or.inr ⟨hl, hdocket ▸ hstep⟩
    · exact Or.inl (hamends.others i hi)
  · by_cases hi : i = id
    · subst hi
      rw [hdocket]
      exact Docket.sound_step (hs.sound i) hstep
    · have hsame : (c.view s).docket i = s.docket i := hamends.others i hi
      rw [hsame]
      exact hs.sound i

/-- A commit that no docket shows. -/
theorem commits_unseen
    (h : ∀ s, DecisionInv s → c.known s → (∀ id, (c.view s).docket id = s.docket id)
      ∧ RowsKept c.held s.casework (c.view s).casework ∧ (c.view s).casework.Orderly) :
    decisionProtocol.Commits c := by
  intro s hs hk
  obtain ⟨hsame, hrows, horderly⟩ := h s hs hk
  refine ⟨⟨fun id => Or.inl (hsame id), hrows⟩, fun id => ?_, horderly⟩
  rw [hsame id]
  exact hs.sound id

/-! ## Under the lock of the assignment -/

/-- The transaction has locked the assignment, knows its docket, and has written nothing. -/
structure OnDocket (id : Uuid) (D : Docket) (c : Ctx Db Lock Failure) : Prop where
  silent : ∀ s, c.view s = s
  locked : .assignment id ∈ c.held
  known : ∀ s, c.known s → s.docket id = D

theorem OnDocket.reads (h : OnDocket id D c) (hc : Sends [] c c') : OnDocket id D c' where
  silent := fun s => (hc.view s).trans (h.silent s)
  locked := hc.held _ h.locked
  known := fun s hk => h.known s (hc.known s hk)

/-- The lock on an assignment, taken before anything is written. -/
theorem swp_lockDocket {error : Failure} {post : Assignment → List Write → Ctx Db Lock Failure → Prop}
    (hc : ∀ s, c.view s = s)
    (hpost : ∀ a s c', c.known s → (s.docket id).status = some a.status →
      OnDocket id (s.docket id) c' → Sends [] c c' → post a [] c') :
    swp decisionProtocol r (selectForUpdate Db.assignments Lock.assignment id)
      (fun found => swp decisionProtocol r (orRaise error found) post) [] c := by
  refine swp_lockRow (fun _ s t => t.docket id = s.docket id)
    (fun _ s _ _ _ => ⟨stable_docket List.mem_cons_self, rfl⟩) ?_
  intro a s c' _ hk ha hsent hl hknown
  rw [hc s] at ha
  refine hpost a s c' hk ?_ ⟨fun t => (hsent.view t).trans (hc t), hl, hknown⟩ hsent
  show (s.assignments.get? id).map (·.status) = _
  rw [ha]
  rfl

/-! ## What the services do to the dockets -/

/-- A change of credits is at most one entry. -/
def Enters (change : CreditChange) (x y : Casework) : Prop :=
  y = x ∨ ∃ n, y = { x with creditLedgerEntries := x.creditLedgerEntries ++ [change.entry n] }

theorem recordCreditEntry_enters {change : CreditChange} :
    Moves Db.casework (Enters change) (recordCreditEntry change) := by
  refine Moves.after only_query fun existing => ?_
  cases existing with
  | some _ => exact only_pure.moves fun _ => Or.inl rfl
  | none =>
      refine Moves.after only_raiseIf fun _ => Moves.after
        (only_getCreditAccountForUpdate fun _ => rfl) fun _ => Moves.after only_raiseIf fun _ =>
        Moves.after (only_add fun _ => rfl) fun _ => Moves.after only_uuid4 fun n => ?_
      have hadd : Moves Db.casework (Enters change)
          (add (insertCreditLedgerEntry (change.entry n))) := moves_add fun _ => Or.inr ⟨n, rfl⟩
      exact hadd.before fun _ => only_flush.bind fun _ => only_pure

theorem only_complete_kept {campaignId actorId : Uuid} {campaign : Campaign} :
    Only (Keeps Db.casework) (maybeCompleteCampaign campaignId campaign actorId) :=
  only_maybeCompleteCampaign (fun _ => rfl) fun _ _ => rfl

/-- The entry that rewards an assignment rewards no other. -/
theorem rewards_rewardEntry {a : Assignment} {campaign : Campaign} {note : String}
    {createdBy n : Uuid} :
    ((rewardEntry id a campaign note createdBy).entry n).rewards i = decide (i = id) := by
  simp [CreditLedgerEntry.rewards, CreditChange.entry, rewardEntry, eq_comm]

section Verdicts

variable {f : EvidenceSubmission → EvidenceSubmission} {g : Assignment → Assignment}
  {status : AssignmentStatus} {verdict : SubmissionStatus} {x y : Casework}

theorem decides_unpaid {n : Nat}
    (hf : ∀ e, (f e).assignmentId = e.assignmentId ∧ (f e).status = verdict)
    (hg : ∀ a, (g a).status = status) :
    Decides id k status verdict n x { x with
      evidenceSubmissions := x.evidenceSubmissions.modify k f
      assignments := x.assignments.modify id g } :=
  ⟨f, g, [], hf, hg, by simp, by simp, by rw [List.append_nil]⟩

theorem decides_paid {a : Assignment} {campaign : Campaign} {note : String} {createdBy : Uuid}
    (hf : ∀ e, (f e).assignmentId = e.assignmentId ∧ (f e).status = verdict)
    (hg : ∀ a, (g a).status = status)
    (h : Enters (rewardEntry id a campaign note createdBy)
      { x with
        evidenceSubmissions := x.evidenceSubmissions.modify k f
        assignments := x.assignments.modify id g } y) : Decides id k status verdict 1 x y := by
  rcases h with rfl | ⟨n, rfl⟩
  · exact decides_unpaid hf hg
  · refine ⟨f, g, [_], hf, hg, List.countP_le_length, ?_, rfl⟩
    intro i hi
    rw [List.countP_singleton, rewards_rewardEntry]
    simp [hi]

theorem moves_submission :
    Moves Db.casework (fun x y => y = { x with
      evidenceSubmissions := x.evidenceSubmissions.modify k f }) (add (writeEvidenceSubmission k f)) :=
  moves_add fun _ => rfl

theorem moves_assignment :
    Moves Db.casework (fun x y => y = { x with
      assignments := x.assignments.modify id g }) (add (writeAssignment id g)) :=
  moves_add fun _ => rfl

/-- A verdict without a reward. -/
theorem moves_unpaid {n : Nat}
    (hf : ∀ e, (f e).assignmentId = e.assignmentId ∧ (f e).status = verdict)
    (hg : ∀ a, (g a).status = status) :
    Moves Db.casework (Decides id k status verdict n) (do
      add (writeEvidenceSubmission k f)
      add (writeAssignment id g)) := by
  refine (moves_submission.bind fun _ => moves_assignment).mono ?_
  rintro x y ⟨_, rfl, rfl⟩
  exact decides_unpaid hf hg

/-- A verdict with its reward, after which the campaign may be complete. -/
theorem moves_paid {a : Assignment} {campaign : Campaign} {note : String} {createdBy : Uuid}
    (hf : ∀ e, (f e).assignmentId = e.assignmentId ∧ (f e).status = verdict)
    (hg : ∀ a, (g a).status = status) :
    Moves Db.casework (Decides id k status verdict 1) (do
      add (writeEvidenceSubmission k f)
      add (writeAssignment id g)
      let _ ← recordCreditEntry (rewardEntry id a campaign note createdBy)
      flush
      let _ ← maybeCompleteCampaign a.campaignId campaign createdBy
      pure ()) := by
  refine (moves_submission.bind fun _ => moves_assignment.bind fun _ =>
    recordCreditEntry_enters.before fun _ => only_flush.bind fun _ =>
      only_complete_kept.bind fun _ => only_pure).mono ?_
  rintro x y ⟨_, rfl, _, rfl, h⟩
  exact decides_paid hf hg h

end Verdicts

theorem applyDecision_decides {submissionId reviewerId : Uuid} {a : Assignment}
    {campaign : Campaign} {decision : ReviewDecision} :
    Moves Db.casework
      (Decides id submissionId decision.assignmentStatus decision.submissionStatus
        (if decision = .approved then 1 else 0))
      (applyDecision submissionId id a campaign reviewerId decision) := by
  cases decision with
  | approved =>
      exact Moves.after only_utcnow fun now => moves_paid (fun _ => ⟨rfl, rfl⟩) fun _ => rfl
  | changesRequested => exact moves_unpaid (fun _ => ⟨rfl, rfl⟩) fun _ => rfl
  | rejected => exact moves_unpaid (fun _ => ⟨rfl, rfl⟩) fun _ => rfl

/-- What a moderator's decision does to the disputed work. -/
def Remedies (d : Dispute) (a : Assignment) (x y : Casework) : Prop :=
  (∃ k, d.submissionId = some k ∧ Decides d.assignmentId k .approved .approved 1 x y)
    ∨ (a.status = .submitted ∧ ∃ k, d.submissionId = some k
        ∧ Decides d.assignmentId k .rejected .rejected 0 x y)
    ∨ (a.status ≠ .submitted ∧ y = x)

theorem awardTester_remedies {d : Dispute} {a : Assignment} {moderatorId : Uuid} :
    Moves Db.casework (Remedies d a) (awardTester d a moderatorId) := by
  refine moves_orRaise fun k hk => Moves.after only_raiseIf fun _ =>
    Moves.after only_selectForUpdate fun _ => Moves.after ?_ fun _ =>
    Moves.after only_selectForUpdate fun _ => Moves.after only_orRaise fun campaign =>
    Moves.after only_utcnow fun now => ?_
  · exact only_orRaise.bind fun _ => only_raiseIf.bind fun _ => only_pure
  refine Moves.mono (A := Decides d.assignmentId k .approved .approved 1)
    (moves_paid (fun _ => ⟨rfl, rfl⟩) fun _ => rfl) ?_
  intro x y h
  exact Or.inl ⟨k, hk, h⟩

theorem rejectOverdue_remedies {d : Dispute} {a : Assignment} {payload : DisputeResolve}
    (ha : a.status = .submitted) : Moves Db.casework (Remedies d a) (rejectOverdue d payload) := by
  refine Moves.after only_raiseIf fun _ => moves_orRaise fun k hk =>
    Moves.after only_query fun _ => Moves.after ?_ fun _ => Moves.after only_utcnow fun now => ?_
  · exact only_orRaise.bind fun _ => only_raiseIf.bind fun _ => only_pure
  refine Moves.mono (A := Decides d.assignmentId k .rejected .rejected 0)
    (moves_unpaid (fun _ => ⟨rfl, rfl⟩) fun _ => rfl) ?_
  intro x y h
  exact Or.inr (Or.inl ⟨ha, k, hk, h⟩)

theorem applyRemedy_remedies {d : Dispute} {a : Assignment} {moderatorId : Uuid}
    {payload : DisputeResolve} :
    Moves Db.casework (Remedies d a) (applyRemedy d a moderatorId payload) := by
  unfold applyRemedy
  split
  · exact awardTester_remedies
  · split
    · rename_i ha
      exact rejectOverdue_remedies ha
    · rename_i ha
      exact emits_nil (fun s => Or.inr (Or.inr ⟨ha, rfl⟩)) fun _ _ => rfl

/-! ## The requests, one by one -/

theorem silent_start (s₀ : Db) : ∀ s, (Ctx.start s₀ : Ctx Db Lock Failure).view s = s :=
  fun _ => rfl

/-- The assignment is submitted. -/
def Submits (id : Uuid) (x y : Casework) : Prop :=
  ∃ g : Assignment → Assignment, (∀ a, (g a).status = .submitted)
    ∧ y = { x with assignments := x.assignments.modify id g }

/-- **A submission keeps to the protocol.** -/
theorem createSubmission_follows {testerId : Uuid} {payload : SubmissionCreate} :
    decisionProtocol.Safe r (discard (createSubmission id testerId payload)).commit := by
  refine safe_commit fun s₀ _ => ?_
  unfold discard createSubmission
  rw [swp_bind, swp_bind]
  simp only [swp_bind (m := orRaise _ _)]
  refine swp_lockDocket (silent_start s₀) fun a s c _ hstatus hon _ => ?_
  -- from here on the assignment is locked, so its docket stays as it was read
  rw [swp_bind, swp_raiseIf]
  intro _
  rw [swp_bind, swp_raiseIf]
  intro hready
  rw [swp_bind]
  refine swp_reads only_contractForAssignment fun contract c₁ hc₁ => ?_
  rw [swp_bind, swp_utcnow]
  intro now
  rw [swp_bind, swp_orRaise]
  intro startedAt _
  rw [swp_bind, swp_raiseIf]
  intro _
  rw [swp_bind]
  refine swp_reads only_query fun sessionCount c₂ hc₂ => ?_
  rw [swp_bind, swp_raiseIf]
  intro _
  rw [swp_bind, swp_raiseIf]
  intro _
  rw [swp_bind, swp_raiseIf]
  intro _
  rw [swp_bind]
  refine swp_reads only_checkItems fun _ c₃ hc₃ => ?_
  rw [swp_bind]
  refine swp_reads only_query fun latestVersion c₄ hc₄ => ?_
  rw [swp_bind, swp_uuid4]
  intro k
  rw [swp_bind, swp_utcnow]
  intro insertedAt
  have hon₄ := (((hon.reads hc₁).reads hc₂).reads hc₃).reads hc₄
  simp only [swp_bind (m := add _), swp_bind (m := flush)]
  -- the new submission has a fresh identifier, and keeps it
  refine swp_add_flush (Q := fun s => s.evidenceSubmissions.get? k = none) ?_ ?_
  · intro s _ _ hviolates
    simp only [insertEvidenceSubmission, firstViolated_cons, Table.contains_eq_false,
      hon₄.silent s] at hviolates
    exact ⟨stable_newSubmission List.mem_cons_self, hviolates.1⟩
  · intro c₅ s₅ hsent hrows hnew
    refine swp_moves (π := Db.casework) (A := Submits id) ?_ ?_
    -- the items, the audit event and the notification are no casework
    · refine Moves.after (only_addItems fun _ _ _ => rfl) fun _ => Moves.after only_utcnow fun now => ?_
      refine Moves.before (moves_assignment.mono fun x y h => ⟨_, fun _ => rfl, h⟩) fun _ => ?_
      exact (only_addAuditEvent fun _ => rfl).bind fun _ =>
        only_getCampaign.bind fun _ => only_testerDisplayName.bind fun _ =>
        (only_addNotification fun _ _ => rfl).bind fun _ => only_flush.bind fun _ => only_pure
    · intro c₆ hmoves hheld hknown
      refine commits_step (hheld _ (hsent.held _ hon₄.locked)) fun t ht hk => ?_
      have hdocket := hon₄.known t (hsent.known t (hknown t hk))
      have hnone := hnew t (hknown t hk)
      obtain ⟨g, hg, hy⟩ := hmoves t
      rw [hsent.view, hon₄.silent] at hy
      rw [hy]
      refine ⟨_, ?_, amends_insertSubmission (x := t.casework)
        (e := ⟨id, latestVersion + 1, payload.summary, .submitted, insertedAt⟩) ht.orderly hnone
        (hheld _ (hrows _ List.mem_cons_self)) hg ?_⟩
      -- a step of the docket: the assignment was open for a submission
      · refine .submit ?_ (submissionsIn_of_none hnone)
        rw [hdocket, hstatus]
        have hready := not_not.mp hready
        simp only [List.mem_cons, List.not_mem_nil, or_false] at hready
        exact hready.imp (congrArg some) (congrArg some)
      · show (t.docket id).status ≠ none
        rw [hdocket, hstatus]
        simp

/-- **A review keeps to the protocol.** -/
theorem createReview_follows {submissionId reviewerId : Uuid} {payload : ReviewCreate} :
    decisionProtocol.Safe r (discard (createReview submissionId reviewerId payload)).commit := by
  refine safe_commit fun s₀ _ => ?_
  unfold discard createReview
  rw [swp_bind, swp_bind, swp_query]
  intro s₁ _ _
  rw [silent_start]
  cases he₀ : s₁.evidenceSubmissions.get? submissionId with
  | none => exact .skip (by rw [swp_bind, swp_orRaise]; exact fun _ h => absurd h (by simp))
  | some e₀ =>
      -- read without a lock, but a submission never changes its assignment
      refine .pick (fun s => (s.docket e₀.assignmentId).submissions submissionId ≠ none)
        stable_filed (submissionsIn_ne_none.mpr ⟨e₀, he₀, rfl⟩) ?_
      rw [swp_bind, swp_orRaise]
      intro id hid
      obtain rfl := Option.some.inj hid
      rw [swp_bind]
      simp only [swp_bind (m := orRaise _ _)]
      refine swp_lockDocket (silent_start s₀) fun a s c hk hstatus hon _ => ?_
      have hfiled : (s.docket e₀.assignmentId).submissions submissionId ≠ none := hk.2
      rw [swp_bind]
      simp only [swp_bind (m := orRaise _ _)]
      refine swp_lockRow_skip fun e s₂ c₂ _ hk₂ he hc₂ => ?_
      rw [hon.silent] at he
      -- the submission that was read first is still one of the assignment, which is locked now
      have hsub : (s.docket e₀.assignmentId).submissions submissionId = some e.status := by
        have hof := hfiled
        rw [← hon.known s₂ hk₂] at hof ⊢
        obtain ⟨e', he', hof⟩ := submissionsIn_ne_none.mp hof
        exact submissionsIn_eq_some.mpr ⟨e, he, Option.some.inj (he.symm.trans he') ▸ hof, rfl⟩
      rw [swp_bind]
      simp only [swp_bind (m := orRaise _ _)]
      refine swp_lockRow_skip fun campaign s₃ c₃ _ _ _ hc₃ => ?_
      rw [swp_bind, requireCampaignOwner, swp_raiseIf]
      intro _
      have hon₃ := (hon.reads hc₂).reads hc₃
      rw [swp_bind, swp_query]
      intro s₄ _ hk₄
      rw [hon₃.silent]
      refine .skip ?_
      rw [swp_bind, swp_raiseIf]
      intro hcalm
      -- no dispute of the assignment is active, and none can become so while it is locked
      have hcalm : ∀ i x, (s.docket e₀.assignmentId).disputes i = some x → x.active = false := by
        intro i x hx
        rw [← hon₃.known s₄ hk₄] at hx
        obtain ⟨d, hd, hof, rfl⟩ := disputesIn_eq_some.mp hx
        have hnone := Option.not_isSome_iff_eq_none.mp hcalm
        have hno := Table.find?_eq_none.mp hnone i d hd
        simpa [hof] using hno
      rw [swp_bind, swp_raiseIf]
      intro hpending
      rw [swp_bind, swp_raiseIf]
      intro hawaiting
      have hpending : (s.docket e₀.assignmentId).Pending submissionId :=
        ⟨hstatus.trans (congrArg some (not_not.mp hawaiting)),
          hsub.trans (congrArg some (not_not.mp hpending))⟩
      rw [swp_bind, swp_uuid4]
      intro j
      have hon₄ := hon₃.reads (Sends.see (s := s₄))
      simp only [swp_bind (m := add _), swp_bind (m := flush)]
      -- the review gets an identifier of its own
      refine swp_add_flush (Q := fun s => s.reviews.get? j = none) ?_ ?_
      · intro t _ _ hviolates
        simp only [insertReview, firstViolated_cons, Table.contains_eq_false,
          hon₄.silent t] at hviolates
        exact ⟨stable_newReview List.mem_cons_self, hviolates.1⟩
      · intro c₅ s₅ hsent hrows hnew
        refine swp_moves (π := Db.casework) (A := Decides e₀.assignmentId submissionId
          payload.decision.assignmentStatus payload.decision.submissionStatus
          (if payload.decision = .approved then 1 else 0)) ?_ ?_
        -- what follows the decision is no casework
        · refine applyDecision_decides.before fun _ => (only_addAuditEvent fun _ => rfl).bind fun _ => ?_
          exact (only_addNotification fun _ _ => rfl).bind fun _ => only_flush.bind fun _ => only_pure
        · intro c₆ hmoves hheld hknown
          refine commits_step (hheld _ (hsent.held _ hon₄.locked))
            fun t ht hk => ?_
          have hdocket := hon₄.known t (hsent.known t (hknown t hk))
          have hdecides := hmoves t
          rw [hsent.view, hon₄.silent] at hdecides
          refine review_step_of (x := t.casework) (j := j)
            (r := ⟨submissionId, reviewerId, payload.decision, payload.notes⟩) ht.orderly
            (hnew t (hknown t hk)) (hheld _ (hrows _ List.mem_cons_self)) ?_ ?_ hdecides
          · show (t.docket e₀.assignmentId).Pending submissionId
            rw [hdocket]
            exact hpending
          · show ∀ i x, (t.docket e₀.assignmentId).disputes i = some x → x.active = false
            rw [hdocket]
            exact hcalm

/-- The checks before an escalation tie the submission to the assignment. -/
theorem swp_checkEscalation {a : Assignment} {e : EvidenceSubmission}
    {post : Unit → List Write → Ctx Db Lock Failure → Prop}
    (hpost : ∀ c', (a.status = .submitted → e.status = .submitted) →
      (a.status ≠ .submitted → e.status = .rejected) → Sends [] c c' → post () [] c') :
    swp decisionProtocol r (checkEscalation a e) post [] c := by
  unfold checkEscalation
  split
  · rename_i ha
    rw [swp_bind, swp_raiseIf]
    intro he
    refine swp_reads ?_ fun _ c' hc => hpost c' (fun _ => not_not.mp he) (fun h => absurd ha h) hc
    exact only_contractForAssignment.bind fun _ => only_utcnow.bind fun _ => only_raiseIf
  · rename_i ha
    rw [swp_raiseIf]
    intro he
    exact hpost c (fun h => absurd h ha) (fun _ => not_not.mp he) (.refl c)

/-- **An escalation keeps to the protocol.** -/
theorem openDispute_follows {openedBy : Uuid} {payload : DisputeCreate} :
    decisionProtocol.Safe r (discard (openDispute id openedBy payload)).commit := by
  refine safe_commit fun s₀ _ => ?_
  unfold discard openDispute
  rw [swp_bind, swp_bind]
  simp only [swp_bind (m := orRaise _ _)]
  refine swp_lockDocket (silent_start s₀) fun a s c _ hstatus hon _ => ?_
  rw [swp_bind]
  refine swp_reads only_requireAssignmentParticipant fun _ c₁ hc₁ => ?_
  rw [swp_bind, swp_raiseIf]
  intro _
  rw [swp_bind, swp_raiseIf]
  intro hdisputable
  rw [swp_bind, swp_orRaise]
  intro k _
  rw [swp_bind, swp_query]
  intro s₂ _ hk₂
  have hon₁ := hon.reads hc₁
  rw [hon₁.silent]
  refine .skip ?_
  rw [swp_bind, swp_orRaise]
  intro e he
  rw [swp_bind, swp_raiseIf]
  intro hof
  -- the submission that is named is one of the assignment
  have hsub : (s.docket id).submissions k = some e.status := by
    rw [← hon₁.known s₂ hk₂]
    exact submissionsIn_eq_some.mpr ⟨e, he, not_not.mp hof, rfl⟩
  rw [swp_bind]
  refine swp_checkEscalation fun c₃ hsubmitted hrejected hc₃ => ?_
  -- either it waits for a review that is overdue, or it was turned down
  have hescalated : (s.docket id).Pending k ∨ (s.docket id).TurnedDown k := by
    by_cases ha : a.status = .submitted
    · exact Or.inl ⟨hstatus.trans (congrArg some ha), hsub.trans (congrArg some (hsubmitted ha))⟩
    · have hdisputable := not_not.mp hdisputable
      simp only [List.mem_cons, List.not_mem_nil, or_false, ha] at hdisputable
      exact Or.inr ⟨hstatus.trans (congrArg some hdisputable),
        hsub.trans (congrArg some (hrejected ha))⟩
  have hon₃ := (hon₁.reads (Sends.see (s := s₂))).reads hc₃
  rw [swp_bind, swp_query]
  intro s₄ _ hk₄
  rw [hon₃.silent]
  refine .skip ?_
  rw [swp_bind, swp_raiseIf]
  intro hfirst
  -- the assignment has had no dispute so far
  have hfirst : ∀ i, (s.docket id).disputes i = none := by
    intro i
    rw [← hon₃.known s₄ hk₄]
    refine Option.eq_none_iff_forall_ne_some.mpr fun x hx => ?_
    obtain ⟨d, hd, hof, _⟩ := disputesIn_eq_some.mp hx
    have hno := Table.find?_eq_none.mp (Option.not_isSome_iff_eq_none.mp hfirst) i d hd
    simp [hof] at hno
  rw [swp_bind, swp_uuid4]
  intro i
  have hon₄ := hon₃.reads (Sends.see (s := s₄))
  simp only [swp_bind (m := add _), swp_bind (m := flush)]
  refine swp_add_flush (Q := fun s => s.disputes.get? i = none) ?_ ?_
  · intro t _ _ hviolates
    simp only [insertDispute, firstViolated_cons, Table.contains_eq_false,
      hon₄.silent t] at hviolates
    exact ⟨stable_dispute List.mem_cons_self, hviolates.1⟩
  · intro c₅ s₅ hsent hrows hnew
    refine swp_moves (π := Db.casework) (A := fun x y => y = x) ?_ ?_
    -- the audit event and the notification are no casework
    · refine Only.moves ?_ fun _ => rfl
      exact (only_addAuditEvent fun _ => rfl).bind fun _ => only_getCampaign.bind fun _ =>
        (only_addNotification fun _ _ => rfl).bind fun _ => only_pure
    · intro c₆ hmoves hheld hknown
      refine commits_step (hheld _ (hsent.held _ hon₄.locked)) fun t ht hk => ?_
      have hdocket := hon₄.known t (hsent.known t (hknown t hk))
      have hsame := hmoves t
      rw [hsent.view, hon₄.silent] at hsame
      rw [hsame]
      refine ⟨_, ?_, amends_insertDispute (x := t.casework)
        (d := { assignmentId := id, submissionId := some k, openedBy, reason := payload.reason })
        ht.orderly (hnew t (hknown t hk)) (hheld _ (hrows _ List.mem_cons_self)) rfl⟩
      -- a step of the docket: an escalation of what the owner has left or refused
      have hstep : (t.docket id).Step { t.docket id with
          disputes := Function.update (t.docket id).disputes i (some ⟨some k, true⟩) } := by
        rw [hdocket]
        exact .escalate hfirst hescalated
      exact hstep

/-- **A claim keeps to the protocol.** -/
theorem claimDispute_follows {moderatorId : Uuid} :
    decisionProtocol.Safe r (discard (claimDispute i moderatorId)).commit := by
  refine safe_commit fun s₀ _ => ?_
  unfold discard claimDispute
  rw [swp_bind, swp_bind]
  simp only [swp_bind (m := orRaise _ _)]
  refine swp_lockRow (fun d _ t => t.disputes.get? i = some d)
    (fun d s _ _ hd => ⟨stable_dispute List.mem_cons_self, hd⟩) ?_
  intro d s c _ _ _ hsent hl hknown
  have hsilent : ∀ s, c.view s = s := fun s => (hsent.view s).trans (silent_start s₀ s)
  split
  · rw [swp_bind, swp_raiseIf]
    intro _
    refine swp_moves (π := Db.casework) (A := fun x y => y = x) (only_pure.moves fun _ => rfl) ?_
    intro c' hmoves _ _
    refine commits_unseen fun t ht _ => ?_
    have hsame := hmoves t
    rw [hsilent] at hsame
    rw [hsame]
    refine ⟨fun id => ?_, .refl _, ht.orderly⟩
    rw [Db.docket, hsame]
    rfl
  · rw [swp_bind, swp_raiseIf]
    intro hopen
    rw [swp_bind, swp_utcnow]
    intro now
    refine swp_moves (π := Db.casework) (A := fun x y => y = { x with
      disputes := x.disputes.modify i fun d =>
        { d with status := .underReview, assignedTo := some moderatorId, assignedAt := some now } })
      ?_ ?_
    · refine Moves.before (moves_add fun _ => rfl) fun _ => ?_
      exact (only_addAuditEvent fun _ => rfl).bind fun _ => only_flush.bind fun _ => only_pure
    · intro c' hmoves hheld hknown'
      refine commits_unseen fun t ht hk => ?_
      have hmove := hmoves t
      rw [hsilent] at hmove
      have hkept := claim_kept (f := fun d : Dispute =>
          { d with status := .underReview, assignedTo := some moderatorId, assignedAt := some now })
        ht.orderly (hknown t (hknown' t hk)) (not_not.mp hopen) (hheld _ hl) ⟨rfl, rfl, rfl⟩
      rw [hmove]
      refine ⟨fun id => ?_, hkept.2⟩
      rw [Db.docket, hmove]
      exact hkept.1 id

theorem moves_concludes {f : Dispute → Dispute} {userId : Uuid} {fkey : String}
    (hf : ∀ d, (f d).assignmentId = d.assignmentId ∧ (f d).submissionId = d.submissionId
      ∧ (f d).assignedTo = d.assignedTo ∧ (f d).status ∉ activeDisputeStatuses) :
    Moves Db.casework (Concludes i) (add (writeDispute i userId fkey f)) :=
  moves_add fun _ => ⟨f, hf, rfl⟩

/-- A decision, with its remedy, is a step of the docket. -/
theorem remedy_step_of {d : Dispute} {a : Assignment} {x y z : Casework} {locks : List Lock}
    (hx : x.Orderly) (hsound : (x.docket d.assignmentId).Sound)
    (hd : x.disputes.get? i = some d) (hstatus : d.status = .underReview)
    (ha : (x.docket d.assignmentId).status = some a.status) (hl : .dispute i ∈ locks)
    (h : Remedies d a x y) (h' : Concludes i y z) :
    ∃ D', (x.docket d.assignmentId).Step D' ∧ Amends locks d.assignmentId x z D' := by
  have hi : (x.docket d.assignmentId).disputes i = some ⟨d.submissionId, true⟩ :=
    disputesIn_eq_some.mpr ⟨d, hd, rfl, by simp [hstatus, activeDisputeStatuses]⟩
  -- the verdicts keep the disputes, so the decision finds the dispute as it was
  have hverdict : ∀ {k : Uuid} {status : AssignmentStatus} {verdict : SubmissionStatus} {n : Nat},
      d.submissionId = some k → Decides d.assignmentId k status verdict n x y →
      ∃ m ≤ n, Amends locks d.assignmentId x z
        (((x.docket d.assignmentId).decide k status verdict m).settle i (some k)) := by
    intro k status verdict n hk hdecides
    have hfiled : (x.docket d.assignmentId).submissions k ≠ none := by
      rcases hsound.waiting (hk ▸ hi) with ⟨_, hs⟩ | ⟨_, hs⟩ <;> simp [hs]
    obtain ⟨m, hm, hamends⟩ : ∃ m ≤ n, Amends locks d.assignmentId x y
        ((x.docket d.assignmentId).decide k status verdict m) :=
      hdecides.amends hx (by simp [ha]) hfiled
    have hdy : y.disputes.get? i = some d := by
      obtain ⟨f, g, entries, _, _, _, _, rfl⟩ := hdecides
      exact hd
    have hconcludes : Amends locks d.assignmentId y z _ := h'.amends hamends.orderly hdy hl
    rw [hamends.docket, hk] at hconcludes
    exact ⟨m, hm, hamends.trans hconcludes⟩
  rcases h with ⟨k, hk, hdecides⟩ | ⟨hsubmitted, k, hk, hdecides⟩ | ⟨hsettled, rfl⟩
  · obtain ⟨m, hm, hamends⟩ := hverdict hk hdecides
    exact ⟨_, .award (hk ▸ hi) hm, hamends⟩
  · obtain ⟨m, hm, hamends⟩ := hverdict hk hdecides
    obtain rfl : m = 0 := by omega
    exact ⟨_, .rejectOverdue (hk ▸ hi) (ha.trans (congrArg some hsubmitted)), hamends⟩
  · refine ⟨_, .uphold hi ?_, h'.amends hx hd hl⟩
    rw [ha]
    exact fun h => hsettled (Option.some.inj h)

/-- **A decision keeps to the protocol.** -/
theorem resolveDispute_follows {moderatorId : Uuid} {payload : DisputeResolve} :
    decisionProtocol.Safe r (discard (resolveDispute i moderatorId payload)).commit := by
  refine safe_commit fun s₀ _ => ?_
  unfold discard resolveDispute
  rw [swp_bind, swp_bind]
  simp only [swp_bind (m := orRaise _ _)]
  refine swp_lockRow (fun d _ t => t.disputes.get? i = some d)
    (fun d s _ _ hd => ⟨stable_dispute List.mem_cons_self, hd⟩) ?_
  intro d s c _ _ _ hsent hl hknown
  rw [swp_bind, swp_raiseIf]
  intro hstatus
  rw [swp_bind, swp_raiseIf]
  intro _
  rw [swp_bind]
  simp only [swp_bind (m := orRaise _ _)]
  refine swp_lockDocket (fun s => (hsent.view s).trans (silent_start s₀ s))
    fun a s' c' _ ha hon hsent' => ?_
  refine swp_moves (π := Db.casework) (A := fun x z => ∃ y, Remedies d a x y ∧ Concludes i y z) ?_ ?_
  · refine applyRemedy_remedies.bind fun _ => Moves.after only_utcnow fun now => ?_
    refine Moves.before (moves_concludes fun d => ⟨rfl, rfl, rfl, ?_⟩) fun _ => ?_
    · cases payload.outcome <;> simp [DisputeOutcome.status, activeDisputeStatuses]
    exact (only_addAuditEvent fun _ => rfl).bind fun _ =>
      only_getCampaign.bind fun _ => (only_addNotification fun _ _ => rfl).bind fun _ =>
      (only_addNotification fun _ _ => rfl).bind fun _ => only_flush.bind fun _ => only_pure
  · intro c₂ hmoves hheld hknown'
    refine commits_step (hheld _ hon.locked) fun t ht hk => ?_
    have hdocket := hon.known t (hknown' t hk)
    obtain ⟨y, hremedies, hconcludes⟩ := hmoves t
    rw [hon.silent] at hremedies
    have hrow := hknown t (hsent'.known t (hknown' t hk))
    refine remedy_step_of (x := t.casework) ht.orderly (ht.sound _) hrow (not_not.mp hstatus) ?_
      (hheld _ (hsent'.held _ hl)) hremedies hconcludes
    show (t.docket d.assignmentId).status = _
    rw [hdocket]
    exact ha

/-- **Every request keeps to the protocol.** -/
theorem decisionRequest_safe (request : DecisionRequest) :
    decisionProtocol.Safe request request.program := by
  cases request with
  | submit id testerId payload => exact createSubmission_follows
  | review id reviewerId payload => exact createReview_follows
  | escalate id openedBy payload => exact openDispute_follows
  | claim id moderatorId => exact claimDispute_follows
  | resolve id moderatorId payload => exact resolveDispute_follows

end TestExchange
