import TestExchange.Concurrent.Decisions

/-!
# Owner and moderators exclude each other

What the dockets say, read back in the tables, for every committed state of a
concurrent run that starts where a serial run of requests left the database.
-/

namespace TestExchange

open Txn Txn.Session Txn.World Exchange

/-- The scheduler makes a move. -/
abbrev DecisionStep : DecisionWorld → Act DecisionRequest → DecisionWorld → Prop :=
  World.Step DecisionRequest.program fun _ => true

/-- The database has a review of the submission. -/
def Db.reviewed (db : Db) (submissionId : Uuid) : Prop :=
  ∃ j r, db.reviews.get? j = some r ∧ r.submissionId = submissionId

/-- The submission waits for its verdict. -/
def Db.awaits (db : Db) (submissionId : Uuid) : Prop :=
  ∃ e, db.evidenceSubmissions.get? submissionId = some e ∧ e.status = .submitted

/--
Owner and moderators exclude each other in the committed state of `w`, and will
from then on. `s` is the state in which the first of the transactions began.
-/
structure DecisionsExclude (settings : Settings) (s : Service) (w : DecisionWorld) : Prop where
  oneDispute : ∀ i j d d', w.db.disputes.get? i = some d → w.db.disputes.get? j = some d' →
    d.assignmentId = d'.assignmentId → i = j
  oneReview : ∀ i j r r', w.db.reviews.get? i = some r → w.db.reviews.get? j = some r' →
    r.submissionId = r'.submissionId → i = j
  oneReward : ∀ id, w.db.creditLedgerEntries.countP (·.rewards id) ≤ 1
  /-- A review that is committed next finds no dispute waiting, and leaves none. -/
  calmReviews : ∀ a w' j r e, DecisionStep w a w' → w.db.reviews.get? j = none →
    w'.db.reviews.get? j = some r → w'.db.evidenceSubmissions.get? r.submissionId = some e →
    ∀ i d, w.db.disputes.get? i = some d ∨ w'.db.disputes.get? i = some d →
      d.assignmentId = e.assignmentId → d.status ≠ .open ∧ d.status ≠ .underReview
  /-- A submission that a dispute committed next takes from its owner is never reviewed. -/
  oneParty : ∀ a w' acts w'' i d k, DecisionStep w a w' → Runs DecisionStep w' acts w'' →
    w.db.disputes.get? i = none → w'.db.disputes.get? i = some d → d.submissionId = some k →
    w.db.awaits k → ¬w''.db.reviewed k
  /-- Nor is one that was taken before the transactions began. -/
  earlier : ∀ s₀ rest i d k, Reachable settings s₀ → s = s₀.run settings rest →
    s₀.db.disputes.get? i = some d → d.submissionId = some k → s₀.db.awaits k → ¬w.db.reviewed k
  claimed : ∀ acts w' i d m, Runs DecisionStep w acts w' → w.db.disputes.get? i = some d →
    d.assignedTo = some m → ∃ d', w'.db.disputes.get? i = some d' ∧ d'.assignedTo = some m

variable {settings : Settings} {db db' : Db} {w w' : DecisionWorld} {a : Act DecisionRequest}
  {id i j k : Uuid}

/-! ## Dockets and tables -/

theorem disputesIn_of {d : Dispute} (hd : db.disputes.get? i = some d) :
    (db.docket d.assignmentId).disputes i
      = some ⟨d.submissionId, d.status ∈ activeDisputeStatuses⟩ :=
  disputesIn_eq_some.mpr ⟨d, hd, rfl, rfl⟩

/-- Every review is in the docket of the assignment its submission belongs to. -/
theorem Casework.Orderly.reviewsIn_of (h : db.casework.Orderly) {r : Review}
    (hr : db.reviews.get? j = some r) : ∃ e, db.evidenceSubmissions.get? r.submissionId = some e
      ∧ (db.docket e.assignmentId).reviews j = some r.submissionId := by
  obtain ⟨e, he⟩ := h.filed j r hr
  refine ⟨e, he, reviewsIn_eq_some.mpr ⟨r, hr, ?_, rfl⟩⟩
  exact submissionsIn_ne_none.mpr ⟨e, he, rfl⟩

/-- A submission is filed with one assignment. -/
theorem filed_unique {id' : Uuid} (h : (db.docket id).submissions k ≠ none)
    (h' : (db.docket id').submissions k ≠ none) : id = id' := by
  obtain ⟨e, he, rfl⟩ := submissionsIn_ne_none.mp h
  obtain ⟨e', he', rfl⟩ := submissionsIn_ne_none.mp h'
  rw [Option.some.inj (he.symm.trans he')]

/-- No docket in which the submission is contested has a review of it, and there is no other. -/
theorem not_reviewed (h : DecisionInv db) (hk : (db.docket id).Contested k) : ¬db.reviewed k := by
  rintro ⟨j, r, hr, rfl⟩
  obtain ⟨e, he, hj⟩ := h.orderly.reviewsIn_of hr
  obtain ⟨⟨i, x, hi, hx⟩, hreviews⟩ := hk
  obtain ⟨k, hd⟩ := (h.sound id).disputed i x hi
  obtain rfl := Option.some.inj (hd.about.symm.trans hx)
  have hfiled : (db.docket e.assignmentId).submissions r.submissionId ≠ none :=
    submissionsIn_ne_none.mpr ⟨e, he, rfl⟩
  obtain rfl := filed_unique hd.filed hfiled
  exact hreviews j hj

/-! ## Steps and runs -/

/-- What a step does to the dockets and the rows. -/
theorem decisionStep_db (h : decisionProtocol.Good w) (hs : DecisionStep w a w') :
    decisionProtocol.Good w'
      ∧ ∃ locks, DecisionGuar locks w.db w'.db := by
  obtain ⟨hgood, hdb | hguar⟩ := Protocol.good_step (P := decisionProtocol) decisionRequest_safe h hs
  · exact ⟨hgood, [], hdb ▸ ⟨fun _ => Or.inl rfl, .refl _⟩⟩
  · exact ⟨hgood, hguar⟩

/-- A contested submission stays contested. -/
theorem contested_guar {locks : List Lock} (h : DecisionInv db) (hg : DecisionGuar locks db db')
    (hk : (db.docket id).Contested k) : (db'.docket id).Contested k := by
  rcases hg.dockets id with hsame | ⟨_, hstep⟩
  · rw [hsame]
    exact hk
  · exact Docket.contested_step (h.sound id) hstep hk

theorem contested_decisions (h : decisionProtocol.Good w) {acts : List (Act DecisionRequest)}
    (hr : Runs DecisionStep w acts w') (hk : (w.db.docket id).Contested k) :
    (w'.db.docket id).Contested k :=
  Protocol.relates_runs (P := decisionProtocol)
    (K := fun db db' => (db.docket id).Contested k → (db'.docket id).Contested k)
    decisionRequest_safe h hr (fun _ h => h) (fun _ _ _ h h' hk => h' (h hk))
    (fun _ _ _ hs _ hg => contested_guar hs hg) hk

/-- A dispute that comes in about a submission that waits makes it contested. -/
theorem contested_of_opened {locks : List Lock} {d : Dispute} (h : DecisionInv db)
    (h' : DecisionInv db') (hg : DecisionGuar locks db db') (hnew : db.disputes.get? i = none)
    (hd : db'.disputes.get? i = some d) (hk : d.submissionId = some k) (hwaits : db.awaits k) :
    (db'.docket d.assignmentId).Contested k := by
  obtain ⟨e, he, hstatus⟩ := hwaits
  have hnone : (db.docket d.assignmentId).disputes i = none := by
    show disputesIn db.disputes d.assignmentId i = none
    rw [disputesIn, hnew]
    rfl
  have hi := disputesIn_of hd
  -- the submission is the assignment's after the step, so it was before
  have hfiled : (db'.docket e.assignmentId).submissions k ≠ none := by
    have hbefore : (db.docket e.assignmentId).submissions k ≠ none :=
      submissionsIn_ne_none.mpr ⟨e, he, rfl⟩
    rcases hg.dockets e.assignmentId with hsame | ⟨_, hstep⟩
    · rw [hsame]
      exact hbefore
    · exact Docket.filed_step hstep hbefore
  obtain ⟨k', hdisputed⟩ := (h'.sound _).disputed i _ hi
  obtain rfl := Option.some.inj (hdisputed.about.symm.trans hk)
  have hof := filed_unique hfiled hdisputed.filed
  have hsub : (db.docket d.assignmentId).submissions k' = some .submitted :=
    submissionsIn_eq_some.mpr ⟨e, he, hof, hstatus⟩
  rcases hg.dockets d.assignmentId with hsame | ⟨_, hstep⟩
  · rw [hsame] at hi
    exact absurd (hnone.symm.trans hi) (by simp)
  · exact Docket.contested_of_new (h.sound _) hstep hnone hi hk hsub

/-- A review that comes in finds no active dispute, and leaves none. -/
theorem calm_of_reviewed {locks : List Lock} {r : Review} {e : EvidenceSubmission}
    (h' : DecisionInv db') (hg : DecisionGuar locks db db')
    (hnew : db.reviews.get? j = none) (hr : db'.reviews.get? j = some r)
    (he : db'.evidenceSubmissions.get? r.submissionId = some e) {d : Dispute}
    (hd : db.disputes.get? i = some d ∨ db'.disputes.get? i = some d)
    (hof : d.assignmentId = e.assignmentId) : d.status ∉ activeDisputeStatuses := by
  obtain ⟨e', he', hj⟩ := h'.orderly.reviewsIn_of hr
  obtain rfl := Option.some.inj (he.symm.trans he')
  have hnone : (db.docket e.assignmentId).reviews j = none := by
    show reviewsIn _ db.reviews e.assignmentId j = none
    rw [reviewsIn, hnew]
    rfl
  rcases hg.dockets e.assignmentId with hsame | ⟨_, hstep⟩
  · rw [hsame] at hj
    exact absurd (hnone.symm.trans hj) (by simp)
  · obtain ⟨hcalm, hkept⟩ := Docket.review_step hstep hnone (by rw [hj]; simp)
    have hi : (db.docket e.assignmentId).disputes i
        = some ⟨d.submissionId, d.status ∈ activeDisputeStatuses⟩ := by
      rcases hd with hd | hd
      · exact hof ▸ disputesIn_of hd
      · exact hkept ▸ hof ▸ disputesIn_of hd
    exact of_decide_eq_false (hcalm i _ hi)

/-- A submission that was disputed while it waited is contested ever after. -/
theorem contested_serial {s : Service} (h : Reachable settings s)
    (requests : List (Time × CurrentUser × Request)) (hk : Contested k s.db.exchange) :
    Contested k (s.run settings requests).db.exchange := by
  induction requests generalizing s with
  | nil => exact hk
  | cons r rest ih =>
      obtain ⟨now, user, request⟩ := r
      obtain ⟨actions, _, hrun⟩ := @serve_refines settings user s now request
      have hinv := caseInv_possible (reachable_possible h)
      exact ih (h.tail now user request) (contested_runs hinv hrun hk)

/-- What is contested in the marketplace is contested in a docket. -/
theorem docket_contested (h : Contested k db.exchange) : ∃ id, (db.docket id).Contested k := by
  obtain ⟨⟨i, d, hd, hk⟩, hreviews⟩ := h
  refine ⟨d.assignmentId, ⟨i, _, disputesIn_of hd, hk⟩, fun j hj => ?_⟩
  obtain ⟨r, hr, _, hrk⟩ := reviewsIn_eq_some.mp hj
  exact hreviews j r hr hrk

theorem decisionInv_reachable {s : Service} (h : Reachable settings s) : DecisionInv s.db where
  sound := sound_of_possible (reachable_possible h)
  orderly := orderly_of_possible (reachable_possible h)

/--
**Owner or moderator.** However submissions, reviews, escalations, claims and
decisions interleave, an assignment has one dispute and one reward at most, a
submission one review, and whichever of review and escalation commits first
excludes the other.
-/
theorem owner_or_moderator (settings : Settings) (s : Service) (h : Reachable settings s)
    (next : Nat) (acts : List (Act DecisionRequest)) (w : DecisionWorld)
    (hrun : Runs DecisionStep (.idle s.db next) acts w) : DecisionsExclude settings s w := by
  have hidle := Protocol.good_idle (P := decisionProtocol) (decisionInv_reachable h) next
  have hgood := Protocol.good_runs (P := decisionProtocol) decisionRequest_safe hidle hrun
  have hinv : DecisionInv w.db := hgood.inv
  refine ⟨?_, ?_, ?_, ?_, ?_, ?_, ?_⟩
  · intro i j d d' hd hd' hof
    exact (hinv.sound _).oneDispute i j _ _ (disputesIn_of hd) (hof ▸ disputesIn_of hd')
  · intro i j r r' hr hr' hsame
    obtain ⟨e, he, hi⟩ := hinv.orderly.reviewsIn_of hr
    obtain ⟨e', he', hj⟩ := hinv.orderly.reviewsIn_of hr'
    rw [hsame] at he hi
    obtain rfl := Option.some.inj (he.symm.trans he')
    exact (hinv.sound _).oneReview i j _ hi hj
  · exact fun id => (hinv.sound id).oneReward
  · intro a w' j r e hs hnew hr he i d hd hof
    obtain ⟨hgood', locks, hg⟩ := decisionStep_db hgood hs
    have hcalm := calm_of_reviewed hgood'.inv hg hnew hr he hd hof
    exact ⟨fun hs => hcalm (by simp [hs, activeDisputeStatuses]),
      fun hs => hcalm (by simp [hs, activeDisputeStatuses])⟩
  · intro a w' acts' w'' i d k hs hrun' hnew hd hk hwaits
    obtain ⟨hgood', locks, hg⟩ := decisionStep_db hgood hs
    have hcontested := contested_of_opened hinv hgood'.inv hg hnew hd hk hwaits
    have hgood'' := Protocol.good_runs (P := decisionProtocol) decisionRequest_safe hgood' hrun'
    exact not_reviewed hgood''.inv (contested_decisions hgood' hrun' hcontested)
  · intro s₀ rest i d k hs₀ hrest hd hk hwaits
    obtain ⟨e, he, hstatus⟩ := hwaits
    have hserial : Contested k s₀.db.exchange := by
      refine ⟨⟨i, d, hd, hk⟩, ?_⟩
      rintro j r hr rfl
      obtain ⟨e', he', hne, _⟩ := (reviewInv_possible (reachable_possible hs₀)).reviewed j r hr
      obtain rfl := Option.some.inj (he.symm.trans he')
      exact hne hstatus
    obtain ⟨id, hcontested⟩ := docket_contested (hrest ▸ contested_serial hs₀ rest hserial)
    exact not_reviewed hinv (contested_decisions hidle hrun hcontested)
  · intro acts' w' i d m hrun'
    refine Protocol.relates_runs (P := decisionProtocol)
      (K := fun db db' => ∀ d, db.disputes.get? i = some d → d.assignedTo = some m →
        ∃ d', db'.disputes.get? i = some d' ∧ d'.assignedTo = some m)
      decisionRequest_safe hgood hrun' (fun _ d hd hm => ⟨d, hd, hm⟩) ?_ ?_ d
    · intro s₁ s₂ s₃ h₁ h₂ d hd hm
      obtain ⟨d', hd', hm'⟩ := h₁ d hd hm
      exact h₂ d' hd' hm'
    · intro locks db db' _ _ hg d hd hm
      exact hg.rows.claimed i d m hd hm

/-- The owner rejects it while the tester's escalation waits for the assignment. -/
def rejectedFirst : List (Act DecisionRequest) :=
  .start 1 (.review 12 1 ⟨.rejected, "No bench here"⟩)
    :: .start 2 (.escalate 8 2 ⟨some 12, "There is a bench in the picture"⟩)
    :: moves 1 21 ++ moves 2 16

theorem owner_or_moderator_bench :
    ∃ w : DecisionWorld, w.db.reviews.rows.length = 1 ∧ w.db.disputes.rows.length = 1
      ∧ DecisionsExclude benchSettings waitingService w := by
  have hrun : ((World.idle waitingService.db waitingService.nextId).run DecisionRequest.program
      rejectedFirst).map (fun w => (w.db.reviews.rows.length, w.db.disputes.rows.length))
        = some (1, 1) := by decide +kernel
  obtain ⟨w, hw, hout⟩ := Option.map_eq_some_iff.mp hrun
  obtain ⟨hreviews, hdisputes⟩ := Prod.mk.inj hout
  exact ⟨w, hreviews, hdisputes, owner_or_moderator benchSettings waitingService
    (reachable_run .init _) waitingService.nextId rejectedFirst w (World.runs_iff_run.mpr hw)⟩

end TestExchange
