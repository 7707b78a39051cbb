import TestExchange.Proof.Casework

/-!
# Reviews and what became of the submissions they decided

A review is the first verdict on its submission and, unless a moderator awards
the tester, the last one. In the other direction, a submission is rejected only
by a review or by a moderator's decision.
-/

namespace TestExchange

open Txn Exchange

/-- A moderator awarded the tester for this submission. -/
def Awarded (s : Exchange) (k : Uuid) : Prop :=
  ∃ i d, s.disputes.get? i = some d ∧ d.submissionId = some k ∧ d.status = .resolved
    ∧ d.remedy = some .awardTester

/-- The owner rejected this submission. -/
def RejectedByOwner (s : Exchange) (k : Uuid) : Prop :=
  ∃ i r, s.reviews.get? i = some r ∧ r.submissionId = k ∧ r.decision = .rejected

/-- A moderator rejected this submission. -/
def RejectedByModerator (s : Exchange) (k : Uuid) : Prop :=
  ∃ i d, s.disputes.get? i = some d ∧ d.submissionId = some k ∧ d.status = .rejected

/-- **The invariant of reviews.** -/
structure ReviewInv (s : Exchange) : Prop where
  /-- A reviewed submission is decided, as its review says or by an award. -/
  reviewed : ∀ i r, s.reviews.get? i = some r → ∃ e, s.evidenceSubmissions.get? r.submissionId = some e
    ∧ e.status ≠ .submitted ∧ (r.decision.submissionStatus = e.status ∨ Awarded s r.submissionId)
  /-- No submission is reviewed twice. -/
  once : ∀ i j r r', s.reviews.get? i = some r → s.reviews.get? j = some r' →
    r.submissionId = r'.submissionId → i = j
  /-- A rejected submission was rejected by somebody. -/
  rejected : ∀ k e, s.evidenceSubmissions.get? k = some e → e.status = .rejected →
    RejectedByOwner s k ∨ RejectedByModerator s k

theorem reviewInv_empty : ReviewInv Exchange.empty where
  reviewed := fun i r h => absurd h (by simp [Exchange.empty, Db.exchange, Db.empty])
  once := fun i j r r' h => absurd h (by simp [Exchange.empty, Db.exchange, Db.empty])
  rejected := fun k e h => absurd h (by simp [Exchange.empty, Db.exchange, Db.empty])

variable {s s' : Exchange}

/-- Decided disputes stay as they are. -/
def ClosedKept (s s' : Exchange) : Prop :=
  ∀ i d, s.disputes.get? i = some d → d.status ∉ activeDisputeStatuses → s'.disputes.get? i = some d

theorem Awarded.kept {k : Uuid} (h : Awarded s k) (hc : ClosedKept s s') : Awarded s' k := by
  obtain ⟨i, d, hd, hk, hs, hr⟩ := h
  exact ⟨i, d, hc i d hd (by simp [hs, activeDisputeStatuses]), hk, hs, hr⟩

theorem RejectedByModerator.kept {k : Uuid} (h : RejectedByModerator s k) (hc : ClosedKept s s') :
    RejectedByModerator s' k := by
  obtain ⟨i, d, hd, hk, hs⟩ := h
  exact ⟨i, d, hc i d hd (by simp [hs, activeDisputeStatuses]), hk, hs⟩

/-- A change that keeps reviews, submissions and decided disputes. -/
theorem ReviewInv.congr (h : ReviewInv s) (hr : s'.reviews = s.reviews)
    (he : s'.evidenceSubmissions = s.evidenceSubmissions) (hc : ClosedKept s s') : ReviewInv s' where
  reviewed := by
    intro i r hi
    rw [hr] at hi
    obtain ⟨e, hse, hne, hd⟩ := h.reviewed i r hi
    exact ⟨e, by rw [he]; exact hse, hne, hd.imp_right (·.kept hc)⟩
  once := by rw [hr]; exact h.once
  rejected := by
    intro k e hk hs
    rw [he] at hk
    rcases h.rejected k e hk hs with ⟨i, r, hi, hrs⟩ | hm
    · exact Or.inl ⟨i, r, by rw [hr]; exact hi, hrs⟩
    · exact Or.inr (hm.kept hc)

theorem closedKept_of_eq (hd : s'.disputes = s.disputes) : ClosedKept s s' := by
  intro i d hi _
  rw [hd]
  exact hi

/-- A change of an undecided dispute. -/
theorem closedKept_modify {i₀ : Uuid} {d₀ : Dispute} {f : Dispute → Dispute}
    (hd₀ : s.disputes.get? i₀ = some d₀) (hactive : d₀.status ∈ activeDisputeStatuses)
    (hd : s'.disputes = s.disputes.modify i₀ f) : ClosedKept s s' := by
  intro i d hi hclosed
  have hne : i ≠ i₀ := by
    rintro rfl
    obtain rfl := Option.some.inj (hd₀.symm.trans hi)
    exact hclosed hactive
  rw [hd, Table.get?_modify_ne hne]
  exact hi

/-- A verdict on a submission, given what its new status is due to. -/
theorem ReviewInv.verdict {k : Uuid} {e : EvidenceSubmission}
    {f : EvidenceSubmission → EvidenceSubmission} (h : ReviewInv s)
    (he : s.evidenceSubmissions.get? k = some e)
    (hsub : s'.evidenceSubmissions = s.evidenceSubmissions.modify k f) (hc : ClosedKept s s')
    (hold : ∀ i r, s.reviews.get? i = some r → s'.reviews.get? i = some r)
    (hdecided : (f e).status ≠ .submitted)
    (hreviews : ∀ i r, s'.reviews.get? i = some r →
      (s.reviews.get? i = some r ∧ r.submissionId ≠ k)
        ∨ (r.submissionId = k ∧ (r.decision.submissionStatus = (f e).status ∨ Awarded s' k)))
    (honce : ∀ i j r r', s'.reviews.get? i = some r → s'.reviews.get? j = some r' →
      r.submissionId = r'.submissionId → i = j)
    (hrejected : (f e).status = .rejected → RejectedByOwner s' k ∨ RejectedByModerator s' k) :
    ReviewInv s' where
  reviewed := by
    intro i r hi
    rw [hsub]
    rcases hreviews i r hi with ⟨hi, hne⟩ | ⟨rfl, hd⟩
    · obtain ⟨e', he', hs, hd⟩ := h.reviewed i r hi
      exact ⟨e', by rw [Table.get?_modify_ne hne]; exact he', hs, hd.imp_right (·.kept hc)⟩
    · exact ⟨f e, by rw [Table.get?_modify_self, he]; rfl, hdecided, hd⟩
  once := honce
  rejected := by
    intro j g hg hs
    rw [hsub] at hg
    rcases Table.get?_modify_cases hg with ⟨rfl, e', he', rfl⟩ | ⟨_, hg⟩
    · obtain rfl := Option.some.inj (he.symm.trans he')
      exact hrejected hs
    · rcases h.rejected j g hg hs with ⟨i, r, hi, hrs⟩ | hm
      · exact Or.inl ⟨i, r, hold i r hi, hrs⟩
      · exact Or.inr (hm.kept hc)

/-- **The invariant of reviews is preserved by every step.** -/
theorem reviewInv_step (g : Nat) (s : Exchange) (x : Action) (s' : Exchange) (hcase : CaseInv s)
    (h : ReviewInv s) (hs : Step g s x s') : ReviewInv s' := by
  cases hs with
  | addProfile hnew hgrant =>
      obtain ⟨_, _, _, he, hr, hd, _⟩ := paid_frame hgrant
      exact h.congr hr he (closedKept_of_eq hd)
  | editProfile he => exact h.congr rfl rfl (closedKept_of_eq rfl)
  | note he => exact h.congr rfl rfl (closedKept_of_eq rfl)
  | openAccount => exact h.congr rfl rfl (closedKept_of_eq rfl)
  | createCampaign hnew hdraft => exact h.congr rfl rfl (closedKept_of_eq rfl)
  | editCampaign hc hdraft => exact h.congr rfl rfl (closedKept_of_eq rfl)
  | publish hc hdraft hspend =>
      obtain ⟨_, _, _, he, hr, hd, _⟩ := hspend.frame
      exact h.congr hr he (closedKept_of_eq hd)
  | transition hc hfrom hroom => exact h.congr rfl rfl (closedKept_of_eq rfl)
  | complete hc hstatus => exact h.congr rfl rfl (closedKept_of_eq rfl)
  | apply hnew hc hpublished howner hfirst hroom => exact h.congr rfl rfl (closedKept_of_eq rfl)
  | accept ha happlied hc hpublished hroom => exact h.congr rfl rfl (closedKept_of_eq rfl)
  | decline ha happlied => exact h.congr rfl rfl (closedKept_of_eq rfl)
  | withdraw ha hstatus => exact h.congr rfl rfl (closedKept_of_eq rfl)
  | start ha haccepted => exact h.congr rfl rfl (closedKept_of_eq rfl)
  | @submit id k a e now details ha hstatus hnew hof hversion hsubmitted =>
      refine ⟨?_, h.once, ?_⟩
      · intro i r hi
        obtain ⟨e', he', hne, hd⟩ := h.reviewed i r hi
        exact ⟨e', Table.get?_insert_of_some he', hne, hd.imp_right (·.kept (closedKept_of_eq rfl))⟩
      · intro j f hf hrej
        -- the new submission waits for its review
        rcases Table.get?_insert_cases hf with hf | ⟨_, rfl, _⟩
        · exact h.rejected j f hf hrej
        · rw [hsubmitted] at hrej
          exact absurd hrej (by simp)
  | @review s₁ i k id a e c r note now details he hof ha hc hcalm hpending hawaiting hnew hfirst
      hsub hby hpay =>
      obtain ⟨_, _, _, hes, hrs, hds, _⟩ := paid_frame hpay
      -- the only review that is new is this one
      have hreviews : ∀ j q, s₁.reviews.get? j = some q →
          s.reviews.get? j = some q ∨ (j = i ∧ q = r) := by
        intro j q hq
        rw [hrs] at hq
        exact (Table.get?_insert_cases hq).imp_right fun hq => ⟨hq.1, hq.2.1⟩
      have hnewReview : s₁.reviews.get? i = some r := by
        rw [hrs]
        exact Table.get?_insert_self hnew
      refine h.verdict (f := fun e => { e with status := r.decision.submissionStatus }) he hes
        (closedKept_of_eq hds) ?_ ?_ ?_ ?_ ?_
      · intro j q hq
        show s₁.reviews.get? j = some q
        rw [hrs]
        exact Table.get?_insert_of_some hq
      · cases hd : r.decision <;> simp [ReviewDecision.submissionStatus]
      · intro j q hq
        rcases hreviews j q hq with hq | ⟨_, rfl⟩
        · exact Or.inl ⟨hq, hfirst j q hq⟩
        · exact Or.inr ⟨hsub, Or.inl rfl⟩
      · intro j j' q q' hq hq' hsame
        rcases hreviews j q hq with hold | ⟨rfl, rfl⟩
        · rcases hreviews j' q' hq' with hold' | ⟨_, rfl⟩
          · exact h.once j j' q q' hold hold' hsame
          · exact absurd (hsame.trans hsub) (hfirst j q hold)
        · rcases hreviews j' q' hq' with hold' | ⟨rfl, _⟩
          · exact absurd (hsame.symm.trans hsub) (hfirst j' q' hold')
          · rfl
      · intro hrej
        -- rejected by this review
        refine Or.inl ⟨i, r, hnewReview, hsub, ?_⟩
        cases hd : r.decision with
        | rejected => rfl
        | approved => rw [hd] at hrej; exact absurd hrej (by simp [ReviewDecision.submissionStatus])
        | changesRequested =>
            rw [hd] at hrej; exact absurd hrej (by simp [ReviewDecision.submissionStatus])
  | openDispute hnew ha hby he hsub hof hstatus honce hopen hfresh =>
      exact h.congr rfl rfl fun i d hd _ => Table.get?_insert_of_some hd
  | @claim i m d now hd hopen =>
      exact h.congr rfl rfl (closedKept_modify (f := fun d => { d with
        status := .underReview, assignedTo := some m, assignedAt := some now }) hd
        (by simp [hopen, activeDisputeStatuses]) rfl)
  | @award s₁ i m k d a e c payload note now at' hc hremedy houtcome hstatus hsub he hof hcamp
      hpay =>
      obtain ⟨_, _, _, hes, hrs, hds, _⟩ := hpay.frame
      have hreviews : s₁.reviews = s.reviews := hrs
      have hdisputes : ((s₁.settle i m payload at').record
          (resolutionEvent i m d.assignmentId payload)).disputes
          = s.disputes.modify i (settled payload m at') :=
        congrArg (Table.modify · i (settled payload m at')) hds
      refine h.verdict (f := fun e => { e with status := .approved }) he hes
        (closedKept_modify hc.hd hc.active hdisputes) ?_ (by simp) ?_ ?_ (by simp)
      · intro j q hq
        show s₁.reviews.get? j = some q
        rw [hreviews]
        exact hq
      · intro j q hq
        have hq' : s.reviews.get? j = some q := by rw [← hreviews]; exact hq
        -- a review of the disputed submission is overturned, any other stands
        by_cases hk : q.submissionId = k
        · refine Or.inr ⟨hk, Or.inr ⟨i, settled payload m at' d, ?_, hsub, ?_, ?_⟩⟩
          · rw [hdisputes, Table.get?_modify_self, hc.hd]; rfl
          · simp [settled, houtcome, DisputeOutcome.status]
          · simp [settled, hremedy]
        · exact Or.inl ⟨hq', hk⟩
      · show ∀ j j' q q', s₁.reviews.get? j = some q → s₁.reviews.get? j' = some q' → _
        rw [hreviews]
        exact h.once
  | @rejectOverdue i m k d a e payload now at' hc hremedy houtcome hstatus hsub he hof =>
      obtain ⟨_, hescalated⟩ := hcase.underReview_of hc hsub he
      -- an overdue submission has no review yet
      have hpending : e.status = .submitted := by
        rcases hescalated with hs | hs
        · exact hs.2
        · rw [hstatus] at hs
          exact absurd hs.1 (by simp)
      refine h.verdict (f := fun e => { e with status := .rejected }) he rfl
        (closedKept_modify (f := settled payload m at') hc.hd hc.active rfl) (fun j q hq => hq) (by simp)
        ?_ h.once ?_
      · intro j q hq
        refine Or.inl ⟨hq, ?_⟩
        rintro rfl
        obtain ⟨e', he', hne, _⟩ := h.reviewed j q hq
        obtain rfl := Option.some.inj (he.symm.trans he')
        exact hne hpending
      · intro _
        refine Or.inr ⟨i, settled payload m at' d, ?_, hsub, ?_⟩
        · show (s.disputes.modify i (settled payload m at')).get? i = _
          rw [Table.get?_modify_self, hc.hd]
          rfl
        · simp [settled, houtcome, DisputeOutcome.status]
  | @uphold i m d a payload at' hc hremedy hstatus =>
      exact h.congr rfl rfl (closedKept_modify (f := settled payload m at') hc.hd hc.active rfl)

/-- **Reviews are in order in every possible marketplace.** -/
theorem reviewInv_possible {g : Nat} {s : Exchange} (h : Possible g s) : ReviewInv s := by
  have both : CaseInv s ∧ ReviewInv s := by
    refine @Possible.invariant g (fun s => CaseInv s ∧ ReviewInv s) s h
      ⟨caseInv_empty, reviewInv_empty⟩ ?_
    intro s x s' hi hs
    exact ⟨caseInv_step g s x s' hi.1 hs, reviewInv_step g s x s' hi.1 hi.2 hs⟩
  exact both.2

end TestExchange
