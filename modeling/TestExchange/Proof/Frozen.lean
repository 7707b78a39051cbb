import TestExchange.Proof.Reviews

/-!
# What stays fixed while a dispute runs, and for good afterwards

No step but the resolution of a dispute touches the assignment and the
submission it is about, and once it is decided nothing touches the dispute
itself either. None of this is enforced where the dispute is stored: it follows
from the guards of every other operation.
-/

namespace TestExchange

open Txn Exchange

variable {s s' : Exchange} {i : Uuid} {d : Dispute}

/-- The dispute `d` went on as `d'`, and the rows it is about did not change. -/
structure KeptCase (s s' : Exchange) (i : Uuid) (d d' : Dispute) : Prop where
  here : s'.disputes.get? i = some d'
  assignmentId : d'.assignmentId = d.assignmentId
  submissionId : d'.submissionId = d.submissionId
  closed : d.status ∉ activeDisputeStatuses → d' = d
  active : d.status ∈ activeDisputeStatuses → d'.status ∈ activeDisputeStatuses
  rows : ∀ x j y, Disputed s d x j y →
    s'.assignments.get? d.assignmentId = some x ∧ s'.evidenceSubmissions.get? j = some y

/-- A step that leaves the dispute alone. -/
theorem keptCase_self (hd : s'.disputes.get? i = some d)
    (hrows : ∀ x j y, Disputed s d x j y →
      s'.assignments.get? d.assignmentId = some x ∧ s'.evidenceSubmissions.get? j = some y) :
    ∃ d', KeptCase s s' i d d' :=
  ⟨d, hd, rfl, rfl, fun _ => rfl, id, hrows⟩

/-- A step that touches none of the three tables. -/
theorem keptCase_congr (hd : s.disputes.get? i = some d) (ha : s'.assignments = s.assignments)
    (he : s'.evidenceSubmissions = s.evidenceSubmissions) (hds : s'.disputes = s.disputes) :
    ∃ d', KeptCase s s' i d d' :=
  keptCase_self (hds ▸ hd) fun _ _ _ hc => ⟨ha ▸ hc.ha, he ▸ hc.he⟩

/-- A change of an assignment in a quiet status. -/
theorem keptCase_move (h : CaseInv s) {id : Uuid} {a : Assignment} {f : Assignment → Assignment}
    {ev : AuditEvent} (ha : s.assignments.get? id = some a) (hq : a.status ∈ quietStatuses)
    (hd : s.disputes.get? i = some d) :
    ∃ d', KeptCase s ((s.modifyAssignment id f).record ev) i d d' :=
  keptCase_self hd fun _ _ _ hc =>
    ⟨(Table.get?_modify_ne (h.no_dispute ha hq hd)).trans hc.ha, hc.he⟩

/-- Resolving a dispute takes one that is under review. -/
theorem resolve_underReview {g : Nat} (hs : Step g s (.resolve i) s') :
    ∃ d, s.disputes.get? i = some d ∧ d.status = .underReview := by
  cases hs with
  | award hcase => exact ⟨_, hcase.hd, hcase.underReview⟩
  | rejectOverdue hcase => exact ⟨_, hcase.hd, hcase.underReview⟩
  | uphold hcase => exact ⟨_, hcase.hd, hcase.underReview⟩

/-- The resolution of another dispute. -/
theorem keptCase_resolve (h : CaseInv s) {i₀ k : Uuid} {d₀ : Dispute} {a : Assignment}
    {e : EvidenceSubmission} {fa : Assignment → Assignment}
    {fe : EvidenceSubmission → EvidenceSubmission} {f : Dispute → Dispute}
    (v : Verdict s s' d₀.assignmentId a k e fa fe) (hd₀ : s.disputes.get? i₀ = some d₀)
    (hdisputes : s'.disputes = s.disputes.modify i₀ f) (hne : i ≠ i₀)
    (hd : s.disputes.get? i = some d) : ∃ d', KeptCase s s' i d d' := by
  refine keptCase_self (by rw [hdisputes, Table.get?_modify_ne hne]; exact hd) fun x j y hc => ?_
  have hc' := v.disputed_ne hc fun hsame => hne (h.once i i₀ d d₀ hd hd₀ hsame)
  exact ⟨hc'.ha, hc'.he⟩

/-- **Every step but its own resolution keeps a case.** -/
theorem keptCase_step {g : Nat} {x : Action} (h : CaseInv s) (hs : Step g s x s')
    (hd : s.disputes.get? i = some d) (hx : x ≠ .resolve i) : ∃ d', KeptCase s s' i d d' := by
  cases hs with
  | addProfile hnew hgrant =>
      obtain ⟨_, _, ha, he, _, hds, _⟩ := paid_frame hgrant
      exact keptCase_congr hd ha he hds
  | editProfile he => exact keptCase_congr hd rfl rfl rfl
  | note he => exact keptCase_congr hd rfl rfl rfl
  | openAccount => exact keptCase_congr hd rfl rfl rfl
  | createCampaign hnew hdraft => exact keptCase_congr hd rfl rfl rfl
  | editCampaign hc hdraft => exact keptCase_congr hd rfl rfl rfl
  | publish hc hdraft hspend =>
      obtain ⟨_, _, ha, he, _, hds, _⟩ := hspend.frame
      exact keptCase_congr hd ha he hds
  | transition hc hfrom hroom => exact keptCase_congr hd rfl rfl rfl
  | complete hc hstatus => exact keptCase_congr hd rfl rfl rfl
  | apply hnew hc hpublished howner hfirst hroom =>
      exact keptCase_self hd fun _ _ _ hc => ⟨Table.get?_insert_of_some hc.ha, hc.he⟩
  | accept ha happlied hc hpublished hroom =>
      exact keptCase_move h ha (by simp [happlied, quietStatuses]) hd
  | decline ha happlied => exact keptCase_move h ha (by simp [happlied, quietStatuses]) hd
  | withdraw ha hstatus => exact keptCase_move h ha hstatus hd
  | start ha haccepted => exact keptCase_move h ha (by simp [haccepted, quietStatuses]) hd
  | submit ha hstatus hnew hof hversion hsubmitted =>
      refine keptCase_self hd fun _ _ _ hc =>
        ⟨(Table.get?_modify_ne (h.no_dispute ha ?_ hd)).trans hc.ha, Table.get?_insert_of_some hc.he⟩
      simp only [List.mem_cons, List.not_mem_nil, or_false] at hstatus
      rcases hstatus with hs | hs <;> simp [hs, quietStatuses]
  | review he hof ha hc hcalm hpending hawaiting hnew hfirst hsub hby hpay =>
      obtain ⟨_, _, has, hes, _, hds, _⟩ := paid_frame hpay
      have v := review_verdict h ha he hof (by simp [hpending]) rfl has hes
      refine keptCase_self (hds ▸ hd) fun x j y hdis => ?_
      have hdis' := v.disputed_ne hdis (h.undisputed ha hawaiting hcalm hd)
      exact ⟨hdis'.ha, hdis'.he⟩
  | openDispute hnew ha hby he hsub hof hstatus honce hopen hfresh =>
      exact keptCase_self (Table.get?_insert_of_some hd) fun _ _ _ hc => ⟨hc.ha, hc.he⟩
  | @claim i₀ m d₀ now hd₀ hopen =>
      by_cases hi : i = i₀
      · subst hi
        obtain rfl := Option.some.inj (hd₀.symm.trans hd)
        refine ⟨{ d₀ with status := .underReview, assignedTo := some m, assignedAt := some now },
          ?_, rfl, rfl, ?_, ?_, fun _ _ _ hc => ⟨hc.ha, hc.he⟩⟩
        · exact Table.get?_modify_self.trans (congrArg (Option.map _) hd)
        · intro hclosed
          exact absurd (by simp [hopen, activeDisputeStatuses]) hclosed
        · intro _
          simp [activeDisputeStatuses]
      · exact keptCase_self ((Table.get?_modify_ne hi).trans hd) fun _ _ _ hc => ⟨hc.ha, hc.he⟩
  | @award s₁ i₀ m k d₀ a e c payload note now at' hcase hremedy houtcome hstatus hsub he hof hc
      hpay =>
      obtain ⟨_, _, _, _, _, hds, _⟩ := hpay.frame
      have v := award_verdict h hcase hsub he hof hpay
      have hne : i ≠ i₀ := fun hi => hx (by rw [hi])
      exact keptCase_resolve h (f := settled payload m at') (v.congr rfl rfl) hcase.hd
        (congrArg (Table.modify · i₀ (settled payload m at')) hds) hne hd
  | @rejectOverdue i₀ m k d₀ a e payload now at' hcase hremedy houtcome hstatus hsub he hof =>
      have v := overdue_verdict h now hcase hsub he hof
      have hne : i ≠ i₀ := fun hi => hx (by rw [hi])
      exact keptCase_resolve h (f := settled payload m at') (v.congr rfl rfl) hcase.hd rfl hne hd
  | @uphold i₀ m d₀ a payload at' hcase hremedy hstatus =>
      have hne : i ≠ i₀ := fun hi => hx (by rw [hi])
      exact keptCase_self ((Table.get?_modify_ne hne).trans hd) fun _ _ _ hc => ⟨hc.ha, hc.he⟩

/-! ## Whole requests -/

/-- The statuses of the assignment and the submission a dispute is about are the same. -/
def SameStatuses (s s' : Exchange) (d : Dispute) : Prop :=
  (s'.assignments.get? d.assignmentId).map (·.status)
      = (s.assignments.get? d.assignmentId).map (·.status)
    ∧ ∀ k, d.submissionId = some k →
      (s'.evidenceSubmissions.get? k).map (·.status) = (s.evidenceSubmissions.get? k).map (·.status)

/-- The dispute under `i`, if active, is still active, about rows whose statuses are the same. -/
def ActiveFrozen (i : Uuid) (s s' : Exchange) : Prop :=
  ∀ d, s.disputes.get? i = some d → d.status ∈ activeDisputeStatuses →
    ∃ d', s'.disputes.get? i = some d' ∧ d'.status ∈ activeDisputeStatuses
      ∧ d'.assignmentId = d.assignmentId ∧ d'.submissionId = d.submissionId ∧ SameStatuses s s' d

/-- Every decided dispute is the same, about rows whose statuses are the same. -/
def ClosedFrozen (s s' : Exchange) : Prop :=
  ∀ i d, s.disputes.get? i = some d → d.status ∉ activeDisputeStatuses →
    s'.disputes.get? i = some d ∧ SameStatuses s s' d

theorem KeptCase.sameStatuses {d' : Dispute} (h : CaseInv s) (hd : s.disputes.get? i = some d)
    (hk : KeptCase s s' i d d') : SameStatuses s s' d := by
  obtain ⟨a, k, e, hc⟩ := h.disputed i d hd
  obtain ⟨ha, he⟩ := hk.rows a k e hc
  refine ⟨by rw [ha, hc.ha], fun j hj => ?_⟩
  obtain rfl := Option.some.inj (hc.submission.symm.trans hj)
  rw [he, hc.he]

theorem SameStatuses.trans {s₁ s₂ s₃ : Exchange} {d' : Dispute} (h : SameStatuses s₁ s₂ d)
    (h' : SameStatuses s₂ s₃ d') (ha : d'.assignmentId = d.assignmentId)
    (hs : d'.submissionId = d.submissionId) : SameStatuses s₁ s₃ d := by
  obtain ⟨h₁, h₂⟩ := h'
  rw [ha] at h₁
  rw [hs] at h₂
  exact ⟨h₁.trans h.1, fun k hk => (h₂ k hk).trans (h.2 k hk)⟩

/-- **No run of steps without its resolution changes what an active dispute is about.** -/
theorem activeFrozen_runs {g : Nat} {actions : List Action} (h : CaseInv s)
    (hrun : Runs (Step g) s actions s') (hp : ∀ x ∈ actions, x ≠ .resolve i) :
    ActiveFrozen i s s' := by
  refine hrun.relates (R := ActiveFrozen i) h hp (caseInv_step g) ?_ ?_ ?_
  · intro s d hd hactive
    exact ⟨d, hd, hactive, rfl, rfl, rfl, fun _ _ => rfl⟩
  · intro s₁ s₂ s₃ h₁ h₂ d hd hactive
    obtain ⟨d', hd', hactive', ha, hs, hsame⟩ := h₁ d hd hactive
    obtain ⟨d'', hd'', hactive'', ha', hs', hsame'⟩ := h₂ d' hd' hactive'
    exact ⟨d'', hd'', hactive'', ha'.trans ha, hs'.trans hs, hsame.trans hsame' ha hs⟩
  · intro s₁ x s₂ hinv hx hstep d hd hactive
    obtain ⟨d', hk⟩ := keptCase_step hinv hstep hd hx
    exact ⟨d', hk.here, hk.active hactive, hk.assignmentId, hk.submissionId,
      hk.sameStatuses hinv hd⟩

/-- No step changes a decided dispute or what it is about. -/
theorem closedFrozen_step {g : Nat} {x : Action} (h : CaseInv s) (hs : Step g s x s') :
    ClosedFrozen s s' := by
  intro i d hd hclosed
  have hx : x ≠ .resolve i := by
    rintro rfl
    obtain ⟨d', hd', hunder⟩ := resolve_underReview hs
    obtain rfl := Option.some.inj (hd.symm.trans hd')
    exact hclosed (by simp [hunder, activeDisputeStatuses])
  obtain ⟨d', hk⟩ := keptCase_step h hs hd hx
  obtain rfl := hk.closed hclosed
  exact ⟨hk.here, hk.sameStatuses h hd⟩

/-- **No run of steps changes a decided dispute or what it is about.** -/
theorem closedFrozen_runs {g : Nat} {actions : List Action} (h : CaseInv s)
    (hrun : Runs (Step g) s actions s') : ClosedFrozen s s' := by
  refine hrun.relates (R := ClosedFrozen) (p := fun _ => True) h (fun _ _ => trivial)
    (caseInv_step g) ?_ ?_ ?_
  · intro s i d hd _
    exact ⟨hd, rfl, fun _ _ => rfl⟩
  · intro s₁ s₂ s₃ h₁ h₂ i d hd hclosed
    obtain ⟨hd', hsame⟩ := h₁ i d hd hclosed
    obtain ⟨hd'', hsame'⟩ := h₂ i d hd' hclosed
    exact ⟨hd'', hsame.trans hsame' rfl rfl⟩
  · intro s₁ x s₂ hinv _ hstep
    exact closedFrozen_step hinv hstep

/-! ## Disputes are never deleted -/

/-- Every dispute is still there, about the same submission. -/
def DisputesKept (s s' : Exchange) : Prop :=
  ∀ i d, s.disputes.get? i = some d → ∃ d', s'.disputes.get? i = some d'
    ∧ d'.assignmentId = d.assignmentId ∧ d'.submissionId = d.submissionId

/-- A change of a dispute does not move it to another submission. -/
theorem disputesKept_modify {i₀ : Uuid} {f : Dispute → Dispute}
    (hf : ∀ d, (f d).assignmentId = d.assignmentId ∧ (f d).submissionId = d.submissionId)
    (hd : s'.disputes = s.disputes.modify i₀ f) : DisputesKept s s' := by
  intro i d hi
  obtain ⟨d', hd'⟩ := Table.exists_get?_modify (k := i₀) (f := f) hi
  refine ⟨d', by rw [hd]; exact hd', ?_⟩
  rcases Table.get?_modify_cases hd' with ⟨rfl, d₀, hd₀, rfl⟩ | ⟨_, hsame⟩
  · obtain rfl := Option.some.inj (hi.symm.trans hd₀)
    exact hf d
  · rw [hi] at hsame
    rw [Option.some.inj hsame]
    exact ⟨rfl, rfl⟩

theorem disputesKept_step {g : Nat} {x : Action} (h : CaseInv s) (hs : Step g s x s') :
    DisputesKept s s' := by
  intro i d hd
  by_cases hx : x = .resolve i
  · subst hx
    cases hs with
    | @award s₁ _ m k _ _ _ _ payload _ _ at' hcase _ _ _ _ _ _ _ hpay =>
        obtain ⟨_, _, _, _, _, hds, _⟩ := hpay.frame
        exact disputesKept_modify (f := settled payload m at') (fun _ => ⟨rfl, rfl⟩)
          (congrArg (Table.modify · i (settled payload m at')) hds) i d hd
    | @rejectOverdue _ m _ _ _ _ payload _ at' =>
        exact disputesKept_modify (f := settled payload m at') (fun _ => ⟨rfl, rfl⟩) rfl i d hd
    | @uphold _ m _ _ payload at' =>
        exact disputesKept_modify (f := settled payload m at') (fun _ => ⟨rfl, rfl⟩) rfl i d hd
  · obtain ⟨d', hk⟩ := keptCase_step h hs hd hx
    exact ⟨d', hk.here, hk.assignmentId, hk.submissionId⟩

theorem disputesKept_runs {g : Nat} {actions : List Action} (h : CaseInv s)
    (hrun : Runs (Step g) s actions s') : DisputesKept s s' := by
  refine hrun.relates (R := DisputesKept) (p := fun _ => True) h (fun _ _ => trivial)
    (caseInv_step g) ?_ ?_ ?_
  · intro s i d hd
    exact ⟨d, hd, rfl, rfl⟩
  · intro s₁ s₂ s₃ h₁ h₂ i d hd
    obtain ⟨d', hd', ha, hs⟩ := h₁ i d hd
    obtain ⟨d'', hd'', ha', hs'⟩ := h₂ i d' hd'
    exact ⟨d'', hd'', ha'.trans ha, hs'.trans hs⟩
  · intro s₁ x s₂ hinv _ hstep
    exact disputesKept_step hinv hstep

/-! ## A disputed submission is reviewed before its dispute or never -/

/-- What a new review is about: a submission nobody decided, and no moderator is asked. -/
theorem reviews_step {g : Nat} {x : Action} (hs : Step g s x s') :
    s'.reviews = s.reviews ∨ ∃ j r e, s'.reviews = s.reviews.insert j r
      ∧ s.evidenceSubmissions.get? r.submissionId = some e ∧ e.status = .submitted
      ∧ ∀ i d, s.disputes.get? i = some d → d.assignmentId = e.assignmentId →
        d.status ∉ activeDisputeStatuses := by
  cases hs with
  | @review _ j k id a e c r note now details he hof ha hc hcalm hpending hawaiting hnew hfirst
      hsub hby hpay =>
      obtain ⟨_, _, _, _, hr, _⟩ := paid_frame hpay
      refine Or.inr ⟨j, r, e, hr, by rw [hsub]; exact he, hpending, fun i d hd hid => ?_⟩
      exact hcalm i d hd (hid.trans hof)
  | addProfile hnew hgrant =>
      obtain ⟨_, _, _, _, hr, _⟩ := paid_frame hgrant
      exact Or.inl hr
  | publish hc hdraft hspend =>
      obtain ⟨_, _, _, _, hr, _⟩ := hspend.frame
      exact Or.inl hr
  | award hcase hremedy houtcome hstatus hsub he hof hc hpay =>
      obtain ⟨_, _, _, _, hr, _⟩ := hpay.frame
      exact Or.inl hr
  | _ => exact Or.inl rfl

/-- The submission is disputed, and no review of it was made before. -/
def Contested (k : Uuid) (s : Exchange) : Prop :=
  (∃ i d, s.disputes.get? i = some d ∧ d.submissionId = some k)
    ∧ ∀ j r, s.reviews.get? j = some r → r.submissionId ≠ k

theorem contested_step {g : Nat} {x : Action} {k : Uuid} (h : CaseInv s) (hs : Step g s x s')
    (hk : Contested k s) : Contested k s' := by
  obtain ⟨⟨i, d, hd, hof⟩, hreviews⟩ := hk
  obtain ⟨d', hd', _, hsub⟩ := disputesKept_step h hs i d hd
  refine ⟨⟨i, d', hd', hsub.trans hof⟩, ?_⟩
  rcases reviews_step hs with hr | ⟨j₀, r₀, e, hr, he, hpending, hcalm⟩
  · rw [hr]
    exact hreviews
  · rw [hr]
    intro j r hj hrk
    rcases Table.get?_insert_cases hj with hj | ⟨_, rfl, _⟩
    · exact hreviews j r hj hrk
    · -- the disputed submission waits for a verdict, so its dispute is active
      obtain ⟨a, k', e', hc⟩ := h.disputed i d hd
      obtain rfl := Option.some.inj (hc.submission.symm.trans hof)
      rw [hrk] at he
      obtain rfl := Option.some.inj (he.symm.trans hc.he)
      refine hcalm i d hd hc.hof.symm (hc.phase.active_of ?_)
      exact hpending

theorem contested_runs {g : Nat} {actions : List Action} {k : Uuid} (h : CaseInv s)
    (hrun : Runs (Step g) s actions s') : Contested k s → Contested k s' := by
  refine hrun.relates (R := fun s s' => Contested k s → Contested k s') (p := fun _ => True) h
    (fun _ _ => trivial) (caseInv_step g) (fun _ h => h) (fun _ _ _ h h' hk => h' (h hk)) ?_
  intro s₁ x s₂ hinv _ hstep
  exact contested_step hinv hstep

end TestExchange
