import Mathlib.Algebra.BigOperators.Group.List.Basic
import Mathlib.Data.Nat.Cast.Basic
import Mathlib.Algebra.Ring.Int.Defs
import Mathlib.Tactic.Ring
import TestExchange.Proof.Ledger

/-!
# Funding

What a campaign pays its testers against what its owner paid for it. Acceptance
keeps the occupied slots within the target, and approved work occupies a slot;
rejected work does not, so the slot of a tester who is rejected is given away
and a moderator who then awards the first tester puts the campaign over its
target. These awards are the only way to get there.
-/

namespace TestExchange

open Txn Exchange

variable {g : Nat} {s s' : Exchange}

/-! ## Overturned rejections -/

/-- A dispute of the campaign that awarded a tester whose submission the owner had rejected. -/
structure Overturned (s : Exchange) (campaignId : Uuid) (d : Dispute) : Prop where
  resolved : d.status = .resolved
  award : d.remedy = some .awardTester
  campaign : ∃ a, s.assignments.get? d.assignmentId = some a ∧ a.campaignId = campaignId
  rejected : ∃ k, d.submissionId = some k ∧ RejectedByOwner s k

/-- The same, as a test on the tables. -/
def isOverturned (assignments : Table Assignment) (reviews : Table Review) (campaignId : Uuid)
    (d : Dispute) : Bool :=
  d.status = .resolved && d.remedy = some .awardTester
    && (assignments.get? d.assignmentId).any (·.campaignId = campaignId)
    && reviews.any fun _ r => d.submissionId = some r.submissionId && r.decision = .rejected

/-- The number of rejections of a campaign that moderators overturned. -/
def Exchange.overturned (s : Exchange) (campaignId : Uuid) : Nat :=
  s.disputes.count (isOverturned s.assignments s.reviews campaignId)

theorem isOverturned_iff {campaignId : Uuid} {d : Dispute} :
    isOverturned s.assignments s.reviews campaignId d = true ↔ Overturned s campaignId d := by
  unfold isOverturned
  simp only [Bool.and_eq_true, decide_eq_true_eq, Option.any_eq_true, Table.any_eq_true]
  constructor
  · rintro ⟨⟨⟨hs, hr⟩, a, ha, hc⟩, i, r, hi, hk, hd⟩
    exact ⟨hs, hr, ⟨a, ha, hc⟩, r.submissionId, hk, i, r, hi, rfl, hd⟩
  · rintro ⟨hs, hr, ⟨a, ha, hc⟩, k, hk, i, r, hi, rfl, hd⟩
    exact ⟨⟨⟨hs, hr⟩, a, ha, hc⟩, i, r, hi, hk, hd⟩

/-- Reviews are never taken back. -/
theorem reviewsKept_step {x : Action} (hs : Step g s x s') {i : Uuid} {r : Review}
    (hr : s.reviews.get? i = some r) : s'.reviews.get? i = some r := by
  cases hs with
  | @addProfile s₁ u p hnew hgrant =>
      obtain ⟨_, _, _, _, hrs, _⟩ := paid_frame hgrant
      show s₁.reviews.get? i = some r
      rw [hrs]
      exact hr
  | @publish s₁ id c now hc hdraft hspend =>
      obtain ⟨_, _, _, _, hrs, _⟩ := hspend.frame
      show s₁.reviews.get? i = some r
      rw [hrs]
      exact hr
  | @review s₁ _ k id a e c q note now details he hof ha hc hcalm hpending hawaiting hnew hfirst
      hsub hby hpay =>
      obtain ⟨_, _, _, _, hrs, _⟩ := paid_frame hpay
      show s₁.reviews.get? i = some r
      rw [hrs]
      exact Table.get?_insert_of_some hr
  | @award s₁ _ m k d a e c payload note now at' hcase hremedy houtcome hstatus hsub he hof hc
      hpay =>
      obtain ⟨_, _, _, _, hrs, _⟩ := hpay.frame
      show s₁.reviews.get? i = some r
      rw [hrs]
      exact hr
  | _ => exact hr

theorem RejectedByOwner.kept_step {x : Action} {k : Uuid} (h : RejectedByOwner s k)
    (hs : Step g s x s') : RejectedByOwner s' k := by
  obtain ⟨i, r, hr, hk, hd⟩ := h
  exact ⟨i, r, reviewsKept_step hs hr, hk, hd⟩

theorem Overturned.kept_step {x : Action} {id : Uuid} {d : Dispute} (h : Overturned s id d)
    (hs : Step g s x s') : Overturned s' id d := by
  obtain ⟨a, ha, hcampaign⟩ := h.campaign
  obtain ⟨a', ha', hsame, _⟩ := (termsKept_step hs).assignments _ a ha
  obtain ⟨k, hk, hrejected⟩ := h.rejected
  exact ⟨h.resolved, h.award, ⟨a', ha', hsame.trans hcampaign⟩, k, hk, hrejected.kept_step hs⟩

/-- An overturned rejection stays so, in the same dispute. -/
theorem overturned_row {x : Action} (hcase : CaseInv s) (hs : Step g s x s') {id i : Uuid}
    {d : Dispute} (hd : s.disputes.get? i = some d)
    (hover : isOverturned s.assignments s.reviews id d = true) :
    ∃ d', s'.disputes.get? i = some d' ∧ isOverturned s'.assignments s'.reviews id d' = true := by
  have hover := isOverturned_iff.1 hover
  have hclosed : d.status ∉ activeDisputeStatuses := by
    simp [hover.resolved, activeDisputeStatuses]
  obtain ⟨hd', _⟩ := closedFrozen_step hcase hs i d hd hclosed
  exact ⟨d, hd', isOverturned_iff.2 (hover.kept_step hs)⟩

theorem overturned_le {x : Action} (hcase : CaseInv s) (hs : Step g s x s') (id : Uuid) :
    s.overturned id ≤ s'.overturned id :=
  Table.count_le_count fun _ _ hd hover => overturned_row hcase hs hd hover

/-- The award of a rejected tester overturns one more rejection. -/
theorem overturned_lt {x : Action} (hcase : CaseInv s) (hs : Step g s x s') {i k : Uuid}
    {d d' : Dispute} (hd : s.disputes.get? i = some d) (hactive : d.status ≠ .resolved)
    (hd' : s'.disputes.get? i = some d') (hover : Overturned s' k d') :
    s.overturned k < s'.overturned k := by
  refine Table.count_lt_count (fun _ _ hd hover => overturned_row hcase hs hd hover) hd'
    (isOverturned_iff.2 hover) ?_
  intro d₀ hd₀
  obtain rfl := Option.some.inj (hd.symm.trans hd₀)
  cases hb : isOverturned s.assignments s.reviews k d with
  | false => rfl
  | true => exact absurd (isOverturned_iff.1 hb).resolved hactive

/-! ## Occupied slots -/

/-- A change of one assignment that occupies no slot. -/
theorem occupied_le {i : Uuid} {a : Assignment} {f : Assignment → Assignment}
    (ha : s.assignments.get? i = some a) (hf : (f a).campaignId = a.campaignId) {id : Uuid}
    (hfree : a.campaignId = id → (f a).status ∈ occupiedAssignmentStatuses →
      a.status ∈ occupiedAssignmentStatuses)
    (hs : s'.assignments = s.assignments.modify i f) : s'.occupiedSlots id ≤ s.occupiedSlots id := by
  unfold Exchange.occupiedSlots
  rw [hs]
  refine Table.count_modify_le ?_
  intro a₀ ha₀ hp
  obtain rfl := Option.some.inj (ha.symm.trans ha₀)
  simp only [Bool.and_eq_true, decide_eq_true_eq] at hp ⊢
  have hid : a.campaignId = id := hf.symm.trans hp.1
  exact ⟨hid, hfree hid hp.2⟩

theorem occupied_le_succ {i : Uuid} {f : Assignment → Assignment} (id : Uuid)
    (hs : s'.assignments = s.assignments.modify i f) :
    s'.occupiedSlots id ≤ s.occupiedSlots id + 1 := by
  unfold Exchange.occupiedSlots
  rw [hs]
  exact Table.count_modify_le_succ

theorem occupied_of_eq (hs : s'.assignments = s.assignments) (id : Uuid) :
    s'.occupiedSlots id = s.occupiedSlots id := by
  unfold Exchange.occupiedSlots
  rw [hs]

/-- A campaign that is not past its draft has no testers. -/
theorem LedgerInv.unoccupied (h : LedgerInv g s) {id : Uuid}
    (hdraft : ¬∃ c, s.campaigns.get? id = some c ∧ c.status ≠ .draft) : s.occupiedSlots id = 0 := by
  refine Table.count_eq_zero ?_
  intro i a ha
  obtain ⟨c, hc, hd, _⟩ := h.assigned i a ha
  have hne : a.campaignId ≠ id := by
    rintro rfl
    exact hdraft ⟨c, hc, hd⟩
  simp [hne]

/-- **The slots in use are within the target, but for overturned rejections.** -/
def Funded (s : Exchange) : Prop :=
  ∀ id c, s.campaigns.get? id = some c → s.occupiedSlots id ≤ c.targetTesters + s.overturned id

theorem funded_empty : Funded Exchange.empty :=
  fun id c hc => absurd hc (by simp [Exchange.empty, Db.exchange, Db.empty])

/-- A step keeps within the target if every campaign does that takes up a slot. -/
theorem Funded.of_slots (h : Funded s) (hledger : LedgerInv g s) (hkept : TermsKept s s')
    (hover : ∀ id, s.overturned id ≤ s'.overturned id)
    (hslots : ∀ id, s'.occupiedSlots id ≤ s.occupiedSlots id ∨
      ∃ c, s.campaigns.get? id = some c ∧ c.status ≠ .draft
        ∧ s'.occupiedSlots id ≤ c.targetTesters + s'.overturned id) : Funded s' := by
  intro id c' hc'
  have hsame : ∀ c, s.campaigns.get? id = some c → c.status ≠ .draft →
      c'.targetTesters = c.targetTesters := by
    intro c hc hd
    obtain ⟨c₁, hc₁, _, _, htarget, _⟩ := hkept.campaigns id c hc hd
    obtain rfl := Option.some.inj (hc'.symm.trans hc₁)
    exact htarget
  rcases hslots id with hle | ⟨c, hc, hd, hle⟩
  · by_cases hex : ∃ c, s.campaigns.get? id = some c ∧ c.status ≠ .draft
    · obtain ⟨c, hc, hd⟩ := hex
      have hfunded := h id c hc
      have htarget := hsame c hc hd
      have hover := hover id
      omega
    · have hzero := hledger.unoccupied hex
      omega
  · have htarget := hsame c hc hd
    omega

/-- A verdict of a moderator is about work the owner rejected, unless it is overdue. -/
theorem rejectedByOwner_of_dispute (hcase : CaseInv s) (hreviews : ReviewInv s) {i k : Uuid}
    {d : Dispute} {e : EvidenceSubmission} (hd : s.disputes.get? i = some d)
    (hactive : d.status ≠ .rejected) (hsub : d.submissionId = some k)
    (he : s.evidenceSubmissions.get? k = some e) (hrejected : e.status = .rejected) :
    RejectedByOwner s k := by
  rcases hreviews.rejected k e he hrejected with hr | ⟨j, d', hd', hsub', hs'⟩
  · exact hr
  · -- the submission belongs to one assignment, and that has one dispute
    obtain ⟨_, k₁, e₁, hc⟩ := hcase.disputed i d hd
    obtain ⟨_, k₂, e₂, hc'⟩ := hcase.disputed j d' hd'
    obtain rfl : k = k₁ := Option.some.inj (hsub.symm.trans hc.submission)
    obtain rfl : k = k₂ := Option.some.inj (hsub'.symm.trans hc'.submission)
    obtain rfl := Option.some.inj (hc.he.symm.trans hc'.he)
    obtain rfl := hcase.once i j d d' hd hd' (hc.hof.symm.trans hc'.hof)
    obtain rfl := Option.some.inj (hd.symm.trans hd')
    exact absurd hs' hactive

/-- **Funding is preserved by every step.** -/
theorem funded_step (g : Nat) (s : Exchange) (x : Action) (s' : Exchange) (hcase : CaseInv s)
    (hreviews : ReviewInv s) (hledger : LedgerInv g s) (h : Funded s) (hs : Step g s x s') :
    Funded s' := by
  have hstep := hs
  have hkept := termsKept_step hs
  have hover := overturned_le hcase hs
  -- a step that leaves the assignments alone takes no slot
  have hsame : s'.assignments = s.assignments → Funded s' := by
    intro ha
    exact h.of_slots hledger hkept hover fun id => Or.inl (Nat.le_of_eq (occupied_of_eq ha id))
  -- a step that moves one assignment takes none either, unless it enters an occupied status
  have hfree : ∀ {i : Uuid} {a : Assignment} {f : Assignment → Assignment},
      s.assignments.get? i = some a → (f a).campaignId = a.campaignId →
      ((f a).status ∈ occupiedAssignmentStatuses → a.status ∈ occupiedAssignmentStatuses) →
      s'.assignments = s.assignments.modify i f → Funded s' := by
    intro i a f ha hf hocc ht
    exact h.of_slots hledger hkept hover fun id => Or.inl (occupied_le ha hf (fun _ => hocc) ht)
  cases hs with
  | addProfile hnew hgrant => exact hsame (paid_frame hgrant).2.2.1
  | editProfile he => exact hsame rfl
  | note he => exact hsame rfl
  | openAccount => exact hsame rfl
  | createCampaign hnew hdraft => exact hsame rfl
  | editCampaign hc hdraft => exact hsame rfl
  | publish hc hdraft hspend => exact hsame hspend.frame.2.2.1
  | transition hc hfrom hroom => exact hsame rfl
  | complete hc hstatus => exact hsame rfl
  | @apply id campaignId testerId c note hnew hc hpublished howner hfirst hroom =>
      refine h.of_slots hledger hkept hover fun i => Or.inl (Nat.le_of_eq ?_)
      exact Table.count_insert_of_not (by simp [occupiedAssignmentStatuses])
  | @accept id a c now ha happlied hc hpublished hroom =>
      refine h.of_slots hledger hkept hover fun i => ?_
      by_cases hi : a.campaignId = i
      · subst hi
        -- the gate left room for one more
        refine Or.inr ⟨c, hc, by simp [hpublished], ?_⟩
        refine Nat.le_trans (occupied_le_succ (s := s)
          (f := fun a => { a with status := .accepted, acceptedAt := some now }) _ rfl) ?_
        exact Nat.le_trans hroom (Nat.le_add_right _ _)
      · exact Or.inl (occupied_le
          (f := fun a => { a with status := .accepted, acceptedAt := some now }) ha rfl
          (fun h => absurd h hi) rfl)
  | @decline id a actor now details ha happlied =>
      exact hfree (f := fun a => { a with status := .cancelled, completedAt := some now }) ha rfl
        (by simp [occupiedAssignmentStatuses]) rfl
  | @withdraw id a now details ha hstatus =>
      exact hfree (f := fun a => { a with status := .cancelled, completedAt := some now }) ha rfl
        (by simp [occupiedAssignmentStatuses]) rfl
  | @start id a now ha haccepted =>
      exact hfree (f := fun a => { a with status := .inProgress, startedAt := some now }) ha rfl
        (by simp [occupiedAssignmentStatuses, haccepted]) rfl
  | @submit id k a e now details ha hstatus hnew hof hversion hsubmitted =>
      refine hfree (f := fun a => { a with status := .submitted, submittedAt := some now }) ha rfl ?_
        rfl
      intro _
      simp only [List.mem_cons, List.not_mem_nil, or_false] at hstatus
      rcases hstatus with hs | hs <;> simp [occupiedAssignmentStatuses, hs]
  | @review s₁ i k id a e c r note now details he hof ha hc hcalm hpending hawaiting hnew hfirst
      hsub hby hpay =>
      obtain ⟨_, _, has, _⟩ := paid_frame hpay
      exact hfree (f := r.decision.conclude now) ha rfl
        (by simp [occupiedAssignmentStatuses, hawaiting]) has
  | openDispute hnew ha hby he hsub hof hstatus honce hopen hfresh => exact hsame rfl
  | claim hd hopen => exact hsame rfl
  | @award s₁ i m k d a e c payload note now at' hunder hremedy houtcome hstatus hsub he hof hc
      hpay =>
      obtain ⟨_, _, has, _, _, hds, _⟩ := hpay.frame
      obtain ⟨_, hescalated⟩ := hcase.underReview_of hunder hsub he
      rcases hescalated with ⟨hawaiting, _⟩ | ⟨_, hrejected⟩
      -- overdue work still holds its slot
      · exact hfree (f := ReviewDecision.conclude .approved now) hunder.ha rfl
          (by simp [occupiedAssignmentStatuses, hawaiting]) has
      refine h.of_slots hledger hkept hover fun j => ?_
      by_cases hj : a.campaignId = j
      · subst hj
        obtain ⟨c₀, hc₀, hd₀, _⟩ := hledger.assigned _ a hunder.ha
        obtain rfl := Option.some.inj (hc.symm.trans hc₀)
        refine Or.inr ⟨c, hc, hd₀, ?_⟩
        -- the slot is one too many, and so is the rejection that was overturned
        have howner := rejectedByOwner_of_dispute hcase hreviews hunder.hd
          (by simp [hunder.underReview]) hsub he hrejected
        have hnow : ((s₁.settle i m payload at').record
            (resolutionEvent i m d.assignmentId payload)).disputes.get? i
            = some (settled payload m at' d) := by
          show (s₁.disputes.modify i (settled payload m at')).get? i = _
          rw [hds]
          show (s.disputes.modify i (settled payload m at')).get? i = _
          rw [Table.get?_modify_self, hunder.hd]
          rfl
        obtain ⟨a', ha', hsame', _⟩ := hkept.assignments _ a hunder.ha
        have hlt := overturned_lt hcase hstep hunder.hd (by simp [hunder.underReview]) hnow
          (k := a.campaignId)
          { resolved := by simp [settled, houtcome, DisputeOutcome.status]
            award := by simp [settled, hremedy]
            campaign := ⟨a', ha', hsame'⟩
            rejected := ⟨k, hsub, howner.kept_step hstep⟩ }
        have hsucc := occupied_le_succ (s := s) a.campaignId has
        have hfunded := h _ c hc
        refine Nat.le_trans hsucc ?_
        omega
      · exact Or.inl (occupied_le (f := ReviewDecision.conclude .approved now) hunder.ha rfl
          (fun h => absurd h hj) has)
  | @rejectOverdue i m k d a e payload now at' hunder hremedy houtcome hstatus hsub he hof =>
      exact hfree (f := fun a => { a with status := .rejected, completedAt := some now }) hunder.ha
        rfl (by simp [occupiedAssignmentStatuses]) rfl
  | uphold hunder hremedy hstatus => exact hsame rfl

/-- **Every possible marketplace is funded.** -/
theorem funded_possible (h : Possible g s) : Funded s := by
  have all : CaseInv s ∧ ReviewInv s ∧ LedgerInv g s ∧ Funded s := by
    refine @Possible.invariant g (fun s => CaseInv s ∧ ReviewInv s ∧ LedgerInv g s ∧ Funded s) s h
      ⟨caseInv_empty, reviewInv_empty, ledgerInv_empty, funded_empty⟩ ?_
    intro s x s' ⟨hc, hr, hl, hf⟩ hs
    exact ⟨caseInv_step g s x s' hc hs, reviewInv_step g s x s' hc hr hs, ledgerInv_step g s x s' hl hs,
      funded_step g s x s' hc hr hl hf hs⟩
  exact all.2.2.2

/-! ## What is paid and what was spent -/

/-- The reward entries that refer to assignments of the campaign. -/
def Exchange.rewardEntries (s : Exchange) (campaignId : Uuid) : List CreditLedgerEntry :=
  s.creditLedgerEntries.filter fun e =>
    e.entryType = .reward && (e.referenceId.bind s.assignments.get?).any (·.campaignId = campaignId)

/-- What the testers of a campaign were paid. -/
def Exchange.rewardsPaid (s : Exchange) (campaignId : Uuid) : Int :=
  ((s.rewardEntries campaignId).map (·.delta)).sum

/-- The posting entries of the campaign. -/
def Exchange.postingEntries (s : Exchange) (campaignId : Uuid) : List CreditLedgerEntry :=
  s.creditLedgerEntries.filter fun e =>
    e.entryType = .posting && e.referenceId = some campaignId

/-- What the owner of a campaign spent on it. -/
def Exchange.postingSpend (s : Exchange) (campaignId : Uuid) : Int :=
  -((s.postingEntries campaignId).map (·.delta)).sum

theorem LedgerInv.reward_entry (h : LedgerInv g s) {id : Uuid} {e : CreditLedgerEntry}
    (he : e ∈ s.rewardEntries id) : ∃ i a c, e.referenceId = some i
      ∧ e.occasion = some (.reward i) ∧ s.assignments.get? i = some a ∧ a.campaignId = id
      ∧ a.status = .approved ∧ s.campaigns.get? id = some c ∧ e.delta = c.rewardCredits := by
  obtain ⟨hmem, htest⟩ := List.mem_filter.1 he
  simp only [Bool.and_eq_true, decide_eq_true_eq, Option.any_eq_true, Option.bind_eq_some_iff]
    at htest
  obtain ⟨htype, a, ⟨i, hi, ha⟩, hid⟩ := htest
  have hoccasion : e.occasion = some (.reward i) := by
    rw [CreditLedgerEntry.occasion, htype, hi]
    rfl
  obtain ⟨o, ho⟩ := h.explained e hmem
  obtain rfl := Option.some.inj (hoccasion.symm.trans ho.occasion)
  obtain ⟨a₁, ha₁, happroved⟩ := ho.occurs
  obtain rfl := Option.some.inj (ha.symm.trans ha₁)
  obtain ⟨a₂, c, ha₂, hc, _, _, hdelta⟩ := ho.moves
  obtain rfl := Option.some.inj (ha.symm.trans ha₂)
  exact ⟨i, a, c, hi, hoccasion, ha, hid, happroved, hid ▸ hc, hdelta⟩

/-- There are no more rewards than occupied slots. -/
theorem LedgerInv.length_rewardEntries (h : LedgerInv g s) (id : Uuid) :
    (s.rewardEntries id).length ≤ s.occupiedSlots id := by
  have hnodup : ((s.rewardEntries id).map fun e => e.referenceId.getD 0).Nodup := by
    refine List.Nodup.map_on ?_ (List.Nodup.filter _ h.booked.keys.of_map)
    intro e he e' he' hsame
    obtain ⟨i, _, _, hi, hoccasion, _⟩ := h.reward_entry he
    obtain ⟨i', _, _, hi', hoccasion', _⟩ := h.reward_entry he'
    rw [hi, hi'] at hsame
    obtain rfl : i = i' := hsame
    exact h.entry_inj (List.mem_filter.1 he).1 (List.mem_filter.1 he').1
      (hoccasion.trans hoccasion'.symm)
  rw [← List.length_map (fun e => e.referenceId.getD 0)]
  refine Table.length_le_count hnodup ?_
  intro k hk
  obtain ⟨e, he, rfl⟩ := List.mem_map.1 hk
  obtain ⟨i, a, _, hi, _, ha, hid, happroved, _⟩ := h.reward_entry he
  refine ⟨a, by rw [hi]; exact ha, ?_⟩
  simp [hid, happroved, occupiedAssignmentStatuses]

/-- What is paid is at most the reward for every occupied slot. -/
theorem LedgerInv.rewardsPaid_le (h : LedgerInv g s) {id : Uuid} {c : Campaign}
    (hc : s.campaigns.get? id = some c) :
    s.rewardsPaid id ≤ s.occupiedSlots id * c.rewardCredits := by
  have hall : ∀ delta ∈ (s.rewardEntries id).map (·.delta), delta = (c.rewardCredits : Int) := by
    intro delta hd
    obtain ⟨e, he, rfl⟩ := List.mem_map.1 hd
    obtain ⟨_, _, c', _, _, _, _, _, hc', hdelta⟩ := h.reward_entry he
    obtain rfl := Option.some.inj (hc.symm.trans hc')
    exact hdelta
  have hsum := List.sum_eq_card_nsmul _ _ hall
  rw [List.length_map, nsmul_eq_mul] at hsum
  rw [Exchange.rewardsPaid, hsum]
  exact Int.mul_le_mul_of_nonneg_right (Int.ofNat_le.2 (h.length_rewardEntries id))
    (Int.natCast_nonneg _)

theorem LedgerInv.posting_entry (h : LedgerInv g s) {id : Uuid} {e : CreditLedgerEntry}
    (he : e ∈ s.postingEntries id) : e.occasion = some (.posting id)
      ∧ ∃ c, s.campaigns.get? id = some c ∧ c.status ≠ .draft
        ∧ e.delta = -(c.targetTesters * c.rewardCredits) := by
  obtain ⟨hmem, htest⟩ := List.mem_filter.1 he
  simp only [Bool.and_eq_true, decide_eq_true_eq] at htest
  have hoccasion : e.occasion = some (.posting id) := by
    rw [CreditLedgerEntry.occasion, htest.1, htest.2]
    rfl
  obtain ⟨o, ho⟩ := h.explained e hmem
  obtain rfl := Option.some.inj (hoccasion.symm.trans ho.occasion)
  obtain ⟨c, hc, hd⟩ := ho.occurs
  obtain ⟨c', hc', _, hdelta⟩ := ho.moves
  obtain rfl := Option.some.inj (hc.symm.trans hc')
  exact ⟨hoccasion, c, hc, hd, hdelta⟩

theorem occasion_posting {e : CreditLedgerEntry} {id : Uuid}
    (h : e.occasion = some (.posting id)) : e.entryType = .posting ∧ e.referenceId = some id := by
  unfold CreditLedgerEntry.occasion at h
  cases htype : e.entryType <;> cases href : e.referenceId <;> simp [htype, href] at h ⊢
  exact h

/-- A campaign past its draft was paid for once, at its terms. -/
theorem LedgerInv.postingSpend_eq (h : LedgerInv g s) {id : Uuid} {c : Campaign}
    (hc : s.campaigns.get? id = some c) (hd : c.status ≠ .draft) :
    s.postingSpend id = c.targetTesters * c.rewardCredits := by
  obtain ⟨e, he, hkey⟩ := h.recorded (.posting id) ⟨c, hc, hd⟩
  obtain ⟨o, ho⟩ := h.explained e he
  obtain rfl := Occasion.key_inj (ho.key.symm.trans hkey)
  have hentry : e ∈ s.postingEntries id := by
    obtain ⟨htype, href⟩ := occasion_posting ho.occasion
    refine List.mem_filter.2 ⟨he, ?_⟩
    simp [htype, href]
  have hsingle : s.postingEntries id = [e] := by
    have hall : ∀ e' ∈ s.postingEntries id, e' = e := fun e' he' =>
      h.entry_inj (List.mem_filter.1 he').1 he ((h.posting_entry he').1.trans ho.occasion.symm)
    have hrep := List.eq_replicate_of_mem hall
    have hnodup : (s.postingEntries id).Nodup := List.Nodup.filter _ h.booked.keys.of_map
    have hpos := List.length_pos_of_mem hentry
    rw [hrep, List.nodup_replicate] at hnodup
    rw [hrep, Nat.le_antisymm hnodup hpos]
    rfl
  obtain ⟨_, c', hc', _, hdelta⟩ := h.posting_entry hentry
  obtain rfl := Option.some.inj (hc.symm.trans hc')
  rw [Exchange.postingSpend, hsingle]
  simp [hdelta]

/-- A draft cost nothing so far. -/
theorem LedgerInv.postingSpend_draft (h : LedgerInv g s) {id : Uuid} {c : Campaign}
    (hc : s.campaigns.get? id = some c) (hd : c.status = .draft) : s.postingSpend id = 0 := by
  have hnone : s.postingEntries id = [] := by
    refine List.eq_nil_iff_forall_not_mem.2 fun e he => ?_
    obtain ⟨_, c', hc', hd', _⟩ := h.posting_entry he
    obtain rfl := Option.some.inj (hc.symm.trans hc')
    exact hd' hd
  rw [Exchange.postingSpend, hnone]
  rfl

/-- Every campaign pays its testers from what its owner spent, but for overturned rejections. -/
def FundingBounded (s : Exchange) : Prop :=
  ∀ id c, s.campaigns.get? id = some c →
    s.rewardsPaid id ≤ s.postingSpend id + c.rewardCredits * s.overturned id

/--
**Funding is conserved up to overturned rejections.** In every reachable database
the rewards of a campaign exceed what its owner spent by at most one reward for
each dispute in which a moderator awarded a tester whom the owner had rejected.
-/
theorem funding_bounded (settings : Settings) (s : Service) (h : Reachable settings s) :
    FundingBounded s.db.exchange := by
  have hpossible := reachable_possible h
  have hledger := ledgerInv_possible hpossible
  intro id c hc
  have hpaid := hledger.rewardsPaid_le hc
  by_cases hd : c.status = .draft
  · have hfree : s.db.exchange.occupiedSlots id = 0 := by
      refine hledger.unoccupied ?_
      rintro ⟨c', hc', hd'⟩
      obtain rfl := Option.some.inj (hc.symm.trans hc')
      exact hd' hd
    rw [hfree] at hpaid
    rw [hledger.postingSpend_draft hc hd]
    have hpos : (0 : Int) ≤ c.rewardCredits * s.db.exchange.overturned id :=
      Int.mul_nonneg (Int.natCast_nonneg _) (Int.natCast_nonneg _)
    omega
  · rw [hledger.postingSpend_eq hc hd]
    have hslots : (s.db.exchange.occupiedSlots id : Int)
        ≤ c.targetTesters + s.db.exchange.overturned id := by
      exact_mod_cast funded_possible hpossible id c hc
    calc s.db.exchange.rewardsPaid id
        ≤ s.db.exchange.occupiedSlots id * c.rewardCredits := hpaid
      _ ≤ (c.targetTesters + s.db.exchange.overturned id) * c.rewardCredits :=
          Int.mul_le_mul_of_nonneg_right hslots (Int.natCast_nonneg _)
      _ = c.targetTesters * c.rewardCredits + c.rewardCredits * s.db.exchange.overturned id := by
          ring

set_option maxRecDepth 4000 in
theorem funding_bounded_bench :
    benchService.db.exchange.overturned 4 = 1 ∧ FundingBounded benchService.db.exchange :=
  ⟨by decide +kernel, funding_bounded benchSettings benchService benchService_reachable⟩

set_option maxRecDepth 4000 in
/-- Without that allowance funding is not conserved: both testers of the one slot are paid. -/
theorem rewards_exceed_spend_bench :
    Reachable benchSettings benchService
      ∧ ¬(∀ id, benchService.db.exchange.rewardsPaid id ≤ benchService.db.exchange.postingSpend id) := by
  refine ⟨benchService_reachable, fun h => ?_⟩
  have hle := h 4
  obtain ⟨hpaid, hspend⟩ : benchService.db.exchange.rewardsPaid 4 = 4
      ∧ benchService.db.exchange.postingSpend 4 = 2 := by decide +kernel
  rw [hpaid, hspend] at hle
  exact absurd hle (by decide)

end TestExchange
