import TestExchange.Model.Campaigns

/-!
# What the schemas guarantee

The bounds a body has passed, read off its `parse`.
-/

namespace TestExchange

theorem lengthWithin_le {lo hi : Nat} {s : String} (h : lengthWithin lo hi s = true) :
    s.length ≤ hi := by
  unfold lengthWithin at h
  simp only [Bool.and_eq_true, decide_eq_true_eq] at h
  exact h.2

theorem optionalWithin_le {hi : Nat} {o : Option String} (h : optionalWithin hi o = true) :
    ∀ s ∈ o, s.length ≤ hi := by
  intro s hs
  rw [Option.mem_def.mp hs] at h
  exact of_decide_eq_true h

theorem le_within {lo hi n : Nat} (h : within lo hi n = true) : lo ≤ n := by
  unfold within at h
  simp only [Bool.and_eq_true, decide_eq_true_eq] at h
  exact h.1

theorem within_le {lo hi n : Nat} (h : within lo hi n = true) : n ≤ hi := by
  unfold within at h
  simp only [Bool.and_eq_true, decide_eq_true_eq] at h
  exact h.2

/-! ## Profiles and campaigns -/

theorem ProfileUpsert.parse_bounded {p q : ProfileUpsert} (h : p.parse = some q) :
    q.username.length ≤ 40 ∧ q.displayName.length ≤ 100 ∧ ∀ s ∈ q.bio, s.length ≤ 500 := by
  unfold ProfileUpsert.parse at h
  dsimp only at h
  split at h
  · rename_i hchecks
    obtain rfl := Option.some.inj h
    simp only [Bool.and_eq_true] at hchecks
    obtain ⟨⟨⟨⟨hname, -⟩, hdisplay⟩, hbio⟩, -⟩ := hchecks
    exact ⟨lengthWithin_le hname, lengthWithin_le hdisplay, optionalWithin_le hbio⟩
  · cases h

theorem ParticipantSuspension.parse_bounded {p q : ParticipantSuspension}
    (h : p.parse = some q) : q.reason.length ≤ 500 := by
  unfold ParticipantSuspension.parse at h
  dsimp only at h
  split at h
  · rename_i hreason
    obtain rfl := Option.some.inj h
    exact lengthWithin_le hreason
  · cases h

/-- The bounds on a new campaign. -/
structure CampaignCreate.Bounded (q : CampaignCreate) : Prop where
  name : q.name.length ≤ 120
  slug : q.slug.length ≤ 140
  category : q.category.length ≤ 80
  publicSummary : q.publicSummary.length ≤ 800
  publicTesterRequirements : q.publicTesterRequirements.length ≤ 800
  minimumVersion : ∀ s ∈ q.minimumVersion, s.length ≤ 80
  targetTesters : q.targetTesters ≤ 100

theorem CampaignCreate.parse_bounded {p q : CampaignCreate} (h : p.parse = some q) :
    q.Bounded := by
  unfold CampaignCreate.parse at h
  dsimp only at h
  split at h
  · rename_i hchecks
    obtain rfl := Option.some.inj h
    simp only [Bool.and_eq_true] at hchecks
    obtain ⟨⟨⟨⟨⟨⟨⟨⟨h₁, h₂⟩, -⟩, h₃⟩, h₄⟩, h₅⟩, h₆⟩, h₇⟩, -⟩ := hchecks
    exact ⟨lengthWithin_le h₁, lengthWithin_le h₂, lengthWithin_le h₃, lengthWithin_le h₄,
      lengthWithin_le h₅, optionalWithin_le h₆, within_le h₇⟩
  · cases h

/-- A new campaign asks for somebody, and pays something. -/
theorem CampaignCreate.parse_positive {p q : CampaignCreate} (h : p.parse = some q) :
    q.targetTesters ≠ 0 ∧ q.rewardCredits ≠ 0 := by
  unfold CampaignCreate.parse at h
  dsimp only at h
  split at h
  · rename_i hchecks
    obtain rfl := Option.some.inj h
    simp only [Bool.and_eq_true] at hchecks
    obtain ⟨⟨-, htargets⟩, hreward⟩ := hchecks
    exact ⟨Nat.ne_of_gt (le_within htargets), Nat.ne_of_gt (le_within hreward)⟩
  · cases h

theorem ContractUpsert.parse_bounded {p q : ContractUpsert} (h : p.parse = some q) :
    ∀ t ∈ q.tasks, t.title.length ≤ 160 := by
  unfold ContractUpsert.parse at h
  dsimp only at h
  split at h
  · rename_i hchecks
    obtain rfl := Option.some.inj h
    rw [Bool.and_eq_true, List.all_eq_true] at hchecks
    intro t ht
    have htask := hchecks.2 t ht
    unfold ContractTaskInput.ok at htask
    rw [Bool.and_eq_true] at htask
    exact lengthWithin_le htask.1
  · cases h

theorem CampaignLaunch.parse_bounded {p q : CampaignLaunch} (h : p.parse = some q) :
    q.campaign.Bounded ∧ ∀ t ∈ q.contract.tasks, t.title.length ≤ 160 := by
  unfold CampaignLaunch.parse at h
  split at h
  · rename_i campaign contract hcampaign hcontract
    obtain rfl := Option.some.inj h
    exact ⟨CampaignCreate.parse_bounded hcampaign, ContractUpsert.parse_bounded hcontract⟩
  · cases h

theorem CampaignLaunch.parse_positive {p q : CampaignLaunch} (h : p.parse = some q) :
    q.campaign.targetTesters ≠ 0 ∧ q.campaign.rewardCredits ≠ 0 := by
  unfold CampaignLaunch.parse at h
  split at h
  · rename_i campaign contract hcampaign hcontract
    obtain rfl := Option.some.inj h
    exact CampaignCreate.parse_positive hcampaign
  · cases h

/-! ## Patches -/

/-- What a patch makes of a column that may be null: the value it gives, or what was there. -/
theorem PatchField.setNullable_self {α : Type} [DecidableEq α] {patch : PatchField α}
    {loaded : Option α} : patch.setNullable loaded loaded = patch.getD loaded := by
  match patch with
  | none => rfl
  | some value => exact setIfChanged_self loaded value

/-- What holds of the old value and of a new one holds whichever is stored. -/
theorem setIfChanged_cases {α : Type} [DecidableEq α] {P : α → Prop} {loaded new current : α}
    (hnew : P new) (hcurrent : P current) : P (setIfChanged loaded new current) := by
  unfold setIfChanged
  split
  · exact hcurrent
  · exact hnew

theorem PatchField.of_all {α : Type} {patch : PatchField α} {bound : α → Bool} {a : α}
    (h : patch.all bound = true) (ha : patch = some (some a)) : bound a = true := by
  subst ha
  exact h

section Patched

variable {α : Type} [DecidableEq α] {patch : PatchField α} {P : α → Prop}

/-- What holds of the value a patch gives and of what was there holds of what comes of it. -/
theorem PatchField.set_cases {loaded current : α} (hpatch : ∀ a, patch = some (some a) → P a)
    (hcurrent : P current) : P (patch.set loaded current) := by
  match patch with
  | none => exact hcurrent
  | some none => exact hcurrent
  | some (some value) => exact setIfChanged_cases (hpatch value rfl) hcurrent

theorem PatchField.setNullable_cases {loaded current : Option α}
    (hpatch : ∀ a, patch = some (some a) → P a) (hcurrent : ∀ a ∈ current, P a) :
    ∀ a ∈ patch.setNullable loaded current, P a := by
  match patch with
  | none => exact hcurrent
  | some none =>
      exact setIfChanged_cases (P := fun o : Option α => ∀ a ∈ o, P a) (by simp) hcurrent
  | some (some value) =>
      refine setIfChanged_cases (P := fun o : Option α => ∀ a ∈ o, P a) ?_ hcurrent
      intro a ha
      rw [← Option.some.inj ha]
      exact hpatch value rfl

/-- A bound on the patch and on what was there is one on what comes of it. -/
theorem PatchField.all_set {loaded current : α} {bound : α → Bool}
    (hpatch : patch.all bound = true) (hcurrent : bound current = true) :
    bound (patch.set loaded current) = true :=
  PatchField.set_cases (P := fun a => bound a = true) (fun _ ha => of_all hpatch ha) hcurrent

end Patched

/-- The bounds a patch has passed. -/
structure CampaignUpdate.Bounded (q : CampaignUpdate) : Prop where
  name : q.name.all (lengthWithin 2 120) = true
  category : q.category.all (lengthWithin 2 80) = true
  publicSummary : q.publicSummary.all (lengthWithin 20 800) = true
  publicTesterRequirements : q.publicTesterRequirements.all (lengthWithin 10 800) = true
  minimumVersion : q.minimumVersion.all (lengthWithin 0 80) = true
  targetTesters : q.targetTesters.all (within 1 100) = true
  rewardCredits : q.rewardCredits.all (within 1 1000) = true

theorem CampaignUpdate.parse_bounded {p q : CampaignUpdate} (h : p.parse = some q) :
    q.Bounded := by
  unfold CampaignUpdate.parse at h
  dsimp only at h
  split at h
  · rename_i hchecks
    obtain rfl := Option.some.inj h
    simp only [Bool.and_eq_true] at hchecks
    obtain ⟨⟨⟨⟨⟨⟨h₁, h₂⟩, h₃⟩, h₄⟩, h₅⟩, h₆⟩, h₇⟩ := hchecks
    exact ⟨h₁, h₂, h₃, h₄, h₅, h₆, h₇⟩
  · cases h

/-! ## Testing -/

theorem AssignmentApply.parse_bounded {p q : AssignmentApply} (h : p.parse = some q) :
    ∀ s ∈ q.applicationNote, s.length ≤ 1000 := by
  unfold AssignmentApply.parse at h
  dsimp only at h
  split at h
  · rename_i hnote
    obtain rfl := Option.some.inj h
    exact optionalWithin_le hnote
  · cases h

theorem TestingSessionCreate.parse_bounded {p q : TestingSessionCreate} (h : p.parse = some q) :
    ∀ s ∈ q.note, s.length ≤ 1000 := by
  unfold TestingSessionCreate.parse at h
  dsimp only at h
  split at h
  · rename_i hnote
    obtain rfl := Option.some.inj h
    exact optionalWithin_le hnote
  · cases h

theorem SubmissionCreate.parse_items {p q : SubmissionCreate} (h : p.parse = some q) :
    ∀ item ∈ q.items, item.ok = true := by
  unfold SubmissionCreate.parse at h
  dsimp only at h
  split at h
  · rename_i hchecks
    obtain rfl := Option.some.inj h
    simp only [Bool.and_eq_true, List.all_eq_true] at hchecks
    exact hchecks.2
  · cases h

theorem MessageCreate.parse_bounded {p q : MessageCreate} (h : p.parse = some q) :
    q.body.length ≤ 4000 := by
  unfold MessageCreate.parse at h
  dsimp only at h
  split at h
  · rename_i hbody
    obtain rfl := Option.some.inj h
    exact lengthWithin_le hbody
  · cases h

end TestExchange
