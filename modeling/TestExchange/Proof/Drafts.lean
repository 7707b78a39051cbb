import TestExchange.Proof.Lifecycle
import TestExchange.Spec.Accepted

/-!
# Editing a draft

A patch names the columns it changes, and may give `null` for any of them; a
column that is not named stays. The bounds of the patch are those of creation,
so a draft that could have been created stays one that could, as long as no
patch gives `null` for a column that may not be null: the schema lets that
through, and the database does not.
-/

namespace TestExchange

open Txn Txn.Session

/-- The constraints of `CampaignCreate` on the columns that a patch can change. -/
structure Campaign.Creatable (c : Campaign) : Prop where
  name : lengthWithin 2 120 c.name = true
  category : lengthWithin 2 80 c.category = true
  publicSummary : lengthWithin 20 800 c.publicSummary = true
  publicTesterRequirements : lengthWithin 10 800 c.publicTesterRequirements = true
  minimumVersion : optionalWithin 80 c.minimumVersion = true
  targetTesters : within 1 100 c.targetTesters = true
  rewardCredits : within 1 1000 c.rewardCredits = true

/-- The patch gives `null` for a column that may not be null. -/
def CampaignUpdate.Nulls (payload : CampaignUpdate) : Prop :=
  payload.name = some none ∨ payload.category = some none ∨ payload.publicSummary = some none
    ∨ payload.publicTesterRequirements = some none ∨ payload.targetTesters = some none
    ∨ payload.rewardCredits = some none

variable {payload p q : CampaignUpdate} {c : Campaign} {db db' : Db} {campaignId ownerId : Uuid}

/-! ## One patch -/

/-- **A patch keeps the constraints of creation.** -/
theorem Campaign.Creatable.patched (h : c.Creatable) (hq : q.Bounded) :
    (q.set c c).Creatable where
  name := PatchField.all_set hq.name h.name
  category := PatchField.all_set hq.category h.category
  publicSummary := PatchField.all_set hq.publicSummary h.publicSummary
  publicTesterRequirements :=
    PatchField.all_set hq.publicTesterRequirements h.publicTesterRequirements
  minimumVersion := by
    have hbound := hq.minimumVersion
    show optionalWithin 80 (q.minimumVersion.setNullable c.minimumVersion c.minimumVersion) = true
    rw [PatchField.setNullable_self]
    match hversion : q.minimumVersion with
    | none => exact h.minimumVersion
    | some none => rfl
    | some (some version) =>
        rw [hversion] at hbound
        simpa [PatchField.all, lengthWithin, optionalWithin] using hbound
  targetTesters := PatchField.all_set hq.targetTesters h.targetTesters
  rewardCredits := PatchField.all_set hq.rewardCredits h.rewardCredits

/-- The database refuses a bounded patch exactly for its nulls. -/
theorem patchCampaign_violates (hq : q.Bounded) :
    (patchCampaign campaignId q c).violates db = none ↔ ¬q.Nulls := by
  have htarget : q.targetTesters ≠ some (some 0) := by
    intro h
    have hbound := hq.targetTesters
    rw [h] at hbound
    exact absurd hbound (by decide)
  have hreward : q.rewardCredits ≠ some (some 0) := by
    intro h
    have hbound := hq.rewardCredits
    rw [h] at hbound
    exact absurd hbound (by decide)
  unfold CampaignUpdate.Nulls patchCampaign
  simp only [firstViolated_cons, firstViolated_nil, decide_eq_false_iff_not, and_true, not_or]
  constructor
  · rintro ⟨h₁, h₂, h₃, h₄, h₅, h₆, _, _⟩
    exact ⟨h₁, h₂, h₃, h₄, h₅, h₆⟩
  · rintro ⟨h₁, h₂, h₃, h₄, h₅, h₆⟩
    exact ⟨h₁, h₂, h₃, h₄, h₅, h₆, htarget, hreward⟩

/-! ## One edit -/

/-- The owner's draft, whose owner is a user as the foreign key demands. -/
structure Db.HasDraft (db : Db) (campaignId ownerId : Uuid) (c : Campaign) : Prop where
  found : db.campaigns.get? campaignId = some c
  owner : c.ownerId = ownerId
  draft : c.status = .draft
  known : db.profiles.contains ownerId = true

/-- What an edit that is committed leaves. -/
def Db.edited (db : Db) (campaignId ownerId : Uuid) (q : CampaignUpdate) (c : Campaign) : Db :=
  (insertAuditEvent ⟨some ownerId, "campaign.updated", "campaign", campaignId, []⟩).effect
    ((patchCampaign campaignId q c).effect db)

theorem Db.HasDraft.edit (h : db.HasDraft campaignId ownerId c) :
    (db.edited campaignId ownerId q c).HasDraft campaignId ownerId (q.set c c) where
  found := by
    show (db.campaigns.modify campaignId (q.set c)).get? campaignId = some (q.set c c)
    rw [Table.get?_modify_self, h.found]
    rfl
  owner := h.owner
  draft := h.draft
  known := h.known

theorem updateCampaign_ok {now n n' : Nat} {r : Uuid × Campaign}
    (h : db.HasDraft campaignId ownerId c) :
    (updateCampaign campaignId ownerId q).commit.alone now db n = .ok (r, db', n')
      ↔ (patchCampaign campaignId q c).violates db = none ∧ r = (campaignId, q.set c c)
        ∧ db' = db.edited campaignId ownerId q c ∧ n' = n := by
  have haudit : (insertAuditEvent ⟨some ownerId, "campaign.updated", "campaign", campaignId, []⟩
      ).violates ((patchCampaign campaignId q c).effect db) = none := by
    have hknown := h.known
    simp only [insertAuditEvent, firstViolated_cons, firstViolated_nil, and_true]
    show (!db.profiles.contains ownerId) = false
    rw [hknown]
    rfl
  rw [commit_alone]
  simp only [updateCampaign, alone_bind, getCampaign_ok, requireCampaignOwner_ok, alone_raiseIf,
    alone_add, addAuditEvent_ok, alone_flush, alone_pure, and_assoc, exists_and_left,
    exists_eq_left, exists_const, List.nil_append, List.cons_append, not_not, applyAll_cons,
    applyAll_nil]
  constructor
  · rintro ⟨c₁, ⟨a, ha, _, _, hpatch, _, hr, hc₁⟩, hflush, hn⟩
    obtain rfl := Option.some.inj (h.found.symm.trans ha)
    subst hc₁
    exact ⟨hpatch, hr, applyAll_nil.mp hflush, hn.symm⟩
  · rintro ⟨hpatch, hr, hdb, hn⟩
    exact ⟨_, ⟨c, h.found, h.owner, h.draft, hpatch, haudit, hr, rfl⟩, applyAll_nil.mpr hdb, hn.symm⟩

/-! ## Any number of edits -/

/-- Each of the edits in turn is committed, and leaves a campaign that could have been created. -/
def EditsSucceed (campaignId ownerId : Uuid) : List (Time × CampaignUpdate) → Db → Nat → Prop
  | [], _, _ => True
  | (now, q) :: edits, db, next => ∃ r db' next',
      (updateCampaign campaignId ownerId q).commit.alone now db next = .ok (r, db', next')
        ∧ (∃ c, db'.campaigns.get? campaignId = some c ∧ c.Creatable)
        ∧ EditsSucceed campaignId ownerId edits db' next'

/--
**A draft stays publishable** through any sequence of edits by its owner exactly
when no edit gives `null` for a column that may not be null.
-/
theorem edits_keep_publishable (campaignId ownerId : Uuid) (c : Campaign) (db : Db) (next : Nat)
    (hdraft : db.HasDraft campaignId ownerId c) (hc : c.Creatable)
    (edits : List (Time × CampaignUpdate)) (hparse : ∀ edit ∈ edits, ∃ p : CampaignUpdate,
      p.parse = some edit.2) :
    EditsSucceed campaignId ownerId edits db next ↔ ∀ edit ∈ edits, ¬edit.2.Nulls := by
  induction edits generalizing c db next with
  | nil => exact iff_of_true trivial fun edit hedit => absurd hedit List.not_mem_nil
  | cons edit edits ih =>
      obtain ⟨now, q⟩ := edit
      obtain ⟨p, hp⟩ := hparse (now, q) List.mem_cons_self
      have hq := CampaignUpdate.parse_bounded hp
      have hrest := ih (q.set c c) (db.edited campaignId ownerId q c) next hdraft.edit
        (hc.patched hq) fun edit hedit => hparse edit (List.mem_cons_of_mem _ hedit)
      have hviolates := @patchCampaign_violates q c db campaignId hq
      rw [List.forall_mem_cons, ← hrest]
      constructor
      · rintro ⟨r, db', next', hok, _, hedits⟩
        obtain ⟨hpatch, -, rfl, rfl⟩ := (updateCampaign_ok hdraft).mp hok
        exact ⟨hviolates.mp hpatch, hedits⟩
      · rintro ⟨hnulls, hedits⟩
        have hok : (updateCampaign campaignId ownerId q).commit.alone now db next
            = .ok ((campaignId, q.set c c), db.edited campaignId ownerId q c, next) :=
          (updateCampaign_ok hdraft).mpr ⟨hviolates.mpr hnulls, rfl, rfl, rfl⟩
        exact ⟨_, _, _, hok, ⟨_, hdraft.edit.found, hc.patched hq⟩, hedits⟩

/-- A draft of user 1, number 4. -/
def draftCampaign : Campaign := benchCampaign.campaign.campaign 1

def draftDb : Db := { Db.empty with
  profiles := ⟨[(1, ⟨none, "owner", "Owner", none, none, false, none, none⟩)], by decide⟩
  campaigns := ⟨[(4, draftCampaign)], by decide⟩ }

theorem draftDb_draft : draftDb.HasDraft 4 1 draftCampaign := ⟨rfl, rfl, rfl, rfl⟩

theorem draftCampaign_creatable : draftCampaign.Creatable := by
  constructor <;> decide +kernel

/-- The owner gives `null` for the name, and the database refuses it. -/
theorem edits_null_name : (∃ p : CampaignUpdate, p.parse = some { name := some none })
    ∧ ¬EditsSucceed 4 1 [(0, { name := some none })] draftDb 5 := by
  refine ⟨⟨{ name := some none }, rfl⟩, ?_⟩
  rintro ⟨r, db', next', hok, _⟩
  have hviolates := ((updateCampaign_ok draftDb_draft).mp hok).1
  cases hviolates

theorem edits_keep_publishable_bench :
    EditsSucceed 4 1 [(0, { rewardCredits := some (some 3), minimumVersion := some none })]
      draftDb 5 := by
  refine (edits_keep_publishable 4 1 draftCampaign draftDb 5 draftDb_draft draftCampaign_creatable _
    ?_).mpr ?_
  · intro edit hedit
    rw [List.mem_singleton.mp hedit]
    exact ⟨{ rewardCredits := some (some 3), minimumVersion := some none }, rfl⟩
  · intro edit hedit
    rw [List.mem_singleton.mp hedit]
    simp [CampaignUpdate.Nulls]

end TestExchange
