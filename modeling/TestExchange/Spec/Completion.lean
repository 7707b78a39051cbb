import TestExchange.Spec.Roster

/-!
# When campaigns complete

There are two reasons to complete a campaign: its target is reached, or it is
closed and its accepted work is settled. `settle` acts on both for the campaign
it looks at. For the others the first reason never comes up, and the second in
one way only: the last active assignment of a closed campaign is rejected.
-/

namespace TestExchange

open Txn

namespace Roster

/-- The target of an open campaign is reached. -/
def TargetReached (r : Roster) (campaignId : Uuid) (c : Campaign) : Prop :=
  (c.status = .published ∨ c.status = .paused) ∧ c.targetTesters ≤ r.approvedCount campaignId

/-- The accepted work of a closed campaign is settled. -/
def WorkSettled (r : Roster) (campaignId : Uuid) (c : Campaign) : Prop :=
  c.status = .cancelled ∧ r.activeCount campaignId = 0 ∧ 0 < r.acceptedCount campaignId

/-- A reason to complete a campaign looks at it and counts its assignments. -/
structure IsReason (D : Roster → Uuid → Campaign → Prop) : Prop where
  due : ∀ {r id c}, D r id c → r.Due id c
  counts : ∀ {r r' id c}, (∀ p, r'.countOf id p = r.countOf id p) → D r' id c → D r id c

theorem isReason_targetReached : IsReason TargetReached where
  due := Or.inl
  counts := by
    intro r r' id c hcounts h
    unfold TargetReached approvedCount at h
    rw [hcounts] at h
    exact h

theorem isReason_workSettled : IsReason WorkSettled where
  due := Or.inr
  counts := by
    intro r r' id c hcounts h
    unfold WorkSettled activeCount acceptedCount at h
    rw [hcounts, hcounts] at h
    exact h

/-- There is no such reason for any campaign. -/
def Lacks (r : Roster) (D : Roster → Uuid → Campaign → Prop) : Prop :=
  ∀ id c, r.campaigns.get? id = some c → ¬ D r id c

variable {r r' : Roster} {i id cid : Uuid} {a : Assignment} {f : Assignment → Assignment}
  {p : Assignment → Bool} {D : Roster → Uuid → Campaign → Prop} {now : Time}

/-! ## Counts -/

/-- A change to an assignment on another campaign is not counted. -/
theorem countOf_of_rows (h : ∀ a, r.assignments.get? i = some a →
    a.campaignId ≠ id ∧ (f a).campaignId ≠ id) :
    (r.modifyAssignment i f).countOf id p = r.countOf id p := by
  refine Table.count_eq_of_get? fun a ha => ?_
  have hne := h a ha
  simp [hne.1, hne.2]

theorem countOf_other (ha : r.assignments.get? i = some a) (hf : (f a).campaignId = a.campaignId)
    (hne : a.campaignId ≠ id) : (r.modifyAssignment i f).countOf id p = r.countOf id p := by
  refine countOf_of_rows fun b hb => ?_
  obtain rfl := Option.some.inj (ha.symm.trans hb)
  rw [hf]
  exact ⟨hne, hne⟩

theorem countOf_le (ha : r.assignments.get? i = some a) (hf : (f a).campaignId = a.campaignId)
    (hp : p (f a) = true → p a = true) :
    (r.modifyAssignment i f).countOf id p ≤ r.countOf id p := by
  refine Table.count_modify_le fun b hb hcounted => ?_
  obtain rfl := Option.some.inj (ha.symm.trans hb)
  rw [hf] at hcounted
  simp only [Bool.and_eq_true] at hcounted ⊢
  exact ⟨hcounted.1, hp hcounted.2⟩

theorem le_countOf (ha : r.assignments.get? i = some a) (hf : (f a).campaignId = a.campaignId)
    (hp : p a = true → p (f a) = true) :
    r.countOf id p ≤ (r.modifyAssignment i f).countOf id p := by
  have hcount := Table.count_modify (f := f)
    (p := fun b : Assignment => b.campaignId = id && p b) ha
  have himp : (decide (a.campaignId = id) && p a) = true →
      (decide ((f a).campaignId = id) && p (f a)) = true := by
    rw [hf]
    simp only [Bool.and_eq_true]
    exact fun h => ⟨h.1, hp h.2⟩
  unfold countOf modifyAssignment
  dsimp only at hcount ⊢
  split at hcount <;> split at hcount <;> first | omega | (rename_i h h'; exact absurd (himp h) h')

theorem countOf_le_succ (ha : r.assignments.get? i = some a) :
    r.countOf id p ≤ (r.modifyAssignment i f).countOf id p + 1 := by
  have hcount := Table.count_modify (f := f)
    (p := fun b : Assignment => b.campaignId = id && p b) ha
  unfold countOf modifyAssignment
  dsimp only at hcount ⊢
  split at hcount <;> split at hcount <;> omega

theorem countOf_modify_le_succ : (r.modifyAssignment i f).countOf id p ≤ r.countOf id p + 1 :=
  Table.count_modify_le_succ

theorem countOf_insert (h : p a = false) :
    ({ r with assignments := r.assignments.insert i a } : Roster).countOf id p = r.countOf id p :=
  Table.count_insert_of_not (by simp [h])

theorem countOf_pos (ha : r.assignments.get? i = some a) (hc : a.campaignId = id)
    (hp : p a = true) : 0 < r.countOf id p := by
  refine List.countP_pos_iff.mpr ⟨(i, a), Table.mem_rows.mpr ha, ?_⟩
  simp [hc, hp]

theorem countOf_eq_zero (h : ∀ i a, r.assignments.get? i = some a → a.campaignId = id →
    p a = false) : r.countOf id p = 0 := by
  refine Table.count_eq_zero fun i a ha => ?_
  by_cases hc : a.campaignId = id
  · simp [hc, h i a ha hc]
  · simp [hc]

theorem countOf_cancelAll {ids : List Uuid}
    (h : ∀ i ∈ ids, ∀ a, r.assignments.get? i = some a → a.campaignId ≠ id) :
    (r.cancelAll now ids).countOf id p = r.countOf id p := by
  induction ids generalizing r with
  | nil => rfl
  | cons j ids ih =>
      rw [cancelAll, ih]
      · refine countOf_of_rows fun a ha => ?_
        exact ⟨h j List.mem_cons_self a ha, h j List.mem_cons_self a ha⟩
      · intro k hk b hb
        rcases Table.get?_modify_cases hb with ⟨rfl, a, ha, rfl⟩ | ⟨_, hold⟩
        · exact h _ (List.mem_cons_of_mem _ hk) a ha
        · exact h k (List.mem_cons_of_mem _ hk) b hold

/-! ## Settling -/

/-- Settling leaves the campaign with no reason to complete it. -/
theorem not_due_settle {c : Campaign} (hc : (r.settle id).campaigns.get? id = some c) :
    ¬ (r.settle id).Due id c := by
  unfold settle at hc ⊢
  split
  · rename_i h
    rw [if_pos h] at hc
    rcases Table.get?_modify_cases hc with ⟨-, c₀, -, rfl⟩ | ⟨hne, -⟩
    · simp [Due]
    · exact absurd rfl hne
  · rename_i h
    rw [if_neg h] at hc
    exact fun hdue => h ⟨c, hc, hdue⟩

theorem settle_get_other (hne : i ≠ id) :
    (r.settle id).campaigns.get? i = r.campaigns.get? i := by
  unfold settle
  split
  · exact Table.get?_modify_ne hne
  · rfl

theorem countOf_settle : (r.settle cid).countOf id p = r.countOf id p := by
  unfold countOf
  rw [settle_assignments]

/-- Where reasons only came up for one campaign, settling it removes them. -/
theorem lacks_settle (hD : IsReason D)
    (h : ∀ id c, id ≠ cid → r.campaigns.get? id = some c → ¬ D r id c) :
    (r.settle cid).Lacks D := by
  intro id c hc hreason
  by_cases hid : id = cid
  · subst hid
    exact not_due_settle hc (hD.due hreason)
  · rw [settle_get_other hid] at hc
    exact h id c hid hc (hD.counts (fun p => countOf_settle) hreason)

/-- A decision about an assignment, after which its campaign is settled. -/
theorem Lacks.settle_modify (h : r.Lacks D) (hD : IsReason D)
    (ha : r.assignments.get? i = some a) (hf : (f a).campaignId = a.campaignId) :
    ((r.modifyAssignment i f).settle a.campaignId).Lacks D := by
  refine lacks_settle hD fun id c hne hc hreason => ?_
  exact h id c hc (hD.counts (fun p => countOf_other ha hf (Ne.symm hne)) hreason)

theorem Lacks.close (h : r.Lacks D) (hD : IsReason D) {g : Campaign → Campaign} :
    (((r.modifyCampaign cid g).cancelAll now ((r.pending cid).map Prod.fst)).settle cid).Lacks
      D := by
  refine lacks_settle hD fun id c hne hc hreason => ?_
  rw [cancelAll_campaigns] at hc
  have hold : r.campaigns.get? id = some c := by
    rw [← hc]
    exact (Table.get?_modify_ne hne).symm
  refine h id c hold (hD.counts (fun p => ?_) hreason)
  refine (countOf_cancelAll fun i hi a ha => ?_).trans rfl
  obtain ⟨⟨j, b⟩, hmem, rfl⟩ := List.mem_map.mp hi
  obtain ⟨hb, hp⟩ := Table.mem_where'.mp hmem
  obtain rfl := Option.some.inj (hb.symm.trans ha)
  simp only [Bool.and_eq_true, decide_eq_true_eq] at hp
  rw [hp.1]
  exact Ne.symm hne

/-! ## Single changes -/

theorem Lacks.modify_targetReached (h : r.Lacks TargetReached)
    (ha : r.assignments.get? i = some a) (hf : (f a).campaignId = a.campaignId)
    (happroved : (f a).status = .approved → a.status = .approved) :
    (r.modifyAssignment i f).Lacks TargetReached := by
  intro id c hc hreached
  have hle : (r.modifyAssignment i f).approvedCount id ≤ r.approvedCount id :=
    countOf_le ha hf (by simpa using happroved)
  exact h id c hc ⟨hreached.1, Nat.le_trans hreached.2 hle⟩

/-- An assignment that stays active if it was, on a closed campaign, settles no work. -/
theorem Lacks.modify_workSettled (h : r.Lacks WorkSettled) (ha : r.assignments.get? i = some a)
    (hf : (f a).campaignId = a.campaignId)
    (hactive : ∀ c, r.campaigns.get? a.campaignId = some c → c.status = .cancelled →
      (a.status ∈ activeTestingAssignmentStatuses →
        (f a).status ∈ activeTestingAssignmentStatuses ∨ 1 < r.activeCount a.campaignId)
      ∧ ((f a).acceptedAt.isSome → a.acceptedAt.isSome)) :
    (r.modifyAssignment i f).Lacks WorkSettled := by
  intro id c hc ⟨hclosed, hidle, haccepted⟩
  by_cases hid : a.campaignId = id
  · subst hid
    obtain ⟨hstays, hwas⟩ := hactive c hc hclosed
    have hle : (r.modifyAssignment i f).acceptedCount a.campaignId
        ≤ r.acceptedCount a.campaignId := countOf_le ha hf hwas
    refine h _ c hc ⟨hclosed, ?_, Nat.lt_of_lt_of_le haccepted hle⟩
    by_cases hstill : a.status ∈ activeTestingAssignmentStatuses →
        (f a).status ∈ activeTestingAssignmentStatuses
    · have hge : r.activeCount a.campaignId ≤ (r.modifyAssignment i f).activeCount a.campaignId :=
        le_countOf ha hf (by simpa using hstill)
      omega
    · -- the assignment was active and is not, so there was another one
      have hmore : 1 < r.activeCount a.campaignId := by
        by_contra hfew
        exact hstill fun hwas => (hstays hwas).resolve_right hfew
      have hless : r.activeCount a.campaignId
          ≤ (r.modifyAssignment i f).activeCount a.campaignId + 1 := countOf_le_succ ha
      omega
  · refine h id c hc ⟨hclosed, ?_, ?_⟩
    · rw [← hidle]
      exact (countOf_other ha hf hid).symm
    · exact Nat.lt_of_lt_of_eq haccepted (countOf_other ha hf hid)

/-- Recruitment pauses or resumes. -/
theorem Lacks.modify_open {g : Campaign → Campaign} (h : r.Lacks D)
    (hD : D = TargetReached ∨ D = WorkSettled)
    (hg : ∀ c, r.campaigns.get? cid = some c → (c.status = .published ∨ c.status = .paused)
      ∧ ((g c).status = .published ∨ (g c).status = .paused)
      ∧ (g c).targetTesters = c.targetTesters) : (r.modifyCampaign cid g).Lacks D := by
  intro id c hc hreason
  rcases Table.get?_modify_cases hc with ⟨rfl, c₀, hc₀, rfl⟩ | ⟨-, hold⟩
  · obtain ⟨hwas, his, htarget⟩ := hg c₀ hc₀
    rcases hD with rfl | rfl
    · exact h _ c₀ hc₀ ⟨hwas, htarget ▸ hreason.2⟩
    · rcases his with hs | hs <;> exact absurd (hs.symm.trans hreason.1) (by simp)
  · rcases hD with rfl | rfl <;> exact h id c hold hreason

/-! ## Campaigns that have ended -/

/-- No assignment of the campaign is waiting for an answer. -/
def NoneApplied (r : Roster) (campaignId : Uuid) : Prop :=
  ∀ i a, r.assignments.get? i = some a → a.campaignId = campaignId → a.status ≠ .applied

/-- No assignment of the campaign is waiting for an answer or being worked on. -/
def NoneOpen (r : Roster) (campaignId : Uuid) : Prop :=
  ∀ i a, r.assignments.get? i = some a → a.campaignId = campaignId →
    a.status ∉ .applied :: activeTestingAssignmentStatuses

/-- Completed campaigns hold no open work, and closed ones no applications. -/
def Finished (r : Roster) : Prop :=
  ∀ id c, r.campaigns.get? id = some c →
    (c.status = .completed → r.NoneOpen id) ∧ (c.status = .cancelled → r.NoneApplied id)

theorem noneOpen_of_idle (h : r.NoneApplied id) (hidle : r.activeCount id = 0) : r.NoneOpen id := by
  intro i a ha hid hopen
  rcases List.mem_cons.mp hopen with happlied | hactive
  · exact h i a ha hid happlied
  · have hpos : 0 < r.activeCount id := countOf_pos ha hid (by simpa using hactive)
    omega

theorem Finished.modify (h : r.Finished) (ha : r.assignments.get? i = some a)
    (hf : (f a).campaignId = a.campaignId)
    (hopen : (f a).status ∈ .applied :: activeTestingAssignmentStatuses →
      a.status ∈ .applied :: activeTestingAssignmentStatuses)
    (happlied : (f a).status = .applied → a.status = .applied) :
    (r.modifyAssignment i f).Finished := by
  intro id c hc
  obtain ⟨hcompleted, hclosed⟩ := h id c hc
  refine ⟨fun hs j b hb hid => ?_, fun hs j b hb hid => ?_⟩
  · rcases Table.get?_modify_cases hb with ⟨rfl, a₀, ha₀, rfl⟩ | ⟨-, hold⟩
    · obtain rfl := Option.some.inj (ha.symm.trans ha₀)
      exact fun hin => hcompleted hs _ a ha (hf ▸ hid) (hopen hin)
    · exact hcompleted hs j b hold hid
  · rcases Table.get?_modify_cases hb with ⟨rfl, a₀, ha₀, rfl⟩ | ⟨-, hold⟩
    · obtain rfl := Option.some.inj (ha.symm.trans ha₀)
      exact fun hin => hclosed hs _ a ha (hf ▸ hid) (happlied hin)
    · exact hclosed hs j b hold hid

/-- A campaign that is neither completed nor closed afterwards is not asked anything. -/
theorem Finished.reopen (h : r.Finished) {g : Campaign → Campaign}
    (hg : ∀ c, (g c).status ≠ .completed ∧ (g c).status ≠ .cancelled) :
    (r.modifyCampaign cid g).Finished := by
  intro id c' hc'
  rcases Table.get?_modify_cases hc' with ⟨-, c₀, -, rfl⟩ | ⟨-, hold⟩
  · exact ⟨fun hs => absurd hs (hg c₀).1, fun hs => absurd hs (hg c₀).2⟩
  · exact h id c' hold

/-- Settling a campaign completes it over nobody, unless its target is reached. -/
theorem Finished.settle (h : r.Finished)
    (hreached : ∀ c, r.campaigns.get? cid = some c → r.TargetReached cid c → r.NoneOpen cid) :
    (r.settle cid).Finished := by
  intro id c hc
  have hsame : (r.settle cid).assignments = r.assignments := settle_assignments
  unfold NoneOpen NoneApplied
  rw [hsame]
  by_cases hid : id = cid
  · subst hid
    cases hold : r.campaigns.get? id with
    | none =>
        unfold Roster.settle at hc
        rw [if_neg (by simp [hold])] at hc
        exact absurd (hold.symm.trans hc) (by simp)
    | some c₀ =>
        rw [settle_eq hold] at hc
        split at hc
        · rename_i hdue
          refine ⟨fun _ => ?_, fun hs => ?_⟩
          · rcases hdue with htarget | ⟨hclosed, hidle, -⟩
            · exact hreached c₀ hold htarget
            · exact noneOpen_of_idle ((h id c₀ hold).2 hclosed) hidle
          · rcases Table.get?_modify_cases hc with ⟨-, c₁, -, rfl⟩ | ⟨hne, -⟩
            · exact absurd hs (by simp)
            · exact absurd rfl hne
        · exact h id c hc
  · rw [settle_get_other hid] at hc
    exact h id c hc

/-- The applications to a campaign that closes are all answered. -/
theorem Finished.close (h : r.Finished) {g : Campaign → Campaign}
    (hg : ∀ c, (g c).status = .cancelled) :
    ((r.modifyCampaign cid g).cancelAll now ((r.pending cid).map Prod.fst)).Finished := by
  have hpending : ∀ i a, r.assignments.get? i = some a →
      (i ∈ (r.pending cid).map Prod.fst ↔ a.campaignId = cid ∧ a.status = .applied) := by
    intro i a ha
    constructor
    · intro hi
      obtain ⟨⟨j, b⟩, hmem, rfl⟩ := List.mem_map.mp hi
      obtain ⟨hb, hp⟩ := Table.mem_where'.mp hmem
      obtain rfl := Option.some.inj (hb.symm.trans ha)
      simpa using hp
    · intro hp
      exact List.mem_map.mpr ⟨(i, a), Table.mem_where'.mpr ⟨ha, by simpa using hp⟩, rfl⟩
  intro id c hc
  rw [cancelAll_campaigns] at hc
  -- a row after the change is cancelled, or it is an old one that did not wait for an answer
  have hrows : ∀ i a', ((r.modifyCampaign cid g).cancelAll now
      ((r.pending cid).map Prod.fst)).assignments.get? i = some a' →
      a'.status = .cancelled ∨ r.assignments.get? i = some a'
        ∧ ¬(a'.campaignId = cid ∧ a'.status = .applied) := by
    intro i a' ha'
    rw [cancelAll_get] at ha'
    split at ha'
    · obtain ⟨a, -, rfl⟩ := Option.map_eq_some_iff.mp ha'
      exact Or.inl rfl
    · rename_i hnot
      exact Or.inr ⟨ha', fun hp => hnot ((hpending i a' ha').mpr hp)⟩
  rcases Table.get?_modify_cases hc with ⟨rfl, c₀, -, rfl⟩ | ⟨-, hold⟩
  · refine ⟨fun hs => absurd ((hg c₀).symm.trans hs) (by simp), fun _ i a' ha' hid happlied => ?_⟩
    rcases hrows i a' ha' with hs | ⟨-, hnot⟩
    · exact absurd (hs.symm.trans happlied) (by simp)
    · exact hnot ⟨hid, happlied⟩
  · obtain ⟨hcompleted, hclosed⟩ := h id c hold
    refine ⟨fun hs i a' ha' hid hopen => ?_, fun hs i a' ha' hid happlied => ?_⟩
    · rcases hrows i a' ha' with hcancelled | ⟨ha, -⟩
      · rw [hcancelled] at hopen
        exact absurd hopen (by simp [activeTestingAssignmentStatuses])
      · exact hcompleted hs i a' ha hid hopen
    · rcases hrows i a' ha' with hcancelled | ⟨ha, -⟩
      · exact absurd (hcancelled.symm.trans happlied) (by simp)
      · exact hclosed hs i a' ha hid happlied

end Roster

/-! ## Decisions -/

/-- The checks of `create_review` before it records the owner's decision. -/
structure Db.Reviewable (db : Db) (userId submissionId : Uuid) (e : EvidenceSubmission)
    (a : Assignment) (c : Campaign) : Prop where
  he : db.evidenceSubmissions.get? submissionId = some e
  hw : db.Works e.assignmentId a c
  owner : c.ownerId = userId
  calm : db.activeDispute e.assignmentId = none
  pending : e.status = .submitted
  awaiting : a.status = .submitted

/-- The checks of `resolve_dispute` before it looks at the decision. -/
structure Db.Resolvable (db : Db) (userId disputeId : Uuid) (d : Dispute) (a : Assignment)
    (c : Campaign) : Prop where
  hd : db.disputes.get? disputeId = some d
  hw : db.Works d.assignmentId a c
  under : d.status = .underReview
  assigned : d.assignedTo = some userId

/-- The campaign is closed, and only one of its assignments is active. -/
def Db.LastActive (db : Db) (campaignId : Uuid) (c : Campaign) : Prop :=
  c.status = .cancelled ∧ db.roster.activeCount campaignId = 1

/-- The owner, or a moderator, rejects the last active assignment of a closed campaign. -/
def Request.RejectsLast (db : Db) (userId : Uuid) : Request → Prop
  | .review submissionId payload => payload.decision = .rejected
      ∧ ∃ e a c, db.Reviewable userId submissionId e a c ∧ db.LastActive a.campaignId c
  | .resolveDispute disputeId payload => payload.remedy ≠ .awardTester ∧ payload.outcome = .rejected
      ∧ ∃ d a c, db.Resolvable userId disputeId d a c ∧ a.status = .submitted
        ∧ db.LastActive a.campaignId c
  | _ => False

/-- One more approval reaches the target of an open campaign that somebody else waits or works for. -/
def Db.ReachesOver (db : Db) (id campaignId : Uuid) (c : Campaign) : Prop :=
  (c.status = .published ∨ c.status = .paused)
    ∧ c.targetTesters ≤ db.roster.approvedCount campaignId + 1
    ∧ ∃ j b, j ≠ id ∧ db.assignments.get? j = some b ∧ b.campaignId = campaignId
      ∧ b.status ∈ .applied :: activeTestingAssignmentStatuses

/-- The owner approves, or a moderator awards, the last assignment a campaign needs while others are open. -/
def Request.CompletesOver (db : Db) (userId : Uuid) : Request → Prop
  | .review submissionId payload => payload.decision = .approved
      ∧ ∃ e a c, db.Reviewable userId submissionId e a c
        ∧ db.ReachesOver e.assignmentId a.campaignId c
  | .resolveDispute disputeId payload => payload.remedy = .awardTester
      ∧ ∃ d a c, db.Resolvable userId disputeId d a c
        ∧ a.status ∈ [AssignmentStatus.rejected, .submitted]
        ∧ db.ReachesOver d.assignmentId a.campaignId c
  | _ => False

section Enacts

variable {db : Db} {userId : Uuid} {now : Time} {request : Request} {after : Roster}
  {sent : List (Notice × Uuid)}

/-- **No request leaves an open campaign that has reached its target.** -/
theorem Enacts.lacks_targetReached (h : Enacts db userId now request after sent)
    (hassigned : ∀ i a, db.assignments.get? i = some a →
      ∃ c, db.campaigns.get? a.campaignId = some c ∧ c.status ≠ .draft)
    (hpositive : ∀ id c, after.campaigns.get? id = some c → c.status ≠ .draft →
      0 < c.targetTesters)
    (hinv : db.roster.Lacks Roster.TargetReached) : after.Lacks Roster.TargetReached := by
  have hreason := Roster.isReason_targetReached
  cases h with
  | quiet h => exact hinv
  | drafting h hr =>
      intro id c hc hreached
      have hcount : after.approvedCount id = db.roster.approvedCount id := by
        unfold Roster.approvedCount Roster.countOf
        rw [hr.assignments]
      rcases hr.fresh id c hc with hold | ⟨-, hdraft⟩
      · exact hinv id c hold ⟨hreached.1, hcount ▸ hreached.2⟩
      · -- nobody has been on a campaign that was a draft or not there
        have hnone : db.roster.approvedCount id = 0 := by
          refine Roster.countOf_eq_zero fun i a ha hid => ?_
          obtain ⟨c₀, hc₀, hd⟩ := hassigned i a ha
          rw [hid] at hc₀
          exact absurd (hdraft c₀ hc₀) hd
        have hpos := hpositive id c hc (by rcases hreached.1 with hs | hs <;> simp [hs])
        have hle := hreached.2
        omega
  | apply hc hpublished howner hnew =>
      intro id c' hc' hreached
      refine hinv id c' hc' ⟨hreached.1, Nat.le_trans hreached.2 (Nat.le_of_eq ?_)⟩
      exact Roster.countOf_insert rfl
  | accept hw howner hpublished happlied =>
      exact hinv.modify_targetReached hw.ha rfl (by simp)
  | decline hw howner happlied => exact hinv.modify_targetReached hw.ha rfl (by simp)
  | withdraw hw htester hstatus => exact hinv.settle_modify hreason hw.ha rfl
  | start ha htester haccepted => exact hinv.modify_targetReached ha rfl (by simp)
  | submit hw htester hstatus hnew => exact hinv.modify_targetReached hw.ha rfl (by simp)
  | review he hw howner hcalm hpending hawaiting hnew =>
      split
      · exact hinv.settle_modify hreason hw.ha rfl
      · refine hinv.modify_targetReached hw.ha rfl ?_
        dsimp only
        split <;> simp
  | message hw huser hnew => exact hinv
  | openDispute hw htester hnew => exact hinv
  | resolveDispute hd hunder hassigned hw haward hreject =>
      split
      · exact hinv.settle_modify hreason hw.ha rfl
      · split
        · exact hinv.modify_targetReached hw.ha rfl (by simp)
        · exact hinv
  | pause hc howner hstatus =>
      refine hinv.modify_open (Or.inl rfl) fun c' hc' => ?_
      obtain rfl := Option.some.inj (hc.symm.trans hc')
      exact ⟨Or.inl hstatus, Or.inr rfl, rfl⟩
  | resume hc howner hstatus =>
      refine hinv.modify_open (Or.inl rfl) fun c' hc' => ?_
      obtain rfl := Option.some.inj (hc.symm.trans hc')
      exact ⟨Or.inr hstatus, Or.inl rfl, rfl⟩
  | close hc howner hstatus => exact hinv.close hreason

/--
**Only a rejection leaves a closed campaign whose work is settled**, and only
that of its last active assignment.
-/
theorem Enacts.lacks_workSettled (h : Enacts db userId now request after sent)
    (hinv : db.roster.Lacks Roster.WorkSettled) (hrejects : ¬ request.RejectsLast db userId) :
    after.Lacks Roster.WorkSettled := by
  have hreason := Roster.isReason_workSettled
  cases h with
  | quiet h => exact hinv
  | drafting h hr =>
      intro id c hc hsettled
      have hcount : ∀ p, after.countOf id p = db.roster.countOf id p := by
        intro p
        unfold Roster.countOf
        rw [hr.assignments]
      rcases hr.fresh id c hc with hold | ⟨hs | hs, -⟩
      · exact hinv id c hold (hreason.counts hcount hsettled)
      · exact absurd (hs.symm.trans hsettled.1) (by simp)
      · exact absurd (hs.symm.trans hsettled.1) (by simp)
  | apply hc hpublished howner hnew =>
      intro id c' hc' ⟨hclosed, hidle, haccepted⟩
      refine hinv id c' hc' ⟨hclosed, ?_, ?_⟩
      · rw [← hidle]
        exact (Roster.countOf_insert rfl).symm
      · exact Nat.lt_of_lt_of_eq haccepted (Roster.countOf_insert rfl)
  | accept hw howner hpublished happlied =>
      refine hinv.modify_workSettled hw.ha rfl fun c' hc' hclosed => ?_
      obtain rfl := Option.some.inj (hw.hc.symm.trans hc')
      exact absurd (hpublished.symm.trans hclosed) (by simp)
  | decline hw howner happlied =>
      refine hinv.modify_workSettled hw.ha rfl fun c' hc' hclosed => ⟨?_, fun hsome => hsome⟩
      intro hactive
      exact absurd hactive (by simp [happlied, activeTestingAssignmentStatuses])
  | withdraw hw htester hstatus => exact hinv.settle_modify hreason hw.ha rfl
  | start ha htester haccepted =>
      exact hinv.modify_workSettled ha rfl fun c' hc' hclosed =>
        ⟨fun _ => Or.inl (by simp [activeTestingAssignmentStatuses]), fun hsome => hsome⟩
  | submit hw htester hstatus hnew =>
      exact hinv.modify_workSettled hw.ha rfl fun c' hc' hclosed =>
        ⟨fun _ => Or.inl (by simp [activeTestingAssignmentStatuses]), fun hsome => hsome⟩
  | @review _ _ payload e a c he hw howner hcalm hpending hawaiting hnew =>
      have hactive : a.status ∈ activeTestingAssignmentStatuses := by
        simp [hawaiting, activeTestingAssignmentStatuses]
      cases hd : payload.decision with
      | approved =>
          rw [if_pos rfl]
          exact hinv.settle_modify hreason hw.ha rfl
      | changesRequested =>
          refine hinv.modify_workSettled hw.ha rfl fun c' hc' hclosed =>
            ⟨fun _ => Or.inl ?_, fun hsome => hsome⟩
          simp [activeTestingAssignmentStatuses]
      | rejected =>
          refine hinv.modify_workSettled hw.ha rfl fun c' hc' hclosed =>
            ⟨fun _ => Or.inr ?_, fun hsome => hsome⟩
          obtain rfl := Option.some.inj (hw.hc.symm.trans hc')
          have hpos : 0 < db.roster.activeCount a.campaignId :=
            Roster.countOf_pos hw.ha rfl (by simpa using hactive)
          by_contra hfew
          refine hrejects ⟨hd, e, a, c, ⟨he, hw, howner, hcalm, hpending, hawaiting⟩, hclosed, ?_⟩
          omega
  | message hw huser hnew => exact hinv
  | openDispute hw htester hnew => exact hinv
  | @resolveDispute _ payload d a c hd hunder hassigned hw haward hreject =>
      split
      · exact hinv.settle_modify hreason hw.ha rfl
      · rename_i hremedy
        split
        · rename_i hsubmitted
          refine hinv.modify_workSettled hw.ha rfl fun c' hc' hclosed =>
            ⟨fun hactive => Or.inr ?_, fun hsome => hsome⟩
          obtain rfl := Option.some.inj (hw.hc.symm.trans hc')
          have hpos : 0 < db.roster.activeCount a.campaignId :=
            Roster.countOf_pos hw.ha rfl (by simpa using hactive)
          by_contra hfew
          refine hrejects ⟨hremedy, hreject hremedy hsubmitted, d, a, c,
            ⟨hd, hw, hunder, hassigned⟩, hsubmitted, hclosed, ?_⟩
          omega
        · exact hinv
  | pause hc howner hstatus =>
      refine hinv.modify_open (Or.inr rfl) fun c' hc' => ?_
      obtain rfl := Option.some.inj (hc.symm.trans hc')
      exact ⟨Or.inl hstatus, Or.inr rfl, rfl⟩
  | resume hc howner hstatus =>
      refine hinv.modify_open (Or.inr rfl) fun c' hc' => ?_
      obtain rfl := Option.some.inj (hc.symm.trans hc')
      exact ⟨Or.inr hstatus, Or.inl rfl, rfl⟩
  | close hc howner hstatus => exact hinv.close hreason

/-- An approval after which the target is reached leaves nobody behind. -/
theorem noneOpen_approve {r : Roster} {i : Uuid} {a : Assignment} {c : Campaign}
    (hr : r = db.roster) (ha : db.assignments.get? i = some a)
    (hover : ¬ db.ReachesOver i a.campaignId c)
    (hreached : (r.modifyAssignment i fun a =>
      { a with status := .approved, completedAt := some now }).TargetReached a.campaignId c) :
    (r.modifyAssignment i fun a =>
      { a with status := .approved, completedAt := some now }).NoneOpen a.campaignId := by
  subst hr
  have hle : (db.roster.modifyAssignment i fun a =>
      { a with status := .approved, completedAt := some now }).approvedCount a.campaignId
        ≤ db.roster.approvedCount a.campaignId + 1 := Roster.countOf_modify_le_succ
  intro j b hb hid hopen
  rcases Table.get?_modify_cases hb with ⟨rfl, a₀, -, rfl⟩ | ⟨hne, hold⟩
  · exact absurd hopen (by simp [activeTestingAssignmentStatuses])
  · exact hover ⟨hreached.1, Nat.le_trans hreached.2 hle, j, b, hne, hold, hid, hopen⟩

/--
**Only an approval leaves a campaign completed over open work**, and only one
that reaches the target while others wait or work.
-/
theorem Enacts.finished (h : Enacts db userId now request after sent)
    (hreached : db.roster.Lacks Roster.TargetReached) (hinv : db.roster.Finished)
    (hover : ¬ request.CompletesOver db userId) : after.Finished := by
  cases h with
  | quiet h => exact hinv
  | drafting h hr =>
      intro id c hc
      have hsame : (after.NoneOpen id ↔ db.roster.NoneOpen id)
          ∧ (after.NoneApplied id ↔ db.roster.NoneApplied id) := by
        unfold Roster.NoneOpen Roster.NoneApplied
        rw [hr.assignments]
        exact ⟨Iff.rfl, Iff.rfl⟩
      rw [hsame.1, hsame.2]
      rcases hr.fresh id c hc with hold | ⟨hs, -⟩
      · exact hinv id c hold
      · rcases hs with hs | hs <;> simp [hs]
  | @apply campaignId id payload c note hc hpublished howner hnew =>
      intro cid c' hc'
      have hrows : ∀ {i a}, (db.assignments.insert id
          { campaignId, testerId := userId, applicationNote := note }).get? i = some a →
          a.campaignId = cid → (c'.status = .completed ∨ c'.status = .cancelled) →
          db.assignments.get? i = some a := by
        intro i a ha hid hs
        rcases Table.get?_insert_cases ha with hold | ⟨rfl, rfl, -⟩
        · exact hold
        · subst hid
          obtain rfl := Option.some.inj (hc.symm.trans hc')
          rcases hs with hs | hs <;> exact absurd (hpublished.symm.trans hs) (by simp)
      obtain ⟨hcompleted, hclosed⟩ := hinv cid c' hc'
      exact ⟨fun hs i a ha hid => hcompleted hs i a (hrows ha hid (Or.inl hs)) hid,
        fun hs i a ha hid => hclosed hs i a (hrows ha hid (Or.inr hs)) hid⟩
  | accept hw howner hpublished happlied =>
      exact hinv.modify hw.ha rfl (fun _ => by simp [happlied]) (by simp)
  | decline hw howner happlied =>
      exact hinv.modify hw.ha rfl (by simp [activeTestingAssignmentStatuses]) (by simp)
  | withdraw hw htester hstatus =>
      refine (hinv.modify hw.ha rfl (by simp [activeTestingAssignmentStatuses])
        (by simp)).settle fun c hc hdue => ?_
      exact absurd hdue (hreached.modify_targetReached hw.ha rfl (by simp) _ c hc)
  | start ha htester haccepted =>
      refine hinv.modify ha rfl (fun _ => ?_) (by simp)
      simp [haccepted, activeTestingAssignmentStatuses]
  | submit hw htester hstatus hnew =>
      refine hinv.modify hw.ha rfl (fun _ => ?_) (by simp)
      rcases List.mem_cons.mp hstatus with hs | hs
      · simp [hs, activeTestingAssignmentStatuses]
      · simp [List.mem_singleton.mp hs, activeTestingAssignmentStatuses]
  | @review _ _ payload e a c he hw howner hcalm hpending hawaiting hnew =>
      have hactive : a.status ∈ .applied :: activeTestingAssignmentStatuses := by
        simp [hawaiting, activeTestingAssignmentStatuses]
      split
      · rename_i hd
        refine (hinv.modify hw.ha rfl (fun _ => hactive) (by simp)).settle fun c' hc' hdue => ?_
        obtain rfl := Option.some.inj (hw.hc.symm.trans hc')
        refine noneOpen_approve rfl hw.ha (fun hreaches => hover ?_) hdue
        exact ⟨hd, e, a, c, ⟨he, hw, howner, hcalm, hpending, hawaiting⟩, hreaches⟩
      · refine hinv.modify hw.ha rfl (fun _ => hactive) ?_
        dsimp only
        split <;> simp
  | message hw huser hnew => exact hinv
  | openDispute hw htester hnew => exact hinv
  | @resolveDispute _ payload d a c hd hunder hassigned hw haward hreject =>
      split
      · rename_i hremedy
        refine (hinv.modify hw.ha rfl (by simp [activeTestingAssignmentStatuses])
          (by simp)).settle fun c' hc' hdue => ?_
        obtain rfl := Option.some.inj (hw.hc.symm.trans hc')
        refine noneOpen_approve rfl hw.ha (fun hreaches => hover ?_) hdue
        exact ⟨hremedy, d, a, c, ⟨hd, hw, hunder, hassigned⟩, haward hremedy, hreaches⟩
      · split
        · exact hinv.modify hw.ha rfl (by simp [activeTestingAssignmentStatuses]) (by simp)
        · exact hinv
  | pause hc howner hstatus => exact hinv.reopen fun c => by simp
  | resume hc howner hstatus => exact hinv.reopen fun c => by simp
  | close hc howner hstatus =>
      refine (hinv.close fun c => rfl).settle fun c' hc' hdue => ?_
      rw [Roster.cancelAll_campaigns] at hc'
      rcases Table.get?_modify_cases hc' with ⟨-, c₀, -, rfl⟩ | ⟨hne, -⟩
      · rcases hdue.1 with hs | hs <;> exact absurd hs (by simp)
      · exact absurd rfl hne

end Enacts

end TestExchange
