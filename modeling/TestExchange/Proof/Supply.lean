import TestExchange.Proof.Funding
import TestExchange.Txn.Tally

/-!
# The credits in circulation

Credits come from signup grants and rewards and go into campaigns, and nothing
else creates or destroys any. So what all accounts hold together is known from
the profiles, the campaigns and the approved assignments alone. Since rewards are
paid out of what was spent, up to overturned rejections, the grants bound it.
-/

namespace TestExchange

open Txn Exchange

variable {g : Nat} {s : Exchange}

/-! ## The ledger in full -/

/-- What the ledger entry of an occasion moves, as the rows now read. -/
def Occasion.value (g : Nat) (s : Exchange) : Occasion → Int
  | .signup _ => g
  | .posting campaignId =>
      (s.campaigns.get? campaignId).elim 0 fun c => -(c.targetTesters * c.rewardCredits)
  | .reward assignmentId =>
      ((s.assignments.get? assignmentId).bind fun a => s.campaigns.get? a.campaignId).elim 0
        fun c => c.rewardCredits

/-- Everything credits have moved for. -/
def Exchange.occasions (g : Nat) (s : Exchange) : List Occasion :=
  (if 0 < g then s.profiles.rows.map fun r => .signup r.1 else [])
    ++ ((s.campaigns.where' fun _ c => c.status ≠ .draft).map fun r => .posting r.1)
    ++ ((s.assignments.where' fun _ a => a.status = .approved).map fun r => .reward r.1)

theorem mem_occasions {o : Occasion} : o ∈ s.occasions g ↔ o.Occurs g s := by
  unfold Exchange.occasions
  simp only [List.mem_append, List.mem_map, Prod.exists]
  cases o with
  | signup u =>
      constructor
      · rintro ((h | h) | h)
        · split at h
          · rename_i hg
            obtain ⟨r, hr, heq⟩ := List.mem_map.mp h
            obtain rfl := Occasion.signup.inj heq
            exact ⟨hg, r.2, Table.mem_rows.mp hr⟩
          · exact absurd h (by simp)
        · obtain ⟨_, _, -, heq⟩ := h
          exact Occasion.noConfusion heq
        · obtain ⟨_, _, -, heq⟩ := h
          exact Occasion.noConfusion heq
      · rintro ⟨hg, p, hp⟩
        refine Or.inl (Or.inl ?_)
        rw [if_pos hg]
        exact List.mem_map.mpr ⟨(u, p), Table.mem_rows.mpr hp, rfl⟩
  | posting id =>
      constructor
      · rintro ((h | h) | h)
        · split at h
          · obtain ⟨_, -, heq⟩ := List.mem_map.mp h
            exact Occasion.noConfusion heq
          · exact absurd h (by simp)
        · obtain ⟨k, c, hc, heq⟩ := h
          obtain rfl := Occasion.posting.inj heq
          obtain ⟨hget, hdraft⟩ := Table.mem_where'.mp hc
          exact ⟨c, hget, by simpa using hdraft⟩
        · obtain ⟨_, _, -, heq⟩ := h
          exact Occasion.noConfusion heq
      · rintro ⟨c, hc, hdraft⟩
        exact Or.inl (Or.inr ⟨id, c, Table.mem_where'.mpr ⟨hc, by simpa using hdraft⟩, rfl⟩)
  | reward id =>
      constructor
      · rintro ((h | h) | h)
        · split at h
          · obtain ⟨_, -, heq⟩ := List.mem_map.mp h
            exact Occasion.noConfusion heq
          · exact absurd h (by simp)
        · obtain ⟨_, _, -, heq⟩ := h
          exact Occasion.noConfusion heq
        · obtain ⟨k, a, ha, heq⟩ := h
          obtain rfl := Occasion.reward.inj heq
          obtain ⟨hget, happroved⟩ := Table.mem_where'.mp ha
          exact ⟨a, hget, by simpa using happroved⟩
      · rintro ⟨a, ha, happroved⟩
        exact Or.inr ⟨id, a, Table.mem_where'.mpr ⟨ha, by simpa using happroved⟩, rfl⟩

/-- The keys of some rows of a table, under one name each. -/
theorem nodup_named {α : Type} {t : Table α} {p : Nat → α → Bool} {f : Uuid → Occasion}
    (hf : Function.Injective f) : ((t.where' p).map fun r => f r.1).Nodup := by
  have hkeys : ((t.where' p).map Prod.fst).Nodup := t.nodup.sublist (List.filter_sublist.map _)
  have hcomp : ((t.where' p).map fun r => f r.1) = ((t.where' p).map Prod.fst).map f := by
    rw [List.map_map]
    rfl
  rw [hcomp]
  exact hkeys.map hf

theorem nodup_occasions : (s.occasions g).Nodup := by
  have hprofiles : (if 0 < g then s.profiles.rows.map fun r => Occasion.signup r.1 else []).Nodup := by
    split
    · have hcomp : (s.profiles.rows.map fun r => Occasion.signup r.1)
          = (s.profiles.rows.map Prod.fst).map Occasion.signup := by
        rw [List.map_map]
        rfl
      rw [hcomp]
      exact s.profiles.nodup.map fun _ _ h => Occasion.signup.inj h
    · exact List.nodup_nil
  refine List.Nodup.append (List.Nodup.append hprofiles (nodup_named fun _ _ h =>
    Occasion.posting.inj h) ?_) (nodup_named fun _ _ h => Occasion.reward.inj h) ?_
  · intro o ho ho'
    obtain ⟨_, -, rfl⟩ := List.mem_map.mp ho'
    split at ho
    · obtain ⟨_, -, heq⟩ := List.mem_map.mp ho
      exact Occasion.noConfusion heq
    · exact absurd ho (by simp)
  · intro o ho ho'
    obtain ⟨_, -, rfl⟩ := List.mem_map.mp ho'
    rcases List.mem_append.mp ho with ho | ho
    · split at ho
      · obtain ⟨_, -, heq⟩ := List.mem_map.mp ho
        exact Occasion.noConfusion heq
      · exact absurd ho (by simp)
    · obtain ⟨_, -, heq⟩ := List.mem_map.mp ho
      exact Occasion.noConfusion heq

theorem value_of_moves {o : Occasion} {u : Uuid} {delta : Int} (h : o.Moves g s u delta) :
    delta = o.value g s := by
  cases o with
  | signup _ => exact h.2
  | posting id =>
      obtain ⟨c, hc, -, rfl⟩ := h
      simp [Occasion.value, hc]
  | reward id =>
      obtain ⟨a, c, ha, hc, -, -, rfl⟩ := h
      simp [Occasion.value, ha, hc]

/-- **The ledger adds up to the values of its occasions.** -/
theorem LedgerInv.total (h : LedgerInv g s) :
    (s.creditLedgerEntries.map (·.delta)).sum = ((s.occasions g).map (Occasion.value g s)).sum := by
  have hdelta : ∀ e ∈ s.creditLedgerEntries,
      e.delta = (e.occasion.elim 0 (Occasion.value g s) : Int) := by
    intro e he
    obtain ⟨o, ho⟩ := h.explained e he
    rw [ho.occasion]
    exact value_of_moves ho.moves
  have hnodup : (s.creditLedgerEntries.map (·.occasion)).Nodup :=
    List.Nodup.map_on (fun e he e' he' hsame => h.entry_inj he he' hsame) h.booked.keys.of_map
  have hperm : (s.creditLedgerEntries.map (·.occasion)).Perm ((s.occasions g).map some) := by
    refine (List.perm_ext_iff_of_nodup hnodup (nodup_occasions.map (Option.some_injective _))).mpr ?_
    intro o
    simp only [List.mem_map]
    constructor
    · rintro ⟨e, he, rfl⟩
      obtain ⟨y, hy⟩ := h.explained e he
      exact ⟨y, mem_occasions.mpr hy.occurs, hy.occasion.symm⟩
    · rintro ⟨y, hy, rfl⟩
      obtain ⟨e, he, hkey⟩ := h.recorded y (mem_occasions.mp hy)
      obtain ⟨y', hy'⟩ := h.explained e he
      obtain rfl := Occasion.key_inj (hy'.key.symm.trans hkey)
      exact ⟨e, he, hy'.occasion⟩
  calc (s.creditLedgerEntries.map (·.delta)).sum
      = ((s.creditLedgerEntries.map (·.occasion)).map
          fun o => (o.elim 0 (Occasion.value g s) : Int)).sum := by
        rw [List.map_map]
        exact congrArg List.sum (List.map_congr_left hdelta)
    _ = (((s.occasions g).map some).map fun o => (o.elim 0 (Occasion.value g s) : Int)).sum :=
        (hperm.map _).sum_eq
    _ = ((s.occasions g).map (Occasion.value g s)).sum := by
        rw [List.map_map]
        rfl

/-! ## What is in circulation -/

/-- What all accounts hold together. -/
def Db.circulating (db : Db) : Int := db.creditAccounts.sum fun _ account => account.balance

/-- What a campaign has cost its owner: nothing while it is a draft. -/
def Campaign.spend (c : Campaign) : Int :=
  if c.status = .draft then 0 else c.targetTesters * c.rewardCredits

/-- What has been spent on campaigns. -/
def Db.spent (db : Db) : Int := db.campaigns.sum fun _ c => c.spend

/-- The reward of the campaign an assignment belongs to. -/
def Db.rewardOf (db : Db) (a : Assignment) : Int :=
  (db.campaigns.get? a.campaignId).elim 0 fun c => c.rewardCredits

/-- What testers have been paid for approved work. -/
def Db.rewarded (db : Db) : Int :=
  ((db.assignments.where' fun _ a => a.status = .approved).map fun r => db.rewardOf r.2).sum

section Totals

variable {db : Db}

/-- All balances together are all ledger entries together. -/
theorem circulating_eq (h : LedgerInv g db.exchange) :
    db.circulating = (db.creditLedgerEntries.map (·.delta)).sum := by
  have hbalance : ∀ u account, db.creditAccounts.get? u = some account →
      account.balance = earned db.creditLedgerEntries u := by
    intro u account hu
    have hb := h.booked.balances u
    rw [Exchange.balance] at hb
    have hu : db.exchange.creditAccounts.get? u = some account := hu
    rw [hu] at hb
    exact hb
  have hgrouped := sum_grouped (l := db.creditLedgerEntries) (f := (·.userId)) (g := (·.delta))
    db.creditAccounts.nodup fun e he => by
      obtain ⟨account, haccount⟩ := h.booked.accounts e he
      exact List.mem_map.mpr ⟨_, Table.mem_rows.mpr haccount, rfl⟩
  rw [← hgrouped, List.map_map]
  exact Table.sum_congr hbalance

theorem signups_sum : (((if 0 < g then s.profiles.rows.map fun r => Occasion.signup r.1 else []).map
    (Occasion.value g s)).sum : Int) = g * s.profiles.rows.length := by
  split
  · rw [List.map_map]
    have hconst : (s.profiles.rows.map (Occasion.value g s ∘ fun r => Occasion.signup r.1))
        = List.replicate s.profiles.rows.length (g : Int) := by
      rw [← List.map_const']
      rfl
    rw [hconst, List.sum_replicate, nsmul_eq_mul, Int.mul_comm]
  · rename_i hg
    have hzero : g = 0 := by omega
    simp [hzero]

theorem postings_sum : (((s.campaigns.where' fun _ c => c.status ≠ .draft).map fun r =>
    Occasion.posting r.1).map (Occasion.value g s)).sum = -s.campaigns.sum fun _ c => c.spend := by
  rw [List.map_map, ← Table.sum_neg]
  refine (Table.sum_where' (g := fun k _ => Occasion.value g s (.posting k))).trans ?_
  refine Table.sum_congr fun k c hc => ?_
  unfold Campaign.spend
  by_cases hdraft : c.status = .draft
  · simp [hdraft]
  · simp [hdraft, Occasion.value, hc]

theorem rewards_sum : (((db.assignments.where' fun _ a => a.status = .approved).map fun r =>
    Occasion.reward r.1).map (Occasion.value g db.exchange)).sum = db.rewarded := by
  rw [List.map_map]
  refine congrArg List.sum (List.map_congr_left fun r hr => ?_)
  have hget : db.exchange.assignments.get? r.1 = some r.2 := (Table.mem_where'.mp hr).1
  simp only [Function.comp_apply, Occasion.value, hget, Option.bind_some]
  rfl

/-- What is rewarded, campaign by campaign: the reward for each approved assignment. -/
theorem rewarded_grouped (h : LedgerInv g db.exchange) : db.rewarded = db.campaigns.sum fun id c =>
    (db.assignments.count fun a => a.campaignId = id && a.status = .approved) * c.rewardCredits := by
  have hgrouped := Table.sum_groups (t := db.assignments) (d := db.campaigns)
    (f := fun a => a.campaignId) (g := fun _ a => db.rewardOf a)
    (p := fun _ a => a.status = .approved) fun k a ha => by
      obtain ⟨c, hc, -⟩ := h.assigned k a ha
      exact ⟨c, hc⟩
  unfold Db.rewarded
  rw [← hgrouped]
  refine Table.sum_congr fun id c hc => ?_
  have hall : ∀ x ∈ ((db.assignments.where' fun _ a => a.status = .approved).filter
      fun r => r.2.campaignId = id).map fun r => db.rewardOf r.2, x = (c.rewardCredits : Int) := by
    intro x hx
    obtain ⟨r, hr, rfl⟩ := List.mem_map.mp hx
    have hid : r.2.campaignId = id := by simpa using (List.mem_filter.mp hr).2
    simp [Db.rewardOf, hid, hc]
  rw [List.sum_eq_card_nsmul _ _ hall, List.length_map, nsmul_eq_mul]
  have hcount : ((db.assignments.where' fun _ a => a.status = .approved).filter
      fun r => r.2.campaignId = id).length
        = db.assignments.count fun a => a.campaignId = id && a.status = .approved := by
    unfold Table.where' Table.count
    rw [List.filter_filter, List.countP_eq_length_filter]
  rw [hcount]

/-- What is rewarded was spent before, up to one reward for each overturned rejection. -/
theorem rewarded_le (h : Possible g db.exchange) :
    db.rewarded ≤ db.spent + db.campaigns.sum fun id c => c.rewardCredits * db.exchange.overturned id := by
  have hledger := ledgerInv_possible h
  rw [rewarded_grouped hledger, Db.spent, ← Table.sum_add]
  refine Table.sum_le_sum fun id c hc => ?_
  have happroved : (db.assignments.count fun a => a.campaignId = id && a.status = .approved)
      ≤ db.exchange.occupiedSlots id := by
    refine Table.count_le_count fun k a ha hp => ⟨a, ha, ?_⟩
    simp only [Bool.and_eq_true, decide_eq_true_eq] at hp ⊢
    exact ⟨hp.1, by simp [hp.2, occupiedAssignmentStatuses]⟩
  unfold Campaign.spend
  by_cases hdraft : c.status = .draft
  · have hfree : db.exchange.occupiedSlots id = 0 := by
      refine hledger.unoccupied ?_
      rintro ⟨c', hc', hd'⟩
      obtain rfl := Option.some.inj (hc.symm.trans hc')
      exact hd' hdraft
    have hnone : (db.assignments.count fun a => a.campaignId = id && a.status = .approved) = 0 := by
      omega
    have hpos : (0 : Int) ≤ c.rewardCredits * db.exchange.overturned id :=
      Int.mul_nonneg (Int.natCast_nonneg _) (Int.natCast_nonneg _)
    rw [hnone, if_pos hdraft]
    simpa using hpos
  · have hslots := funded_possible h id c hc
    have hcount : ((db.assignments.count fun a => a.campaignId = id && a.status = .approved : Nat) : Int)
        ≤ c.targetTesters + db.exchange.overturned id := by
      exact_mod_cast happroved.trans hslots
    rw [if_neg hdraft]
    calc ((db.assignments.count fun a => a.campaignId = id && a.status = .approved : Nat) : Int)
          * c.rewardCredits
        ≤ (c.targetTesters + db.exchange.overturned id) * c.rewardCredits :=
          Int.mul_le_mul_of_nonneg_right hcount (Int.natCast_nonneg _)
      _ = c.targetTesters * c.rewardCredits + c.rewardCredits * db.exchange.overturned id := by ring

end Totals

/--
**The credits in circulation are accounted for.** In every reachable database all
balances and all spending together are the signup grants and the rewards; and the
balances are at most the grants, plus one reward for each rejection a moderator
overturned.
-/
theorem supply_explained (settings : Settings) (s : Service) (h : Reachable settings s) :
    s.db.circulating + s.db.spent
        = settings.signupCreditGrant * s.db.profiles.rows.length + s.db.rewarded
      ∧ s.db.circulating ≤ settings.signupCreditGrant * s.db.profiles.rows.length
        + s.db.campaigns.sum fun id c => c.rewardCredits * s.db.exchange.overturned id := by
  have hpossible := reachable_possible h
  have hledger := ledgerInv_possible hpossible
  have htotal : s.db.circulating
      = settings.signupCreditGrant * s.db.profiles.rows.length - s.db.spent + s.db.rewarded := by
    have hsum := hledger.total
    unfold Exchange.occasions at hsum
    rw [List.map_append, List.map_append, List.sum_append, List.sum_append, signups_sum,
      postings_sum] at hsum
    have hrewards : (((s.db.assignments.where' fun _ a => a.status = .approved).map fun r =>
        Occasion.reward r.1).map (Occasion.value settings.signupCreditGrant s.db.exchange)).sum
        = s.db.rewarded := rewards_sum
    have hcirculating := circulating_eq hledger
    have hspent : s.db.spent = s.db.exchange.campaigns.sum fun _ c => c.spend := rfl
    have hlength : s.db.exchange.profiles.rows.length = s.db.profiles.rows.length := rfl
    rw [hcirculating, ← hrewards, hspent, ← hlength]
    exact hsum
  have hbound := rewarded_le hpossible
  constructor
  · omega
  · omega

set_option maxRecDepth 4000 in
theorem supply_explained_bench :
    Reachable benchSettings benchService ∧ benchService.db.circulating = 98
      ∧ benchService.db.circulating + benchService.db.spent
        = benchSettings.signupCreditGrant * benchService.db.profiles.rows.length
          + benchService.db.rewarded :=
  ⟨benchService_reachable, by decide +kernel,
    (supply_explained benchSettings benchService benchService_reachable).1⟩

end TestExchange
