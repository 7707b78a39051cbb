import Mathlib.Algebra.BigOperators.Group.List.Basic
import Mathlib.Algebra.Order.BigOperators.Group.List
import Mathlib.Algebra.Order.Group.Int
import Mathlib.Algebra.Ring.Int.Defs
import TestExchange.Txn.Table

/-!
# Adding up

Sums over lists that are grouped by a key, and sums over the rows of a table.
Adding up group by group gives what adding up all at once does, as long as the
groups are those of distinct keys and nothing is left out.
-/

namespace Txn

variable {α : Type}

/-! ## Groups -/

/-- A value counts for its own key and for no other. -/
theorem sum_single {ks : List Nat} {k : Nat} {x : Int} (hn : ks.Nodup) (hk : k ∈ ks) :
    (ks.map fun i => if k = i then x else 0).sum = x := by
  induction ks with
  | nil => exact absurd hk (by simp)
  | cons i ks ih =>
      obtain ⟨hi, hn⟩ := List.nodup_cons.mp hn
      rw [List.map_cons, List.sum_cons]
      by_cases h : k = i
      · have hrest : (ks.map fun j => if k = j then x else 0).sum = 0 := by
          refine List.sum_eq_zero fun y hy => ?_
          obtain ⟨j, hj, rfl⟩ := List.mem_map.mp hy
          have hne : k ≠ j := by
            rintro rfl
            exact hi (h ▸ hj)
          rw [if_neg hne]
        rw [if_pos h, hrest, Int.add_zero]
      · have hmem : k ∈ ks := by
          rcases List.mem_cons.mp hk with hki | hki
          · exact absurd hki h
          · exact hki
        rw [if_neg h, ih hn hmem, Int.zero_add]

/-- **Adding up group by group.** -/
theorem sum_grouped {l : List α} {f : α → Nat} {g : α → Int} {ks : List Nat} (hn : ks.Nodup)
    (h : ∀ a ∈ l, f a ∈ ks) :
    (ks.map fun k => ((l.filter fun a => f a = k).map g).sum).sum = (l.map g).sum := by
  induction l with
  | nil =>
      rw [List.map_nil, List.sum_nil]
      refine List.sum_eq_zero fun y hy => ?_
      obtain ⟨k, -, rfl⟩ := List.mem_map.mp hy
      rfl
  | cons a l ih =>
      have hsplit : ∀ k, (((a :: l).filter fun b => f b = k).map g).sum
          = (if f a = k then g a else 0) + ((l.filter fun b => f b = k).map g).sum := by
        intro k
        by_cases hk : f a = k
        · rw [List.filter_cons_of_pos (by simpa using hk), List.map_cons, List.sum_cons, if_pos hk]
        · rw [List.filter_cons_of_neg (by simpa using hk), if_neg hk, Int.zero_add]
      have hrest := ih fun b hb => h b (List.mem_cons_of_mem _ hb)
      rw [List.map_congr_left fun k _ => hsplit k, List.sum_map_add, hrest,
        sum_single hn (h a List.mem_cons_self), List.map_cons, List.sum_cons]

/-- What does not count may as well be left out. -/
theorem sum_filter {l : List α} {p : α → Bool} {value : α → Int} :
    ((l.filter p).map value).sum = (l.map fun a => if p a then value a else 0).sum := by
  induction l with
  | nil => rfl
  | cons a l ih =>
      rw [List.map_cons, List.sum_cons, ← ih]
      by_cases hp : p a = true
      · rw [List.filter_cons_of_pos hp, List.map_cons, List.sum_cons, if_pos hp]
      · rw [List.filter_cons_of_neg hp, if_neg hp, Int.zero_add]

/-! ## Tables -/

namespace Table

/-- The sum of a value over the rows. -/
def sum (t : Table α) (value : Nat → α → Int) : Int := (t.rows.map fun r => value r.1 r.2).sum

theorem sum_congr {t : Table α} {f g : Nat → α → Int} (h : ∀ k a, t.get? k = some a → f k a = g k a) :
    t.sum f = t.sum g := by
  unfold sum
  refine congrArg List.sum (List.map_congr_left fun r hr => ?_)
  exact h r.1 r.2 (mem_rows.mp hr)

theorem sum_le_sum {t : Table α} {f g : Nat → α → Int}
    (h : ∀ k a, t.get? k = some a → f k a ≤ g k a) : t.sum f ≤ t.sum g :=
  List.sum_le_sum fun r hr => h r.1 r.2 (mem_rows.mp hr)

theorem sum_add {t : Table α} {f g : Nat → α → Int} :
    t.sum (fun k a => f k a + g k a) = t.sum f + t.sum g := List.sum_map_add

theorem sum_neg {t : Table α} {f : Nat → α → Int} : t.sum (fun k a => -f k a) = -t.sum f := by
  have hzero : t.sum (fun k a => -f k a + f k a) = 0 := by
    refine List.sum_eq_zero fun y hy => ?_
    obtain ⟨r, -, rfl⟩ := List.mem_map.mp hy
    exact Int.add_left_neg _
  rw [sum_add] at hzero
  omega

/-- Adding up the rows that satisfy `p`. -/
theorem sum_where' {t : Table α} {p : Nat → α → Bool} {g : Nat → α → Int} :
    ((t.where' p).map fun r => g r.1 r.2).sum = t.sum fun k a => if p k a then g k a else 0 :=
  sum_filter

/-- The rows of a table, grouped by the rows of another one. -/
theorem sum_groups {β : Type} {t : Table α} {d : Table β} {f : α → Nat}
    {g : Nat → α → Int} {p : Nat → α → Bool}
    (h : ∀ k a, t.get? k = some a → ∃ b, d.get? (f a) = some b) :
    d.sum (fun i _ => (((t.where' p).filter fun r => f r.2 = i).map
      fun r => g r.1 r.2).sum) = ((t.where' p).map fun r => g r.1 r.2).sum := by
  have hmem : ∀ r ∈ t.where' p, f r.2 ∈ d.rows.map Prod.fst := by
    intro r hr
    obtain ⟨b, hb⟩ := h r.1 r.2 (mem_where'.mp hr).1
    exact List.mem_map.mpr ⟨(f r.2, b), mem_rows.mpr hb, rfl⟩
  rw [← sum_grouped d.nodup hmem, List.map_map]
  rfl

end Table

end Txn
