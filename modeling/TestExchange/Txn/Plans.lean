import Mathlib.Data.List.Basic
import Mathlib.Order.Monotone.Basic

/-!
# Plans

A plan is a list of moves with the times they are made at. `Attains` says that a
goal can be reached by a few moves of a given kind, none of them before one time
and none after another. Goals are attained one after the other, and a number of
like goals, one after each tick of a clock, by induction.
-/

namespace Txn

variable {S M : Type}

/-- Make the moves in order. -/
def play (move : S → Nat → M → S) (s : S) : List (Nat × M) → S
  | [] => s
  | (t, m) :: rest => play move (move s t m) rest

theorem play_append {move : S → Nat → M → S} {s : S} {plan more : List (Nat × M)} :
    play move s (plan ++ more) = play move (play move s plan) more := by
  induction plan generalizing s with
  | nil => rfl
  | cons m plan ih => exact ih

/-- At most `n` moves of the kind, between the times `t` and `d`, lead to the goal. -/
def Attains (move : S → Nat → M → S) (kind : M → Prop) (t d n : Nat) (goal : S → Prop) (s : S) :
    Prop :=
  ∃ plan : List (Nat × M), plan.length ≤ n ∧ (plan.map Prod.fst).Pairwise (· ≤ ·)
    ∧ (∀ m ∈ plan, t ≤ m.1 ∧ m.1 ≤ d ∧ kind m.2) ∧ goal (play move s plan)

variable {move : S → Nat → M → S} {kind : M → Prop} {t d d' n n' : Nat} {P Q : S → Prop} {s : S}

theorem attains_now (h : P s) : Attains move kind t d n P s :=
  ⟨[], Nat.zero_le n, List.Pairwise.nil, fun _ hm => absurd hm List.not_mem_nil, h⟩

/-- One move. -/
theorem attains_move {m : M} (ht : t ≤ d) (hm : kind m) (h : P (move s d m)) :
    Attains move kind t d 1 P s := by
  refine ⟨[(d, m)], Nat.le_refl 1, List.pairwise_singleton _ _, ?_, h⟩
  intro r hr
  rw [List.mem_singleton.mp hr]
  exact ⟨ht, Nat.le_refl d, hm⟩

theorem Attains.mono (h : Attains move kind t d n P s) (hd : d ≤ d') (hn : n ≤ n')
    (hPQ : ∀ s, P s → Q s) : Attains move kind t d' n' Q s := by
  obtain ⟨plan, hlength, hclock, hkind, hgoal⟩ := h
  refine ⟨plan, Nat.le_trans hlength hn, hclock, fun m hm => ?_, hPQ _ hgoal⟩
  obtain ⟨hfrom, huntil, hm⟩ := hkind m hm
  exact ⟨hfrom, Nat.le_trans huntil hd, hm⟩

/-- **One goal after the other.** -/
theorem Attains.trans (h : Attains move kind t d n P s) (ht : t ≤ d) (hd : d ≤ d')
    (hnext : ∀ s, P s → Attains move kind d d' n' Q s) : Attains move kind t d' (n + n') Q s := by
  obtain ⟨plan, hlength, hclock, hkind, hgoal⟩ := h
  obtain ⟨more, hlength', hclock', hkind', hgoal'⟩ := hnext _ hgoal
  refine ⟨plan ++ more, ?_, ?_, fun m hm => ?_, by rwa [play_append]⟩
  · rw [List.length_append]
    exact Nat.add_le_add hlength hlength'
  · rw [List.map_append, List.pairwise_append]
    refine ⟨hclock, hclock', fun x hx y hy => ?_⟩
    obtain ⟨m, hm, rfl⟩ := List.mem_map.mp hx
    obtain ⟨m', hm', rfl⟩ := List.mem_map.mp hy
    exact Nat.le_trans (hkind m hm).2.1 (hkind' m' hm').1
  · rcases List.mem_append.mp hm with hm | hm
    · obtain ⟨hfrom, huntil, hkind⟩ := hkind m hm
      exact ⟨hfrom, Nat.le_trans huntil hd, hkind⟩
    · obtain ⟨hfrom, huntil, hkind⟩ := hkind' m hm
      exact ⟨Nat.le_trans ht hfrom, huntil, hkind⟩

/-- **Like goals, one at each tick of a clock.** -/
theorem attains_ticks {P : Nat → S → Prop} {clock : Nat → Nat} (hclock : ∀ k, clock k ≤ clock (k + 1))
    (htick : ∀ k s, P k s → Attains move kind (clock k) (clock (k + 1)) 1 (P (k + 1)) s)
    (hs : P 0 s) : ∀ k, Attains move kind (clock 0) (clock k) k (P k) s := by
  intro k
  induction k with
  | zero => exact attains_now hs
  | succ k ih =>
      have hfrom : clock 0 ≤ clock k := monotone_nat_of_le_succ hclock (Nat.zero_le k)
      exact ih.trans hfrom (hclock k) (htick k)

end Txn
