import Mathlib.Data.Set.Basic
import Mathlib.Logic.Function.Basic

/-!
# Buckets with pinned objects

Named objects, some of which are pinned: from then on they are to stay as they
are, and if there is none under the name, there is to be none. A put goes
through if the name is free, a removal if it is not pinned. The only thing that
can go wrong is a put under a name that was pinned while it was free.
-/

namespace TestExchange

/-- Objects under names, and the names that are pinned. -/
structure Bucket (K C : Type) where
  objects : K → Option C
  pinned : Set K

namespace Bucket

variable {K C : Type} {b b₁ b' : Bucket K C} {k : K} {c : C} {more : Set K}

/-- Pin more names. -/
def pin (b : Bucket K C) (more : Set K) : Bucket K C := { b with pinned := b.pinned ∪ more }

/-- What is pinned stays pinned and as it is. -/
structure Keeps (b b' : Bucket K C) : Prop where
  pinned : b.pinned ⊆ b'.pinned
  objects : ∀ k ∈ b.pinned, b'.objects k = b.objects k

theorem Keeps.refl (b : Bucket K C) : b.Keeps b := ⟨subset_rfl, fun _ _ => rfl⟩

theorem Keeps.trans (h : b.Keeps b₁) (h' : b₁.Keeps b') : b.Keeps b' where
  pinned := h.pinned.trans h'.pinned
  objects := fun k hk => (h'.objects k (h.pinned hk)).trans (h.objects k hk)

theorem keeps_pin : b.Keeps (b.pin more) := ⟨Set.subset_union_left, fun _ _ => rfl⟩

variable [DecidableEq K]

/-- Store an object under a free name. -/
def put (b : Bucket K C) (k : K) (c : C) : Bucket K C :=
  if (b.objects k).isNone then { b with objects := Function.update b.objects k (some c) } else b

open Classical in
/-- Remove an object that is not pinned. -/
noncomputable def remove (b : Bucket K C) (k : K) : Bucket K C :=
  if k ∈ b.pinned then b else { b with objects := Function.update b.objects k none }

/-- What is not pinned may change. -/
theorem keeps_update {o : Option C} (hk : k ∉ b.pinned) :
    b.Keeps { b with objects := Function.update b.objects k o } := by
  refine ⟨subset_rfl, fun i hi => ?_⟩
  have hne : i ≠ k := by
    rintro rfl
    exact hk hi
  show Function.update b.objects k o i = b.objects i
  rw [Function.update_of_ne hne]

theorem keeps_remove : b.Keeps (b.remove k) := by
  unfold remove
  split
  · exact .refl b
  · rename_i hk
    exact keeps_update hk

/-- **A put breaks something exactly if its name was pinned while it was free.** -/
theorem keeps_put_iff : b.Keeps (b.put k c) ↔ ¬(k ∈ b.pinned ∧ b.objects k = none) := by
  unfold put
  constructor
  · rintro h ⟨hk, hfree⟩
    have hsame := h.objects k hk
    rw [if_pos (Option.isNone_iff_eq_none.mpr hfree), hfree] at hsame
    exact absurd hsame (by simp)
  · intro h
    split
    · rename_i hfree
      exact keeps_update fun hk => h ⟨hk, Option.isNone_iff_eq_none.mp hfree⟩
    · exact .refl b

end Bucket

end TestExchange
