import Mathlib.Data.List.Basic

/-!
# Runs of a labelled step relation

A step relation says which state may follow which under which label; a run is a
sequence of steps. An invariant is proved once for a step and then holds along
every run, and so does every reflexive and transitive relation between the
state before and the state after.
-/

namespace Txn

variable {σ α : Type} {step : σ → α → σ → Prop}

/-- The steps labelled `as`, one after the other. -/
inductive Runs (step : σ → α → σ → Prop) : σ → List α → σ → Prop where
  /-- No step. -/
  | nil (s : σ) : Runs step s [] s
  /-- One step, then the rest. -/
  | cons {s s₁ s' : σ} {a : α} {as : List α} (head : step s a s₁) (rest : Runs step s₁ as s') :
      Runs step s (a :: as) s'

namespace Runs

theorem single {s s' : σ} {a : α} (h : step s a s') : Runs step s [a] s' :=
  .cons h (.nil s')

theorem append {s s₁ s' : σ} {as bs : List α} (h : Runs step s as s₁) (h' : Runs step s₁ bs s') :
    Runs step s (as ++ bs) s' := by
  induction h with
  | nil s => exact h'
  | cons head rest ih => exact .cons head (ih h')

/-- **What every step preserves, every run preserves.** -/
theorem invariant {Inv : σ → Prop} {s s' : σ} {as : List α} (h : Runs step s as s') (hs : Inv s)
    (hstep : ∀ s a s', Inv s → step s a s' → Inv s') : Inv s' := by
  induction h with
  | nil s => exact hs
  | cons head rest ih => exact ih (hstep _ _ _ hs head)

/--
**A relation between before and after that every step satisfies, every run
satisfies**, if it is reflexive and transitive. The steps are taken from states
satisfying an invariant, and only labels satisfying `p` occur.
-/
theorem relates {Inv : σ → Prop} {R : σ → σ → Prop} {p : α → Prop} {s s' : σ} {as : List α}
    (h : Runs step s as s') (hs : Inv s) (hp : ∀ a ∈ as, p a)
    (hinv : ∀ s a s', Inv s → step s a s' → Inv s')
    (hrefl : ∀ s, R s s) (htrans : ∀ s₁ s₂ s₃, R s₁ s₂ → R s₂ s₃ → R s₁ s₃)
    (hstep : ∀ s a s', Inv s → p a → step s a s' → R s s') : R s s' := by
  induction h with
  | nil s => exact hrefl s
  | cons head rest ih =>
      have h₁ := hstep _ _ _ hs (hp _ List.mem_cons_self) head
      exact htrans _ _ _ h₁ (ih (hinv _ _ _ hs head) fun a ha => hp a (List.mem_cons_of_mem _ ha))

end Runs

end Txn
