import Mathlib.Data.List.Basic

/-!
# Serving from a quota

Requests are served one after the other from a state in which some places are
free. A request that fits takes a place if there is one, and any request is refused
and changes nothing if there is none. So the first requests get the places if they
fit, the others are refused, and the number of free places tells how each request
will end.
-/

namespace Quota

variable {σ ρ ε : Type} {serve : σ → ρ → Option ε × σ}

/-- The errors of the listed requests, served in order; `none` where one succeeds. -/
def answers (serve : σ → ρ → Option ε × σ) : σ → List ρ → List (Option ε)
  | _, [] => []
  | s, r :: rs => (serve s r).1 :: answers serve (serve s r).2 rs

/-- The state after the listed requests. -/
def after (serve : σ → ρ → Option ε × σ) : σ → List ρ → σ
  | s, [] => s
  | s, r :: rs => after serve (serve s r).2 rs

/-- **Requests that fit take free places; requests are refused when there are none.** -/
structure Metered (serve : σ → ρ → Option ε × σ) (free : σ → Nat) (admissible : σ → List ρ → Prop)
    (fits : ρ → Prop) (refusal : ε → Prop) : Prop where
  admits : ∀ s r rs, admissible s (r :: rs) → 0 < free s → fits r → (serve s r).1 = none
    ∧ free (serve s r).2 + 1 = free s ∧ admissible (serve s r).2 rs
  /-- A free place is of no use to a request that does not fit. -/
  fails : ∀ s r rs, admissible s (r :: rs) → 0 < free s → ¬fits r → (serve s r).1 ≠ none
  refuses : ∀ s r rs, admissible s (r :: rs) → free s = 0 →
    (∃ e, (serve s r).1 = some e ∧ refusal e) ∧ (serve s r).2 = s
  /-- A refused request leaves the others as they were. -/
  skips : ∀ s r rs, admissible s (r :: rs) → admissible s rs

/-- The requests that there are places for fit. -/
structure Ready (free : σ → Nat) (admissible : σ → List ρ → Prop) (fits : ρ → Prop) (s : σ)
    (rs : List ρ) : Prop where
  admissible : admissible s rs
  fit : ∀ r ∈ rs.take (free s), fits r

variable {free : σ → Nat} {admissible : σ → List ρ → Prop} {fits : ρ → Prop} {refusal : ε → Prop}
  {s : σ} {r : ρ} {rs before rest : List ρ}

/-- The first request takes a place, or there is none and it is refused. -/
theorem Metered.step (h : Metered serve free admissible fits refusal)
    (hs : Ready free admissible fits s (r :: rs)) :
    ((serve s r).1 = none ∧ free (serve s r).2 + 1 = free s)
        ∧ Ready free admissible fits (serve s r).2 rs
      ∨ (free s = 0 ∧ (∃ e, (serve s r).1 = some e ∧ refusal e))
        ∧ (serve s r).2 = s ∧ Ready free admissible fits s rs := by
  by_cases hfree : 0 < free s
  · obtain ⟨k, hk⟩ : ∃ k, free s = k + 1 := ⟨free s - 1, by omega⟩
    have hfit := hs.fit
    rw [hk, List.take_succ_cons] at hfit
    obtain ⟨hserved, hone, hrest⟩ :=
      h.admits s r rs hs.admissible hfree (hfit r List.mem_cons_self)
    refine Or.inl ⟨⟨hserved, hone⟩, hrest, fun q hq => hfit q (List.mem_cons_of_mem _ ?_)⟩
    have hleft : free (serve s r).2 = k := by omega
    exact hleft ▸ hq
  · have hnone : free s = 0 := by omega
    obtain ⟨hrefused, hsame⟩ := h.refuses s r rs hs.admissible hnone
    refine Or.inr ⟨⟨hnone, hrefused⟩, hsame, h.skips s r rs hs.admissible, fun q hq => ?_⟩
    rw [hnone] at hq
    exact absurd hq (by simp)

theorem Metered.free_after (h : Metered serve free admissible fits refusal)
    (hs : Ready free admissible fits s rs) :
    free (after serve s rs) = free s - min rs.length (free s) := by
  induction rs generalizing s with
  | nil =>
      show free s = free s - min 0 (free s)
      omega
  | cons r rs ih =>
      show free (after serve (serve s r).2 rs) = free s - min (rs.length + 1) (free s)
      rcases h.step hs with ⟨⟨-, hone⟩, hrest⟩ | ⟨⟨hnone, -⟩, hsame, hrest⟩
      · rw [ih hrest]
        omega
      · rw [hsame, ih hrest]
        omega

/-- **The first requests get the places**, if they fit; and they have to. -/
theorem Metered.admitted_iff (h : Metered serve free admissible fits refusal)
    (hs : admissible s rs) :
    (∀ answer ∈ (answers serve s rs).take (min rs.length (free s)), answer = none)
      ↔ ∀ r ∈ rs.take (free s), fits r := by
  induction rs generalizing s with
  | nil => simp [answers]
  | cons r rs ih =>
      cases hfree : free s with
      | zero => simp
      | succ k =>
          have hroom : 0 < free s := by omega
          rw [List.length_cons, Nat.add_min_add_right, answers, List.take_succ_cons,
            List.take_succ_cons, List.forall_mem_cons, List.forall_mem_cons]
          by_cases hfit : fits r
          · obtain ⟨hserved, hone, hrest⟩ := h.admits s r rs hs hroom hfit
            have hleft : free (serve s r).2 = k := by omega
            rw [← hleft, ih hrest]
            exact and_congr_left fun _ => iff_of_true hserved hfit
          · have hfails := h.fails s r rs hs hroom hfit
            exact iff_of_false (fun hall => hfails hall.1) fun hall => hfit hall.1

/-- **The others are refused.** -/
theorem Metered.refused (h : Metered serve free admissible fits refusal)
    (hs : Ready free admissible fits s rs) :
    ∀ answer ∈ (answers serve s rs).drop (min rs.length (free s)),
      ∃ e, answer = some e ∧ refusal e := by
  induction rs generalizing s with
  | nil =>
      intro answer hanswer
      exact absurd hanswer (by simp [answers])
  | cons r rs ih =>
      intro answer hanswer
      rcases h.step hs with ⟨⟨-, hone⟩, hrest⟩ | ⟨⟨hnone, hserved⟩, hsame, hrest⟩
      · have hmin : min (rs.length + 1) (free s) = min rs.length (free (serve s r).2) + 1 := by omega
        rw [List.length_cons, hmin, answers, List.drop_succ_cons] at hanswer
        exact ih hrest answer hanswer
      · have hlater := ih hrest
        rw [hnone, Nat.min_zero, List.drop_zero] at hlater hanswer
        rw [answers, hsame] at hanswer
        rcases List.mem_cons.mp hanswer with rfl | hanswer
        · exact hserved
        · exact hlater answer hanswer

/-- Whoever is left can still be served. -/
theorem Metered.ready_after (h : Metered serve free admissible fits refusal)
    (hs : Ready free admissible fits s (before ++ rest)) :
    Ready free admissible fits (after serve s before) rest := by
  induction before generalizing s with
  | nil => exact hs
  | cons r before ih =>
      rcases h.step hs with ⟨-, hrest⟩ | ⟨-, hsame, hrest⟩
      · exact ih hrest
      · rw [← hsame] at hrest
        exact ih hrest

/-- **The number of free places tells how the next request ends.** -/
theorem Metered.next_fails_iff (h : Metered serve free admissible fits refusal)
    (hs : Ready free admissible fits s (before ++ r :: rest)) :
    free (after serve s before) = 0 ↔ (serve (after serve s before) r).1 ≠ none := by
  rcases h.step (h.ready_after hs) with ⟨⟨hserved, hone⟩, -⟩ | ⟨⟨hnone, e, he, -⟩, -⟩
  · exact iff_of_false (by omega) (not_not.mpr hserved)
  · refine iff_of_true hnone ?_
    rw [he]
    simp

end Quota
