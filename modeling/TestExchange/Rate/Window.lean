import Mathlib.Algebra.Order.Field.Basic
import Mathlib.Data.List.Induction
import Mathlib.Tactic.Linarith

/-!
# Counting in fixed windows

Requests of one client, counted in windows of one length. The first request
opens a window; later ones are counted in it until its time is up, and the next
request after that opens a new one. Windows are set by the traffic, not by a
grid, so two of them are at least one length apart and otherwise anywhere.

Times are taken from any ordered field, and lists of times are in order.
-/

namespace Rate

variable {T : Type} [Field T] [LinearOrder T]

/-- When a window was opened, and how many requests it has seen. -/
structure Window (T : Type) where
  startedAt : T
  requests : Nat

/-- The window a request at time `t` is counted in, the request included. -/
def next (length : T) (window : Option (Window T)) (t : T) : Window T :=
  match window with
  | none => ⟨t, 1⟩
  | some w => if length ≤ t - w.startedAt then ⟨t, 1⟩ else ⟨w.startedAt, w.requests + 1⟩

/-- The window after the listed requests. -/
def run (length : T) (ts : List T) : Option (Window T) :=
  ts.foldl (fun w t => some (next length w t)) none

/-- Every request with its number in the window it is counted in. -/
def counts (length : T) (ts : List T) : List (T × Nat) :=
  (ts.foldl (fun (x : List (T × Nat) × Option (Window T)) t =>
    (x.1 ++ [(t, (next length x.2 t).requests)], some (next length x.2 t))) ([], none)).1

/-- Some request opened a window at time `σ`. -/
def Opens (length : T) (ts : List T) (σ : T) : Prop :=
  ∃ before rest w, ts = before ++ rest ∧ run length before = some w ∧ w.startedAt = σ

variable {length : T} {ts : List T} {t a σ : T} {w : Window T} {limit : Nat}

/-! ## One more request -/

theorem next_of_expired (h : length ≤ t - w.startedAt) : next length (some w) t = ⟨t, 1⟩ :=
  if_pos h

theorem next_of_current (h : t - w.startedAt < length) :
    next length (some w) t = ⟨w.startedAt, w.requests + 1⟩ := if_neg (not_le.mpr h)

theorem run_snoc : run length (ts ++ [t]) = some (next length (run length ts) t) := by
  unfold run
  rw [List.foldl_append]
  rfl

theorem counts_snoc :
    counts length (ts ++ [t]) = counts length ts ++ [(t, (next length (run length ts) t).requests)] := by
  have hstate : ∀ (ts : List T) (x : List (T × Nat) × Option (Window T)),
      (ts.foldl (fun (x : List (T × Nat) × Option (Window T)) t =>
        (x.1 ++ [(t, (next length x.2 t).requests)], some (next length x.2 t))) x).2
        = ts.foldl (fun w t => some (next length w t)) x.2 := by
    intro ts
    induction ts with
    | nil => exact fun _ => rfl
    | cons t ts ih => exact fun x => ih _
  unfold counts run
  rw [List.foldl_append, ← hstate ts ([], none)]
  rfl

theorem times_counts : (counts length ts).map Prod.fst = ts := by
  induction ts using List.reverseRecOn with
  | nil => rfl
  | append_singleton ts t ih => rw [counts_snoc, List.map_append, ih]; rfl

theorem mem_times {x : T × Nat} (h : x ∈ counts length ts) : x.1 ∈ ts := by
  have hmem : x.1 ∈ (counts length ts).map Prod.fst := List.mem_map.mpr ⟨x, h, rfl⟩
  rw [times_counts] at hmem
  exact hmem

theorem opens_snoc (h : Opens length (ts ++ [t]) σ) :
    Opens length ts σ ∨ (next length (run length ts) t).startedAt = σ := by
  obtain ⟨before, rest, w, hsplit, hrun, hσ⟩ := h
  rcases List.eq_nil_or_concat rest with rfl | ⟨rest', u, rfl⟩
  · rw [List.append_nil] at hsplit
    subst hsplit
    rw [run_snoc] at hrun
    exact Or.inr (by rw [Option.some.inj hrun]; exact hσ)
  · rw [List.concat_eq_append, ← List.append_assoc] at hsplit
    obtain ⟨rfl, -⟩ := List.append_inj' hsplit rfl
    exact Or.inl ⟨before, rest', w, rfl, hrun, hσ⟩

theorem opens_run (h : run length ts = some w) : Opens length ts w.startedAt :=
  ⟨ts, [], w, (List.append_nil _).symm, h, rfl⟩

theorem run_eq_none : run length ts = none ↔ ts = [] := by
  rcases List.eq_nil_or_concat ts with rfl | ⟨ts', t, rfl⟩
  · simp [run]
  · rw [List.concat_eq_append, run_snoc]
    simp

/-- Requests before a window's time is up leave it where it started. -/
theorem run_append_current {us : List T} (hrun : run length ts = some w)
    (h : ∀ u ∈ us, u - w.startedAt < length) :
    ∃ n, run length (ts ++ us) = some ⟨w.startedAt, n⟩ := by
  induction us using List.reverseRecOn with
  | nil => exact ⟨w.requests, by rw [List.append_nil, hrun]⟩
  | append_singleton us u ih =>
      obtain ⟨n, hn⟩ := ih fun v hv => h v (List.mem_append_left _ hv)
      have hu := h u (by simp)
      refine ⟨n + 1, ?_⟩
      rw [← List.append_assoc, run_snoc, hn]
      exact congrArg some (next_of_current hu)

/-! ## Numbers within a window -/

/-- The numbers of the requests that fall in the window opened at `σ`. -/
def inWindow (length σ : T) (xs : List (T × Nat)) : List Nat :=
  (xs.filter fun x => σ ≤ x.1 ∧ x.1 < σ + length).map Prod.snd

theorem inWindow_snoc_of_mem {xs : List (T × Nat)} {n : Nat} (h : σ ≤ t) (h' : t < σ + length) :
    inWindow length σ (xs ++ [(t, n)]) = inWindow length σ xs ++ [n] := by
  unfold inWindow
  rw [List.filter_append, List.map_append, List.filter_cons_of_pos (by simp [h, h'])]
  rfl

theorem inWindow_snoc_of_not {xs : List (T × Nat)} {n : Nat} (h : σ + length ≤ t) :
    inWindow length σ (xs ++ [(t, n)]) = inWindow length σ xs := by
  unfold inWindow
  rw [List.filter_append, List.map_append, List.filter_cons_of_neg (by simp [h])]
  exact List.append_nil _

theorem inWindow_eq_nil {xs : List (T × Nat)} (h : ∀ x ∈ xs, x.1 < σ) :
    inWindow length σ xs = [] := by
  unfold inWindow
  rw [List.filter_eq_nil_iff.mpr]
  · rfl
  · intro x hx
    simp [h x hx]

/-- The requests with a number up to the limit, at times with `p`. -/
def allowed (length : T) (limit : Nat) (p : T → Bool) (ts : List T) : Nat :=
  (counts length ts).countP fun x => x.2 ≤ limit && p x.1

theorem allowed_snoc {p : T → Bool} : allowed length limit p (ts ++ [t])
    = allowed length limit p ts
      + if (next length (run length ts) t).requests ≤ limit && p t then 1 else 0 := by
  unfold allowed
  rw [counts_snoc, List.countP_append, List.countP_singleton]

theorem allowed_eq_zero {p : T → Bool} (h : ∀ t ∈ ts, p t = false) :
    allowed length limit p ts = 0 := by
  unfold allowed
  rw [List.countP_eq_zero]
  intro x hx
  simp [h x.1 (mem_times hx)]

/-- What holds of the current window and of all that were opened, at any time. -/
structure Tidy (length : T) (ts : List T) (w : Window T) : Prop where
  /-- The window was opened by a request. -/
  opened : w.startedAt ∈ ts
  /-- Its time was not up yet at the last request. -/
  current : ∀ t ∈ ts, t < w.startedAt + length
  /-- It has counted what fell into it. -/
  requests : inWindow length w.startedAt (counts length ts) = List.range' 1 w.requests
  /-- The windows before it had ended when it was opened. -/
  apart : ∀ σ, Opens length ts σ → σ = w.startedAt ∨ σ + length ≤ w.startedAt
  /-- The requests of every window are numbered from one. -/
  numbered : ∀ σ, Opens length ts σ → ∃ n, inWindow length σ (counts length ts) = List.range' 1 n

variable [IsStrictOrderedRing T]

theorem tidy_first (hlength : 0 < length) : Tidy length [t] ⟨t, 1⟩ := by
  have hcounts : counts length [t] = [] ++ [(t, 1)] := rfl
  have hin : inWindow length t (counts length [t]) = List.range' 1 1 := by
    rw [hcounts, inWindow_snoc_of_mem (le_refl t) (by linarith)]
    rfl
  have hopens : ∀ σ, Opens length [t] σ → σ = t := by
    intro σ h
    have hsplit : Opens length ([] ++ [t]) σ := h
    rcases opens_snoc hsplit with h | h
    · obtain ⟨before, rest, w, hsplit, hrun, -⟩ := h
      obtain ⟨rfl, -⟩ := List.append_eq_nil_iff.mp hsplit.symm
      exact absurd hrun (by simp [run])
    · exact h.symm
  refine ⟨List.mem_singleton_self t, fun u hu => ?_, hin, fun σ h => Or.inl (hopens σ h),
    fun σ h => ⟨1, ?_⟩⟩
  · rw [List.mem_singleton.mp hu]
    linarith
  · rw [hopens σ h]
    exact hin

/-- **The windows stay tidy**: one more request. -/
theorem tidy_snoc (hlength : 0 < length) (hts : ∀ u ∈ ts, u ≤ t) (hrun : run length ts = some w)
    (h : Tidy length ts w) : Tidy length (ts ++ [t]) (next length (some w) t) := by
  have hstart := hts _ h.opened
  by_cases hexpired : length ≤ t - w.startedAt
  · -- the window's time is up, and this request opens the next one
    rw [next_of_expired hexpired]
    have hcounts : counts length (ts ++ [t]) = counts length ts ++ [(t, 1)] := by
      rw [counts_snoc, hrun, next_of_expired hexpired]
    have hended : ∀ σ, Opens length ts σ → σ + length ≤ t := by
      intro σ hσ
      rcases h.apart σ hσ with rfl | hσ
      · linarith
      · linarith
    have hnew : ∀ σ, Opens length (ts ++ [t]) σ → Opens length ts σ ∨ σ = t := by
      intro σ hσ
      rcases opens_snoc hσ with hσ | hσ
      · exact Or.inl hσ
      · rw [hrun, next_of_expired hexpired] at hσ
        exact Or.inr hσ.symm
    have hin : inWindow length t (counts length (ts ++ [t])) = List.range' 1 1 := by
      rw [hcounts, inWindow_snoc_of_mem (le_refl t) (by linarith), inWindow_eq_nil]
      · rfl
      · intro x hx
        have := h.current x.1 (mem_times hx)
        linarith
    refine ⟨by simp, fun u hu => ?_, hin, fun σ hσ => ?_, fun σ hσ => ?_⟩
    · rcases List.mem_append.mp hu with hu | hu
      · have := hts u hu
        linarith
      · rw [List.mem_singleton.mp hu]
        linarith
    · rcases hnew σ hσ with hσ | hσ
      · exact Or.inr (hended σ hσ)
      · exact Or.inl hσ
    · rcases hnew σ hσ with hσ | rfl
      · obtain ⟨n, hn⟩ := h.numbered σ hσ
        exact ⟨n, by rw [hcounts, inWindow_snoc_of_not (hended σ hσ), hn]⟩
      · exact ⟨1, hin⟩
  · -- it is counted in the window
    have hcurrent : t - w.startedAt < length := not_le.mp hexpired
    rw [next_of_current hcurrent]
    have hcounts : counts length (ts ++ [t]) = counts length ts ++ [(t, w.requests + 1)] := by
      rw [counts_snoc, hrun, next_of_current hcurrent]
    have hnew : ∀ σ, Opens length (ts ++ [t]) σ → Opens length ts σ := by
      intro σ hσ
      rcases opens_snoc hσ with hσ | hσ
      · exact hσ
      · rw [hrun, next_of_current hcurrent] at hσ
        have hopen : Opens length ts w.startedAt := opens_run hrun
        exact hσ ▸ hopen
    have hin : inWindow length w.startedAt (counts length (ts ++ [t]))
        = List.range' 1 (w.requests + 1) := by
      rw [hcounts, inWindow_snoc_of_mem hstart (by linarith), h.requests, List.range'_concat]
      simp [Nat.add_comm]
    refine ⟨List.mem_append_left _ h.opened, fun u hu => ?_, hin, fun σ hσ => h.apart σ (hnew σ hσ),
      fun σ hσ => ?_⟩
    · rcases List.mem_append.mp hu with hu | hu
      · exact h.current u hu
      · rw [List.mem_singleton.mp hu]
        show t < w.startedAt + length
        linarith
    · rcases h.apart σ (hnew σ hσ) with rfl | hended
      · exact ⟨w.requests + 1, hin⟩
      · obtain ⟨n, hn⟩ := h.numbered σ (hnew σ hσ)
        exact ⟨n, by rw [hcounts, inWindow_snoc_of_not (le_trans hended hstart), hn]⟩

/-- **And so they are after any requests in order.** -/
theorem tidy_run (hlength : 0 < length) (hts : ts.Pairwise (· ≤ ·)) (hrun : run length ts = some w) :
    Tidy length ts w := by
  induction ts using List.reverseRecOn generalizing w with
  | nil => exact absurd hrun (by simp [run])
  | append_singleton ts t ih =>
      obtain ⟨hbefore, -, hlast⟩ := List.pairwise_append.mp hts
      have hle : ∀ u ∈ ts, u ≤ t := fun u hu => hlast u hu t (List.mem_singleton_self t)
      rw [run_snoc] at hrun
      cases hw : run length ts with
      | none =>
          rw [hw] at hrun
          obtain rfl := run_eq_none.mp hw
          rw [← Option.some.inj hrun]
          exact tidy_first hlength
      | some v =>
          rw [hw] at hrun
          rw [← Option.some.inj hrun]
          exact tidy_snoc hlength hle hw (ih hbefore hw)

/-- **In every window the requests are numbered from one.** -/
theorem inWindow_eq_range (hlength : 0 < length) (hts : ts.Pairwise (· ≤ ·))
    (hσ : Opens length ts σ) : ∃ n, inWindow length σ (counts length ts) = List.range' 1 n := by
  cases hw : run length ts with
  | none =>
      obtain rfl := run_eq_none.mp hw
      obtain ⟨before, rest, w, hsplit, hrun, -⟩ := hσ
      obtain ⟨rfl, -⟩ := List.append_eq_nil_iff.mp hsplit.symm
      exact absurd hrun (by simp [run])
  | some w => exact (tidy_run hlength hts hw).numbered σ hσ

/-! ## Bursts -/

/-- How much of the limit, twice, an interval of one length has used up. -/
structure Burst (length : T) (limit : Nat) (a : T) (p : T → Bool) (ts : List T) (w : Window T) :
    Prop where
  /-- Up to here only the current window meets the interval. -/
  first : w.startedAt ≤ a → allowed length limit p ts ≤ min limit w.requests
  /-- Up to here only the current window and one before meet it. -/
  second : w.startedAt ≤ a + length → allowed length limit p ts ≤ limit + min limit w.requests
  /-- Two windows are all that can meet it. -/
  total : allowed length limit p ts ≤ 2 * limit

theorem burst_snoc (hlimit : 1 ≤ limit) {p : T → Bool}
    (hp : ∀ t, p t = true → a ≤ t ∧ t ≤ a + length) (hts : ∀ u ∈ ts, u ≤ t)
    (hrun : run length ts = some w) (htidy : Tidy length ts w) (h : Burst length limit a p ts w) :
    Burst length limit a p (ts ++ [t]) (next length (some w) t) := by
  have hstart := hts _ htidy.opened
  have hstep : allowed length limit p (ts ++ [t]) = allowed length limit p ts
      + if (next length (run length ts) t).requests ≤ limit && p t then 1 else 0 := allowed_snoc
  rw [hrun] at hstep
  by_cases hexpired : length ≤ t - w.startedAt
  · rw [next_of_expired hexpired] at hstep ⊢
    dsimp only at hstep
    -- a window that starts within the interval leaves only the one before it
    have hone : (if ((1 : Nat) ≤ limit && p t) = true then 1 else 0) ≤ 1 := by split <;> omega
    have hfirst : t ≤ a + length → allowed length limit p ts ≤ limit := by
      intro ht
      have := h.first (by linarith)
      omega
    refine ⟨fun ht => ?_, fun ht => ?_, ?_⟩
    · have hzero : allowed length limit p ts = 0 := by
        refine allowed_eq_zero fun u hu => Bool.eq_false_iff.mpr fun hpu => ?_
        have hu := htidy.current u hu
        have := (hp u hpu).1
        simp only at ht
        linarith
      rw [hstep, hzero]
      simp only
      omega
    · have := hfirst ht
      rw [hstep]
      dsimp only
      omega
    · by_cases hin : p t = true
      · have := hfirst (hp t hin).2
        omega
      · have := h.total
        simp only [Bool.not_eq_true] at hin
        simp only [hin, Bool.and_false] at hstep
        simpa [hstep] using this
  · have hcurrent : t - w.startedAt < length := not_le.mp hexpired
    rw [next_of_current hcurrent] at hstep ⊢
    dsimp only at hstep
    have hmin : min limit w.requests
        + (if ((w.requests + 1 : Nat) ≤ limit && p t) = true then 1 else 0)
          ≤ min limit (w.requests + 1) := by
      split
      · rename_i hle
        simp only [Bool.and_eq_true, decide_eq_true_eq] at hle
        omega
      · omega
    refine ⟨fun ht => ?_, fun ht => ?_, ?_⟩
    · have := h.first ht
      rw [hstep]
      dsimp only
      omega
    · have := h.second ht
      rw [hstep]
      dsimp only
      omega
    · by_cases hin : p t = true
      · have := h.second (by have := (hp t hin).2; linarith)
        rw [hstep]
        omega
      · have := h.total
        simp only [Bool.not_eq_true] at hin
        simp only [hin, Bool.and_false] at hstep
        simpa [hstep] using this

/-- **At most twice the limit** is allowed within any interval of one length. -/
theorem allowed_le (hlength : 0 < length) (hlimit : 1 ≤ limit) {p : T → Bool}
    (hp : ∀ t, p t = true → a ≤ t ∧ t ≤ a + length) (hts : ts.Pairwise (· ≤ ·)) :
    allowed length limit p ts ≤ 2 * limit := by
  have hburst : ∀ w, run length ts = some w → Burst length limit a p ts w := by
    induction ts using List.reverseRecOn with
    | nil => exact fun w hw => absurd hw (by simp [run])
    | append_singleton ts t ih =>
        intro w hw
        obtain ⟨hbefore, -, hlast⟩ := List.pairwise_append.mp hts
        have hle : ∀ u ∈ ts, u ≤ t := fun u hu => hlast u hu t (List.mem_singleton_self t)
        rw [run_snoc] at hw
        rw [← Option.some.inj hw]
        cases hv : run length ts with
        | none =>
            obtain rfl := run_eq_none.mp hv
            have hone : allowed length limit p [t] ≤ 1 := List.countP_le_length
            have hnext : next length none t = ⟨t, 1⟩ := rfl
            rw [hnext]
            refine ⟨fun _ => ?_, fun _ => ?_, ?_⟩
            · exact le_trans hone (by simp only; omega)
            · exact le_trans hone (by simp only; omega)
            · exact le_trans hone (by omega)
        | some v =>
            exact burst_snoc hlimit hp hle hv (tidy_run hlength hbefore hv) (ih hbefore v hv)
  cases hw : run length ts with
  | none =>
      obtain rfl := run_eq_none.mp hw
      exact Nat.zero_le _
  | some w => exact (hburst w hw).total

end Rate
