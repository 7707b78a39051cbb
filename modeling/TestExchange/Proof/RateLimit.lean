import TestExchange.Model.RateLimit
import Mathlib.Order.Bounds.Basic

/-!
# What the limiter does to one key

The limiter keeps the windows of all keys in one dictionary and throws old ones
away every thousand calls. Nobody can tell: it `Tracks` one window per key, fed
with that key's calls only. A window it has thrown away is one whose time was
up, so the next call on its key opens a new one in any case.

From there everything about one key is counting in fixed windows
(`TestExchange.Rate.Window`).
-/

namespace TestExchange

open FixedWindowRateLimiter

/-- A limiter for one key, which never cleans up. -/
structure KeyLimiter where
  windowSeconds : ℚ
  window : Option RateWindow

namespace KeyLimiter

def new (windowSeconds : ℚ) : KeyLimiter := ⟨windowSeconds, none⟩

def consume (limiter : KeyLimiter) (limit : Int) (currentTime : ℚ) : RateLimitResult × KeyLimiter :=
  let window : RateWindow :=
    match limiter.window with
    | none => ⟨currentTime, 0⟩
    | some window =>
        if limiter.windowSeconds ≤ currentTime - window.startedAt then ⟨currentTime, 0⟩ else window
  let window := { window with requests := window.requests + 1 }
  (result limiter.windowSeconds limit currentTime window, { limiter with window := some window })

/-- The answer to each call of a list, with the call. -/
def log (limiter : KeyLimiter) : List ConsumeCall → List (ConsumeCall × RateLimitResult)
  | [] => []
  | call :: calls =>
      let (result, limiter) := limiter.consume call.limit call.now
      (call, result) :: limiter.log calls

end KeyLimiter

variable {W : ℚ} {calls before rest : List ConsumeCall} {call : ConsumeCall} {k : String}
  {limiter : FixedWindowRateLimiter} {limit : Int} {now : ℚ}

/-- The times of the calls on a key. -/
def timesOf (k : String) (calls : List ConsumeCall) : List ℚ :=
  (calls.filter (·.key = k)).map (·.now)

theorem timesOf_snoc_self (h : call.key = k) :
    timesOf k (calls ++ [call]) = timesOf k calls ++ [call.now] := by
  unfold timesOf
  rw [List.filter_append, List.filter_cons_of_pos (by simpa using h), List.map_append]
  rfl

theorem timesOf_snoc_ne (h : call.key ≠ k) : timesOf k (calls ++ [call]) = timesOf k calls := by
  unfold timesOf
  rw [List.filter_append, List.filter_cons_of_neg (by simpa using h), List.filter_nil,
    List.append_nil]

theorem timesOf_le (h : ∀ c ∈ calls, c.now ≤ now) : ∀ t ∈ timesOf k calls, t ≤ now := by
  intro t ht
  obtain ⟨c, hc, rfl⟩ := List.mem_map.mp ht
  exact h c (List.mem_of_mem_filter hc)

theorem timesOf_pairwise (h : calls.Pairwise (·.now ≤ ·.now)) :
    (timesOf k calls).Pairwise (· ≤ ·) := by
  unfold timesOf
  rw [List.pairwise_map]
  exact h.filter _

/-! ## One call -/

theorem currentWindow_next : { limiter.currentWindow k now with
    requests := (limiter.currentWindow k now).requests + 1 }
      = Rate.next limiter.windowSeconds (limiter.windows k) now := by
  unfold currentWindow Rate.next
  cases limiter.windows k with
  | none => rfl
  | some w =>
      dsimp only
      split <;> rfl

@[simp] theorem windowSeconds_cleanup : (limiter.cleanup now).windowSeconds = limiter.windowSeconds := by
  unfold cleanup
  dsimp only
  split <;> rfl

theorem consume_fst : (limiter.consume k limit now).1
    = result limiter.windowSeconds limit now
      (Rate.next limiter.windowSeconds ((limiter.cleanup now).windows k) now) := by
  unfold consume
  dsimp only
  rw [currentWindow_next, windowSeconds_cleanup]

theorem windows_consume_self : (limiter.consume k limit now).2.windows k
    = some (Rate.next limiter.windowSeconds ((limiter.cleanup now).windows k) now) := by
  unfold consume
  dsimp only
  rw [Function.update_self, currentWindow_next, windowSeconds_cleanup]

theorem windows_consume_ne {j : String} (h : j ≠ k) :
    (limiter.consume k limit now).2.windows j = (limiter.cleanup now).windows j :=
  Function.update_of_ne h _ _

@[simp] theorem windowSeconds_consume :
    (limiter.consume k limit now).2.windowSeconds = limiter.windowSeconds := windowSeconds_cleanup

/-- A clean-up keeps a key's window, or drops it when its time is up. -/
theorem windows_cleanup : (limiter.cleanup now).windows k = limiter.windows k
    ∨ (limiter.cleanup now).windows k = none
      ∧ ∃ w, limiter.windows k = some w ∧ limiter.windowSeconds ≤ now - w.startedAt := by
  unfold cleanup
  dsimp only
  split
  · dsimp only
    cases hw : limiter.windows k with
    | none => exact Or.inl rfl
    | some w =>
        by_cases hold : now - limiter.windowSeconds < w.startedAt
        · exact Or.inl (Option.filter_some_pos (decide_eq_true hold))
        · refine Or.inr ⟨Option.filter_some_neg (by simpa using decide_eq_false hold), w, rfl, ?_⟩
          linarith [not_lt.mp hold]
  · exact Or.inl rfl

/-! ## One window per key -/

/-- The limiter stands for one window per key, each fed with the calls on its key. -/
structure Tracks (W : ℚ) (calls : List ConsumeCall) (limiter : FixedWindowRateLimiter) : Prop where
  windowSeconds : limiter.windowSeconds = W
  /-- A key's window is there, or its time was up at some call. -/
  windows : ∀ k, limiter.windows k = Rate.run W (timesOf k calls)
    ∨ limiter.windows k = none ∧ ∃ w, Rate.run W (timesOf k calls) = some w
      ∧ ∃ call ∈ calls, W ≤ call.now - w.startedAt

theorem Tracks.cleaned (h : Tracks W calls limiter) (hle : ∀ c ∈ calls, c.now ≤ now) :
    (limiter.cleanup now).windows k = Rate.run W (timesOf k calls)
      ∨ (limiter.cleanup now).windows k = none ∧ ∃ w, Rate.run W (timesOf k calls) = some w
        ∧ W ≤ now - w.startedAt := by
  rcases @windows_cleanup k limiter now with hclean | ⟨hclean, w, hw, hold⟩
  · rw [hclean]
    rcases h.windows k with hk | ⟨hk, w, hw, call, hcall, hold⟩
    · exact Or.inl hk
    · have := hle call hcall
      exact Or.inr ⟨hk, w, hw, by linarith⟩
  · rw [h.windowSeconds] at hold
    rcases h.windows k with hk | ⟨hk, -⟩
    · exact Or.inr ⟨hclean, w, by rw [← hk]; exact hw, hold⟩
    · rw [hk] at hw
      exact absurd hw (by simp)

/-- **A call is counted as if its key had a limiter of its own.** -/
theorem Tracks.next_eq (h : Tracks W calls limiter) (hle : ∀ c ∈ calls, c.now ≤ now) :
    Rate.next W ((limiter.cleanup now).windows k) now
      = Rate.next W (Rate.run W (timesOf k calls)) now := by
  rcases h.cleaned (k := k) hle with hk | ⟨hk, w, hw, hold⟩
  · rw [hk]
  · rw [hk, hw, Rate.next_of_expired hold]
    rfl

theorem tracks_consume (h : Tracks W calls limiter) (hle : ∀ c ∈ calls, c.now ≤ call.now) :
    Tracks W (calls ++ [call]) (limiter.consume call.key call.limit call.now).2 where
  windowSeconds := by rw [windowSeconds_consume, h.windowSeconds]
  windows := by
    intro j
    by_cases hj : j = call.key
    · subst hj
      rw [windows_consume_self, timesOf_snoc_self rfl, Rate.run_snoc, h.windowSeconds, h.next_eq hle]
      exact Or.inl rfl
    · rw [windows_consume_ne hj, timesOf_snoc_ne (Ne.symm hj)]
      rcases h.cleaned (k := j) hle with hk | ⟨hk, w, hw, hold⟩
      · exact Or.inl hk
      · exact Or.inr ⟨hk, w, hw, call, by simp, hold⟩

theorem after_snoc : limiter.after (calls ++ [call])
    = ((limiter.after calls).consume call.key call.limit call.now).2 := by
  unfold after
  rw [List.foldl_append]
  rfl

theorem le_last (h : (calls ++ [call]).Pairwise (·.now ≤ ·.now)) : ∀ c ∈ calls, c.now ≤ call.now :=
  fun c hc => (List.pairwise_append.mp h).2.2 c hc call (List.mem_singleton_self call)

/-- **A fresh limiter tracks one window per key**, whatever calls it gets in order. -/
theorem tracks_after (h : calls.Pairwise (·.now ≤ ·.now)) :
    Tracks W calls ((new W).after calls) := by
  induction calls using List.reverseRecOn with
  | nil => exact ⟨rfl, fun k => Or.inl rfl⟩
  | append_singleton calls call ih =>
      rw [after_snoc]
      exact tracks_consume (ih (List.pairwise_append.mp h).1) (le_last h)

theorem consume_after (h : (calls ++ [call]).Pairwise (·.now ≤ ·.now)) :
    (((new W).after calls).consume call.key call.limit call.now).1
      = result W call.limit call.now (Rate.next W (Rate.run W (timesOf call.key calls)) call.now) := by
  have htracks := tracks_after (W := W) (List.pairwise_append.mp h).1
  rw [consume_fst, htracks.windowSeconds, htracks.next_eq (le_last h)]

theorem FixedWindowRateLimiter.log_snoc : limiter.log (calls ++ [call]) = limiter.log calls
    ++ [(call, ((limiter.after calls).consume call.key call.limit call.now).1)] := by
  induction calls generalizing limiter with
  | nil => rfl
  | cons first calls ih =>
      show (first, _) :: (limiter.consume first.key first.limit first.now).2.log (calls ++ [call]) = _
      rw [ih]
      rfl

/-! ## The reference limiter -/

theorem KeyLimiter.consume_eq {reference : KeyLimiter} : reference.consume limit now
    = (result reference.windowSeconds limit now
        (Rate.next reference.windowSeconds reference.window now),
      { reference with window := some (Rate.next reference.windowSeconds reference.window now) }) := by
  unfold KeyLimiter.consume Rate.next
  cases reference.window with
  | none => rfl
  | some w =>
      dsimp only
      split <;> rfl

theorem KeyLimiter.log_snoc {reference : KeyLimiter} : reference.log (calls ++ [call])
    = reference.log calls ++ [(call, result reference.windowSeconds call.limit call.now
      (Rate.next reference.windowSeconds
        ((calls.map (·.now)).foldl (fun w t => some (Rate.next reference.windowSeconds w t))
          reference.window) call.now))] := by
  induction calls generalizing reference with
  | nil => simp only [List.nil_append, KeyLimiter.log, KeyLimiter.consume_eq, List.map_nil,
      List.foldl_nil]
  | cons first calls ih =>
      rw [List.cons_append, KeyLimiter.log, KeyLimiter.log]
      simp only [KeyLimiter.consume_eq, ih, List.cons_append, List.map_cons, List.foldl_cons]

/--
**The shared limiter is one limiter per key.** The answers to the calls on a key
are those of a limiter that has that key to itself and never cleans up.
-/
theorem limiter_per_key (W : ℚ) (calls : List ConsumeCall)
    (hmono : calls.Pairwise (·.now ≤ ·.now)) (k : String) :
    ((FixedWindowRateLimiter.new W).log calls).filter (·.1.key = k)
      = (KeyLimiter.new W).log (calls.filter (·.key = k)) := by
  induction calls using List.reverseRecOn with
  | nil => rfl
  | append_singleton calls call ih =>
      have ih := ih (List.pairwise_append.mp hmono).1
      rw [FixedWindowRateLimiter.log_snoc, List.filter_append, List.filter_append, ih]
      by_cases hk : call.key = k
      · subst hk
        rw [List.filter_cons_of_pos (by simp), List.filter_cons_of_pos (by simp), List.filter_nil,
          List.filter_nil, KeyLimiter.log_snoc, consume_after hmono]
        rfl
      · rw [List.filter_cons_of_neg (by simpa using hk), List.filter_cons_of_neg (by simpa using hk)]
        simp

/-- A window of two seconds: three calls on one key, then one on another, then the first again. -/
def pollingCalls : List ConsumeCall :=
  [⟨"ip:a:read", 2, 0⟩, ⟨"ip:a:read", 2, 1⟩, ⟨"ip:a:read", 2, 3 / 2⟩, ⟨"ip:b:read", 2, 3 / 2⟩,
   ⟨"ip:a:read", 2, 2⟩]

theorem pollingCalls_mono : pollingCalls.Pairwise (·.now ≤ ·.now) := by decide +kernel

theorem limiter_per_key_polling :
    ((FixedWindowRateLimiter.new 2).log pollingCalls).map (·.2.allowed)
        = [true, true, false, true, true]
      ∧ ((FixedWindowRateLimiter.new 2).log pollingCalls).filter (·.1.key = "ip:a:read")
        = (KeyLimiter.new 2).log (pollingCalls.filter (·.key = "ip:a:read")) :=
  ⟨by decide +kernel, limiter_per_key 2 pollingCalls pollingCalls_mono "ip:a:read"⟩

/-! ## Bursts -/

/-- The calls on a key, with their verdicts, are requests counted in fixed windows. -/
theorem log_counts {L : Nat} (hmono : calls.Pairwise (·.now ≤ ·.now))
    (hlimit : ∀ c ∈ calls, c.key = k → c.limit = L) :
    (((FixedWindowRateLimiter.new W).log calls).filter (·.1.key = k)).map
        (fun x => (x.1.now, x.2.allowed))
      = (Rate.counts W (timesOf k calls)).map fun x => (x.1, decide (x.2 ≤ L)) := by
  induction calls using List.reverseRecOn with
  | nil => rfl
  | append_singleton calls call ih =>
      have ih := ih (List.pairwise_append.mp hmono).1 fun c hc =>
        hlimit c (List.mem_append_left _ hc)
      rw [FixedWindowRateLimiter.log_snoc, List.filter_append, List.map_append, ih]
      by_cases hk : call.key = k
      · have hL := hlimit call (by simp) hk
        rw [timesOf_snoc_self hk, Rate.counts_snoc, List.map_append,
          List.filter_cons_of_pos (by simpa using hk), List.filter_nil, consume_after hmono, hk]
        simp only [List.map_cons, List.map_nil, result, hL, Nat.cast_le]
      · rw [timesOf_snoc_ne hk, List.filter_cons_of_neg (by simpa using hk)]
        simp

/-- Some call leaves the key with a window that started at `σ`. -/
def WindowStarts (W : ℚ) (calls : List ConsumeCall) (k : String) (σ : ℚ) : Prop :=
  ∃ before rest w, calls = before ++ rest
    ∧ ((FixedWindowRateLimiter.new W).after before).windows k = some w ∧ w.startedAt = σ

theorem WindowStarts.opens {σ : ℚ} (hmono : calls.Pairwise (·.now ≤ ·.now))
    (h : WindowStarts W calls k σ) : Rate.Opens W (timesOf k calls) σ := by
  obtain ⟨before, rest, w, rfl, hw, hσ⟩ := h
  have htracks := tracks_after (W := W) (List.pairwise_append.mp hmono).1
  refine ⟨timesOf k before, timesOf k rest, w, ?_, ?_, hσ⟩
  · unfold timesOf
    rw [List.filter_append, List.map_append]
  · rcases htracks.windows k with hk | ⟨hk, -⟩
    · rw [← hk]
      exact hw
    · rw [hk] at hw
      exact absurd hw (by simp)

/-- The first numbers of a range up to a limit. -/
theorem map_range'_le (L n : Nat) : (List.range' 1 n).map (fun i => decide (i ≤ L))
    = List.replicate (min L n) true ++ List.replicate (n - L) false := by
  induction n with
  | zero => simp
  | succ n ih =>
      rw [List.range'_concat, List.map_append, ih]
      by_cases h : n + 1 ≤ L
      · have hmin : min L (n + 1) = min L n + 1 := by omega
        have hsub : n + 1 - L = 0 := by omega
        have hsub' : n - L = 0 := by omega
        rw [hmin, hsub, hsub', List.replicate_succ']
        simp [Nat.add_comm 1 n, h]
      · have hmin : min L (n + 1) = min L n := by omega
        have hsub : n + 1 - L = (n - L) + 1 := by omega
        rw [hmin, hsub, List.replicate_succ']
        simp [Nat.add_comm 1 n, h]

/-- The calls on `k` at times with `p`, with their verdicts. -/
def verdicts (W : ℚ) (calls : List ConsumeCall) (k : String) (p : ℚ → Bool) : List Bool :=
  (((FixedWindowRateLimiter.new W).log calls).filter fun x => x.1.key = k && p x.1.now).map
    (·.2.allowed)

theorem verdicts_eq {L : Nat} {p : ℚ → Bool} (hmono : calls.Pairwise (·.now ≤ ·.now))
    (hlimit : ∀ c ∈ calls, c.key = k → c.limit = L) : verdicts W calls k p
      = ((Rate.counts W (timesOf k calls)).filter fun x => p x.1).map fun x => decide (x.2 ≤ L) := by
  have hcounts := log_counts (W := W) hmono hlimit
  have hpairs := congrArg (fun l : List (ℚ × Bool) => (l.filter fun x => p x.1).map Prod.snd) hcounts
  simp only [List.filter_map, List.map_map, List.filter_filter] at hpairs
  unfold verdicts
  refine Eq.trans ?_ hpairs
  refine congrArg₂ _ rfl (List.filter_congr fun x _ => ?_)
  simp only [Function.comp]
  exact Bool.and_comm _ _

/--
**Bursts are bounded.** For a key that is always called with the limit `L`: of
its calls within any half-open interval of one window length at most `2 * L` are
allowed, and of its calls within one of its windows the first `L` are.
-/
theorem burst_bound (W : ℚ) (hW : 1 ≤ W) (L : Nat) (hL : 1 ≤ L) (calls : List ConsumeCall)
    (hmono : calls.Pairwise (·.now ≤ ·.now)) (k : String)
    (hlimit : ∀ c ∈ calls, c.key = k → c.limit = L) :
    (∀ a : ℚ, (verdicts W calls k fun t => a ≤ t && t < a + W).count true ≤ 2 * L
      ∧ (verdicts W calls k fun t => a < t && t ≤ a + W).count true ≤ 2 * L)
    ∧ ∀ σ, WindowStarts W calls k σ →
      let inside := verdicts W calls k fun t => σ ≤ t && t < σ + W
      inside = List.replicate (min L inside.length) true
        ++ List.replicate (inside.length - min L inside.length) false := by
  have hpos : 0 < W := by linarith
  have htimes := timesOf_pairwise (k := k) hmono
  have hcount : ∀ p : ℚ → Bool,
      (verdicts W calls k p).count true = Rate.allowed W L p (timesOf k calls) := by
    intro p
    rw [verdicts_eq hmono hlimit, List.count_eq_countP, List.countP_map, List.countP_filter]
    unfold Rate.allowed
    refine List.countP_congr fun x _ => ?_
    simp
  refine ⟨fun a => ⟨?_, ?_⟩, fun σ hσ => ?_⟩
  · rw [hcount]
    refine Rate.allowed_le (a := a) hpos hL (fun t ht => ?_) htimes
    simp only [Bool.and_eq_true, decide_eq_true_eq] at ht
    exact ⟨ht.1, ht.2.le⟩
  · rw [hcount]
    refine Rate.allowed_le (a := a) hpos hL (fun t ht => ?_) htimes
    simp only [Bool.and_eq_true, decide_eq_true_eq] at ht
    exact ⟨ht.1.le, ht.2⟩
  · obtain ⟨n, hn⟩ := Rate.inWindow_eq_range hpos htimes (hσ.opens hmono)
    have hinside : (verdicts W calls k fun t => σ ≤ t && t < σ + W)
        = (List.range' 1 n).map fun i => decide (i ≤ L) := by
      rw [verdicts_eq hmono hlimit, ← hn]
      unfold Rate.inWindow
      rw [List.map_map]
      simp only [Bool.decide_and]
      rfl
    have hlength : (verdicts W calls k fun t => σ ≤ t && t < σ + W).length = n := by
      rw [hinside, List.length_map, List.length_range']
    have hsub : n - min L n = n - L := by omega
    dsimp only
    rw [hlength, hsub, ← map_range'_le, hinside]

theorem burst_bound_polling :
    (verdicts 2 pollingCalls "ip:a:read" fun t => 0 ≤ t && t < 2) = [true, true, false]
      ∧ (verdicts 2 pollingCalls "ip:a:read" fun t => 1 ≤ t && t < 1 + 2).count true ≤ 2 * 2 := by
  have hlimit : ∀ c ∈ pollingCalls, c.key = "ip:a:read" → c.limit = (2 : Nat) := by decide
  have hbound := burst_bound 2 (by norm_num) 2 (by norm_num) pollingCalls pollingCalls_mono
    "ip:a:read" hlimit
  exact ⟨by decide +kernel, (hbound.1 1).1⟩

/-! ## When to come back -/

theorem timesOf_append : timesOf k (before ++ rest) = timesOf k before ++ timesOf k rest := by
  unfold timesOf
  rw [List.filter_append, List.map_append]

/-- Right after a call its key has the window the call was counted in. -/
theorem windows_after_call (h : (calls ++ [call]).Pairwise (·.now ≤ ·.now)) :
    ((new W).after (calls ++ [call])).windows call.key
      = some (Rate.next W (Rate.run W (timesOf call.key calls)) call.now) := by
  have htracks := tracks_after (W := W) (List.pairwise_append.mp h).1
  rw [after_snoc, windows_consume_self, htracks.windowSeconds, htracks.next_eq (le_last h)]

/-- That window has started, and its time is not up. -/
theorem window_after_call_current (hW : 0 < W) (h : (calls ++ [call]).Pairwise (·.now ≤ ·.now)) :
    (Rate.next W (Rate.run W (timesOf call.key calls)) call.now).startedAt ≤ call.now
      ∧ call.now - (Rate.next W (Rate.run W (timesOf call.key calls)) call.now).startedAt < W := by
  have hle : ∀ c ∈ calls ++ [call], c.now ≤ call.now := by
    intro c hc
    rcases List.mem_append.mp hc with hc | hc
    · exact le_last h c hc
    · rw [List.mem_singleton.mp hc]
  have hrun : Rate.run W (timesOf call.key (calls ++ [call]))
      = some (Rate.next W (Rate.run W (timesOf call.key calls)) call.now) := by
    rw [timesOf_snoc_self rfl, Rate.run_snoc]
  have htidy := Rate.tidy_run hW (timesOf_pairwise h) hrun
  refine ⟨timesOf_le hle _ htidy.opened, ?_⟩
  have hnow : call.now ∈ timesOf call.key (calls ++ [call]) := by
    rw [timesOf_snoc_self rfl]
    simp
  have := htidy.current call.now hnow
  linarith

/--
After this many seconds, whatever is called meanwhile, the key's next call is
the first of a new window. The calls meanwhile are any that leave the key's
current window, which started at `σ`, to run out: none on the key once its time
is up.
-/
def FreshAfter (W : ℚ) (L : Nat) (calls : List ConsumeCall) (call : ConsumeCall) (σ : ℚ)
    (n : Int) : Prop :=
  ∀ further : List ConsumeCall, ∀ limit : Int,
    let again : ConsumeCall := ⟨call.key, limit, call.now + n⟩
    (calls ++ [call] ++ further ++ [again]).Pairwise (·.now ≤ ·.now) →
    (∀ c ∈ further ++ [again], c.key = call.key → c.limit = L) →
    (∀ c ∈ further, c.key = call.key → c.now < σ + W) →
    let answer := (((new W).after (calls ++ [call] ++ further)).consume again.key again.limit
      again.now).1
    answer.allowed = true ∧ answer.remaining = L - 1

theorem result_first {L : Nat} (hL : 1 ≤ L) : (result W L now ⟨now, 1⟩).allowed = true
    ∧ (result W L now ⟨now, 1⟩).remaining = L - 1 := by
  unfold result
  refine ⟨decide_eq_true (by exact_mod_cast hL), ?_⟩
  simp only [Nat.cast_one]
  omega

/-- What has the time left to pass is fresh. -/
theorem fresh_of_expired {L : Nat} {n : Int} {w : RateWindow} (hL : 1 ≤ L)
    (hw : Rate.run W (timesOf call.key (calls ++ [call])) = some w)
    (hn : W ≤ call.now + n - w.startedAt) : FreshAfter W L calls call w.startedAt n := by
  intro further limit again hmono hlimit hmeanwhile
  have hagain : limit = L := hlimit again (by simp) rfl
  subst hagain
  have hcurrent : ∀ u ∈ timesOf call.key further, u - w.startedAt < W := by
    intro u hu
    obtain ⟨c, hc, rfl⟩ := List.mem_map.mp hu
    have hkey : c.key = call.key := by simpa using (List.mem_filter.mp hc).2
    have := hmeanwhile c (List.mem_of_mem_filter hc) hkey
    linarith
  obtain ⟨m, hm⟩ := Rate.run_append_current hw hcurrent
  have hanswer := consume_after (W := W) hmono
  have hnext : Rate.next W (Rate.run W (timesOf again.key (calls ++ [call] ++ further))) again.now
      = ⟨again.now, 1⟩ := by
    rw [timesOf_append, hm]
    exact Rate.next_of_expired hn
  rw [hnext] at hanswer
  rw [hanswer]
  exact result_first hL

/-- What comes before the time is up, after a denied call, is denied as well. -/
theorem not_fresh_of_current {L : Nat} {n : Int} {w : RateWindow} (hn : 0 ≤ n)
    (hmono : (calls ++ [call]).Pairwise (·.now ≤ ·.now))
    (hw : Rate.run W (timesOf call.key (calls ++ [call])) = some w) (hdenied : L < w.requests)
    (hcurrent : call.now + n - w.startedAt < W) : ¬ FreshAfter W L calls call w.startedAt n := by
  intro hfresh
  have hzero : (0 : ℚ) ≤ n := by exact_mod_cast hn
  have horder : List.Pairwise (fun c d : ConsumeCall => c.now ≤ d.now)
      (calls ++ [call] ++ [] ++ [⟨call.key, L, call.now + n⟩]) := by
    rw [List.append_nil, List.pairwise_append]
    refine ⟨hmono, List.pairwise_singleton _ _, fun c hc d hd => ?_⟩
    rw [List.mem_singleton.mp hd]
    show c.now ≤ call.now + n
    rcases List.mem_append.mp hc with hc | hc
    · have := le_last hmono c hc
      linarith
    · rw [List.mem_singleton.mp hc]
      linarith
  have hanswer := consume_after (W := W) horder
  have hallowed := (hfresh [] L horder (by simp) (by simp)).1
  dsimp only at hallowed hanswer
  rw [hanswer, List.append_nil, hw, Rate.next_of_current hcurrent] at hallowed
  unfold result at hallowed
  simp only [decide_eq_true_eq] at hallowed
  omega

/--
**`Retry-After` is exact.** When a call is denied, `retry_after` is between one
and the length of a window, and it is the least positive number of seconds after
which the key's next call is the first of a new window, whatever is called
meanwhile on other keys, and on this one until its window ends.
-/
theorem retry_after_exact (W : Int) (hW : 1 ≤ W) (L : Nat) (hL : 1 ≤ L)
    (calls : List ConsumeCall) (call : ConsumeCall)
    (hmono : (calls ++ [call]).Pairwise (·.now ≤ ·.now))
    (hlimit : ∀ c ∈ calls ++ [call], c.key = call.key → c.limit = L)
    (hdenied : (((new W).after calls).consume call.key call.limit call.now).1.allowed = false) :
    let r := (((new W).after calls).consume call.key call.limit call.now).1.retryAfter
    1 ≤ r ∧ r ≤ W ∧ ∃ w, ((new W).after (calls ++ [call])).windows call.key = some w
      ∧ IsLeast {n : Int | 0 < n ∧ FreshAfter W L calls call w.startedAt n} r := by
  have hpos : (0 : ℚ) < W := by exact_mod_cast hW
  have hanswer := consume_after (W := W) hmono
  have hwindow := windows_after_call (W := W) hmono
  have hrun : Rate.run (W : ℚ) (timesOf call.key (calls ++ [call]))
      = some (Rate.next (W : ℚ) (Rate.run (W : ℚ) (timesOf call.key calls)) call.now) := by
    rw [timesOf_snoc_self rfl, Rate.run_snoc]
  obtain ⟨hstarted, hcurrent⟩ := window_after_call_current hpos hmono
  generalize Rate.next (W : ℚ) (Rate.run (W : ℚ) (timesOf call.key calls)) call.now = w
    at hanswer hwindow hrun hstarted hcurrent
  have hL' := hlimit call (by simp) rfl
  rw [hanswer] at hdenied ⊢
  have hover : L < w.requests := by
    unfold result at hdenied
    simp only [hL', decide_eq_false_iff_not] at hdenied
    omega
  dsimp only [result]
  -- the time left is positive and at most a whole window
  have hceil : 1 ≤ ⌈(W : ℚ) - (call.now - w.startedAt)⌉ := Int.one_le_ceil_iff.mpr (by linarith)
  have hmax : max 1 ⌈(W : ℚ) - (call.now - w.startedAt)⌉ = ⌈(W : ℚ) - (call.now - w.startedAt)⌉ :=
    max_eq_right hceil
  rw [hmax]
  refine ⟨hceil, Int.ceil_le.mpr (by linarith), w, hwindow, ⟨by omega, ?_⟩, ?_⟩
  · refine fresh_of_expired hL hrun ?_
    have := Int.le_ceil ((W : ℚ) - (call.now - w.startedAt))
    linarith
  · intro n hfresh
    obtain ⟨hn, hfresh⟩ := hfresh
    by_contra hlt
    have hsoon := Int.lt_ceil.mp (not_le.mp hlt)
    exact not_fresh_of_current hn.le hmono hrun hover (by linarith) hfresh

/-- The third poll, half a second before its window ends. -/
def thirdPoll : ConsumeCall := ⟨"ip:a:read", 2, 3 / 2⟩

theorem retry_after_exact_polling :
    ∃ w, ((new ((2 : Int) : ℚ)).after (pollingCalls.take 2 ++ [thirdPoll])).windows thirdPoll.key
        = some w
      ∧ IsLeast {n : Int | 0 < n
        ∧ FreshAfter ((2 : Int) : ℚ) 2 (pollingCalls.take 2) thirdPoll w.startedAt n} 1 := by
  have hr : (((new ((2 : Int) : ℚ)).after (pollingCalls.take 2)).consume thirdPoll.key
      thirdPoll.limit thirdPoll.now).1.retryAfter = 1 := by decide +kernel
  have hexact := retry_after_exact 2 (by norm_num) 2 (by norm_num) (pollingCalls.take 2) thirdPoll
    (by decide +kernel) (by decide +kernel) (by decide +kernel)
  dsimp only at hexact
  rw [hr] at hexact
  exact hexact.2.2

end TestExchange
