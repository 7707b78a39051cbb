import TestExchange.Txn.Traces

/-!
# Sessions that succeed

What a session run alone returns, where it fails, and which identifiers it has
drawn: the total counterpart of the footprints. A session that only queues
writes whose constraints hold is sure to flush.
-/

namespace Txn

variable {S L ε α β : Type}

/-- Identifiers are only drawn, never given back. -/
theorem Program.alone_next_le {x : Program S L ε α} {now n n' : Nat} {s s' : S} {a : α}
    (hok : x.alone now s n = .ok (a, s', n')) : n ≤ n' := by
  induction x generalizing s n with
  | done b =>
      obtain ⟨-, h⟩ := Prod.mk.inj (Except.ok.inj hok)
      obtain ⟨-, rfl⟩ := Prod.mk.inj h
      exact Nat.le_refl _
  | raise e => exact absurd hok (by simp [Program.alone])
  | select k ih => exact ih s hok
  | lock rows k ih => exact ih s hok
  | exec w k ih =>
      unfold Program.alone at hok
      split at hok
      · exact ih _ hok
      · exact ih _ hok
  | uuid4 k ih => exact Nat.le_of_succ_le (ih n hok)
  | utcnow k ih => exact ih now hok

namespace Session

variable {m : Session S L ε α} {f : α → Session S L ε β} {now : Nat} {c c' : Conn S L ε}

theorem alone_next_le {a : α} (hok : m.alone now c = .ok (a, c')) : c.next ≤ c'.next := by
  unfold Session.alone at hok
  cases hrun : (m c.pending).alone now c.db c.next with
  | error e =>
      rw [hrun] at hok
      exact absurd hok (by simp [Except.map])
  | ok r =>
      rw [hrun] at hok
      obtain ⟨⟨b, queue⟩, t, n⟩ := r
      obtain ⟨-, rfl⟩ := Prod.mk.inj (Except.ok.inj hok)
      exact Program.alone_next_le hrun

/-! ## Running a first part -/

theorem alone_bind_eq : (m >>= f).alone now c
    = (m.alone now c).bind fun r => (f r.1).alone now r.2 := by
  have h : ((m >>= f) c.pending) = (m c.pending).bind fun r => f r.1 r.2 := rfl
  rw [Session.alone, h, Program.alone_bind]
  cases hm : (m c.pending).alone now c.db c.next with
  | error e => simp [Session.alone, hm, Except.bind, Except.map]
  | ok r => simp [Session.alone, hm, Except.bind, Except.map, toConn]

theorem alone_query_bind {q : S → α} :
    (query q >>= f).alone now c = (f (q c.db)).alone now c := by
  rw [alone_bind_eq]
  rfl

theorem alone_queryForUpdate_bind {rows : S → List L} {q : S → α} :
    (queryForUpdate rows q >>= f).alone now c = (f (q c.db)).alone now c := by
  rw [alone_bind_eq]
  rfl

theorem alone_raiseIf_bind {p : Prop} [Decidable p] {e : ε} {g : Unit → Session S L ε β}
    (hp : ¬p) : (raiseIf p e >>= g).alone now c = (g ()).alone now c := by
  rw [raiseIf, if_neg hp, alone_bind_eq]
  rfl

theorem alone_orRaise_bind {e : ε} {a : α} :
    (orRaise e (some a) >>= f).alone now c = (f a).alone now c := by
  rw [alone_bind_eq]
  rfl

theorem alone_utcnow_bind {g : Nat → Session S L ε β} :
    (utcnow >>= g).alone now c = (g now).alone now c := by
  rw [alone_bind_eq]
  rfl

theorem alone_uuid4_bind {g : Nat → Session S L ε β} :
    (uuid4 >>= g).alone now c = (g c.next).alone now { c with next := c.next + 1 } := by
  rw [alone_bind_eq]
  rfl

theorem alone_add_bind {w : Write S L ε} {g : Unit → Session S L ε β} :
    (add w >>= g).alone now c = (g ()).alone now { c with pending := c.pending ++ [w] } := by
  rw [alone_bind_eq]
  rfl

/-! ## Returning -/

/-- Run alone from `c`, the session returns, and what it returns satisfies `Q`. -/
def Returns (m : Session S L ε α) (now : Nat) (c : Conn S L ε) (Q : α → Conn S L ε → Prop) : Prop :=
  ∃ a c', m.alone now c = .ok (a, c') ∧ Q a c'

section Returns

variable {Q : α → Conn S L ε → Prop} {R : β → Conn S L ε → Prop}

/-- **A sequence returns if its first part does and the rest does from there.** -/
theorem Returns.bind (h : Returns m now c Q) (hf : ∀ a c₁, Q a c₁ → Returns (f a) now c₁ R) :
    Returns (m >>= f) now c R := by
  obtain ⟨a, c₁, hok, hq⟩ := h
  obtain ⟨b, c₂, hok₂, hr⟩ := hf a c₁ hq
  exact ⟨b, c₂, alone_bind.mpr ⟨a, c₁, hok, hok₂⟩, hr⟩

theorem returns_pure {a : α} (h : Q a c) : Returns (pure a) now c Q :=
  ⟨a, c, alone_pure.mpr ⟨rfl, rfl⟩, h⟩

theorem returns_add {w : Write S L ε} {Q : Unit → Conn S L ε → Prop}
    (h : Q () { c with pending := c.pending ++ [w] }) : Returns (add w) now c Q :=
  ⟨(), _, alone_add.mpr rfl, h⟩

theorem returns_flush {s : S} {Q : Unit → Conn S L ε → Prop}
    (hs : applyAll c.pending c.db = some s) (h : Q () { c with db := s, pending := [] }) :
    Returns flush now c Q :=
  ⟨(), _, alone_flush.mpr ⟨s, hs, rfl⟩, h⟩

end Returns

/-! ## Failing -/

/-- Run alone from `c`, the session fails with `e`. -/
def Fails (m : Session S L ε α) (now : Nat) (c : Conn S L ε) (e : ε) : Prop :=
  m.alone now c = .error e

section Fails

variable {e : ε}

theorem fails_raiseIf {p : Prop} [Decidable p] (hp : p) :
    Fails (raiseIf p e : Session S L ε Unit) now c e := by
  unfold Fails raiseIf
  rw [if_pos hp]
  rfl

theorem Fails.bind (h : Fails m now c e) : Fails (m >>= f) now c e := by
  unfold Fails at h ⊢
  rw [alone_bind_eq, h]
  rfl

/-- A request whose session fails fails with the same error. -/
theorem Fails.commit {s : S} {n : Nat} (h : Fails m now ⟨s, [], n⟩ e) :
    m.commit.alone now s n = .error e := by
  have hall : Fails (do let a ← m; flush; pure a : Session S L ε α) now ⟨s, [], n⟩ e := h.bind
  unfold Fails Session.alone at hall
  rw [Session.commit, Program.alone_bind]
  cases hrun : (do let a ← m; flush; pure a : Session S L ε α) [] |>.alone now s n with
  | error e' =>
      have herror : (Except.error e' : Except ε ((α × List (Write S L ε)) × S × Nat)).map toConn
          = .error e := by
        rw [← hrun]
        exact hall
      rw [← Except.error.inj herror]
      rfl
  | ok r =>
      have herror : (Except.ok r).map toConn = (.error e : Except ε _) := by
        rw [← hrun]
        exact hall
      exact absurd herror (by simp [Except.map])

end Fails

/-! ## Writes that succeed -/

/-- The write meets its constraints wherever `P` holds, and keeps `P`. -/
def Passes (P : S → Prop) (w : Write S L ε) : Prop :=
  ∀ s, P s → w.violates s = none ∧ P (w.effect s)

theorem applyAll_passes {P : S → Prop} {ws : List (Write S L ε)} {s : S}
    (h : ∀ w ∈ ws, Passes P w) (hs : P s) : ∃ s', applyAll ws s = some s' ∧ P s' := by
  induction ws generalizing s with
  | nil => exact ⟨s, rfl, hs⟩
  | cons w ws ih =>
      obtain ⟨hv, hw⟩ := h w List.mem_cons_self s hs
      obtain ⟨s', hs', hp⟩ := ih (fun v hm => h v (List.mem_cons_of_mem _ hm)) hw
      exact ⟨s', applyAll_cons.mpr ⟨hv, hs'⟩, hp⟩

/-! ## Calm connections -/

section Calm

variable {σ : Type} {π : S → σ} {K : Nat → σ → Prop} {w : Write S L ε}

/-- A connection whose queue is sure to flush, without touching the part `π` of the state. -/
structure Calm (π : S → σ) (K : Nat → σ → Prop) (c : Conn S L ε) : Prop where
  holds : K c.next (π c.db)
  pending : ∀ w ∈ c.pending, Passes (fun s => π s = π c.db) w

theorem calm_start {s : S} {n : Nat} (h : K n (π s)) : Calm π K (⟨s, [], n⟩ : Conn S L ε) :=
  ⟨h, fun w hw => absurd hw (by simp)⟩

/-- The queue flushes, to a state in which the part is the same. -/
theorem Calm.flushes (h : Calm π K c) : ∃ s, applyAll c.pending c.db = some s ∧ π s = π c.db :=
  applyAll_passes h.pending rfl

theorem Calm.add (h : Calm π K c) (hw : Passes (fun s => π s = π c.db) w) :
    Calm π K { c with pending := c.pending ++ [w] } := by
  refine ⟨h.holds, fun v hv => ?_⟩
  rcases List.mem_append.mp hv with hv | hv
  · exact h.pending v hv
  · rw [List.mem_singleton.mp hv]
    exact hw

theorem Calm.flushed (h : Calm π K c) : Returns flush now c fun _ c' =>
    Calm π K c' ∧ π c'.db = π c.db := by
  obtain ⟨s, hs, hπ⟩ := h.flushes
  exact returns_flush hs ⟨calm_start (hπ ▸ h.holds), hπ⟩

/-- Flushing the queue and further writes that have to be looked at. -/
theorem Calm.flushWith (h : Calm π K c) {ws : List (Write S L ε)} {n : Nat}
    {Q : Unit → Conn S L ε → Prop}
    (hw : ∀ s, π s = π c.db → ∃ s', applyAll ws s = some s' ∧ Q () ⟨s', [], n⟩) :
    Returns flush now ⟨c.db, c.pending ++ ws, n⟩ Q := by
  obtain ⟨s, hs, hπ⟩ := h.flushes
  obtain ⟨s', hs', hq⟩ := hw s hπ
  exact returns_flush (applyAll_append.mpr ⟨s, hs, hs'⟩) hq

/-- **A request that ends calm commits**, with the part as its session left it. -/
theorem Returns.calm {P : σ → Prop} {s : S} {n : Nat}
    (h : Returns m now ⟨s, [], n⟩ fun _ c => Calm π K c ∧ P (π c.db)) :
    ∃ a s' n', m.commit.alone now s n = .ok (a, s', n') ∧ P (π s') := by
  obtain ⟨a, c, hok, hc, hp⟩ := h
  obtain ⟨s', hs', hπ⟩ := hc.flushes
  exact ⟨a, s', c.next, commit_alone.mpr ⟨c, hok, hs', rfl⟩, hπ ▸ hp⟩

end Calm

/-! ## Identifiers -/

/-- What is allowed once identifiers below a bound are drawn stays allowed when more are. -/
def Widens (K : Nat → Write S L ε → Prop) : Prop := ∀ n n' w, n ≤ n' → K n w → K n' w

/-- Run alone, the session sends and queues what `K` allows for the identifiers drawn so far. -/
def Draws (K : Nat → Write S L ε → Prop) (m : Session S L ε α) : Prop :=
  ∀ now c a c', m.alone now c = .ok (a, c') → (∀ w ∈ c.pending, K c.next w) →
    (∀ w ∈ c'.pending, K c'.next w) ∧ ∃ ws, (∀ w ∈ ws, K c'.next w) ∧ applyAll ws c.db = some c'.db

section Draws

variable {K : Nat → Write S L ε → Prop} {W : Write S L ε → Prop}

theorem Draws.bind (hK : Widens K) (hm : Draws K m) (hf : ∀ a, Draws K (f a)) :
    Draws K (m >>= f) := by
  intro now c b c' hok hc
  obtain ⟨a, c₁, hok₁, hok₂⟩ := alone_bind.mp hok
  obtain ⟨hc₁, ws, hws, happly⟩ := hm now c a c₁ hok₁ hc
  obtain ⟨hc', vs, hvs, happly'⟩ := hf a now c₁ b c' hok₂ hc₁
  refine ⟨hc', ws ++ vs, fun w hw => ?_, applyAll_append.mpr ⟨_, happly, happly'⟩⟩
  rcases List.mem_append.mp hw with hw | hw
  · exact hK _ _ w (alone_next_le hok₂) (hws w hw)
  · exact hvs w hw

/-- Writes that are always allowed need no identifier. -/
theorem Only.draws (h : Only W m) (hK : Widens K) (hW : ∀ n w, W w → K n w) : Draws K m := by
  intro now c a c' hok hc
  have honly : Only (K c'.next) m := Emits.mono h fun ws hws w hw => hW _ w (hws w hw)
  exact honly.confined now c a c' hok fun w hw => hK _ _ w (alone_next_le hok) (hc w hw)

/-- A row is inserted under an identifier drawn for it. -/
theorem draws_insert {w : Nat → Write S L ε} (hK : Widens K) (hw : ∀ n k, k < n → K n (w k)) :
    Draws K (do let k ← uuid4; add (w k); flush : Session S L ε Unit) := by
  intro now c a c' hok hc
  simp only [alone_bind, alone_uuid4, alone_add, alone_flush, and_assoc, exists_and_left,
    exists_eq_left, exists_const] at hok
  obtain ⟨s, hs, rfl⟩ := hok
  refine ⟨by simp, _, fun v hv => ?_, hs⟩
  rcases List.mem_append.mp hv with hv | hv
  · exact hK _ _ v (Nat.le_succ _) (hc v hv)
  · rw [List.mem_singleton.mp hv]
    exact hw _ _ (Nat.lt_succ_self _)

/-- **What every allowed write preserves, a request preserves that draws its identifiers.** -/
theorem Draws.invariant {a : α} {s s' : S} {n n' : Nat} (Inv : Nat → S → Prop) (h : Draws K m)
    (hok : m.commit.alone now s n = .ok (a, s', n')) (hs : Inv n s)
    (hlater : ∀ n n' s, n ≤ n' → Inv n s → Inv n' s)
    (hstep : ∀ n w s, K n w → w.violates s = none → Inv n s → Inv n (w.effect s)) :
    Inv n' s' := by
  obtain ⟨c, halone, hf, rfl⟩ := commit_alone.mp hok
  obtain ⟨hc, ws, hws, happly⟩ := h now _ a c halone (by simp)
  have hstart := hlater n c.next s (alone_next_le halone) hs
  have hsent := applyAll_invariant hws happly hstart fun w t hw hv ht => hstep _ w t hw hv ht
  exact applyAll_invariant hc hf hsent fun w t hw hv ht => hstep _ w t hw hv ht

end Draws

end Session

end Txn
