import TestExchange.Txn.Success

/-!
# What a transaction leaves on its way

`Program.leaves` lists what every write of a transaction running alone would
leave behind, whether its constraints let it and whether the transaction commits
or fails later. A condition on the state and the identifiers drawn so far is
upheld if it holds of all of them.

A session upholds the condition if each write it registers keeps it, whatever
the state, given that what the session has read comes from states that meet it.
The rules follow the text of a session.
-/

namespace Txn

variable {S L ε α β : Type}

/-! ## The states on the way -/

namespace Program

/-- What each write would leave, with the number of identifiers drawn before it. -/
def leaves (now : Nat) : Program S L ε α → S → Nat → List (Nat × S)
  | .done _, _, _ => []
  | .raise _, _, _ => []
  | .select k, s, next => (k s).leaves now s next
  | .lock _ k, s, next => (k s).leaves now s next
  | .exec w k, s, next =>
      (next, w.effect s) ::
        match w.violates s with
        | some e => (k (some e)).leaves now s next
        | none => (k none).leaves now (w.effect s) next
  | .uuid4 k, s, next => (k next).leaves now s (next + 1)
  | .utcnow k, s, next => (k now).leaves now s next

/-- No identifier is given back on the way. -/
theorem le_of_mem_leaves {x : Program S L ε α} {now n : Nat} {s : S} {r : Nat × S}
    (h : r ∈ x.leaves now s n) : n ≤ r.1 := by
  induction x generalizing s n with
  | done a => exact absurd h (by simp [leaves])
  | raise e => exact absurd h (by simp [leaves])
  | select k ih => exact ih s h
  | lock rows k ih => exact ih s h
  | exec w k ih =>
      unfold leaves at h
      rcases List.mem_cons.mp h with rfl | h
      · exact Nat.le_refl _
      · split at h
        · exact ih _ h
        · exact ih _ h
  | uuid4 k ih => exact Nat.le_of_succ_le (ih n h)
  | utcnow k ih => exact ih now h

/-- Nor later than at the end. -/
theorem mem_leaves_le {x : Program S L ε α} {now n n' : Nat} {s s' : S} {a : α} {r : Nat × S}
    (hok : x.alone now s n = .ok (a, s', n')) (h : r ∈ x.leaves now s n) : r.1 ≤ n' := by
  induction x generalizing s n with
  | done b => exact absurd h (by simp [leaves])
  | raise e => exact absurd h (by simp [leaves])
  | select k ih => exact ih s hok h
  | lock rows k ih => exact ih s hok h
  | exec w k ih =>
      unfold leaves at h
      unfold Program.alone at hok
      cases hv : w.violates s with
      | some e =>
          rw [hv] at hok h
          rcases List.mem_cons.mp h with rfl | h
          · exact Program.alone_next_le hok
          · exact ih _ hok h
      | none =>
          rw [hv] at hok h
          rcases List.mem_cons.mp h with rfl | h
          · exact Program.alone_next_le hok
          · exact ih _ hok h
  | uuid4 k ih => exact ih n hok h
  | utcnow k ih => exact ih now hok h

/-- What a transaction commits is what its last write left, if it wrote anything. -/
theorem last_mem_leaves {x : Program S L ε α} {now n n' : Nat} {s s' : S} {a : α}
    (hok : x.alone now s n = .ok (a, s', n')) :
    s' = s ∨ ∃ r ∈ x.leaves now s n, r.1 ≤ n' ∧ r.2 = s' := by
  induction x generalizing s n with
  | done b =>
      obtain ⟨-, h⟩ := Prod.mk.inj (Except.ok.inj hok)
      exact Or.inl (Prod.mk.inj h).1.symm
  | raise e => exact absurd hok (by simp [Program.alone])
  | select k ih => exact ih s hok
  | lock rows k ih => exact ih s hok
  | exec w k ih =>
      unfold leaves
      unfold Program.alone at hok
      cases hv : w.violates s with
      | some e =>
          rw [hv] at hok
          rcases ih (some e) hok with hsame | ⟨r, hr, hle, hlast⟩
          · exact Or.inl hsame
          · exact Or.inr ⟨r, List.mem_cons_of_mem _ hr, hle, hlast⟩
      | none =>
          rw [hv] at hok
          rcases ih none hok with rfl | ⟨r, hr, hle, hlast⟩
          · exact Or.inr ⟨_, List.mem_cons_self, Program.alone_next_le hok, rfl⟩
          · exact Or.inr ⟨r, List.mem_cons_of_mem _ hr, hle, hlast⟩
  | uuid4 k ih => exact ih n hok
  | utcnow k ih => exact ih now hok

end Program

/-! ## Upholding a condition -/

section Condition

-- the condition, and a bound on the identifiers there are
variable (I : Nat → S → Prop) (bound : Nat)

/-- The write keeps the condition from now on. -/
def Safe (n : Nat) (w : Write S L ε) : Prop := ∀ m, n ≤ m → ∀ s, I m s → I m (w.effect s)

/-- Every write keeps the condition if what is read meets it, and the result satisfies `post`. -/
def Program.Upholds : Program S L ε α → Nat → (Nat → α → Prop) → Prop
  | .done a, n, post => post n a
  | .raise _, _, _ => True
  | .select k, n, post => ∀ s, I n s → (k s).Upholds n post
  | .lock _ k, n, post => ∀ s, I n s → (k s).Upholds n post
  | .exec w k, n, post => Safe I n w ∧ ∀ e, (k e).Upholds n post
  | .uuid4 k, n, post => n < bound → (k n).Upholds (n + 1) post
  | .utcnow k, n, post => ∀ t, (k t).Upholds n post

end Condition

section Rules

variable {I : Nat → S → Prop} {bound n : Nat} {w : Write S L ε}

theorem Safe.later (h : Safe I n w) {n' : Nat} (hle : n ≤ n') : Safe I n' w :=
  fun m hm s hs => h m (Nat.le_trans hle hm) s hs

namespace Program

theorem upholds_bind {x : Program S L ε α} {f : α → Program S L ε β} {post : Nat → β → Prop} :
    (x.bind f).Upholds I bound n post
      = x.Upholds I bound n fun m a => (f a).Upholds I bound m post := by
  induction x generalizing n with
  | done a => rfl
  | raise e => rfl
  | select k ih => simp only [bind, Upholds, ih]
  | lock rows k ih => simp only [bind, Upholds, ih]
  | exec w k ih => simp only [bind, Upholds, ih]
  | uuid4 k ih => simp only [bind, Upholds, ih]
  | utcnow k ih => simp only [bind, Upholds, ih]

theorem Upholds.mono {x : Program S L ε α} {p q : Nat → α → Prop} (h : x.Upholds I bound n p)
    (hpq : ∀ m a, n ≤ m → p m a → q m a) : x.Upholds I bound n q := by
  induction x generalizing n with
  | done a => exact hpq n a (Nat.le_refl _) h
  | raise e => exact h
  | select k ih => exact fun s hs => ih s (h s hs) hpq
  | lock rows k ih => exact fun s hs => ih s (h s hs) hpq
  | exec w k ih => exact ⟨h.1, fun e => ih e (h.2 e) hpq⟩
  | uuid4 k ih =>
      exact fun hn => ih n (h hn) fun m a hm => hpq m a (Nat.le_of_succ_le hm)
  | utcnow k ih => exact fun t => ih t (h t) hpq

/-- **The rules are sound**: the condition holds of all that is left on the way, and at the end. -/
theorem Upholds.sound {x : Program S L ε α} {post : Nat → α → Prop} {now : Nat} {s : S}
    (h : x.Upholds I bound n post) (hs : I n s)
    (hlater : ∀ n s, n < bound → I n s → I (n + 1) s) :
    (∀ r ∈ x.leaves now s n, r.1 ≤ bound → I r.1 r.2)
      ∧ ∀ a s' n', x.alone now s n = .ok (a, s', n') → n' ≤ bound → I n' s' ∧ post n' a := by
  induction x generalizing s n with
  | done b =>
      refine ⟨fun r hr => absurd hr (by simp [leaves]), fun a s' n' hok _ => ?_⟩
      obtain ⟨rfl, hrest⟩ := Prod.mk.inj (Except.ok.inj hok)
      obtain ⟨rfl, rfl⟩ := Prod.mk.inj hrest
      exact ⟨hs, h⟩
  | raise e =>
      refine ⟨fun r hr => absurd hr (by simp [leaves]), fun a s' n' hok => ?_⟩
      exact absurd hok (by simp [alone])
  | select k ih => exact ih s (h s hs) hs
  | lock rows k ih => exact ih s (h s hs) hs
  | exec w k ih =>
      have hw : I n (w.effect s) := h.1 n (Nat.le_refl _) s hs
      unfold leaves alone
      cases hv : w.violates s with
      | some e =>
          obtain ⟨hrest, hend⟩ := ih (some e) (h.2 (some e)) hs
          refine ⟨fun r hr hle => ?_, hend⟩
          rcases List.mem_cons.mp hr with rfl | hr
          · exact hw
          · exact hrest r hr hle
      | none =>
          obtain ⟨hrest, hend⟩ := ih none (h.2 none) hw
          refine ⟨fun r hr hle => ?_, hend⟩
          rcases List.mem_cons.mp hr with rfl | hr
          · exact hw
          · exact hrest r hr hle
  | uuid4 k ih =>
      by_cases hn : n < bound
      · exact ih n (h hn) (hlater n s hn hs)
      -- an identifier beyond the bound: nothing is said about what comes after it
      · refine ⟨fun r hr hle => ?_, fun a s' n' hok hle => ?_⟩
        · have hdrawn := le_of_mem_leaves (x := k n) hr
          omega
        · have hdrawn := alone_next_le (x := k n) hok
          omega
  | utcnow k ih => exact ih now (h now) hs

end Program

namespace Session

/-- The session upholds the condition, given that the writes already queued do. -/
def Upholds (I : Nat → S → Prop) (bound n : Nat) (m : Session S L ε α) (post : Nat → α → Prop) :
    Prop :=
  ∀ ws, (∀ w ∈ ws, Safe I n w) →
    (m ws).Upholds I bound n fun k r => post k r.1 ∧ ∀ w ∈ r.2, Safe I k w

variable {m : Session S L ε α} {f : α → Session S L ε β} {post : Nat → β → Prop}
  {p : Nat → α → Prop}

/-- **A sequence upholds what its parts do.** -/
theorem Upholds.bind (hm : Upholds I bound n m p)
    (hf : ∀ k a, n ≤ k → p k a → Upholds I bound k (f a) post) :
    Upholds I bound n (m >>= f) post := by
  intro ws hws
  have hsplit : (m >>= f) ws = (m ws).bind fun r => f r.1 r.2 := rfl
  rw [hsplit, Program.upholds_bind]
  exact (hm ws hws).mono fun k r hk hr => hf k r.1 hk hr.1 r.2 hr.2

theorem upholds_pure {a : α} (h : p n a) : Upholds I bound n (pure a : Session S L ε α) p :=
  fun _ hws => ⟨h, hws⟩

theorem upholds_raise {e : ε} : Upholds I bound n (raise e : Session S L ε α) p :=
  fun _ _ => trivial

theorem upholds_query {σ : S → α} (h : ∀ s, I n s → p n (σ s)) :
    Upholds I bound n (query σ : Session S L ε α) p := fun _ hws s hs => ⟨h s hs, hws⟩

theorem upholds_query_bind {σ : S → α} (h : ∀ s, I n s → Upholds I bound n (f (σ s)) post) :
    Upholds I bound n (query σ >>= f) post := fun ws hws s hs => h s hs ws hws

theorem upholds_queryForUpdate_bind {rows : S → List L} {σ : S → α}
    (h : ∀ s, I n s → Upholds I bound n (f (σ s)) post) :
    Upholds I bound n (queryForUpdate rows σ >>= f) post := fun ws hws s hs => h s hs ws hws

theorem upholds_orRaise {e : ε} {o : Option α} (h : ∀ a, o = some a → p n a) :
    Upholds I bound n (orRaise e o : Session S L ε α) p := by
  cases o with
  | none => exact upholds_raise
  | some a => exact upholds_pure (h a rfl)

theorem upholds_orRaise_bind {e : ε} {o : Option α}
    (h : ∀ a, o = some a → Upholds I bound n (f a) post) :
    Upholds I bound n (orRaise e o >>= f) post := by
  cases o with
  | none => exact fun _ _ => trivial
  | some a => exact h a rfl

theorem upholds_raiseIf {c : Prop} [Decidable c] {e : ε} {p : Nat → Unit → Prop} (h : ¬c → p n ()) :
    Upholds I bound n (raiseIf c e : Session S L ε Unit) p := by
  unfold raiseIf
  split
  · exact upholds_raise
  · rename_i hc
    exact upholds_pure (h hc)

theorem upholds_raiseIf_bind {c : Prop} [Decidable c] {e : ε} {g : Unit → Session S L ε β}
    (h : ¬c → Upholds I bound n (g ()) post) :
    Upholds I bound n (raiseIf c e >>= g) post := by
  unfold raiseIf
  split
  · exact fun _ _ => trivial
  · rename_i hc
    exact h hc

theorem upholds_uuid4_bind {g : Nat → Session S L ε β}
    (h : n < bound → Upholds I bound (n + 1) (g n) post) :
    Upholds I bound n (uuid4 >>= g) post :=
  fun ws hws hn => h hn ws fun w hw => (hws w hw).later (Nat.le_succ n)

theorem upholds_utcnow_bind {g : Nat → Session S L ε β}
    (h : ∀ t, Upholds I bound n (g t) post) : Upholds I bound n (utcnow >>= g) post :=
  fun ws hws t => h t ws hws

theorem upholds_add {p : Nat → Unit → Prop} (hw : Safe I n w) (h : p n ()) :
    Upholds I bound n (add w) p := by
  intro ws hws
  refine ⟨h, fun v hv => ?_⟩
  rcases List.mem_append.mp hv with hv | hv
  · exact hws v hv
  · rw [List.mem_singleton.mp hv]
    exact hw

theorem upholds_add_bind {g : Unit → Session S L ε β} (hw : Safe I n w)
    (h : Upholds I bound n (g ()) post) : Upholds I bound n (add w >>= g) post :=
  (upholds_add (p := fun k _ => k = n) hw rfl).bind fun _ _ _ hk => hk ▸ h

theorem upholds_execute {p : Nat → Unit → Prop} (hw : Safe I n w) (h : p n ()) :
    Upholds I bound n (execute w) p := by
  intro ws hws
  refine ⟨hw, fun e => ?_⟩
  cases e with
  | none => exact ⟨h, hws⟩
  | some e => exact trivial

theorem upholds_execute_bind {g : Unit → Session S L ε β} (hw : Safe I n w)
    (h : Upholds I bound n (g ()) post) : Upholds I bound n (execute w >>= g) post :=
  (upholds_execute (p := fun k _ => k = n) hw rfl).bind fun _ _ _ hk => hk ▸ h

theorem upholds_executeNested_bind {g : Option ε → Session S L ε β} (hw : Safe I n w)
    (h : ∀ e, Upholds I bound n (g e) post) : Upholds I bound n (executeNested w >>= g) post :=
  fun ws hws => ⟨hw, fun e => h e ws hws⟩

theorem upholds_sendAll {queue : List (Write S L ε)} {p : Nat → Unit → Prop}
    (hqueue : ∀ w ∈ queue, Safe I n w) (h : p n ()) : Upholds I bound n (sendAll queue) p := by
  induction queue with
  | nil => exact upholds_pure h
  | cons w queue ih =>
      refine upholds_execute_bind (hqueue w List.mem_cons_self) ?_
      exact ih fun v hv => hqueue v (List.mem_cons_of_mem _ hv)

theorem upholds_flush {p : Nat → Unit → Prop} (h : p n ()) :
    Upholds I bound n (flush : Session S L ε Unit) p :=
  fun ws hws => upholds_sendAll hws h [] fun w hw => absurd hw (by simp)

theorem upholds_flush_bind {g : Unit → Session S L ε β} (h : Upholds I bound n (g ()) post) :
    Upholds I bound n (flush >>= g) post :=
  (upholds_flush (p := fun k _ => k = n) rfl).bind fun _ _ _ hk => hk ▸ h

/-- **What a request leaves on its way, and what it commits, meets the condition.** -/
theorem Upholds.commit {s : S} {now : Nat} (h : Upholds I bound n m fun _ _ => True) (hs : I n s)
    (hlater : ∀ n s, n < bound → I n s → I (n + 1) s) :
    (∀ r ∈ m.commit.leaves now s n, r.1 ≤ bound → I r.1 r.2)
      ∧ ∀ a s' n', m.commit.alone now s n = .ok (a, s', n') → n' ≤ bound → I n' s' := by
  have hflushed : Upholds I bound n (do let a ← m; flush; pure a) fun _ _ => True :=
    h.bind fun _ _ _ _ => upholds_flush_bind (upholds_pure trivial)
  have hall : (m.commit).Upholds I bound n fun _ _ => True := by
    have hrun := hflushed [] fun w hw => absurd hw (by simp)
    unfold Session.commit
    rw [Program.upholds_bind]
    exact hrun.mono fun _ _ _ _ => trivial
  obtain ⟨hleaves, hend⟩ := hall.sound hs hlater
  exact ⟨hleaves, fun a s' n' hok hle => (hend a s' n' hok hle).1⟩

end Session

end Rules

end Txn
