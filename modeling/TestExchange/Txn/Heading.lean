import TestExchange.Txn.Outcome

/-!
# Where a session is heading

A session reads the database while some of its changes are still queued. It
`Heads` for a state if its queue is sure to lead there: both states satisfy an
invariant, and they agree on a part that the session may look at before it
flushes.
-/

namespace Txn.Session

variable {S L ε α β σ : Type} {K : Nat → S → Prop} {π : S → σ} {c : Conn S L ε} {s t : S}
  {w : Write S L ε} {ws : List (Write S L ε)} {now n n' : Nat} {m : Session S L ε α}
  {f : α → Session S L ε β} {R : β → Conn S L ε → Prop} {E : ε → Prop} {e : ε}

/-- The queue of the connection is sure to lead to `t`. -/
structure Heads (K : Nat → S → Prop) (π : S → σ) (c : Conn S L ε) (t : S) : Prop where
  sends : applyAll c.pending c.db = some t
  base : K c.next c.db
  holds : K c.next t
  same : π t = π c.db

theorem heads_start (h : K n s) : Heads K π (⟨s, [], n⟩ : Conn S L ε) s := ⟨rfl, h, h, rfl⟩

/-- A change that the state ahead takes is queued. -/
theorem Heads.add (h : Heads K π c t) (hv : w.violates t = none) (hK : K c.next (w.effect t))
    (hπ : π (w.effect t) = π t) :
    Heads K π { c with pending := c.pending ++ [w] } (w.effect t) where
  sends := applyAll_append.mpr ⟨t, h.sends, applyAll_cons.mpr ⟨hv, rfl⟩⟩
  base := h.base
  holds := hK
  same := hπ.trans h.same

/-- An invariant that does not need the latest identifier outlives the next one. -/
theorem Heads.draw (h : Heads K π c t) (hK : ∀ n s, K n s → K (n + 1) s) :
    Heads K π { c with next := c.next + 1 } t :=
  ⟨h.sends, hK _ _ h.base, hK _ _ h.holds, h.same⟩

/-! ## Rules -/

theorem ends_queryForUpdate_bind {rows : S → List L} {q : S → α}
    (h : Ends (f (q c.db)) now c R E) : Ends (queryForUpdate rows q >>= f) now c R E := by
  unfold Ends
  rw [alone_queryForUpdate_bind]
  exact h

theorem ends_orRaise {o : Option α} {Q : α → Conn S L ε → Prop} (hnone : o = none → E e)
    (hsome : ∀ a, o = some a → Q a c) : Ends (orRaise e o) now c Q E := by
  cases o with
  | none => exact hnone rfl
  | some a => exact hsome a rfl

theorem ends_raiseIf {p : Prop} [Decidable p] {Q : Unit → Conn S L ε → Prop} (hp : p → E e)
    (hQ : ¬p → Q () c) : Ends (raiseIf p e) now c Q E := by
  unfold raiseIf
  split
  · rename_i h
    exact hp h
  · rename_i h
    exact hQ h

theorem ends_add {Q : Unit → Conn S L ε → Prop}
    (h : Q () { c with pending := c.pending ++ [w] }) : Ends (add w) now c Q E := h

theorem ends_utcnow_bind {g : Nat → Session S L ε β} (h : Ends (g now) now c R E) :
    Ends (utcnow >>= g) now c R E := by
  unfold Ends
  rw [alone_utcnow_bind]
  exact h

theorem ends_uuid4_bind {g : Nat → Session S L ε β}
    (h : Ends (g c.next) now { c with next := c.next + 1 } R E) : Ends (uuid4 >>= g) now c R E := by
  unfold Ends
  rw [alone_uuid4_bind]
  exact h

theorem Ends.mono {Q Q' : α → Conn S L ε → Prop} {E' : ε → Prop} (h : Ends m now c Q E)
    (hQ : ∀ a c, Q a c → Q' a c) (hE : ∀ e, E e → E' e) : Ends m now c Q' E' := by
  unfold Ends at h ⊢
  split at h
  · exact hQ _ _ h
  · exact hE _ h

/-- Flushing the queue and further writes that the state ahead takes. -/
theorem Heads.ends_flush_bind {g : Unit → Session S L ε β} (h : Heads K π c t)
    (hws : applyAll ws t = some s) (hg : Ends (g ()) now ⟨s, [], n⟩ R E) :
    Ends (flush >>= g) now ⟨c.db, c.pending ++ ws, n⟩ R E := by
  have hflush : (flush : Session S L ε Unit).alone now ⟨c.db, c.pending ++ ws, n⟩
      = .ok ((), ⟨s, [], n⟩) :=
    alone_flush.mpr ⟨s, applyAll_append.mpr ⟨t, h.sends, hws⟩, rfl⟩
  unfold Ends at hg ⊢
  rw [alone_bind_eq, hflush]
  exact hg

theorem Heads.ends_flush {Q : Unit → Conn S L ε → Prop} (h : Heads K π c t)
    (hws : applyAll ws t = some s) (hQ : Q () ⟨s, [], n⟩) :
    Ends flush now ⟨c.db, c.pending ++ ws, n⟩ Q E := by
  have hflush : (flush : Session S L ε Unit).alone now ⟨c.db, c.pending ++ ws, n⟩
      = .ok ((), ⟨s, [], n⟩) :=
    alone_flush.mpr ⟨s, applyAll_append.mpr ⟨t, h.sends, hws⟩, rfl⟩
  unfold Ends
  rw [hflush]
  exact hQ

/-- The queue is flushed. -/
theorem Heads.ends_flushed_bind {g : Unit → Session S L ε β} (h : Heads K π c t)
    (hg : Ends (g ()) now ⟨t, [], c.next⟩ R E) : Ends (flush >>= g) now c R E := by
  have hall : Ends (flush >>= g) now ⟨c.db, c.pending ++ [], c.next⟩ R E :=
    h.ends_flush_bind rfl hg
  rw [List.append_nil] at hall
  exact hall

theorem ends_execute {Q : Unit → Conn S L ε → Prop} (hv : w.violates c.db = none)
    (hQ : Q () { c with db := w.effect c.db }) : Ends (execute w) now c Q E := by
  have hsent : (execute w : Session S L ε Unit).alone now c = .ok ((), { c with db := w.effect c.db }) :=
    alone_execute.mpr ⟨hv, rfl⟩
  unfold Ends
  rw [hsent]
  exact hQ

theorem ends_executeNested_bind {g : Option ε → Session S L ε β} (hv : w.violates c.db = none)
    (hg : Ends (g none) now { c with db := w.effect c.db } R E) :
    Ends (executeNested w >>= g) now c R E := by
  have hsent : (executeNested w : Session S L ε (Option ε)).alone now c
      = .ok (none, { c with db := w.effect c.db }) :=
    alone_executeNested.mpr ⟨hv.symm, rfl⟩
  unfold Ends
  rw [alone_bind_eq, hsent]
  exact hg

theorem applyAll_stopped (hw : w.violates s ≠ none) : applyAll (w :: ws) s = none := by
  simp [applyAll, hw]

theorem applyAll_passed (hw : w.violates s = none) :
    applyAll (w :: ws) s = applyAll ws (w.effect s) := by
  simp [applyAll, hw]

/-- A queue that is not taken is stopped at one of its writes. -/
theorem sendAll_refused (h : applyAll ws c.db = none) :
    ∃ e, (sendAll ws).alone now c = .error e ∧ ∃ w ∈ ws, ∃ s, w.violates s = some e := by
  induction ws generalizing c with
  | nil => exact absurd h (by simp [applyAll])
  | cons w ws ih =>
      rw [sendAll, alone_bind_eq]
      cases hv : w.violates c.db with
      | some e =>
          have hstopped : (execute w : Session S L ε Unit).alone now c = .error e := by
            unfold execute Session.alone Program.alone
            rw [hv]
            rfl
          rw [hstopped]
          exact ⟨e, rfl, w, List.mem_cons_self, c.db, hv⟩
      | none =>
          have hsent : (execute w : Session S L ε Unit).alone now c
              = .ok ((), { c with db := w.effect c.db }) := alone_execute.mpr ⟨hv, rfl⟩
          have hrest : applyAll ws (w.effect c.db) = none := by
            simpa [applyAll, hv] using h
          obtain ⟨e, he, v, hmem, hviolates⟩ := ih (c := { c with db := w.effect c.db }) hrest
          rw [hsent]
          exact ⟨e, he, v, List.mem_cons_of_mem _ hmem, hviolates⟩

/-- A queue that is refused ends the session. -/
theorem ends_flush_refused_bind {g : Unit → Session S L ε β} (h : applyAll c.pending c.db = none)
    (hE : ∀ w ∈ c.pending, ∀ s e, w.violates s = some e → E e) :
    Ends (flush >>= g) now c R E := by
  obtain ⟨e, he, w, hmem, s, hv⟩ : ∃ e, (sendAll c.pending).alone now { c with pending := [] }
      = .error e ∧ ∃ w ∈ c.pending, ∃ s, w.violates s = some e := sendAll_refused h
  have hflush : (flush : Session S L ε Unit).alone now c = .error e := he
  unfold Ends
  rw [alone_bind_eq, hflush]
  exact hE w hmem s e hv

/-- What a whole request leaves: the state its session is heading for. -/
theorem Ends.heads {Q : α → S → Prop}
    (h : Ends m now ⟨s, [], n⟩ (fun a c => ∃ t, Heads K π c t ∧ Q a t) E) :
    (∀ a s' n', m.commit.alone now s n = .ok (a, s', n') → K n' s' ∧ Q a s')
      ∧ ∀ e, m.commit.alone now s n = .error e → E e := by
  unfold Ends at h
  cases hm : m.alone now ⟨s, [], n⟩ with
  | error e =>
      rw [hm] at h
      have hcommit := Fails.commit hm
      refine ⟨fun a s' n' hok => ?_, fun e' herror => ?_⟩
      · rw [hcommit] at hok
        cases hok
      · rw [hcommit] at herror
        cases herror
        exact h
  | ok r =>
      obtain ⟨a, c'⟩ := r
      rw [hm] at h
      obtain ⟨t, hheads, hq⟩ := h
      have hcommit : m.commit.alone now s n = .ok (a, t, c'.next) :=
        commit_alone.mpr ⟨c', hm, hheads.sends, rfl⟩
      refine ⟨fun a' s' n' hok => ?_, fun e herror => ?_⟩
      · rw [hcommit] at hok
        cases hok
        exact ⟨hheads.holds, hq⟩
      · rw [hcommit] at herror
        cases herror

end Txn.Session
