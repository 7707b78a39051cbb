import TestExchange.Txn.Success

/-!
# How a session ends

A session run alone either returns or fails, and `Ends` says what holds in each
case: of the result and the connection in the one, of the error in the other.
Its rules follow the text of a session from the first statement to the last.
-/

namespace Txn.Session

variable {S L ε α β : Type} {m : Session S L ε α} {f : α → Session S L ε β} {now : Nat}
  {c : Conn S L ε} {Q : α → Conn S L ε → Prop} {R : β → Conn S L ε → Prop} {E : ε → Prop} {e : ε}

/-- Run alone from `c`, the session returns with `Q` or fails with `E`. -/
def Ends (m : Session S L ε α) (now : Nat) (c : Conn S L ε) (Q : α → Conn S L ε → Prop)
    (E : ε → Prop) : Prop :=
  match m.alone now c with
  | .ok (a, c') => Q a c'
  | .error e => E e

theorem ends_pure {a : α} (h : Q a c) : Ends (pure a) now c Q E := h

theorem ends_raise (h : E e) : Ends (raise e : Session S L ε α) now c Q E := h

theorem ends_raise_bind (h : E e) : Ends (raise e >>= f) now c R E := h

theorem ends_pure_bind {a : α} (h : Ends (f a) now c R E) : Ends (pure a >>= f) now c R E := h

/-- **A sequence ends as its parts do.** -/
theorem Ends.bind (h : Ends m now c Q E) (hf : ∀ a c₁, Q a c₁ → Ends (f a) now c₁ R E) :
    Ends (m >>= f) now c R E := by
  unfold Ends at h ⊢
  rw [alone_bind_eq]
  cases hm : m.alone now c with
  | error e =>
      rw [hm] at h
      exact h
  | ok r =>
      rw [hm] at h
      exact hf r.1 r.2 h

/-- A first part that returns leaves the end to the rest. -/
theorem ends_after {a : α} {c' : Conn S L ε} (hm : m.alone now c = .ok (a, c'))
    (h : Ends (f a) now c' R E) : Ends (m >>= f) now c R E := by
  unfold Ends at h ⊢
  rw [alone_bind_eq, hm]
  exact h

theorem ends_query_bind {q : S → α} (h : Ends (f (q c.db)) now c R E) :
    Ends (query q >>= f) now c R E := by
  unfold Ends
  rw [alone_query_bind]
  exact h

theorem ends_orRaise_bind {o : Option α} (hnone : o = none → E e)
    (hsome : ∀ a, o = some a → Ends (f a) now c R E) : Ends (orRaise e o >>= f) now c R E := by
  cases o with
  | none => exact hnone rfl
  | some a => exact hsome a rfl

theorem ends_raiseIf_bind {p : Prop} [Decidable p] {g : Unit → Session S L ε β} (hp : p → E e)
    (hg : ¬p → Ends (g ()) now c R E) : Ends (raiseIf p e >>= g) now c R E := by
  unfold raiseIf
  split
  · rename_i h
    exact hp h
  · rename_i h
    exact hg h

/-- What is looked up is there. -/
theorem ends_found_bind {o : Option α} {a : α} (ho : o = some a) (h : Ends (f a) now c R E) :
    Ends (orRaise e o >>= f) now c R E := by
  subst ho
  exact h

/-- The check is passed. -/
theorem ends_passed_bind {p : Prop} [Decidable p] {g : Unit → Session S L ε β} (hp : ¬p)
    (h : Ends (g ()) now c R E) : Ends (raiseIf p e >>= g) now c R E :=
  ends_raiseIf_bind (fun hyes => absurd hyes hp) fun _ => h

/-- A session that cannot fail returns. -/
theorem returns_iff_ends : Returns m now c Q ↔ Ends m now c Q fun _ => False := by
  unfold Returns Ends
  cases m.alone now c with
  | error e => simp
  | ok r =>
      constructor
      · rintro ⟨a, c', hr, h⟩
        cases hr
        exact h
      · exact fun h => ⟨r.1, r.2, rfl, h⟩

theorem ends_add_bind {w : Write S L ε} {g : Unit → Session S L ε β}
    (h : Ends (g ()) now { c with pending := c.pending ++ [w] } R E) :
    Ends (add w >>= g) now c R E := h

/-- Flushing one write: it is refused, or takes effect. -/
theorem ends_flush_one_bind {w : Write S L ε} {s : S} {n : Nat} {g : Unit → Session S L ε β}
    (hrefused : ∀ e, w.violates s = some e → E e)
    (hdone : w.violates s = none → Ends (g ()) now ⟨w.effect s, [], n⟩ R E) :
    Ends (flush >>= g) now ⟨s, [w], n⟩ R E := by
  have hrun : (flush : Session S L ε Unit).alone now ⟨s, [w], n⟩
      = (sendAll [w]).alone now ⟨s, [], n⟩ := rfl
  unfold Ends at hdone ⊢
  rw [alone_bind_eq, hrun, sendAll, alone_bind_eq]
  cases hv : w.violates s with
  | none =>
      have hsent : (execute w : Session S L ε Unit).alone now ⟨s, [], n⟩
          = .ok ((), ⟨w.effect s, [], n⟩) := alone_execute.mpr ⟨hv, rfl⟩
      rw [hsent]
      exact hdone hv
  | some e =>
      have hfailed : (execute w : Session S L ε Unit).alone now ⟨s, [], n⟩ = .error e := by
        unfold execute Session.alone Program.alone
        rw [hv]
        rfl
      rw [hfailed]
      exact hrefused e hv

/-- What a whole request leaves: what its session left, if that is flushed already. -/
theorem Ends.commit {s : S} {n : Nat} {Q : α → S → Nat → Prop}
    (h : Ends m now ⟨s, [], n⟩ (fun a c => c.pending = [] ∧ Q a c.db c.next) E) :
    (∀ a s' n', m.commit.alone now s n = .ok (a, s', n') → Q a s' n')
      ∧ ∀ e, m.commit.alone now s n = .error e → E e := by
  unfold Ends at h
  cases hm : m.alone now ⟨s, [], n⟩ with
  | error e =>
      rw [hm] at h
      have hcommit := Fails.commit hm
      refine ⟨fun a s' n' hok => ?_, fun e' herror => ?_⟩
      · rw [hcommit] at hok
        cases hok
      · rw [hcommit] at herror
        cases herror
        exact h
  | ok r =>
      obtain ⟨a, c'⟩ := r
      rw [hm] at h
      have hcommit : m.commit.alone now s n = .ok (a, c'.db, c'.next) :=
        commit_alone.mpr ⟨c', hm, by rw [h.1]; rfl, rfl⟩
      refine ⟨fun a' s' n' hok => ?_, fun e herror => ?_⟩
      · rw [hcommit] at hok
        cases hok
        exact h.2
      · rw [hcommit] at herror
        cases herror

/-- A session that does not return fails as a whole request. -/
theorem Ends.commit_fails {s : S} {n : Nat} (h : Ends m now ⟨s, [], n⟩ (fun _ _ => False) E) :
    ∃ e, m.commit.alone now s n = .error e ∧ E e := by
  unfold Ends at h
  cases hm : m.alone now ⟨s, [], n⟩ with
  | error e =>
      rw [hm] at h
      exact ⟨e, Fails.commit hm, h⟩
  | ok r =>
      rw [hm] at h
      exact h.elim

end Txn.Session
