import TestExchange.Txn.Program

/-!
# Sessions that answer

Whether a session run alone returns, part by part: a check has to pass, a lookup
has to find something, and a read always goes on. For a session that only looks
this is all there is to know, short of the answer itself.
-/

namespace Txn.Session

variable {S L ε α β : Type} {m : Session S L ε α} {f : α → Session S L ε β} {now : Nat}
  {c : Conn S L ε} {e : ε}

/-- Run alone, the session returns. -/
def Answers (m : Session S L ε α) (now : Nat) (c : Conn S L ε) : Prop :=
  ∃ a c', m.alone now c = .ok (a, c')

@[simp] theorem answers_pure {a : α} : Answers (pure a : Session S L ε α) now c := ⟨a, c, rfl⟩

@[simp] theorem answers_query {q : S → α} : Answers (query q : Session S L ε α) now c :=
  ⟨q c.db, c, rfl⟩

/-- A first part of which it is known when it returns, and what. -/
theorem answers_bind_iff {P : α → Prop}
    (hm : ∀ a c', m.alone now c = .ok (a, c') ↔ P a ∧ c' = c) :
    Answers (m >>= f) now c ↔ ∃ a, P a ∧ Answers (f a) now c := by
  constructor
  · rintro ⟨b, c', hok⟩
    obtain ⟨a, c₁, hfirst, hrest⟩ := alone_bind.mp hok
    obtain ⟨ha, rfl⟩ := (hm a c₁).mp hfirst
    exact ⟨a, ha, b, c', hrest⟩
  · rintro ⟨a, ha, b, c', hrest⟩
    exact ⟨b, c', alone_bind.mpr ⟨a, c, (hm a c).mpr ⟨ha, rfl⟩, hrest⟩⟩

theorem answers_query_bind {q : S → α} :
    Answers (query q >>= f) now c ↔ Answers (f (q c.db)) now c := by
  rw [answers_bind_iff fun _ _ => alone_query, exists_eq_left]

theorem answers_orRaise_bind {o : Option α} :
    Answers (orRaise e o >>= f) now c ↔ ∃ a, o = some a ∧ Answers (f a) now c :=
  answers_bind_iff fun _ _ => alone_orRaise

theorem answers_raiseIf_bind {p : Prop} [Decidable p] {g : Unit → Session S L ε β} :
    Answers (raiseIf p e >>= g) now c ↔ ¬p ∧ Answers (g ()) now c := by
  rw [answers_bind_iff fun _ _ => alone_raiseIf]
  exact ⟨fun ⟨_, h⟩ => h, fun h => ⟨(), h⟩⟩

/-- A rest that always returns. -/
theorem answers_bind_total (hf : ∀ a c', Answers (f a) now c') :
    Answers (m >>= f) now c ↔ Answers m now c := by
  constructor
  · rintro ⟨b, c', hok⟩
    obtain ⟨a, c₁, hfirst, -⟩ := alone_bind.mp hok
    exact ⟨a, c₁, hfirst⟩
  · rintro ⟨a, c₁, hfirst⟩
    obtain ⟨b, c', hrest⟩ := hf a c₁
    exact ⟨b, c', alone_bind.mpr ⟨a, c₁, hfirst, hrest⟩⟩

end Txn.Session
