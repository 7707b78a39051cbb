import TestExchange.Txn.Program

/-!
# Sessions that only look

A session that runs alone and leaves everything as it found it. What looks after
something else adds nothing to it: the transaction commits what it would have
committed without.
-/

namespace Txn.Session

variable {S L ε α β γ : Type} {m : Session S L ε α} {f : α → Session S L ε β}

/-! ## Looking -/

/-- Run alone, the session changes nothing, and queues nothing. -/
def Looks (m : Session S L ε α) : Prop := ∀ now c a c', m.alone now c = .ok (a, c') → c' = c

theorem Looks.bind (hm : Looks m) (hf : ∀ a, Looks (f a)) : Looks (m >>= f) := by
  intro now c b c' hok
  obtain ⟨a, c₁, hok₁, hok₂⟩ := alone_bind.mp hok
  rw [hf a now c₁ b c' hok₂, hm now c a c₁ hok₁]

theorem looks_pure {a : α} : Looks (pure a : Session S L ε α) :=
  fun _ _ _ _ hok => (alone_pure.mp hok).2

theorem looks_query {q : S → α} : Looks (query q : Session S L ε α) :=
  fun _ _ _ _ hok => (alone_query.mp hok).2

theorem looks_raiseIf {p : Prop} [Decidable p] {e : ε} : Looks (raiseIf p e : Session S L ε Unit) :=
  fun _ _ _ _ hok => (alone_raiseIf.mp hok).2

theorem looks_orRaise {e : ε} {o : Option α} : Looks (orRaise e o : Session S L ε α) :=
  fun _ _ _ _ hok => (alone_orRaise.mp hok).2

/-- What only looks commits nothing. -/
theorem Looks.commit {a : α} {s s' : S} {now n n' : Nat} (h : Looks m)
    (hok : m.commit.alone now s n = .ok (a, s', n')) : s' = s ∧ n' = n := by
  obtain ⟨c, halone, hf, rfl⟩ := commit_alone.mp hok
  have hc : c = ⟨s, [], n⟩ := h now _ a c halone
  rw [hc, applyAll_nil] at hf
  exact ⟨hf, by rw [hc]⟩

/-! ## Doing the same -/

/-- Where the first session returns, so does the second, and both leave the same. -/
def Matches (m : Session S L ε α) (m' : Session S L ε γ) : Prop :=
  ∀ now c a c', m.alone now c = .ok (a, c') → ∃ b, m'.alone now c = .ok (b, c')

variable {m' : Session S L ε γ}

/-- Both sessions begin with the same part. -/
theorem matches_bind {g : α → Session S L ε γ} (h : ∀ a, Matches (f a) (g a)) :
    Matches (m >>= f) (m >>= g) := by
  intro now c b c' hok
  obtain ⟨a, c₁, hok₁, hok₂⟩ := alone_bind.mp hok
  obtain ⟨b', hok'⟩ := h a now c₁ b c' hok₂
  exact ⟨b', alone_bind.mpr ⟨a, c₁, hok₁, hok'⟩⟩

/-- One session goes on to look at something, the other stops. -/
theorem matches_looks {b : γ} (hf : ∀ a, Looks (f a)) :
    Matches (m >>= f) (m >>= fun _ => pure b) := by
  intro now c _ c' hok
  obtain ⟨a, c₁, hok₁, hok₂⟩ := alone_bind.mp hok
  have hsame : c' = c₁ := hf a now c₁ _ c' hok₂
  exact ⟨b, alone_bind.mpr ⟨a, c₁, hok₁, alone_pure.mpr ⟨rfl, hsame⟩⟩⟩

/-- **Sessions that do the same commit the same.** -/
theorem Matches.commit {a : α} {s s' : S} {now n n' : Nat} (h : Matches m m')
    (hok : m.commit.alone now s n = .ok (a, s', n')) :
    ∃ b, m'.commit.alone now s n = .ok (b, s', n') := by
  obtain ⟨c, halone, hf, hn⟩ := commit_alone.mp hok
  obtain ⟨b, halone'⟩ := h now _ a c halone
  exact ⟨b, commit_alone.mpr ⟨c, halone', hf, hn⟩⟩

end Txn.Session
