import TestExchange.Txn.Success
import TestExchange.Txn.Table

/-!
# Rows stored under identifiers drawn for them

If a session stores rows of a table only under identifiers it has drawn, then
all rows of the table are below the next identifier, in every state reached by
such sessions. So the next identifier is free.
-/

namespace Txn

namespace Session

variable {S L ε α β ρ : Type} {table : S → Table ρ} {n n' : Nat} {s s' : S} {w : Write S L ε}
  {m : Session S L ε α}

/-- The write stores new rows of the table only under identifiers below `n`. -/
def Issues (table : S → Table ρ) (n : Nat) (w : Write S L ε) : Prop :=
  ∀ s k, (∃ a, (table (w.effect s)).get? k = some a) → (∃ a, (table s).get? k = some a) ∨ k < n

theorem issues_widens : Widens (Issues table : Nat → Write S L ε → Prop) := by
  intro n n' w hle h s k hk
  rcases h s k hk with hold | hlt
  · exact Or.inl hold
  · exact Or.inr (Nat.lt_of_lt_of_le hlt hle)

theorem issues_of_keeps (h : Keeps table w) : Issues table n w := by
  intro s k hk
  rw [h s] at hk
  exact Or.inl hk

theorem issues_of_insert {k : Nat} {a : ρ} (hk : k < n)
    (h : ∀ s, table (w.effect s) = (table s).insert k a) : Issues table n w := by
  intro s i ⟨b, hb⟩
  rw [h s] at hb
  rcases Table.get?_insert_cases hb with hold | ⟨hi, -, -⟩
  · exact Or.inl ⟨b, hold⟩
  · exact Or.inr (hi ▸ hk)

theorem issues_of_modify {k : Nat} {f : ρ → ρ}
    (h : ∀ s, table (w.effect s) = (table s).modify k f) : Issues table n w := by
  intro s i ⟨b, hb⟩
  rw [h s] at hb
  rcases Table.get?_modify_cases hb with ⟨rfl, a, ha, -⟩ | ⟨-, hold⟩
  · exact Or.inl ⟨a, ha⟩
  · exact Or.inl ⟨b, hold⟩

theorem issues_of_erase {ks : List Nat} (h : ∀ s, table (w.effect s) = (table s).erase ks) :
    Issues table n w := by
  intro s i ⟨b, hb⟩
  rw [h s] at hb
  exact Or.inl ⟨b, (Table.get?_of_erase hb).2⟩

theorem issues_of_map {f : Nat → ρ → ρ} (h : ∀ s, table (w.effect s) = (table s).map f) :
    Issues table n w := by
  intro s i ⟨b, hb⟩
  rw [h s, Table.get?_map] at hb
  obtain ⟨a, ha, -⟩ := Option.map_eq_some_iff.mp hb
  exact Or.inl ⟨a, ha⟩

/-- The rows of the table are below `n`. -/
def Issued (table : S → Table ρ) (n : Nat) (s : S) : Prop :=
  ∀ k a, (table s).get? k = some a → k < n

theorem Issued.later (h : Issued table n s) (hle : n ≤ n') : Issued table n' s :=
  fun k a ha => Nat.lt_of_lt_of_le (h k a ha) hle

theorem Issued.effect (h : Issued table n s) (hw : Issues table n w) :
    Issued table n (w.effect s) := by
  intro k a ha
  rcases hw s k ⟨a, ha⟩ with ⟨b, hb⟩ | hlt
  · exact h k b hb
  · exact hlt

/-- An identifier not yet drawn is free. -/
theorem Issued.free {k : Nat} (h : Issued table n s) (hk : n ≤ k) : (table s).get? k = none := by
  cases ha : (table s).get? k with
  | none => rfl
  | some a => exact absurd (h k a ha) (Nat.not_lt.mpr hk)

/-- **Sessions that draw the identifiers of their rows keep the rows below the next one.** -/
theorem Draws.issued {now : Nat} {a : α} (h : Draws (Issues table) m)
    (hok : m.commit.alone now s n = .ok (a, s', n')) (hs : Issued table n s) :
    Issued table n' s' :=
  h.invariant (fun n s => Issued table n s) hok hs (fun _ _ _ hle hs => hs.later hle)
    fun _ _ _ hw _ hs => hs.effect hw

end Session

/-! ## Drawing -/

namespace Session

variable {S L ε α β : Type} {K : Nat → Write S L ε → Prop} {w : Write S L ε}

theorem draws_execute (hK : ∀ n, K n w) : Draws K (execute w) := by
  intro now c u c' hok hc
  obtain ⟨hv, rfl⟩ := alone_execute.mp hok
  refine ⟨hc, [w], ?_, applyAll_cons.mpr ⟨hv, rfl⟩⟩
  intro v hm
  rw [List.mem_singleton.mp hm]
  exact hK _

/-- A row is queued under an identifier drawn for it. -/
theorem draws_queue {w : Nat → Write S L ε} {f : Nat → Session S L ε β} (hK : Widens K)
    (hw : ∀ n k, k < n → K n (w k)) (hf : ∀ k, Draws K (f k)) :
    Draws K (do let k ← uuid4; add (w k); f k : Session S L ε β) := by
  intro now c b c' hok hc
  simp only [alone_bind, alone_uuid4, alone_add, and_assoc, exists_and_left, exists_eq_left,
    exists_const] at hok
  refine hf c.next now ⟨c.db, c.pending ++ [w c.next], c.next + 1⟩ b c' hok fun v hv => ?_
  rcases List.mem_append.mp hv with hv | hv
  · exact hK _ _ v (Nat.le_succ _) (hc v hv)
  · rw [List.mem_singleton.mp hv]
    exact hw _ _ (Nat.lt_succ_self _)

end Session

end Txn
