import TestExchange.Txn.Heading
import TestExchange.Txn.Table
import TestExchange.Txn.Traces

/-!
# What a transaction may do to a table

A policy says of each row whether it may be changed, created or removed, and a
table is `Edited` by the policy if every row that differs from before is one of
those. The comparison is always with the table the transaction started from, so
a row that is written twice has to be allowed as a whole.

A session `Abides` by a property if what it has sent satisfies it and nothing in
its queue can spoil it.
-/

namespace Txn

variable {α : Type}

/-! ## Edits of a table -/

/-- The edits a policy allows, row by row. -/
structure Edits (α : Type) where
  changes : Nat → α → α → Prop
  creates : Nat → α → Prop
  removes : Nat → α → Prop

/-- What may have become of the row with the key `k`. -/
inductive Edits.Row (p : Edits α) (k : Nat) : Option α → Option α → Prop where
  | same {o : Option α} : p.Row k o o
  | changed {a b : α} (h : p.changes k a b) : p.Row k (some a) (some b)
  | created {b : α} (h : p.creates k b) : p.Row k none (some b)
  | removed {a : α} (h : p.removes k a) : p.Row k (some a) none

namespace Table

variable {p : Edits α} {t t' : Table α} {k : Nat} {a b : α} {f : α → α}

/-- Every row that differs is one that the policy allows to differ so. -/
def Edited (p : Edits α) (t t' : Table α) : Prop := ∀ k, p.Row k (t.get? k) (t'.get? k)

theorem Edited.refl (t : Table α) : Edited p t t := fun _ => .same

/-- A row that was there before is the same, or was changed as the policy allows. -/
theorem Edited.of_some (h : Edited p t t') (ha : t.get? k = some a) (hb : t'.get? k = some b) :
    b = a ∨ p.changes k a b := by
  have hrow := h k
  rw [ha, hb] at hrow
  cases hrow with
  | same => exact .inl rfl
  | changed h => exact .inr h

/-- A row that was not there before was created as the policy allows. -/
theorem Edited.of_none (h : Edited p t t') (ha : t.get? k = none) (hb : t'.get? k = some b) :
    p.creates k b := by
  have hrow := h k
  rw [ha, hb] at hrow
  cases hrow with
  | created h => exact h

/-- A row that is gone was removed as the policy allows. -/
theorem Edited.of_gone (h : Edited p t t') (ha : t.get? k = some a) (hb : t'.get? k = none) :
    p.removes k a := by
  have hrow := h k
  rw [ha, hb] at hrow
  cases hrow with
  | removed h => exact h

/-- What cannot be removed is still there. -/
theorem Edited.kept (h : Edited p t t') (hkeeps : ∀ k a, ¬p.removes k a) (ha : t.get? k = some a) :
    ∃ b, t'.get? k = some b := by
  cases hb : t'.get? k with
  | some b => exact ⟨b, rfl⟩
  | none => exact absurd (h.of_gone ha hb) (hkeeps k a)

theorem Edited.insert (h : Edited p t t') (hfree : t'.get? k = none)
    (hnew : t.get? k = none → p.creates k a) (hagain : ∀ b, t.get? k = some b → p.changes k b a) :
    Edited p t (t'.insert k a) := by
  intro i
  rw [get?_insert hfree]
  split
  · rename_i hi
    subst hi
    cases hb : t.get? i with
    | none => exact .created (hnew hb)
    | some b => exact .changed (hagain b hb)
  · exact h i

/-- The insertion of a row into a table from which nothing can be removed. -/
theorem Edited.insert_new (h : Edited p t t') (hkeeps : ∀ k a, ¬p.removes k a)
    (hfree : t'.get? k = none) (hnew : t.get? k = none → p.creates k a) :
    Edited p t (t'.insert k a) := by
  refine h.insert hfree hnew fun b hb => ?_
  obtain ⟨c, hc⟩ := h.kept hkeeps hb
  rw [hfree] at hc
  cases hc

theorem Edited.modify (h : Edited p t t')
    (hold : ∀ a b, t.get? k = some a → b = a ∨ p.changes k a b → p.changes k a (f b))
    (hnew : ∀ b, t.get? k = none → p.creates k b → p.creates k (f b)) :
    Edited p t (t'.modify k f) := by
  intro i
  rw [get?_modify]
  split
  · rename_i hi
    subst hi
    cases hb : t'.get? i with
    | none =>
        rw [Option.map_none, ← hb]
        exact h i
    | some b =>
        cases ha : t.get? i with
        | none => exact .created (hnew b ha (h.of_none ha hb))
        | some a => exact .changed (hold a b ha (h.of_some ha hb))
  · exact h i

theorem Edited.map {g : Nat → α → α} (h : Edited p t t')
    (hold : ∀ k a b, t.get? k = some a → b = a ∨ p.changes k a b → g k b = a ∨ p.changes k a (g k b))
    (hnew : ∀ k b, t.get? k = none → p.creates k b → p.creates k (g k b)) :
    Edited p t (t'.map g) := by
  intro i
  rw [get?_map]
  cases hb : t'.get? i with
  | none =>
      rw [Option.map_none, ← hb]
      exact h i
  | some b =>
      cases ha : t.get? i with
      | none => exact .created (hnew i b ha (h.of_none ha hb))
      | some a =>
          rcases hold i a b ha (h.of_some ha hb) with hsame | hchanged
          · rw [Option.map_some, hsame]
            exact .same
          · exact .changed hchanged

theorem Edited.erase {ks : List Nat} (h : Edited p t t')
    (hgone : ∀ i ∈ ks, ∀ a, t.get? i = some a → p.removes i a) : Edited p t (t'.erase ks) := by
  intro i
  rw [get?_erase]
  split
  · rename_i hi
    cases ha : t.get? i with
    | none => exact .same
    | some a => exact .removed (hgone i hi a ha)
  · exact h i

/-! ### Rows that stay -/

/-- Every row is still there, as what `R` allows to become of it. -/
def Lasts (R : α → α → Prop) (t t' : Table α) : Prop :=
  ∀ k a, t.get? k = some a → ∃ b, t'.get? k = some b ∧ R a b

variable {R : α → α → Prop}

theorem Lasts.refl (hR : ∀ a, R a a) (t : Table α) : Lasts R t t := fun _ a ha => ⟨a, ha, hR a⟩

theorem Lasts.trans {t₁ : Table α} (hR : ∀ a b c, R a b → R b c → R a c) (h : Lasts R t t₁)
    (h' : Lasts R t₁ t') : Lasts R t t' := by
  intro k a ha
  obtain ⟨b, hb, hab⟩ := h k a ha
  obtain ⟨c, hc, hbc⟩ := h' k b hb
  exact ⟨c, hc, hR a b c hab hbc⟩

/-- Nothing is removed, and changes keep to `R`. -/
theorem Edited.lasts (h : Edited p t t') (hR : ∀ a, R a a) (hkeeps : ∀ k a, ¬p.removes k a)
    (hchange : ∀ k a b, p.changes k a b → R a b) : Lasts R t t' := by
  intro k a ha
  obtain ⟨b, hb⟩ := h.kept hkeeps ha
  rcases h.of_some ha hb with rfl | hchanged
  · exact ⟨b, hb, hR b⟩
  · exact ⟨b, hb, hchange k a b hchanged⟩

/-! ### Rows of a kind -/

/-- The rows of a kind are the same rows before and after, but for what `R` allows. -/
structure Spared (q : Nat → α → Prop) (R : α → α → Prop) (t t' : Table α) : Prop where
  kept : ∀ k a, t.get? k = some a → q k a → ∃ b, t'.get? k = some b ∧ q k b ∧ R a b
  old : ∀ k b, t'.get? k = some b → q k b → ∃ a, t.get? k = some a ∧ q k a ∧ R a b

variable {q q' : Nat → α → Prop}

theorem Spared.refl (hR : ∀ a, R a a) : Spared q R t t :=
  ⟨fun _ a ha hq => ⟨a, ha, hq, hR a⟩, fun _ a ha hq => ⟨a, ha, hq, hR a⟩⟩

theorem Spared.trans {t₁ : Table α} (hR : ∀ a b c, R a b → R b c → R a c) (h : Spared q R t t₁)
    (h' : Spared q R t₁ t') : Spared q R t t' where
  kept := by
    intro k a ha hq
    obtain ⟨b, hb, hqb, hab⟩ := h.kept k a ha hq
    obtain ⟨c, hc, hqc, hbc⟩ := h'.kept k b hb hqb
    exact ⟨c, hc, hqc, hR a b c hab hbc⟩
  old := by
    intro k c hc hq
    obtain ⟨b, hb, hqb, hbc⟩ := h'.old k c hc hq
    obtain ⟨a, ha, hqa, hab⟩ := h.old k b hb hqb
    exact ⟨a, ha, hqa, hR a b c hab hbc⟩

theorem Spared.exists_iff (h : Spared q R t t') :
    (∃ a, t.get? k = some a ∧ q k a) ↔ ∃ b, t'.get? k = some b ∧ q k b := by
  constructor
  · rintro ⟨a, ha, hq⟩
    obtain ⟨b, hb, hqb, -⟩ := h.kept k a ha hq
    exact ⟨b, hb, hqb⟩
  · rintro ⟨b, hb, hq⟩
    obtain ⟨a, ha, hqa, -⟩ := h.old k b hb hq
    exact ⟨a, ha, hqa⟩

theorem Spared.of_iff (h : Spared q R t t') (hq : ∀ k a, q k a ↔ q' k a) : Spared q' R t t' := by
  obtain rfl : q = q' := funext fun k => funext fun a => propext (hq k a)
  exact h

/-- **A policy that does not let the rows of a kind be touched spares them.** -/
theorem Edited.spared (h : Edited p t t') (hR : ∀ a, R a a)
    (hchange : ∀ k a b, p.changes k a b → q k a ∨ q k b → q k a ∧ q k b ∧ R a b)
    (hcreate : ∀ k b, p.creates k b → ¬q k b) (hremove : ∀ k a, p.removes k a → ¬q k a) :
    Spared q R t t' where
  kept := by
    intro k a ha hq
    cases hb : t'.get? k with
    | none => exact absurd hq (hremove k a (h.of_gone ha hb))
    | some b =>
        rcases h.of_some ha hb with rfl | hchanged
        · exact ⟨b, rfl, hq, hR b⟩
        · exact ⟨b, rfl, (hchange k a b hchanged (.inl hq)).2⟩
  old := by
    intro k b hb hq
    cases ha : t.get? k with
    | none => exact absurd hq (hcreate k b (h.of_none ha hb))
    | some a =>
        rcases h.of_some ha hb with rfl | hchanged
        · exact ⟨b, rfl, hq, hR b⟩
        · obtain ⟨hqa, -, hab⟩ := hchange k a b hchanged (.inr hq)
          exact ⟨a, rfl, hqa, hab⟩

end Table

/-! ## Logs -/

section Logs

variable {P Q : α → Prop} {l l₁ l' : List α} {a : α}

/-- The second list continues the first one, with entries that satisfy `P`. -/
def Appends (P : α → Prop) (l l' : List α) : Prop := ∃ new, l' = l ++ new ∧ ∀ a ∈ new, P a

theorem Appends.refl (l : List α) : Appends P l l := ⟨[], (List.append_nil l).symm, by simp⟩

theorem Appends.trans (h : Appends P l l₁) (h' : Appends P l₁ l') : Appends P l l' := by
  obtain ⟨new, rfl, hnew⟩ := h
  obtain ⟨more, rfl, hmore⟩ := h'
  refine ⟨new ++ more, List.append_assoc _ _ _, fun a ha => ?_⟩
  exact (List.mem_append.mp ha).elim (hnew a) (hmore a)

theorem Appends.add (h : Appends P l l') (ha : P a) : Appends P l (l' ++ [a]) :=
  h.trans ⟨[a], rfl, fun b hb => by rw [List.mem_singleton.mp hb]; exact ha⟩

theorem Appends.mono (h : Appends P l l') (hPQ : ∀ a, P a → Q a) : Appends Q l l' := by
  obtain ⟨new, hnew, hall⟩ := h
  exact ⟨new, hnew, fun a ha => hPQ a (hall a ha)⟩

end Logs

/-! ## Sessions -/

namespace Session

variable {S L ε β : Type} {K : S → Prop} {m : Session S L ε α} {f : α → Session S L ε β} {now : Nat}
  {c : Conn S L ε} {w : Write S L ε} {s s' : S} {n n' : Nat} {R : β → Conn S L ε → Prop}
  {E : ε → Prop}

/-- The property holds of what was sent, and nothing that is queued can spoil it. -/
structure Abides (K : S → Prop) (c : Conn S L ε) : Prop where
  holds : K c.db
  queued : ∀ w ∈ c.pending, Preserves K w

theorem abides_start (h : K s) : Abides K (⟨s, [], n⟩ : Conn S L ε) := ⟨h, by simp⟩

theorem Abides.add (h : Abides K c) (hw : Preserves K w) :
    Abides K { c with pending := c.pending ++ [w] } := by
  refine ⟨h.holds, fun v hv => ?_⟩
  rcases List.mem_append.mp hv with hv | hv
  · exact h.queued v hv
  · rw [List.mem_singleton.mp hv]
    exact hw

theorem Abides.sent {t : S} (h : Abides K c) (ht : applyAll c.pending c.db = some t) : K t :=
  applyAll_preserves h.queued ht h.holds

/-- **The rule for the rest of a request**: it sends and queues only writes that keep the property. -/
theorem Confined.abides (h : Confined (Preserves K) m) (hc : Abides K c) (hE : ∀ e, E e) :
    Ends m now c (fun _ => Abides K) E := by
  unfold Ends
  cases hm : m.alone now c with
  | error e => exact hE e
  | ok r => exact ⟨(h.preserves hm hc.queued hc.holds).1, (h now c r.1 r.2 hm hc.queued).1⟩

/-- Flushing, when something else follows that needs what was sent. -/
theorem Abides.ends_flush_bind {g : Unit → Session S L ε β} (h : Abides K c)
    (hg : ∀ t, K t → applyAll c.pending c.db = some t → Ends (g ()) now ⟨t, [], c.next⟩ R E)
    (hE : ∀ e, E e) : Ends (flush >>= g) now c R E := by
  cases ht : applyAll c.pending c.db with
  | none => exact ends_flush_refused_bind ht fun _ _ _ _ _ => hE _
  | some t =>
      have hflush : (flush : Session S L ε Unit).alone now c = .ok ((), ⟨t, [], c.next⟩) :=
        alone_flush.mpr ⟨t, ht, rfl⟩
      unfold Ends
      rw [alone_bind_eq, hflush]
      exact hg t (h.sent ht) ht

/-- **What a session abides by, its request keeps.** -/
theorem Ends.abided (h : Ends m now ⟨s, [], n⟩ (fun _ => Abides K) E) {a : α}
    (hok : m.commit.alone now s n = .ok (a, s', n')) : K s' := by
  obtain ⟨c, hm, hf, -⟩ := commit_alone.mp hok
  unfold Ends at h
  rw [hm] at h
  exact h.sent hf

end Session

end Txn
