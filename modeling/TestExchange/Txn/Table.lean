import Mathlib.Data.List.Nodup
import Mathlib.Data.List.Perm.Basic

/-!
# Keyed tables

A table is a list of rows in the order they were inserted, each under its
primary key, and no key twice. The last part is a field of the structure, so a
table with a duplicate key cannot be built and no proof about a table has to
carry that fact around.

Rows are read one at a time (`get?`), counted (`count`) and listed (`where'`);
they are written by `insert`, by `modify` (which changes one row and keeps its
key) and by `erase`. The lemmas say what each write does to each way of reading.
-/

namespace Txn

variable {α β : Type}

/-- Rows under distinct keys, in insertion order. -/
structure Table (α : Type) where
  /-- The rows with their keys. -/
  rows : List (Nat × α)
  /-- No key occurs twice. -/
  nodup : (rows.map Prod.fst).Nodup

namespace Table

/-- The empty table. -/
def empty : Table α := ⟨[], List.nodup_nil⟩

/-- The row stored under `k`. -/
def get? (t : Table α) (k : Nat) : Option α := t.rows.lookup k

/-- Is there a row under `k`? -/
def contains (t : Table α) (k : Nat) : Bool := (t.get? k).isSome

/-- The rows satisfying `p`, with their keys. -/
def where' (t : Table α) (p : Nat → α → Bool) : List (Nat × α) := t.rows.filter fun r => p r.1 r.2

/-- The number of rows satisfying `p`. -/
def count (t : Table α) (p : α → Bool) : Nat := t.rows.countP fun r => p r.2

/-- Does some row satisfy `p`? -/
def any (t : Table α) (p : Nat → α → Bool) : Bool := t.rows.any fun r => p r.1 r.2

/-- The first row satisfying `p`, with its key. -/
def find? (t : Table α) (p : Nat → α → Bool) : Option (Nat × α) := t.rows.find? fun r => p r.1 r.2

theorem lookup_eq_some_iff {l : List (Nat × α)} (h : (l.map Prod.fst).Nodup) {k : Nat} {a : α} :
    l.lookup k = some a ↔ (k, a) ∈ l := by
  induction l with
  | nil => simp
  | cons r l ih =>
      obtain ⟨i, b⟩ := r
      simp only [List.map_cons, List.nodup_cons] at h
      simp only [List.lookup_cons, List.mem_cons, Prod.mk.injEq]
      by_cases hk : k = i
      · subst hk
        simp only [beq_self_eq_true, Option.some.injEq, true_and]
        refine ⟨fun he => Or.inl he.symm, fun he => ?_⟩
        rcases he with he | he
        · exact he.symm
        · exact absurd (List.mem_map.mpr ⟨(k, a), he, rfl⟩) h.1
      · simp only [beq_eq_false_iff_ne.mpr hk, hk, false_and, false_or]
        exact ih h.2

/-- A row is in the table exactly when its key reads it back. -/
theorem mem_rows {t : Table α} {k : Nat} {a : α} : (k, a) ∈ t.rows ↔ t.get? k = some a :=
  (lookup_eq_some_iff t.nodup).symm

theorem get?_eq_none {t : Table α} {k : Nat} : t.get? k = none ↔ k ∉ t.rows.map Prod.fst := by
  constructor
  · intro h hk
    obtain ⟨⟨i, a⟩, hm, rfl⟩ := List.mem_map.mp hk
    rw [mem_rows.mp hm] at h
    exact absurd h (by simp)
  · intro h
    cases hg : t.get? k with
    | none => rfl
    | some a => exact absurd (List.mem_map.mpr ⟨(k, a), mem_rows.mpr hg, rfl⟩) h

@[simp] theorem get?_empty (k : Nat) : (empty : Table α).get? k = none := rfl

@[simp] theorem contains_eq_true {t : Table α} {k : Nat} :
    t.contains k = true ↔ ∃ a, t.get? k = some a := by
  simp [contains, Option.isSome_iff_exists]

@[simp] theorem contains_eq_false {t : Table α} {k : Nat} :
    t.contains k = false ↔ t.get? k = none := by
  simp [contains]

theorem any_eq_true {t : Table α} {p : Nat → α → Bool} :
    t.any p = true ↔ ∃ k a, t.get? k = some a ∧ p k a = true := by
  simp [any, List.any_eq_true, mem_rows]

theorem any_eq_false {t : Table α} {p : Nat → α → Bool} :
    t.any p = false ↔ ∀ k a, t.get? k = some a → p k a = false := by
  simp [any, List.any_eq_false, mem_rows]

theorem mem_where' {t : Table α} {p : Nat → α → Bool} {k : Nat} {a : α} :
    (k, a) ∈ t.where' p ↔ t.get? k = some a ∧ p k a = true := by
  simp [where', mem_rows]

theorem find?_eq_some {t : Table α} {p : Nat → α → Bool} {k : Nat} {a : α}
    (h : t.find? p = some (k, a)) : t.get? k = some a ∧ p k a = true :=
  ⟨mem_rows.mp (List.mem_of_find?_eq_some h), by simpa using List.find?_some h⟩

theorem find?_eq_none {t : Table α} {p : Nat → α → Bool} :
    t.find? p = none ↔ ∀ k a, t.get? k = some a → p k a = false := by
  simp [find?, List.find?_eq_none, mem_rows]

/-! ## Writing -/

/-- Add a row under a new key; a key in use keeps its row. -/
def insert (t : Table α) (k : Nat) (a : α) : Table α :=
  if h : k ∈ t.rows.map Prod.fst then t else
    ⟨t.rows ++ [(k, a)], by
      rw [List.map_append, List.nodup_append]
      refine ⟨t.nodup, by simp, ?_⟩
      intro x hx y hy he
      simp only [List.map_cons, List.map_nil, List.mem_singleton] at hy
      subst hy
      exact h (he ▸ hx)⟩

theorem map_fst_modify (l : List (Nat × α)) (k : Nat) (f : α → α) :
    (l.map fun r => if r.1 = k then (r.1, f r.2) else r).map Prod.fst = l.map Prod.fst := by
  rw [List.map_map]
  refine List.map_congr_left fun r _ => ?_
  simp only [Function.comp]
  split <;> rfl

/-- Change the row under `k`, if there is one. -/
def modify (t : Table α) (k : Nat) (f : α → α) : Table α :=
  ⟨t.rows.map fun r => if r.1 = k then (r.1, f r.2) else r, by rw [map_fst_modify]; exact t.nodup⟩

/-- Delete the rows whose keys are listed. -/
def erase (t : Table α) (ks : List Nat) : Table α :=
  ⟨t.rows.filter fun r => r.1 ∉ ks, t.nodup.sublist (List.filter_sublist.map _)⟩

/-- Change every row. -/
def map (t : Table α) (f : Nat → α → α) : Table α :=
  ⟨t.rows.map fun r => (r.1, f r.1 r.2), by
    rw [List.map_map]
    exact t.nodup⟩

theorem rows_insert {t : Table α} {k : Nat} {a : α} (h : t.get? k = none) :
    (t.insert k a).rows = t.rows ++ [(k, a)] := by
  rw [insert, dif_neg (get?_eq_none.mp h)]

theorem insert_of_mem {t : Table α} {k : Nat} {a b : α} (h : t.get? k = some b) :
    t.insert k a = t := by
  rw [insert, dif_pos]
  exact List.mem_map.mpr ⟨(k, b), mem_rows.mpr h, rfl⟩

theorem get?_insert_self {t : Table α} {k : Nat} {a : α} (h : t.get? k = none) :
    (t.insert k a).get? k = some a := by
  rw [← mem_rows, rows_insert h]
  simp

theorem get?_insert_ne {t : Table α} {k i : Nat} {a : α} (hi : i ≠ k) :
    (t.insert k a).get? i = t.get? i := by
  cases hk : t.get? k with
  | some b => rw [insert_of_mem hk]
  | none =>
      cases hg : t.get? i with
      | none =>
          rw [get?_eq_none, rows_insert hk]
          simpa [hi] using get?_eq_none.mp hg
      | some b =>
          rw [← mem_rows, rows_insert hk]
          exact List.mem_append_left _ (mem_rows.mpr hg)

theorem get?_insert {t : Table α} {k i : Nat} {a : α} (h : t.get? k = none) :
    (t.insert k a).get? i = if i = k then some a else t.get? i := by
  split
  · rename_i hi; rw [hi]; exact get?_insert_self h
  · rename_i hi; exact get?_insert_ne hi

/-- A row present before an insert is present after it. -/
theorem get?_insert_of_some {t : Table α} {k i : Nat} {a b : α} (h : t.get? i = some b) :
    (t.insert k a).get? i = some b := by
  by_cases hi : i = k
  · subst hi; rw [insert_of_mem h]; exact h
  · rw [get?_insert_ne hi]; exact h

/-- What an insert can add: the new row under its new key, and nothing else. -/
theorem get?_insert_cases {t : Table α} {k i : Nat} {a b : α}
    (h : (t.insert k a).get? i = some b) :
    t.get? i = some b ∨ (i = k ∧ b = a ∧ t.get? k = none) := by
  cases hk : t.get? k with
  | some c => rw [insert_of_mem hk] at h; exact Or.inl h
  | none =>
      rw [get?_insert hk] at h
      split at h
      · rename_i hi; exact Or.inr ⟨hi, (Option.some.inj h).symm, rfl⟩
      · exact Or.inl h

theorem get?_modify {t : Table α} {k i : Nat} {f : α → α} :
    (t.modify k f).get? i = if i = k then (t.get? k).map f else t.get? i := by
  have key : ∀ l : List (Nat × α),
      (l.map fun r => if r.1 = k then (r.1, f r.2) else r).lookup i
        = if i = k then (l.lookup k).map f else l.lookup i := by
    intro l
    induction l with
    | nil => simp
    | cons r l ih =>
        obtain ⟨j, b⟩ := r
        rw [List.map_cons, List.lookup_cons]
        by_cases hj : j = k
        · subst hj
          by_cases hi : i = j
          · subst hi; simp
          · simp [hi, ih, List.lookup_cons, beq_eq_false_iff_ne.mpr hi]
        · by_cases hi : i = k
          · subst hi
            simp [hj, ih, List.lookup_cons, beq_eq_false_iff_ne.mpr (Ne.symm hj)]
          · simp [hj, hi, ih, List.lookup_cons]
  exact key t.rows

theorem get?_modify_self {t : Table α} {k : Nat} {f : α → α} :
    (t.modify k f).get? k = (t.get? k).map f := by
  rw [get?_modify, if_pos rfl]

theorem get?_modify_ne {t : Table α} {k i : Nat} {f : α → α} (h : i ≠ k) :
    (t.modify k f).get? i = t.get? i := by
  rw [get?_modify, if_neg h]

/-- Where a row of a modified table comes from. -/
theorem get?_modify_cases {t : Table α} {k i : Nat} {f : α → α} {b : α}
    (h : (t.modify k f).get? i = some b) :
    (i = k ∧ ∃ a, t.get? k = some a ∧ b = f a) ∨ (i ≠ k ∧ t.get? i = some b) := by
  by_cases hi : i = k
  · subst hi
    rw [get?_modify_self] at h
    obtain ⟨a, ha, hb⟩ := Option.map_eq_some_iff.mp h
    exact Or.inl ⟨rfl, a, ha, hb.symm⟩
  · rw [get?_modify_ne hi] at h
    exact Or.inr ⟨hi, h⟩

theorem get?_modify_eq_none {t : Table α} {k i : Nat} {f : α → α} :
    (t.modify k f).get? i = none ↔ t.get? i = none := by
  rw [get?_modify]
  split
  · rename_i hi; subst hi; simp
  · rfl

/-- A change of a row does not delete any. -/
theorem exists_get?_modify {t : Table α} {k i : Nat} {f : α → α} {b : α} (h : t.get? i = some b) :
    ∃ b', (t.modify k f).get? i = some b' := by
  rw [get?_modify]
  split
  · rename_i hi
    subst hi
    exact ⟨f b, by rw [h]; rfl⟩
  · exact ⟨b, h⟩

theorem get?_erase {t : Table α} {ks : List Nat} {i : Nat} :
    (t.erase ks).get? i = if i ∈ ks then none else t.get? i := by
  cases hg : (t.erase ks).get? i with
  | none =>
      split
      · rfl
      · rename_i hi
        cases ht : t.get? i with
        | none => rfl
        | some a =>
            have hm : (i, a) ∈ (t.erase ks).rows := by
              simp only [erase, List.mem_filter, decide_eq_true_eq]
              exact ⟨mem_rows.mpr ht, hi⟩
            rw [mem_rows.mp hm] at hg
            exact absurd hg (by simp)
  | some a =>
      have hm := mem_rows.mpr hg
      simp only [erase, List.mem_filter, decide_eq_true_eq] at hm
      rw [if_neg hm.2, mem_rows.mp hm.1]

theorem get?_of_erase {t : Table α} {ks : List Nat} {i : Nat} {a : α}
    (h : (t.erase ks).get? i = some a) : i ∉ ks ∧ t.get? i = some a := by
  rw [get?_erase] at h
  split at h
  · exact absurd h (by simp)
  · rename_i hi
    exact ⟨hi, h⟩

theorem get?_map {t : Table α} {f : Nat → α → α} {i : Nat} :
    (t.map f).get? i = (t.get? i).map (f i) := by
  have key : ∀ l : List (Nat × α),
      (l.map fun r => (r.1, f r.1 r.2)).lookup i = (l.lookup i).map (f i) := by
    intro l
    induction l with
    | nil => rfl
    | cons r l ih =>
        obtain ⟨j, b⟩ := r
        rw [List.map_cons, List.lookup_cons, List.lookup_cons]
        by_cases hi : i = j
        · subst hi; simp
        · simp [beq_eq_false_iff_ne.mpr hi, ih]
  exact key t.rows

/-! ## Listing -/

theorem where'_insert {t : Table α} {k : Nat} {a : α} {p : Nat → α → Bool}
    (h : t.get? k = none) :
    (t.insert k a).where' p = t.where' p ++ if p k a then [(k, a)] else [] := by
  rw [where', rows_insert h, List.filter_append, List.filter_singleton]
  cases p k a <;> rfl

/-- Erasing rows that are not listed keeps the listing. -/
theorem where'_erase {t : Table α} {ks : List Nat} {p : Nat → α → Bool}
    (h : ∀ k ∈ ks, ∀ a, t.get? k = some a → p k a = false) :
    (t.erase ks).where' p = t.where' p := by
  unfold where' erase
  rw [List.filter_filter]
  refine List.filter_congr fun r hr => ?_
  by_cases hk : r.1 ∈ ks
  · simp [h r.1 hk r.2 (mem_rows.mp hr)]
  · simp [hk]

/-- A change of one row that keeps what is listed, and what is read off it, keeps the listing. -/
theorem map_where'_modify {t : Table α} {k : Nat} {f : α → α} {p : Nat → α → Bool} {g : α → β}
    (h : ∀ a, t.get? k = some a → p k (f a) = p k a ∧ g (f a) = g a) :
    ((t.modify k f).where' p).map (fun r => g r.2) = (t.where' p).map fun r => g r.2 := by
  have key : ∀ l : List (Nat × α), (∀ a, (k, a) ∈ l → p k (f a) = p k a ∧ g (f a) = g a) →
      ((l.map fun r => if r.1 = k then (r.1, f r.2) else r).filter fun r => p r.1 r.2).map
          (fun r => g r.2)
        = (l.filter fun r => p r.1 r.2).map fun r => g r.2 := by
    intro l hl
    induction l with
    | nil => rfl
    | cons r l ih =>
        obtain ⟨i, b⟩ := r
        have ih := ih fun a ha => hl a (List.mem_cons_of_mem _ ha)
        rw [List.map_cons, List.filter_cons, List.filter_cons]
        by_cases hi : i = k
        · subst hi
          obtain ⟨hp, hg⟩ := hl b List.mem_cons_self
          simp only [if_true, hp]
          cases p i b with
          | false => exact ih
          | true => simp only [if_true, List.map_cons, hg, ih]
        · simp only [hi, if_false]
          cases p i b with
          | false => exact ih
          | true => simp only [if_true, List.map_cons, ih]
  exact key t.rows fun a ha => h a (mem_rows.mp ha)

/-! ## Counting -/

theorem count_insert {t : Table α} {k : Nat} {a : α} {p : α → Bool} (h : t.get? k = none) :
    (t.insert k a).count p = t.count p + if p a then 1 else 0 := by
  rw [count, rows_insert h, List.countP_append, List.countP_singleton]
  rfl

/-- Inserting a row that is not counted leaves the count alone, new key or not. -/
theorem count_insert_of_not {t : Table α} {k : Nat} {a : α} {p : α → Bool} (h : p a = false) :
    (t.insert k a).count p = t.count p := by
  cases hk : t.get? k with
  | some b => rw [insert_of_mem hk]
  | none => rw [count_insert hk, h]; simp

/-- **How a count moves when one row changes.** -/
theorem count_modify {t : Table α} {k : Nat} {a : α} {f : α → α} {p : α → Bool}
    (h : t.get? k = some a) :
    (t.modify k f).count p + (if p a then 1 else 0) = t.count p + if p (f a) then 1 else 0 := by
  have key : ∀ l : List (Nat × α), (l.map Prod.fst).Nodup → (k, a) ∈ l →
      (l.map fun r => if r.1 = k then (r.1, f r.2) else r).countP (fun r => p r.2)
          + (if p a then 1 else 0)
        = l.countP (fun r => p r.2) + if p (f a) then 1 else 0 := by
    intro l hnd hm
    induction l with
    | nil => exact absurd hm (by simp)
    | cons r l ih =>
        obtain ⟨j, b⟩ := r
        simp only [List.map_cons, List.nodup_cons] at hnd
        rcases List.mem_cons.mp hm with he | he
        · obtain ⟨rfl, rfl⟩ := Prod.mk.inj he
          have hl : (l.map fun r => if r.1 = k then (r.1, f r.2) else r) = l := by
            conv_rhs => rw [← List.map_id l]
            refine List.map_congr_left fun r hr => ?_
            have hrk : r.1 ≠ k := fun hk => hnd.1 (hk ▸ List.mem_map.mpr ⟨r, hr, rfl⟩)
            simp [hrk]
          rw [List.map_cons, hl, if_pos rfl, List.countP_cons, List.countP_cons]
          dsimp only
          omega
        · have hjk : j ≠ k := by
            rintro rfl
            exact hnd.1 (List.mem_map.mpr ⟨(j, a), he, rfl⟩)
          have := ih hnd.2 he
          rw [List.map_cons, if_neg hjk, List.countP_cons, List.countP_cons]
          omega
  exact key t.rows t.nodup (mem_rows.mpr h)

theorem modify_of_none {t : Table α} {k : Nat} {f : α → α} (h : t.get? k = none) :
    (t.modify k f).rows = t.rows := by
  conv_rhs => rw [← List.map_id t.rows]
  refine List.map_congr_left fun r hr => ?_
  have hrk : r.1 ≠ k := fun hk => (get?_eq_none.mp h) (hk ▸ List.mem_map.mpr ⟨r, hr, rfl⟩)
  simp [hrk]

/-- A change that stops no row from being uncounted cannot raise the count. -/
theorem count_modify_le {t : Table α} {k : Nat} {f : α → α} {p : α → Bool}
    (h : ∀ a, t.get? k = some a → p (f a) = true → p a = true) :
    (t.modify k f).count p ≤ t.count p := by
  cases hk : t.get? k with
  | none => rw [count, modify_of_none hk]; exact Nat.le_refl _
  | some a =>
      have := count_modify (f := f) (p := p) hk
      cases hp : p (f a) with
      | false => simp only [hp] at this; simp at this; omega
      | true => rw [hp, h a hk hp] at this; simp at this; omega

/-- A change of one row raises a count by at most one. -/
theorem count_modify_le_succ {t : Table α} {k : Nat} {f : α → α} {p : α → Bool} :
    (t.modify k f).count p ≤ t.count p + 1 := by
  cases hk : t.get? k with
  | none => rw [count, modify_of_none hk]; exact Nat.le_succ _
  | some a =>
      have := count_modify (f := f) (p := p) hk
      split at this <;> split at this <;> omega

theorem count_eq_of_get? {t : Table α} {k : Nat} {f : α → α} {p : α → Bool}
    (h : ∀ a, t.get? k = some a → p (f a) = p a) : (t.modify k f).count p = t.count p := by
  cases hk : t.get? k with
  | none => rw [count, modify_of_none hk]; rfl
  | some a =>
      have := count_modify (f := f) (p := p) hk
      rw [h a hk] at this
      omega

/-- The keys of the counted rows. -/
def countedKeys (t : Table α) (p : α → Bool) : List Nat :=
  (t.rows.filter fun r => p r.2).map Prod.fst

theorem nodup_countedKeys {t : Table α} {p : α → Bool} : (t.countedKeys p).Nodup :=
  (List.filter_sublist.map Prod.fst).nodup t.nodup

theorem length_countedKeys {t : Table α} {p : α → Bool} :
    (t.countedKeys p).length = t.count p := by
  rw [countedKeys, List.length_map, count, List.countP_eq_length_filter]

theorem mem_countedKeys {t : Table α} {p : α → Bool} {k : Nat} :
    k ∈ t.countedKeys p ↔ ∃ a, t.get? k = some a ∧ p a = true := by
  constructor
  · intro hk
    obtain ⟨⟨_, a⟩, hr, rfl⟩ := List.mem_map.mp hk
    obtain ⟨hm, hp⟩ := List.mem_filter.mp hr
    exact ⟨a, mem_rows.mp hm, hp⟩
  · rintro ⟨a, ha, hp⟩
    exact List.mem_map.mpr ⟨(k, a), List.mem_filter.mpr ⟨mem_rows.mpr ha, hp⟩, rfl⟩

/-- Distinct keys of counted rows are no more than the count. -/
theorem length_le_count {t : Table α} {p : α → Bool} {ks : List Nat} (hn : ks.Nodup)
    (h : ∀ k ∈ ks, ∃ a, t.get? k = some a ∧ p a = true) : ks.length ≤ t.count p := by
  have hsub : ks ⊆ t.countedKeys p := fun k hk => mem_countedKeys.mpr (h k hk)
  have hlen := (List.subperm_of_subset hn hsub).length_le
  rw [length_countedKeys] at hlen
  exact hlen

theorem count_eq_zero {t : Table α} {p : α → Bool} (h : ∀ k a, t.get? k = some a → p a = false) :
    t.count p = 0 := by
  refine List.countP_eq_zero.mpr ?_
  rintro ⟨k, a⟩ hr
  rw [h k a (mem_rows.mp hr)]
  simp

theorem count_eq_one {t : Table α} {p : α → Bool} {k : Nat} {a : α} (hk : t.get? k = some a)
    (hp : p a = true) (honly : ∀ i b, t.get? i = some b → p b = true → i = k) : t.count p = 1 := by
  have hone := length_le_count (t := t) (p := p) (List.nodup_singleton k) fun i hi => by
    rw [List.mem_singleton.mp hi]
    exact ⟨a, hk, hp⟩
  have hsub : t.countedKeys p ⊆ [k] := by
    intro i hi
    obtain ⟨b, hb, hpb⟩ := mem_countedKeys.mp hi
    exact List.mem_singleton.mpr (honly i b hb hpb)
  have hlen := (List.subperm_of_subset nodup_countedKeys hsub).length_le
  rw [length_countedKeys] at hlen
  exact Nat.le_antisymm hlen hone

/-- Rows counted here are counted there under the same keys. -/
theorem count_le_count {t : Table α} {t' : Table β} {p : α → Bool} {q : β → Bool}
    (h : ∀ k a, t.get? k = some a → p a = true → ∃ b, t'.get? k = some b ∧ q b = true) :
    t.count p ≤ t'.count q := by
  rw [← length_countedKeys]
  refine length_le_count nodup_countedKeys ?_
  intro k hk
  obtain ⟨a, ha, hp⟩ := mem_countedKeys.mp hk
  exact h k a ha hp

/-- Rows counted here are counted there, and one more. -/
theorem count_lt_count {t : Table α} {t' : Table β} {p : α → Bool} {q : β → Bool} {k₀ : Nat} {b₀ : β}
    (h : ∀ k a, t.get? k = some a → p a = true → ∃ b, t'.get? k = some b ∧ q b = true)
    (hb : t'.get? k₀ = some b₀) (hq : q b₀ = true)
    (hnew : ∀ a, t.get? k₀ = some a → p a = false) : t.count p < t'.count q := by
  have hnotin : k₀ ∉ t.countedKeys p := by
    intro hk
    obtain ⟨a, ha, hp⟩ := mem_countedKeys.mp hk
    rw [hnew a ha] at hp
    exact absurd hp (by simp)
  have hlen := length_le_count (t := t') (p := q) (List.nodup_cons.mpr ⟨hnotin, nodup_countedKeys⟩)
    (by
      intro k hk
      rcases List.mem_cons.mp hk with rfl | hk
      · exact ⟨b₀, hb, hq⟩
      · obtain ⟨a, ha, hp⟩ := mem_countedKeys.mp hk
        exact h k a ha hp)
  rw [List.length_cons, length_countedKeys] at hlen
  omega

/-- All rows counted here but one are counted there. -/
theorem count_le_count_succ {t : Table α} {t' : Table β} {p : α → Bool} {q : β → Bool} {k₀ : Nat}
    (h : ∀ k a, k ≠ k₀ → t.get? k = some a → p a = true → ∃ b, t'.get? k = some b ∧ q b = true) :
    t.count p ≤ t'.count q + 1 := by
  have hlen := length_le_count (t := t') (p := q) (nodup_countedKeys.erase k₀) (by
    intro k hk
    obtain ⟨hne, hk⟩ := (nodup_countedKeys (t := t) (p := p)).mem_erase_iff.mp hk
    obtain ⟨a, ha, hp⟩ := mem_countedKeys.mp hk
    exact h k a hne ha hp)
  have herase := List.le_length_erase (a := k₀) (l := t.countedKeys p)
  rw [length_countedKeys] at herase
  omega

/-! ## Changing every row, and everything else -/

theorem eq_of_rows {t t' : Table α} (h : t.rows = t'.rows) : t = t' := by
  cases t
  cases t'
  simp only at h
  subst h
  rfl

@[simp] theorem contains_map {t : Table α} {f : Nat → α → α} {k : Nat} :
    (t.map f).contains k = t.contains k := by
  unfold contains
  rw [get?_map, Option.isSome_map]

theorem any_map {t : Table α} {f : Nat → α → α} {p : Nat → α → Bool}
    (h : ∀ k a, p k (f k a) = p k a) : (t.map f).any p = t.any p := by
  simp only [any, map, List.any_map, Function.comp_def, h]

theorem where'_map {t : Table α} {f : Nat → α → α} {p : Nat → α → Bool}
    (h : ∀ k a, p k (f k a) = p k a) :
    (t.map f).where' p = (t.where' p).map fun r => (r.1, f r.1 r.2) := by
  simp only [where', map, List.filter_map, Function.comp_def, h]

theorem find?_map {t : Table α} {f : Nat → α → α} {p : Nat → α → Bool}
    (h : ∀ k a, p k (f k a) = p k a) :
    (t.map f).find? p = (t.find? p).map fun r => (r.1, f r.1 r.2) := by
  simp only [find?, map, List.find?_map, Function.comp_def, h]

theorem map_insert {t : Table α} {f : Nat → α → α} {k : Nat} {a : α} :
    (t.insert k a).map f = (t.map f).insert k (f k a) := by
  cases hk : t.get? k with
  | some b =>
      have hk' : (t.map f).get? k = some (f k b) := by rw [get?_map, hk]; rfl
      rw [insert_of_mem hk, insert_of_mem hk']
  | none =>
      have hk' : (t.map f).get? k = none := by rw [get?_map, hk]; rfl
      refine eq_of_rows ?_
      rw [rows_insert hk']
      show (t.insert k a).rows.map _ = _
      rw [rows_insert hk, List.map_append]
      rfl

theorem map_modify {t : Table α} {f : Nat → α → α} {g : α → α} {k : Nat}
    (h : ∀ a, t.get? k = some a → f k (g a) = g (f k a)) :
    (t.modify k g).map f = (t.map f).modify k g := by
  refine eq_of_rows ?_
  simp only [map, modify, List.map_map]
  refine List.map_congr_left fun r hr => ?_
  obtain ⟨i, a⟩ := r
  simp only [Function.comp]
  by_cases hi : i = k
  · subst hi
    rw [if_pos rfl, if_pos rfl, h a (mem_rows.mp hr)]
  · rw [if_neg hi, if_neg hi]

theorem map_erase {t : Table α} {f : Nat → α → α} {ks : List Nat} :
    (t.erase ks).map f = (t.map f).erase ks := by
  refine eq_of_rows ?_
  simp only [map, erase, List.filter_map]
  rfl

/-! ## Where rows come from -/

/-- Every row of `t'` was a row of `t` under the same key, up to `R`. -/
def From (R : α → α → Prop) (t t' : Table α) : Prop :=
  ∀ k b, t'.get? k = some b → ∃ a, t.get? k = some a ∧ R a b

variable {R : α → α → Prop} {t t₁ t₂ : Table α}

theorem From.refl (hR : ∀ a, R a a) : From R t t := fun _ b hb => ⟨b, hb, hR b⟩

theorem From.of_eq (hR : ∀ a, R a a) (h : t₁ = t) : From R t t₁ := h ▸ .refl hR

theorem From.trans (hR : ∀ a b c, R a b → R b c → R a c) (h : From R t t₁) (h' : From R t₁ t₂) :
    From R t t₂ := by
  intro k c hc
  obtain ⟨b, hb, hbc⟩ := h' k c hc
  obtain ⟨a, ha, hab⟩ := h k b hb
  exact ⟨a, ha, hR a b c hab hbc⟩

theorem From.modify {k : Nat} {f : α → α} (hR : ∀ a, R a a) (hf : ∀ a, R a (f a)) :
    From R t (t.modify k f) := by
  intro i b hb
  rcases get?_modify_cases hb with ⟨rfl, a, ha, rfl⟩ | ⟨-, hold⟩
  · exact ⟨a, ha, hf a⟩
  · exact ⟨b, hold, hR b⟩

/-! ## Conditions on rows -/

/-- Every row satisfies the condition. -/
def All (P : Nat → α → Prop) (t : Table α) : Prop := ∀ k a, t.get? k = some a → P k a

variable {P Q : Nat → α → Prop} {f : α → α}

instance [∀ k a, Decidable (P k a)] : Decidable (All P t) :=
  decidable_of_iff (∀ r ∈ t.rows, P r.1 r.2)
    ⟨fun h k a hk => h (k, a) (mem_rows.mpr hk), fun h r hr => h r.1 r.2 (mem_rows.mp hr)⟩

theorem All.empty : All P (.empty : Table α) := fun k _ h => absurd h (by simp)

theorem All.mono (h : All P t) (hPQ : ∀ k a, P k a → Q k a) : All Q t :=
  fun k a ha => hPQ k a (h k a ha)

theorem All.insert {k : Nat} {a : α} (h : All P t) (ha : P k a) : All P (t.insert k a) := by
  intro i b hb
  rcases get?_insert_cases hb with hold | ⟨rfl, rfl, -⟩
  · exact h i b hold
  · exact ha

theorem All.modify {k : Nat} (h : All P t) (hf : ∀ a, P k a → P k (f a)) :
    All P (t.modify k f) := by
  intro i b hb
  rcases get?_modify_cases hb with ⟨rfl, a, ha, rfl⟩ | ⟨-, hold⟩
  · exact hf a (h i a ha)
  · exact h i b hold

theorem All.map {g : Nat → α → α} (h : All P t) (hg : ∀ k a, P k a → P k (g k a)) :
    All P (t.map g) := by
  intro i b hb
  obtain ⟨a, ha, rfl⟩ := Option.map_eq_some_iff.mp (get?_map.symm.trans hb)
  exact hg i a (h i a ha)

theorem All.erase {ks : List Nat} (h : All P t) : All P (t.erase ks) :=
  fun i a ha => h i a (get?_of_erase ha).2

end Table

end Txn
