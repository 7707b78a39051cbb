import TestExchange.Txn.Interleave

/-!
# What transactions answered

The answer of a transaction counts only if it commits. `Program.answering` keeps
the answers beside the database: the last thing a transaction does is to add its
answer to a list, and the commit publishes the list with its other changes. No
statement looks at the list or waits for it, so nothing else changes: whatever
the transactions do without the list, they also do with it (`shadows_runs`).
-/

namespace Txn

variable {S L ε R α β : Type}

/-- The write, beside something it does not touch. -/
def Write.beside (w : Write S L ε) : Write (S × β) L ε where
  rows s := w.rows s.1
  violates s := w.violates s.1
  effect s := (w.effect s.1, s.2)

/-- Add an answer to the list. -/
def Write.answer (r : R) (a : α) : Write (S × List (R × α)) L ε where
  rows _ := []
  violates _ := none
  effect s := (s.1, s.2 ++ [(r, a)])

/-- The transaction that keeps its answer. -/
def Program.answering (r : R) : Program S L ε α → Program (S × List (R × α)) L ε Unit
  | .done a => .exec (.answer r a) fun _ => .done ()
  | .raise e => .raise e
  | .select k => .select fun s => (k s.1).answering r
  | .lock rows k => .lock (fun s => rows s.1) fun s => (k s.1).answering r
  | .exec w k => .exec w.beside fun e => (k e).answering r
  | .uuid4 k => .uuid4 fun n => (k n).answering r
  | .utcnow k => .utcnow fun t => (k t).answering r

theorem effects_beside {ws : List (Write S L ε)} {s : S × β} :
    effects (ws.map Write.beside) s = (effects ws s.1, s.2) := by
  induction ws generalizing s with
  | nil => rfl
  | cons w ws ih => exact ih

/-! ## Without the answers -/

/-- The transaction that forgets its answer. -/
def Program.silent (x : Program S L ε α) : Program S L ε Unit := x.bind fun _ => .done ()

/-- `u` is `t` with its answer. -/
structure Tx.Shadows (t : Tx S L ε R) (u : Tx (S × List (R × α)) L ε R) : Prop where
  rest : ∃ x : Program S L ε α, t.rest = x.silent ∧ u.rest = x.answering u.request
  writes : u.writes = t.writes.map Write.beside
  held : u.held = t.held
  taken : u.taken = t.taken

/-- `v` is `w` with the answers. -/
structure World.Shadows (w : World S L ε R) (v : World (S × List (R × α)) L ε R) : Prop where
  db : v.db.1 = w.db
  next : v.next = w.next
  txs : ∀ i, Option.Rel Tx.Shadows (w.txs.get? i) (v.txs.get? i)

variable {w w' : World S L ε R} {v : World (S × List (R × α)) L ε R} {t t' : Tx S L ε R}
  {u u' : Tx (S × List (R × α)) L ε R} {i now : Nat}

theorem World.Shadows.of_some (h : w.Shadows v) (ht : w.txs.get? i = some t) :
    ∃ u, v.txs.get? i = some u ∧ t.Shadows u := by
  have hrel := h.txs i
  rw [ht] at hrel
  cases hu : v.txs.get? i with
  | none =>
      rw [hu] at hrel
      cases hrel
  | some u =>
      rw [hu] at hrel
      cases hrel with
      | some hrel => exact ⟨u, rfl, hrel⟩

theorem World.Shadows.of_none (h : w.Shadows v) (ht : w.txs.get? i = none) :
    v.txs.get? i = none := by
  have hrel := h.txs i
  rw [ht] at hrel
  cases hu : v.txs.get? i with
  | none => rfl
  | some u =>
      rw [hu] at hrel
      cases hrel

theorem Tx.Shadows.locks (h : t.Shadows u) : u.locks = t.locks := by
  rw [Tx.locks, Tx.locks, h.taken, h.held]

theorem Tx.Shadows.view (h : t.Shadows u) {s : S × List (R × α)} :
    u.view s = (t.view s.1, s.2) := by
  rw [Tx.view, h.writes, effects_beside]
  rfl

theorem World.Shadows.view (h : w.Shadows v) (ht : t.Shadows u) :
    u.view v.db = (t.view w.db, v.db.2) := by
  rw [ht.view, h.db]

theorem World.Shadows.drop (h : w.Shadows v) : (w.drop i).Shadows (v.drop i) := by
  refine ⟨h.db, h.next, fun j => ?_⟩
  show Option.Rel _ ((w.txs.erase [i]).get? j) ((v.txs.erase [i]).get? j)
  rw [Table.get?_erase, Table.get?_erase]
  split
  · exact .none
  · exact h.txs j

theorem World.Shadows.put (h : w.Shadows v) (ht : t'.Shadows u') :
    (w.put i t').Shadows (v.put i u') := by
  refine ⟨h.db, h.next, fun j => ?_⟩
  show Option.Rel _ ((w.txs.modify i _).get? j) ((v.txs.modify i _).get? j)
  by_cases hj : j = i
  · subst hj
    rw [Table.get?_modify_self, Table.get?_modify_self]
    cases hw : w.txs.get? j with
    | none =>
        rw [h.of_none hw]
        exact .none
    | some t =>
        obtain ⟨u, hu, -⟩ := h.of_some hw
        rw [hu]
        exact .some ht
  · rw [Table.get?_modify_ne hj, Table.get?_modify_ne hj]
    exact h.txs j

theorem World.Shadows.begin {t : Tx S L ε R} {u : Tx (S × List (R × α)) L ε R}
    (h : w.Shadows v) (hnew : w.txs.get? i = none) (ht : t.Shadows u) :
    World.Shadows { w with txs := w.txs.insert i t } { v with txs := v.txs.insert i u } := by
  refine ⟨h.db, h.next, fun j => ?_⟩
  show Option.Rel _ ((w.txs.insert i t).get? j) ((v.txs.insert i u).get? j)
  by_cases hj : j = i
  · subst hj
    rw [Table.get?_insert_self hnew, Table.get?_insert_self (h.of_none hnew)]
    exact .some ht
  · rw [Table.get?_insert_ne hj, Table.get?_insert_ne hj]
    exact h.txs j

theorem shadows_idle {s : S} {n : Nat} :
    World.Shadows (World.idle s n : World S L ε R) (World.idle (s, ([] : List (R × α))) n) :=
  ⟨rfl, rfl, fun _ => .none⟩

section Locks

variable [DecidableEq L]

/-- The rows are as free as without the answers. -/
theorem World.Shadows.free (h : w.Shadows v) (l : L) : v.free i l = w.free i l := by
  have hiff : v.txs.any (fun j u => j ≠ i && l ∈ u.locks) = true
      ↔ w.txs.any (fun j t => j ≠ i && l ∈ t.locks) = true := by
    simp only [Table.any_eq_true]
    constructor
    · rintro ⟨j, u, hu, hl⟩
      cases ht : w.txs.get? j with
      | none => exact absurd (hu.symm.trans (h.of_none ht)) (by simp)
      | some t =>
          obtain ⟨u', hu', hshadow⟩ := h.of_some ht
          obtain rfl := Option.some.inj (hu.symm.trans hu')
          exact ⟨j, t, ht, by rw [← hshadow.locks]; exact hl⟩
    · rintro ⟨j, t, ht, hl⟩
      obtain ⟨u, hu, hshadow⟩ := h.of_some ht
      exact ⟨j, u, hu, by rw [hshadow.locks]; exact hl⟩
  rw [World.free, World.free, Bool.eq_iff_iff.mpr hiff]

theorem Tx.Shadows.missing (h : t.Shadows u) {rows : List L} : u.missing rows = t.missing rows := by
  rw [Tx.missing, Tx.missing, h.locks]

theorem World.Shadows.take (h : w.Shadows v) (ht : t.Shadows u) {l : L}
    (hw : w.take i t l = some w') : ∃ v', v.take i u l = some v' ∧ w'.Shadows v' := by
  unfold World.take at hw ⊢
  rw [h.free]
  split at hw
  · rename_i hfree
    obtain rfl := Option.some.inj hw
    rw [if_pos hfree]
    refine ⟨_, rfl, h.put ⟨ht.rest, ht.writes, ht.held, ?_⟩⟩
    rw [ht.taken]
  · exact absurd hw (by simp)

/-- A step that does not end the transaction is the same beside the answers. -/
theorem World.Shadows.moves (h : w.Shadows v) (ht : t.Shadows u)
    (hgoes : ∀ a, t.rest ≠ .done a) (hw : w.advance i now t = some w') :
    ∃ v', v.advance i now u = some v' ∧ w'.Shadows v' := by
  obtain ⟨x, hx, hu⟩ := ht.rest
  have hview := h.view ht
  unfold World.advance at hw ⊢
  cases x with
  | done a => exact absurd hx (hgoes ())
  | raise e =>
      rw [hx] at hw
      rw [hu]
      obtain rfl := Option.some.inj hw
      exact ⟨_, rfl, h.drop⟩
  | select k =>
      rw [hx] at hw
      rw [hu]
      obtain rfl := Option.some.inj hw
      refine ⟨_, rfl, h.put ⟨⟨k (t.view w.db), rfl, ?_⟩, ht.writes, ht.held, ht.taken⟩⟩
      rw [hview]
  | lock rows k =>
      rw [hx] at hw
      rw [hu]
      simp only [Program.silent, Program.bind, Program.answering, hview, ht.missing] at hw ⊢
      split at hw
      · exact h.take ht hw
      · obtain rfl := Option.some.inj hw
        exact ⟨_, rfl, h.put ⟨⟨k (t.view w.db), rfl, rfl⟩, ht.writes, ht.locks, rfl⟩⟩
  | exec write k =>
      rw [hx] at hw
      rw [hu]
      simp only [Program.silent, Program.bind, Program.answering, Write.beside, hview,
        ht.missing] at hw ⊢
      split at hw
      · exact h.take ht hw
      · split at hw
        · rename_i e hv
          obtain rfl := Option.some.inj hw
          exact ⟨_, rfl, h.put ⟨⟨k (some e), rfl, rfl⟩, ht.writes, ht.held, rfl⟩⟩
        · obtain rfl := Option.some.inj hw
          refine ⟨_, rfl, h.put ⟨⟨k none, rfl, rfl⟩, ?_, ht.locks, rfl⟩⟩
          show u.writes ++ _ = (t.writes ++ _).map _
          rw [ht.writes, List.map_append]
          rfl
  | uuid4 k =>
      rw [hx] at hw
      rw [hu]
      obtain rfl := Option.some.inj hw
      have hput : World.Shadows (w.put i { t with rest := (k w.next).silent })
          (v.put i { u with rest := (k v.next).answering u.request }) :=
        h.put ⟨⟨k w.next, rfl, by rw [h.next]⟩, ht.writes, ht.held, ht.taken⟩
      exact ⟨_, rfl, hput.db, congrArg (· + 1) h.next, hput.txs⟩
  | utcnow k =>
      rw [hx] at hw
      rw [hu]
      obtain rfl := Option.some.inj hw
      exact ⟨_, rfl, h.put ⟨⟨k now, rfl, rfl⟩, ht.writes, ht.held, ht.taken⟩⟩

variable {program : R → Program S L ε α}

/-- What answering transactions do, step by step. -/
abbrev World.Answers (program : R → Program S L ε α) :
    World (S × List (R × α)) L ε R → Act R → World (S × List (R × α)) L ε R → Prop :=
  World.Step (fun r => (program r).answering r) fun _ => true

theorem World.Answers.step (hu : v.txs.get? i = some u) {v' : World (S × List (R × α)) L ε R}
    (hadv : v.advance i now u = some v') : World.Answers program v (.step i now) v' :=
  ⟨by rw [World.act, hu]; exact hadv, fun _ _ => rfl⟩

/-- The transaction adds its answer, then it commits. -/
theorem World.Shadows.commits (h : w.Shadows v) (ht : t.Shadows u) (hu : v.txs.get? i = some u)
    {a : Unit} (hdone : t.rest = .done a) (hw : w.advance i now t = some w') :
    ∃ acts v', Runs (World.Answers program) v acts v' ∧ w'.Shadows v' := by
  obtain ⟨x, hx, hrest⟩ := ht.rest
  have hview := h.view ht
  obtain ⟨b, rfl⟩ : ∃ b, x = .done b := by
    cases x with
    | done b => exact ⟨b, rfl⟩
    | _ => exact absurd (hdone.symm.trans hx) (by simp [Program.silent, Program.bind])
  unfold World.advance at hw
  rw [hdone] at hw
  obtain rfl := Option.some.inj hw
  obtain ⟨u', hu'⟩ : ∃ u' : Tx (S × List (R × α)) L ε R, u' = { u with
    rest := .done (), writes := u.writes ++ [Write.answer u.request b], held := u.locks,
    taken := [] } := ⟨_, rfl⟩
  have hfirst : v.advance i now u = some (v.put i u') := by
    unfold World.advance
    rw [hrest, hu']
    rfl
  have hget : (v.put i u').txs.get? i = some u' := by
    refine Table.get?_modify_self.trans ?_
    rw [hu]
    rfl
  have hlast : (v.put i u').advance i now u' = some { (v.put i u').drop i with
      db := (t.view w.db, v.db.2 ++ [(u.request, b)]) } := by
    unfold World.advance
    rw [hu']
    show some _ = some _
    have heffect : effects (u.writes ++ [Write.answer u.request b]) v.db
        = (t.view w.db, v.db.2 ++ [(u.request, b)]) := by
      rw [effects_concat]
      show (Write.answer u.request b).effect (u.view v.db) = _
      rw [hview]
      rfl
    exact congrArg some (congrArg (fun s => { (v.put i _).drop i with db := s }) heffect)
  refine ⟨_, _, .cons (World.Answers.step hu hfirst) (.single (World.Answers.step hget hlast)), ?_⟩
  refine ⟨rfl, h.next, fun j => ?_⟩
  show Option.Rel _ ((w.txs.erase [i]).get? j) (((v.txs.modify i fun _ => u').erase [i]).get? j)
  rw [Table.get?_erase, Table.get?_erase]
  split
  · exact .none
  · rename_i hj
    rw [Table.get?_modify_ne (by simpa using hj)]
    exact h.txs j

/-- **Each step of the transactions is one, or two, with the answers.** -/
theorem shadows_step (h : w.Shadows v) {a : Act R}
    (hs : World.Step (fun r => (program r).silent) (fun _ => true) w a w') :
    ∃ acts v', Runs (World.Answers program) v acts v' ∧ w'.Shadows v' := by
  obtain ⟨hact, -⟩ := hs
  unfold World.act at hact
  cases a with
  | start i r =>
      dsimp only at hact
      split at hact
      · exact absurd hact (by simp)
      · rename_i hnew
        obtain rfl := Option.some.inj hact
        have hnone := Table.contains_eq_false.mp (Bool.not_eq_true _ ▸ hnew)
        have hfree : v.txs.contains i = false := Table.contains_eq_false.mpr (h.of_none hnone)
        refine ⟨[.start i r], _, .single ⟨?_, fun _ _ => rfl⟩,
          h.begin hnone (u := { request := r, rest := (program r).answering r, seen := v.db })
            ⟨⟨program r, rfl, rfl⟩, rfl, rfl, rfl⟩⟩
        rw [World.act, hfree]
        rfl
  | step i now =>
      obtain ⟨t, ht, hadv⟩ := Option.bind_eq_some_iff.mp hact
      obtain ⟨u, hu, hshadow⟩ := h.of_some ht
      by_cases hdone : ∃ a, t.rest = .done a
      · obtain ⟨a, hdone⟩ := hdone
        exact h.commits hshadow hu hdone hadv
      · have hgoes := not_exists.mp hdone
        obtain ⟨v', hadv', hv'⟩ := h.moves hshadow hgoes hadv
        exact ⟨_, v', .single (World.Answers.step hu hadv'), hv'⟩
  | kill i =>
      dsimp only at hact
      split at hact
      · rename_i hthere
        obtain rfl := Option.some.inj hact
        obtain ⟨t, ht⟩ := Table.contains_eq_true.mp hthere
        obtain ⟨u, hu, -⟩ := h.of_some ht
        have hthere' : v.txs.contains i = true := Table.contains_eq_true.mpr ⟨u, hu⟩
        refine ⟨[.kill i], _, .single ⟨?_, fun _ _ => rfl⟩, h.drop⟩
        rw [World.act, hthere']
        rfl
      · exact absurd hact (by simp)

/-- **What the transactions can do, they can do with the answers kept.** -/
theorem shadows_runs (h : w.Shadows v) {acts : List (Act R)}
    (hr : Runs (World.Step (fun r => (program r).silent) fun _ => true) w acts w') :
    ∃ acts' v', Runs (World.Answers program) v acts' v' ∧ w'.Shadows v' := by
  induction hr generalizing v with
  | nil w => exact ⟨[], v, .nil v, h⟩
  | cons head rest ih =>
      obtain ⟨acts, v₁, hrun, h₁⟩ := shadows_step h head
      obtain ⟨acts', v', hrun', h'⟩ := ih h₁
      exact ⟨acts ++ acts', v', hrun.append hrun', h'⟩

end Locks

end Txn
