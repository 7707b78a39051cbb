import TestExchange.Txn.Traces
import Mathlib.Logic.Relation

/-!
# Deadlocks

Transactions that wait for each other's rows in a circle. Whether that can happen
depends on the order in which each of them locks: `Program.Obeys` says of a
program that each of its locking reads is allowed, given what it holds by then,
whatever its statements see; `disciplined_runs` carries that over to the
transactions of a world. If in the end everybody who waits needs a row that ranks
higher than the rows others wait for him to release, nobody waits for himself.
-/

namespace Txn

variable {S L ε R α β : Type}

/-! ## Waiting -/

section Waiting

variable [DecidableEq L]

/-- The row that the locking read under way needs next. -/
def Tx.asks (t : Tx S L ε R) (db : S) : Option L :=
  match t.rest with
  | .lock rows _ => t.missing (rows (t.view db))
  | _ => none

/-- Transaction `i` needs a row that `j` holds. -/
def World.waitsFor (w : World S L ε R) (i j : Nat) : Bool :=
  (w.txs.get? i).any fun t => (t.asks w.db).any fun l =>
    i ≠ j && (w.txs.get? j).any fun u => l ∈ u.locks

/-- **A deadlock**: transactions in a circle, each needing a row that the next one holds. -/
def World.Deadlocked (w : World S L ε R) : Prop :=
  ∃ i, Relation.TransGen (fun i j => w.waitsFor i j = true) i i

theorem waitsFor_iff {w : World S L ε R} {i j : Nat} :
    w.waitsFor i j = true ↔ ∃ t u l, w.txs.get? i = some t ∧ t.asks w.db = some l
      ∧ w.txs.get? j = some u ∧ i ≠ j ∧ l ∈ u.locks := by
  simp only [World.waitsFor, Option.any_eq_true, Bool.and_eq_true, decide_eq_true_eq]
  constructor
  · rintro ⟨t, ht, l, hl, hij, u, hu, hlu⟩
    exact ⟨t, u, l, ht, hl, hu, hij, hlu⟩
  · rintro ⟨t, u, l, ht, hl, hu, hij, hlu⟩
    exact ⟨t, ht, l, hl, hij, u, hu, hlu⟩

/-- In a circle everybody needs a row that ranks higher than the row others need of him. -/
theorem not_deadlocked {w : World S L ε R} (rank : Nat → Nat)
    (h : ∀ i j k l, w.waitsFor i j = true → w.waitsFor j k = true → w.waitsFor k l = true →
      rank i < rank j) : ¬w.Deadlocked := by
  have hclimb : ∀ i j, Relation.TransGen (fun i j => w.waitsFor i j = true) i j →
      ∀ k l, w.waitsFor j k = true → w.waitsFor k l = true → rank i < rank j := by
    intro i j hpath
    induction hpath with
    | single hij => exact fun k l hjk hkl => h i _ k l hij hjk hkl
    | tail _ hbc ih =>
        intro k l hck hkl
        exact Nat.lt_trans (ih _ _ hbc hck) (h _ _ k l hbc hck hkl)
  rintro ⟨i, hcycle⟩
  obtain ⟨j, hij, hback⟩ := Relation.TransGen.head'_iff.mp hcycle
  obtain ⟨k, hjk⟩ : ∃ k, w.waitsFor j k = true := by
    rcases Relation.ReflTransGen.cases_head hback with rfl | ⟨k, hjk, -⟩
    · exact ⟨j, hij⟩
    · exact ⟨k, hjk⟩
  exact Nat.lt_irrefl _ (hclimb i i hcycle j k hij hjk)

end Waiting

/-! ## Locking in an order -/

/-- Rows that a statement may have locked so far, in states with `H`. -/
def Taken (H : S → Prop) (rows : S → List L) (taken : List L) : Prop :=
  ∀ l ∈ taken, ∃ s, H s ∧ l ∈ rows s

/--
**Every locking read is one that `D` allows**, given the rows held by then, and
every write keeps `H`, as long as the statements see states with `H`. `post` holds
of the result and of what is held in the end.
-/
def Program.Obeys (H : S → Prop) (D : List L → (S → List L) → Prop) :
    Program S L ε α → List L → (α → List L → Prop) → Prop
  | .done a, held, post => post a held
  | .raise _, _, _ => True
  | .select k, held, post => ∀ s, H s → (k s).Obeys H D held post
  | .lock rows k, held, post => D held rows ∧ ∀ s taken, H s → Taken H rows taken →
      (∀ l ∈ rows s, l ∈ taken ++ held) → (k s).Obeys H D (taken ++ held) post
  | .exec w k, held, post => (∀ s, H s → H (w.effect s))
      ∧ (∀ taken, Taken H w.rows taken → (k none).Obeys H D (taken ++ held) post)
      ∧ ∀ e, (k (some e)).Obeys H D held post
  | .uuid4 k, held, post => ∀ n, (k n).Obeys H D held post
  | .utcnow k, held, post => ∀ t, (k t).Obeys H D held post

variable {H : S → Prop} {D : List L → (S → List L) → Prop}

theorem Program.obeys_bind {x : Program S L ε α} {f : α → Program S L ε β} {held : List L}
    {post : β → List L → Prop} :
    (x.bind f).Obeys H D held post
      = x.Obeys H D held fun a held => (f a).Obeys H D held post := by
  induction x generalizing held with
  | done a => rfl
  | raise e => rfl
  | select k ih => simp only [bind, Obeys, ih]
  | lock rows k ih => simp only [bind, Obeys, ih]
  | exec w k ih => simp only [bind, Obeys, ih]
  | uuid4 k ih => simp only [bind, Obeys, ih]
  | utcnow k ih => simp only [bind, Obeys, ih]

/-! ## The transactions of a world -/

/-- The protocol that asks for nothing. -/
def anything : Protocol S L ε R where
  Inv := fun _ => True
  Guar := fun _ _ _ => True

theorem wp_anything {r : R} {x : Program S L ε α} {post : α → Ctx S L ε → Prop}
    {c : Ctx S L ε} (h : ∀ a c, post a c) : (anything : Protocol S L ε R).wp r x post c := by
  induction x generalizing c with
  | done a => exact h a c
  | raise e => exact trivial
  | select k ih => exact fun s _ _ => .skip (ih _)
  | lock rows k ih => exact fun s _ _ => .skip (ih _)
  | exec write k ih =>
      intro s _ _
      split
      · exact .skip (ih _)
      · exact fun _ => .skip (ih none)
  | uuid4 k ih => exact fun n => ih n
  | utcnow k ih => exact fun t => ih t

/-- The statement under way may lock `l`. -/
def Program.mayTake (H : S → Prop) (l : L) : Program S L ε α → Prop
  | .lock rows _ => ∃ s, H s ∧ l ∈ rows s
  | .exec w _ => ∃ s, H s ∧ l ∈ w.rows s
  | _ => False

/-- A transaction that has kept to its order so far and will. -/
structure Tx.Disciplined (H : S → Prop) (D : R → List L → (S → List L) → Prop)
    (t : Tx S L ε R) : Prop where
  rest : t.rest.Obeys H (D t.request) t.held fun _ _ => True
  writes : ∀ w ∈ t.writes, ∀ s, H s → H (w.effect s)
  taken : ∀ l ∈ t.taken, t.rest.mayTake H l

/-- **A world in which every transaction keeps to its order.** -/
structure World.Disciplined (H : S → Prop) (D : R → List L → (S → List L) → Prop)
    (w : World S L ε R) : Prop where
  db : H w.db
  txs : ∀ i t, w.txs.get? i = some t → t.Disciplined H D

section World

variable {D : R → List L → (S → List L) → Prop} {w w' : World S L ε R} {i : Nat}
  {t t' : Tx S L ε R}

theorem Tx.Disciplined.view (h : t.Disciplined H D) {db : S} (hdb : H db) : H (t.view db) := by
  have hws : ∀ (ws : List (Write S L ε)) (s : S), (∀ w ∈ ws, ∀ s, H s → H (w.effect s)) → H s →
      H (effects ws s) := by
    intro ws
    induction ws with
    | nil => exact fun s _ hs => hs
    | cons w ws ih =>
        intro s hws hs
        exact ih (w.effect s) (fun v hv => hws v (List.mem_cons_of_mem _ hv))
          (hws w List.mem_cons_self s hs)
  exact hws t.writes db h.writes hdb

theorem World.Disciplined.drop (h : w.Disciplined H D) : (w.drop i).Disciplined H D where
  db := h.db
  txs := fun j u hu => h.txs j u (Table.get?_of_erase hu).2

theorem World.Disciplined.put (h : w.Disciplined H D) (ht : t'.Disciplined H D) :
    (w.put i t').Disciplined H D where
  db := h.db
  txs := by
    intro j u hu
    rcases Table.get?_modify_cases hu with ⟨rfl, _, _, rfl⟩ | ⟨_, hu⟩
    · exact ht
    · exact h.txs j u hu

variable [DecidableEq L]

theorem World.Disciplined.take (h : w.Disciplined H D) (ht : t.Disciplined H D) {l : L}
    (hl : t.rest.mayTake H l) (hw : w.take i t l = some w') : w'.Disciplined H D := by
  unfold World.take at hw
  split at hw
  · obtain rfl := Option.some.inj hw
    refine h.put ⟨ht.rest, ht.writes, fun m hm => ?_⟩
    rcases List.mem_cons.mp hm with rfl | hm
    · exact hl
    · exact ht.taken m hm
  · exact absurd hw (by simp)

theorem missing_mem {rows : List L} {l : L} (h : t.missing rows = some l) :
    l ∈ rows ∧ l ∉ t.locks := by
  have hnot := List.find?_some h
  exact ⟨List.mem_of_find?_eq_some h, by simpa using hnot⟩

theorem World.Disciplined.advance {now : Nat} (h : w.Disciplined H D)
    (ht : w.txs.get? i = some t) (hw : w.advance i now t = some w') : w'.Disciplined H D := by
  have htx := h.txs i t ht
  have hrest := htx.rest
  have hview := htx.view h.db
  unfold World.advance at hw
  cases hprog : t.rest with
  | done a =>
      rw [hprog] at hw
      obtain rfl := Option.some.inj hw
      exact ⟨hview, h.drop.txs⟩
  | raise e =>
      rw [hprog] at hw
      obtain rfl := Option.some.inj hw
      exact h.drop
  | select k =>
      rw [hprog] at hw hrest
      obtain rfl := Option.some.inj hw
      have htaken := htx.taken
      rw [hprog] at htaken
      exact h.put ⟨hrest _ hview, htx.writes, fun l hl => (htaken l hl).elim⟩
  | lock rows k =>
      rw [hprog] at hw hrest
      dsimp only at hw
      split at hw
      · rename_i l hmissing
        -- a missing row is one the program may wait for here
        refine h.take htx ?_ hw
        rw [hprog]
        exact ⟨_, hview, (missing_mem hmissing).1⟩
      · rename_i hnone
        obtain rfl := Option.some.inj hw
        have htaken := htx.taken
        rw [hprog] at htaken
        -- all rows are there, so the program goes on with what it holds
        refine h.put ⟨hrest.2 _ t.taken hview htaken (Tx.missing_eq_none.mp hnone), htx.writes, ?_⟩
        exact fun l hl => absurd hl (by simp)
  | exec write k =>
      rw [hprog] at hw hrest
      dsimp only at hw
      split at hw
      · rename_i l hmissing
        -- a write may wait as well
        refine h.take htx ?_ hw
        rw [hprog]
        exact ⟨_, hview, (missing_mem hmissing).1⟩
      · have htaken := htx.taken
        rw [hprog] at htaken
        split at hw
        · rename_i e _
          obtain rfl := Option.some.inj hw
          -- a violated constraint: the program decides how to go on
          exact h.put ⟨hrest.2.2 e, htx.writes, fun l hl => absurd hl (by simp)⟩
        · obtain rfl := Option.some.inj hw
          refine h.put ⟨hrest.2.1 t.taken htaken, ?_, fun l hl => absurd hl (by simp)⟩
          intro v hv
          rcases List.mem_append.mp hv with hv | hv
          · exact htx.writes v hv
          · rw [List.mem_singleton.mp hv]
            exact hrest.1
  | uuid4 k =>
      rw [hprog] at hw hrest
      -- the identifier is drawn from a counter that no lock protects
      obtain rfl := Option.some.inj hw
      have htaken := htx.taken
      rw [hprog] at htaken
      have hput : (w.put i { t with rest := k w.next }).Disciplined H D :=
        h.put ⟨hrest w.next, htx.writes, fun l hl => (htaken l hl).elim⟩
      exact ⟨hput.db, hput.txs⟩
  | utcnow k =>
      rw [hprog] at hw hrest
      obtain rfl := Option.some.inj hw
      have htaken := htx.taken
      rw [hprog] at htaken
      exact h.put ⟨hrest now, htx.writes, fun l hl => (htaken l hl).elim⟩

variable {program : R → Program S L ε Unit} {cond : Landing S L ε R → Bool}

theorem World.Disciplined.step (h : w.Disciplined H D)
    (hprogram : ∀ r, (program r).Obeys H (D r) [] fun _ _ => True) {a : Act R}
    (hs : World.Step program cond w a w') : w'.Disciplined H D := by
  obtain ⟨hact, -⟩ := hs
  unfold World.act at hact
  cases a with
  | start i r =>
      dsimp only at hact
      split at hact
      · exact absurd hact (by simp)
      · obtain rfl := Option.some.inj hact
        refine ⟨h.db, fun j u hu => ?_⟩
        rcases Table.get?_insert_cases hu with hu | ⟨_, rfl, _⟩
        · exact h.txs j u hu
        · exact ⟨hprogram r, by simp, by simp⟩
  | step i now =>
      obtain ⟨t, ht, hadv⟩ := Option.bind_eq_some_iff.mp hact
      exact h.advance ht hadv
  | kill i =>
      dsimp only at hact
      split at hact
      · obtain rfl := Option.some.inj hact
        exact h.drop
      · exact absurd hact (by simp)

/-- **Discipline: runs.** -/
theorem disciplined_runs (hprogram : ∀ r, (program r).Obeys H (D r) [] fun _ _ => True)
    {db : S} (hdb : H db) {next : Nat} {acts : List (Act R)}
    (h : Runs (World.Step program cond) (.idle db next) acts w) : w.Disciplined H D := by
  refine h.invariant ⟨hdb, fun i t ht => ?_⟩ fun _ _ _ hw hs => hw.step hprogram hs
  exact absurd (ht.symm.trans (Table.get?_empty i)) (by simp)

/-- No row is locked twice. -/
theorem exclusive_runs {db : S} {next : Nat} {acts : List (Act R)}
    (h : Runs (World.Step program fun _ => true) (.idle db next) acts w) {i j : Nat}
    {t u : Tx S L ε R} (ht : w.txs.get? i = some t) (hu : w.txs.get? j = some u) {l : L}
    (hlt : l ∈ t.locks) (hlu : l ∈ u.locks) : i = j := by
  have hsafe : ∀ r, (anything : Protocol S L ε R).Safe r (program r) := fun r s _ =>
    wp_anything fun _ _ _ _ _ => ⟨trivial, trivial⟩
  have hgood := Protocol.good_runs (P := anything) hsafe (Protocol.good_idle trivial next) h
  by_contra hij
  exact hgood.exclusive i j t u ht hu hij l hlt hlu

end World

/-- What a transaction that needs a row is doing. -/
theorem World.Disciplined.asking [DecidableEq L] {D : R → List L → (S → List L) → Prop}
    {w : World S L ε R} {i : Nat} {t : Tx S L ε R} {l : L} (h : w.Disciplined H D)
    (ht : w.txs.get? i = some t) (hl : t.asks w.db = some l) :
    ∃ rows, D t.request t.held rows ∧ l ∈ rows (t.view w.db) ∧ l ∉ t.locks
      ∧ Taken H rows t.taken := by
  have htx := h.txs i t ht
  have hrest := htx.rest
  have htaken := htx.taken
  unfold Tx.asks at hl
  cases hprog : t.rest with
  | lock rows k =>
      rw [hprog] at hl hrest htaken
      obtain ⟨hmem, hmissing⟩ := missing_mem hl
      exact ⟨rows, hrest.1, hmem, hmissing, htaken⟩
  | _ =>
      rw [hprog] at hl
      exact absurd hl (by simp)

/-! ## Statement by statement -/

namespace Session

variable (H D)

/-- `Program.Obeys` for a session that starts with the queue `ws`. -/
def obeys (m : Session S L ε α) (post : α → List (Write S L ε) → List L → Prop)
    (ws : List (Write S L ε)) (held : List L) : Prop :=
  (m ws).Obeys H D held fun x held => post x.1 x.2 held

variable {H D} {ws : List (Write S L ε)} {held : List L}
  {post : α → List (Write S L ε) → List L → Prop}

theorem obeys_bind {m : Session S L ε α} {f : α → Session S L ε β}
    {post : β → List (Write S L ε) → List L → Prop} :
    obeys H D (m >>= f) post = obeys H D m fun a => obeys H D (f a) post := by
  funext ws held
  show ((m ws).bind fun x => f x.1 x.2).Obeys H D held _ = _
  rw [Program.obeys_bind]
  rfl

theorem obeys_pure {a : α} : obeys H D (pure a) post = post a := rfl

theorem obeys_raiseIf {p : Prop} [Decidable p] {e : ε}
    {post : Unit → List (Write S L ε) → List L → Prop} :
    obeys H D (raiseIf p e) post = fun ws held => ¬p → post () ws held := by
  funext ws held
  unfold raiseIf
  by_cases hp : p
  · rw [if_pos hp]
    exact propext ⟨fun _ hnot => absurd hp hnot, fun _ => trivial⟩
  · rw [if_neg hp]
    exact propext ⟨fun h _ => h, fun h => h hp⟩

theorem obeys_orRaise {e : ε} {o : Option α} :
    obeys H D (orRaise e o) post = fun ws held => ∀ a, o = some a → post a ws held := by
  funext ws held
  cases o with
  | none => exact propext ⟨fun _ a ha => absurd ha (by simp), fun _ => trivial⟩
  | some a => exact propext ⟨fun h b hb => Option.some.inj hb ▸ h, fun h => h a rfl⟩

theorem obeys_query {q : S → α} :
    obeys H D (query q) post = fun ws held => ∀ s, H s → post (q s) ws held := rfl

theorem obeys_queryForUpdate {rows : S → List L} {q : S → α} :
    obeys H D (queryForUpdate rows q) post = fun ws held => D held rows ∧
      ∀ s taken, H s → Taken H rows taken → (∀ l ∈ rows s, l ∈ taken ++ held) →
        post (q s) ws (taken ++ held) := rfl

theorem obeys_add {w : Write S L ε} {post : Unit → List (Write S L ε) → List L → Prop} :
    obeys H D (add w) post = fun ws held => post () (ws ++ [w]) held := rfl

theorem obeys_uuid4 {post : Nat → List (Write S L ε) → List L → Prop} :
    obeys H D uuid4 post = fun ws held => ∀ n, post n ws held := rfl

theorem obeys_utcnow {post : Nat → List (Write S L ε) → List L → Prop} :
    obeys H D utcnow post = fun ws held => ∀ t, post t ws held := rfl

/-- A request keeps to its order if its session does, with the last flush. -/
theorem obeys_commit {m : Session S L ε Unit}
    (h : obeys H D m (fun _ => obeys H D flush fun _ _ _ => True) [] []) :
    m.commit.Obeys H D [] fun _ _ => True := by
  unfold commit
  rw [Program.obeys_bind]
  have hrest : obeys H D (do let a ← m; flush; pure a) (fun _ _ _ => True) [] [] := by
    simp only [obeys_bind, obeys_pure]
    exact h
  exact hrest

/-- The rule for one row that is locked and has to be there. -/
theorem obeys_lockRow {rows : S → List L} {q : S → Option α} {e : ε} {l : L}
    (hrows : ∀ s, H s → ∀ a, q s = some a → rows s = [l]) (honly : ∀ s, ∀ m ∈ rows s, m = l)
    (hD : D held rows)
    (hpost : ∀ s a held', H s → q s = some a → l ∈ held' → (∀ m ∈ held', m = l ∨ m ∈ held) →
      (∀ m ∈ held, m ∈ held') → post a ws held') :
    obeys H D (queryForUpdate rows q) (fun found => obeys H D (orRaise e found) post) ws held := by
  rw [obeys_queryForUpdate]
  refine ⟨hD, fun s taken hs htaken hall => ?_⟩
  rw [obeys_orRaise]
  intro a ha
  have hl : l ∈ rows s := by
    rw [hrows s hs a ha]
    exact List.mem_singleton_self l
  refine hpost s a _ hs ha (hall l hl) ?_ fun m hm => List.mem_append_right _ hm
  intro m hm
  rcases List.mem_append.mp hm with hm | hm
  · obtain ⟨s', -, hm⟩ := htaken m hm
    exact Or.inl (honly s' m hm)
  · exact Or.inr hm

end Session

/-! ## Stretches without locking reads -/

/-- No locking reads, only writes of the kind `W`, and `post` of the result. -/
def Program.Plain (W : Write S L ε → Prop) : Program S L ε α → (α → Prop) → Prop
  | .done a, post => post a
  | .raise _, _ => True
  | .select k, post => ∀ s, (k s).Plain W post
  | .lock _ _, _ => False
  | .exec w k, post => W w ∧ ∀ e, (k e).Plain W post
  | .uuid4 k, post => ∀ n, (k n).Plain W post
  | .utcnow k, post => ∀ t, (k t).Plain W post

theorem Program.plain_bind {W : Write S L ε → Prop} {x : Program S L ε α}
    {f : α → Program S L ε β} {post : β → Prop} :
    (x.bind f).Plain W post = x.Plain W fun a => (f a).Plain W post := by
  induction x with
  | done a => rfl
  | raise e => rfl
  | select k ih => simp only [bind, Plain, ih]
  | lock rows k ih => rfl
  | exec w k ih => simp only [bind, Plain, ih]
  | uuid4 k ih => simp only [bind, Plain, ih]
  | utcnow k ih => simp only [bind, Plain, ih]

theorem Program.Plain.mono {W : Write S L ε → Prop} {x : Program S L ε α} {p q : α → Prop}
    (h : x.Plain W p) (hpq : ∀ a, p a → q a) : x.Plain W q := by
  induction x with
  | done a => exact hpq a h
  | raise e => exact trivial
  | select k ih => exact fun s => ih s (h s)
  | lock rows k ih => exact h
  | exec w k ih => exact ⟨h.1, fun e => ih e (h.2 e)⟩
  | uuid4 k ih => exact fun n => ih n (h n)
  | utcnow k ih => exact fun t => ih t (h t)

namespace Session

variable {W : Write S L ε → Prop}

/-- A session without locking reads that registers and sends writes of the kind `W`. -/
def Plain (W : Write S L ε → Prop) (m : Session S L ε α) : Prop :=
  ∀ ws, (∀ w ∈ ws, W w) → (m ws).Plain W fun x => ∀ w ∈ x.2, W w

theorem Plain.bind {m : Session S L ε α} {f : α → Session S L ε β} (hm : Plain W m)
    (hf : ∀ a, Plain W (f a)) : Plain W (m >>= f) := by
  intro ws hws
  show ((m ws).bind fun x => f x.1 x.2).Plain W _
  rw [Program.plain_bind]
  exact (hm ws hws).mono fun x hx => hf x.1 x.2 hx

theorem plain_pure {a : α} : Plain W (pure a : Session S L ε α) := fun _ hws => hws

theorem plain_query {q : S → α} : Plain W (query q : Session S L ε α) := fun _ hws _ => hws

theorem plain_uuid4 : Plain W (uuid4 : Session S L ε Nat) := fun _ hws _ => hws

theorem plain_utcnow : Plain W (utcnow : Session S L ε Nat) := fun _ hws _ => hws

theorem plain_raiseIf {p : Prop} [Decidable p] {e : ε} :
    Plain W (raiseIf p e : Session S L ε Unit) := by
  unfold raiseIf
  split
  · exact fun _ _ => trivial
  · exact plain_pure

theorem plain_orRaise {e : ε} {o : Option α} : Plain W (orRaise e o : Session S L ε α) := by
  cases o with
  | none => exact fun _ _ => trivial
  | some a => exact plain_pure

theorem plain_add {w : Write S L ε} (h : W w) : Plain W (add w) := by
  intro ws hws v hv
  rcases List.mem_append.mp hv with hv | hv
  · exact hws v hv
  · rw [List.mem_singleton.mp hv]
    exact h

theorem plain_flush : Plain W (flush : Session S L ε Unit) := by
  have hsend : ∀ (ws : List (Write S L ε)), (∀ w ∈ ws, W w) →
      (sendAll ws []).Plain W fun x => ∀ w ∈ x.2, W w := by
    intro ws
    induction ws with
    | nil => exact fun _ w hw => absurd hw (by simp)
    | cons w ws ih =>
        intro hws
        refine ⟨hws w List.mem_cons_self, fun e => ?_⟩
        cases e with
        | none => exact ih fun v hv => hws v (List.mem_cons_of_mem _ hv)
        | some e => exact trivial
  exact hsend

variable {H : S → Prop} {D : List L → (S → List L) → Prop} {B : L → Prop}
  {ws : List (Write S L ε)} {held : List L}

theorem obeys_program {x : Program S L ε α} {p : α → Prop} {post : α → List L → Prop}
    (h : x.Plain W p) (hkeep : ∀ w, W w → ∀ s, H s → H (w.effect s))
    (hrows : ∀ w, W w → ∀ s, ∀ l ∈ w.rows s, B l) (hheld : ∀ l ∈ held, B l)
    (hpost : ∀ a held', p a → (∀ l ∈ held', B l) → post a held') : x.Obeys H D held post := by
  induction x generalizing held with
  | done a => exact hpost a held h hheld
  | raise e => exact trivial
  | select k ih => exact fun s _ => ih s (h s) hheld
  | lock rows k ih => exact h.elim
  | exec w k ih =>
      refine ⟨hkeep w h.1, fun taken htaken => ih none (h.2 none) ?_, fun e => ih _ (h.2 _) hheld⟩
      intro l hl
      rcases List.mem_append.mp hl with hl | hl
      · obtain ⟨s, -, hl⟩ := htaken l hl
        exact hrows w h.1 s l hl
      · exact hheld l hl
  | uuid4 k ih => exact fun n => ih n (h n) hheld
  | utcnow k ih => exact fun t => ih t (h t) hheld

/-- The rule for a stretch without locking reads: what it locks by writing has `B`. -/
theorem obeys_plain {m : Session S L ε α} {post : α → List (Write S L ε) → List L → Prop}
    (h : Plain W m) (hkeep : ∀ w, W w → ∀ s, H s → H (w.effect s))
    (hrows : ∀ w, W w → ∀ s, ∀ l ∈ w.rows s, B l) (hws : ∀ w ∈ ws, W w) (hheld : ∀ l ∈ held, B l)
    (hpost : ∀ a vs held', (∀ w ∈ vs, W w) → (∀ l ∈ held', B l) → post a vs held') :
    obeys H D m post ws held :=
  obeys_program (h ws hws) hkeep hrows hheld fun x held' hx hheld' => hpost x.1 x.2 held' hx hheld'

end Session

end Txn
