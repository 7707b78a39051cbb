import TestExchange.Txn.Program
import TestExchange.Txn.Runs
import TestExchange.Txn.Table

/-!
# Transactions interleaved statement by statement

The `READ COMMITTED` isolation of PostgreSQL, for the programs of
`TestExchange.Txn.Program`:

* a statement sees the latest committed state and the transaction's own changes;
* a locking read and a write first take their rows, one by one, each as soon as
  nobody else holds it, and keep them to the end of the transaction;
* a write checks its constraints when it has its rows, so a duplicate of an
  uncommitted key waits for the outcome of the other transaction;
* a commit publishes all changes at once, a failure publishes none.

The scheduler picks the transaction that moves and the reading of its clock, and
may end any transaction at any time.
-/

namespace Txn

variable {S L ε R : Type}

/-- The effects of the listed writes, in order. -/
def effects (ws : List (Write S L ε)) (s : S) : S := ws.foldl (fun s w => w.effect s) s

@[simp] theorem effects_nil (s : S) : effects ([] : List (Write S L ε)) s = s := rfl

theorem effects_append {ws vs : List (Write S L ε)} {s : S} :
    effects (ws ++ vs) s = effects vs (effects ws s) := by
  rw [effects, List.foldl_append]
  rfl

@[simp] theorem effects_concat {ws : List (Write S L ε)} {w : Write S L ε} {s : S} :
    effects (ws ++ [w]) s = w.effect (effects ws s) := effects_append

/-- What none of the writes changes. -/
theorem effects_keep {β : Type} {f : S → β} {ws : List (Write S L ε)}
    (h : ∀ w ∈ ws, ∀ s, f (w.effect s) = f s) (s : S) : f (effects ws s) = f s := by
  induction ws generalizing s with
  | nil => rfl
  | cons w ws ih =>
      have hrest := ih (fun v hv => h v (List.mem_cons_of_mem _ hv)) (w.effect s)
      exact hrest.trans (h w List.mem_cons_self s)

/-- A transaction under way, on behalf of a request. -/
structure Tx (S L ε R : Type) where
  request : R
  /-- What is left to do. -/
  rest : Program S L ε Unit
  /-- What its last read saw. -/
  seen : S
  /-- The changes it made, oldest first. -/
  writes : List (Write S L ε) := []
  /-- What its statements have locked. -/
  held : List L := []
  /-- What the statement under way has locked so far. -/
  taken : List L := []

namespace Tx

/-- What its statements see: the committed state with its own changes. -/
def view (t : Tx S L ε R) (db : S) : S := effects t.writes db

/-- Everything nobody else can lock. -/
def locks (t : Tx S L ε R) : List L := t.taken ++ t.held

variable [DecidableEq L]

/-- A row of the list that still has to be locked. -/
def missing (t : Tx S L ε R) (rows : List L) : Option L := rows.find? (· ∉ t.locks)

theorem missing_eq_none {t : Tx S L ε R} {rows : List L} :
    t.missing rows = none ↔ ∀ l ∈ rows, l ∈ t.locks := by
  simp [missing, List.find?_eq_none]

end Tx

/-- The database and the transactions under way, each under a number of its own. -/
structure World (S L ε R : Type) where
  /-- The committed state. -/
  db : S
  /-- The next identifier to be drawn. -/
  next : Nat
  txs : Table (Tx S L ε R)

/-- What the scheduler can do. -/
inductive Act (R : Type) where
  /-- A request comes in. -/
  | start (i : Nat) (request : R)
  /-- A transaction moves on; `now` is its clock, if it looks. -/
  | step (i : Nat) (now : Nat)
  /-- A transaction is ended and rolled back: a lost connection, a deadlock, a caller that fails. -/
  | kill (i : Nat)

namespace World

variable [DecidableEq L]

/-- Nobody but `i` holds the row. -/
def free (w : World S L ε R) (i : Nat) (l : L) : Bool :=
  !w.txs.any fun j t => j ≠ i && l ∈ t.locks

def put (w : World S L ε R) (i : Nat) (t : Tx S L ε R) : World S L ε R :=
  { w with txs := w.txs.modify i fun _ => t }

def drop (w : World S L ε R) (i : Nat) : World S L ε R := { w with txs := w.txs.erase [i] }

/-- Lock one more row for the statement under way, if it is free. -/
def take (w : World S L ε R) (i : Nat) (t : Tx S L ε R) (l : L) : Option (World S L ε R) :=
  if w.free i l then some (w.put i { t with taken := l :: t.taken }) else none

/-- The next step of transaction `i`, unless it has to wait. -/
def advance (w : World S L ε R) (i now : Nat) (t : Tx S L ε R) : Option (World S L ε R) :=
  let view := t.view w.db
  match t.rest with
  | .done _ => some { w.drop i with db := view }
  | .raise _ => some (w.drop i)
  | .select k => some (w.put i { t with rest := k view, seen := view })
  | .lock rows k =>
      match t.missing (rows view) with
      | some l => w.take i t l
      | none =>
          some (w.put i { t with rest := k view, seen := view, held := t.locks, taken := [] })
  | .exec write k =>
      match t.missing (write.rows view) with
      | some l => w.take i t l
      | none =>
          match write.violates view with
          | some e => some (w.put i { t with rest := k (some e), taken := [] })
          | none =>
              some (w.put i
                { t with
                  rest := k none, writes := t.writes ++ [write], held := t.locks, taken := [] })
  | .uuid4 k => some { w.put i { t with rest := k w.next } with next := w.next + 1 }
  | .utcnow k => some (w.put i { t with rest := k now })

/-- What an action of the scheduler leads to, if it is possible. -/
def act (program : R → Program S L ε Unit) (w : World S L ε R) : Act R → Option (World S L ε R)
  | .start i request =>
      if w.txs.contains i then none
      else some { w with txs := w.txs.insert i { request, rest := program request, seen := w.db } }
  | .step i now => (w.txs.get? i).bind (w.advance i now)
  | .kill i => if w.txs.contains i then some (w.drop i) else none

end World

/-- A write at the moment it takes effect. -/
structure Landing (S L ε R : Type) where
  request : R
  /-- What the last read of its transaction saw. -/
  seen : S
  /-- What its transaction sees now. -/
  view : S
  /-- The committed state. -/
  db : S
  write : Write S L ε

namespace World

variable [DecidableEq L]

/-- The write that takes effect in this action, if one does. -/
def lands (w : World S L ε R) : Act R → Option (Landing S L ε R)
  | .step i _ => (w.txs.get? i).bind fun t =>
      match t.rest with
      | .exec write _ =>
          let view := t.view w.db
          if (t.missing (write.rows view)).isNone && (write.violates view).isNone then
            some ⟨t.request, t.seen, view, w.db, write⟩
          else none
      | _ => none
  | _ => none

/-- An action in which no write takes effect but as `cond` allows. -/
def Step (program : R → Program S L ε Unit) (cond : Landing S L ε R → Bool) (w : World S L ε R)
    (a : Act R) (w' : World S L ε R) : Prop :=
  w.act program a = some w' ∧ ∀ x ∈ w.lands a, cond x = true

/-- Follow a schedule as long as the writes take effect as `cond` allows. -/
def runWhen (program : R → Program S L ε Unit) (cond : Landing S L ε R → Bool)
    (w : World S L ε R) : List (Act R) → Option (World S L ε R)
  | [] => some w
  | a :: rest =>
      if (w.lands a).all cond then (w.act program a).bind fun w' => w'.runWhen program cond rest
      else none

/-- Follow a schedule. -/
def run (program : R → Program S L ε Unit) (w : World S L ε R) (acts : List (Act R)) :
    Option (World S L ε R) :=
  w.runWhen program (fun _ => true) acts

/-- Transaction `i` moves on `n` times. -/
def moves (i n : Nat) : List (Act R) := List.replicate n (.step i 0)

/-- Nobody is under way. -/
def idle (db : S) (next : Nat) : World S L ε R := ⟨db, next, .empty⟩

theorem runs_iff_runWhen {program : R → Program S L ε Unit} {cond : Landing S L ε R → Bool}
    {w w' : World S L ε R} {acts : List (Act R)} :
    Runs (Step program cond) w acts w' ↔ w.runWhen program cond acts = some w' := by
  constructor
  · intro h
    induction h with
    | nil w => rfl
    | cons head rest ih =>
        obtain ⟨hact, hcond⟩ := head
        rw [runWhen, if_pos ((Option.all_eq_true cond _).mpr hcond), hact]
        exact ih
  · intro h
    induction acts generalizing w with
    | nil =>
        obtain rfl := Option.some.inj h
        exact .nil w
    | cons a rest ih =>
        unfold runWhen at h
        split at h
        · rename_i hcond
          obtain ⟨w₁, hact, h⟩ := Option.bind_eq_some_iff.mp h
          exact .cons ⟨hact, (Option.all_eq_true cond _).mp hcond⟩ (ih h)
        · exact absurd h (by simp)

theorem runs_iff_run {program : R → Program S L ε Unit} {w w' : World S L ε R}
    {acts : List (Act R)} :
    Runs (Step program fun _ => true) w acts w' ↔ w.run program acts = some w' :=
  runs_iff_runWhen

end World

end Txn
