/-!
# Transactions as the statements they issue

A database transaction is a program whose only contact with the outside is the
statements it sends: plain reads, reads that lock rows, and writes. `Program`
keeps exactly that, one constructor per statement with the rest of the
transaction as a continuation, so the same text can be run **alone** (this file)
or **interleaved** with other transactions statement by statement
(`TestExchange.Txn.Interleave`).

`S` is the state of the database, `L` the things a transaction can hold (row
locks, and entries of unique indexes), `ε` the errors it can raise.

On top sits `Session`, a unit of work in the style of an object-relational
mapper: changes are first registered, and `flush` sends them as statements.
Reads made in between do not see what has not been flushed.
-/

namespace Txn

/-- One `INSERT`, `UPDATE` or `DELETE`. -/
structure Write (S L ε : Type) where
  /-- The rows and unique-index entries it takes, given what the transaction sees. -/
  rows : S → List L
  /-- The constraint it violates, if any. -/
  violates : S → Option ε
  /-- Its effect on the database. -/
  effect : S → S

/-- A transaction, statement by statement. -/
inductive Program (S L ε α : Type) where
  /-- Finished with a result. -/
  | done (a : α)
  /-- Failed: the transaction is to be rolled back. -/
  | raise (e : ε)
  /-- A plain `SELECT`. -/
  | select (k : S → Program S L ε α)
  /-- A `SELECT … FOR UPDATE` that locks `rows`. -/
  | lock (rows : S → List L) (k : S → Program S L ε α)
  /-- A write. The continuation is told the violated constraint, if any. -/
  | exec (w : Write S L ε) (k : Option ε → Program S L ε α)
  /-- Draw an identifier that was never drawn before. -/
  | uuid4 (k : Nat → Program S L ε α)
  /-- Read the clock. -/
  | utcnow (k : Nat → Program S L ε α)

variable {S L ε α β γ : Type}

namespace Program

/-- Run `x`, then continue with its result. -/
def bind : Program S L ε α → (α → Program S L ε β) → Program S L ε β
  | .done a, f => f a
  | .raise e, _ => .raise e
  | .select k, f => .select fun s => (k s).bind f
  | .lock rows k, f => .lock rows fun s => (k s).bind f
  | .exec w k, f => .exec w fun e => (k e).bind f
  | .uuid4 k, f => .uuid4 fun n => (k n).bind f
  | .utcnow k, f => .utcnow fun t => (k t).bind f

instance : Monad (Program S L ε) where
  pure := .done
  bind := bind

/-! ## Running alone -/

/--
Run a transaction with nobody else in the database: `now` is the time of the
request and the identifiers drawn are `next`, `next + 1`, …
-/
def alone (now : Nat) : Program S L ε α → S → Nat → Except ε (α × S × Nat)
  | .done a, s, next => .ok (a, s, next)
  | .raise e, _, _ => .error e
  | .select k, s, next => (k s).alone now s next
  | .lock _ k, s, next => (k s).alone now s next
  | .exec w k, s, next =>
      match w.violates s with
      | some e => (k (some e)).alone now s next
      | none => (k none).alone now (w.effect s) next
  | .uuid4 k, s, next => (k next).alone now s (next + 1)
  | .utcnow k, s, next => (k now).alone now s next

/-- Running a sequence is running its parts one after the other. -/
theorem alone_bind (now : Nat) (x : Program S L ε α) (f : α → Program S L ε β) (s : S) (n : Nat) :
    (x.bind f).alone now s n
      = (x.alone now s n).bind fun r => (f r.1).alone now r.2.1 r.2.2 := by
  induction x generalizing s n with
  | done a => rfl
  | raise e => rfl
  | select k ih => exact ih s s n
  | lock rows k ih => exact ih s s n
  | exec w k ih =>
      simp only [bind, alone]
      split
      · exact ih _ s n
      · exact ih _ (w.effect s) n
  | uuid4 k ih => exact ih n s (n + 1)
  | utcnow k ih => exact ih now s n

end Program

/-! ## Sessions -/

/-- A unit of work: a transaction with a queue of changes not yet sent. -/
def Session (S L ε α : Type) : Type :=
  List (Write S L ε) → Program S L ε (α × List (Write S L ε))

namespace Session

instance : Monad (Session S L ε) where
  pure a := fun ws => .done (a, ws)
  bind x f := fun ws => (x ws).bind fun r => f r.1 r.2

/-- A `SELECT`: `q` of what the transaction sees. -/
def query (q : S → α) : Session S L ε α := fun ws => .select fun s => .done (q s, ws)

/-- A `SELECT … FOR UPDATE` that locks `rows` and returns `q`. -/
def queryForUpdate (rows : S → List L) (q : S → α) : Session S L ε α :=
  fun ws => .lock rows fun s => .done (q s, ws)

/-- Register a change; it is sent by the next `flush`. -/
def add (w : Write S L ε) : Session S L ε Unit := fun ws => .done ((), ws ++ [w])

/-- Send one write; a violated constraint fails the transaction. -/
def execute (w : Write S L ε) : Session S L ε Unit :=
  fun ws => .exec w fun
    | none => .done ((), ws)
    | some e => .raise e

/-- Send one write in a savepoint; a violated constraint undoes only that write. -/
def executeNested (w : Write S L ε) : Session S L ε (Option ε) :=
  fun ws => .exec w fun e => .done (e, ws)

/-- Send the listed changes in order. -/
def sendAll : List (Write S L ε) → Session S L ε Unit
  | [] => pure ()
  | w :: ws => execute w >>= fun _ => sendAll ws

/-- Send every registered change. -/
def flush : Session S L ε Unit := fun ws => sendAll ws []

/-- Fail. -/
def raise (e : ε) : Session S L ε α := fun _ => .raise e

/-- Fail if `c` holds. -/
def raiseIf (c : Prop) [Decidable c] (e : ε) : Session S L ε Unit :=
  if c then raise e else pure ()

/-- The value, or fail if there is none. -/
def orRaise (e : ε) : Option α → Session S L ε α
  | some a => pure a
  | none => raise e

/-- Draw a fresh identifier. -/
def uuid4 : Session S L ε Nat := fun ws => .uuid4 fun n => .done (n, ws)

/-- The current time. -/
def utcnow : Session S L ε Nat := fun ws => .utcnow fun t => .done (t, ws)

/-- A whole request: the unit of work from an empty queue, flushed before the commit. -/
def commit (m : Session S L ε α) : Program S L ε α :=
  ((do let a ← m; flush; pure a : Session S L ε α) []).bind fun r => .done r.1

end Session

/-! ## A session run alone -/

/-- Where a session stands: the database, what is still queued, the next identifier. -/
structure Conn (S L ε : Type) where
  /-- What the session's statements see. -/
  db : S
  /-- Changes registered and not yet sent. -/
  pending : List (Write S L ε)
  /-- The identifier the next draw returns. -/
  next : Nat

namespace Session

/-- The connection after a program that ends with its queue of changes. -/
def toConn (r : (α × List (Write S L ε)) × S × Nat) : α × Conn S L ε :=
  (r.1.1, ⟨r.2.1, r.1.2, r.2.2⟩)

/-- Run a session with nobody else in the database. -/
def alone (m : Session S L ε α) (now : Nat) (c : Conn S L ε) : Except ε (α × Conn S L ε) :=
  ((m c.pending).alone now c.db c.next).map toConn

/-- The effect of a list of writes, each with its constraints checked. -/
def applyAll : List (Write S L ε) → S → Option S
  | [], s => some s
  | w :: ws, s => if (w.violates s).isNone then applyAll ws (w.effect s) else none

theorem applyAll_nil {s s' : S} :
    applyAll ([] : List (Write S L ε)) s = some s' ↔ s' = s := by
  simp [applyAll, eq_comm]

theorem applyAll_cons {w : Write S L ε} {ws : List (Write S L ε)} {s s' : S} :
    applyAll (w :: ws) s = some s' ↔ w.violates s = none ∧ applyAll ws (w.effect s) = some s' := by
  simp [applyAll]

theorem applyAll_append {ws vs : List (Write S L ε)} {s s' : S} :
    applyAll (ws ++ vs) s = some s'
      ↔ ∃ s₁, applyAll ws s = some s₁ ∧ applyAll vs s₁ = some s' := by
  induction ws generalizing s with
  | nil => simp [applyAll]
  | cons w ws ih =>
      rw [List.cons_append, applyAll_cons, ih]
      simp only [applyAll_cons, and_assoc, exists_and_left]

variable {now : Nat} {c c' : Conn S L ε}

theorem alone_bind {m : Session S L ε α} {f : α → Session S L ε β} {b : β} :
    (m >>= f).alone now c = .ok (b, c')
      ↔ ∃ a c₁, m.alone now c = .ok (a, c₁) ∧ (f a).alone now c₁ = .ok (b, c') := by
  have h : ((m >>= f) c.pending) = (m c.pending).bind fun r => f r.1 r.2 := rfl
  rw [alone, h, Program.alone_bind]
  cases hm : (m c.pending).alone now c.db c.next with
  | error e => simp [alone, hm, Except.bind, Except.map]
  | ok r =>
      simp only [alone, hm, Except.bind, Except.map, Except.ok.injEq, toConn, Prod.mk.injEq]
      constructor
      · intro h'; exact ⟨r.1.1, _, ⟨rfl, rfl⟩, h'⟩
      · rintro ⟨_, _, ⟨rfl, rfl⟩, h'⟩; exact h'

theorem alone_pure {a b : α} :
    (pure a : Session S L ε α).alone now c = .ok (b, c') ↔ b = a ∧ c' = c := by
  show Except.ok (a, c) = Except.ok (b, c') ↔ _
  simp [eq_comm]

theorem alone_query {q : S → α} {b : α} :
    (query q : Session S L ε α).alone now c = .ok (b, c') ↔ b = q c.db ∧ c' = c := by
  show Except.ok (q c.db, c) = Except.ok (b, c') ↔ _
  simp [eq_comm]

theorem alone_queryForUpdate {rows : S → List L} {q : S → α} {b : α} :
    (queryForUpdate rows q : Session S L ε α).alone now c = .ok (b, c')
      ↔ b = q c.db ∧ c' = c := by
  show Except.ok (q c.db, c) = Except.ok (b, c') ↔ _
  simp [eq_comm]

theorem alone_add {w : Write S L ε} {u : Unit} :
    (add w).alone now c = .ok (u, c') ↔ c' = { c with pending := c.pending ++ [w] } := by
  show Except.ok ((), _) = Except.ok (u, c') ↔ _
  simp [eq_comm]

theorem alone_execute {w : Write S L ε} {u : Unit} :
    (execute w).alone now c = .ok (u, c')
      ↔ w.violates c.db = none ∧ c' = { c with db := w.effect c.db } := by
  simp only [alone, execute, Program.alone]
  cases h : w.violates c.db with
  | none => simp [Except.map, toConn, eq_comm]
  | some e => simp [Except.map]

theorem alone_executeNested {w : Write S L ε} {e : Option ε} :
    (executeNested w).alone now c = .ok (e, c')
      ↔ e = w.violates c.db ∧ c' = { c with db := if e.isNone then w.effect c.db else c.db } := by
  simp only [alone, executeNested, Program.alone]
  cases h : w.violates c.db with
  | none => simp only [Except.map, toConn, Except.ok.injEq, Prod.mk.injEq]; constructor <;> (rintro ⟨rfl, rfl⟩; simp)
  | some e' => simp only [Except.map, toConn, Except.ok.injEq, Prod.mk.injEq]; constructor <;> (rintro ⟨rfl, rfl⟩; simp)

theorem alone_raise {e : ε} {b : α} :
    (raise e : Session S L ε α).alone now c = .ok (b, c') ↔ False := by
  show Except.error e = Except.ok (b, c') ↔ _
  simp

theorem alone_raiseIf {p : Prop} [Decidable p] {e : ε} {u : Unit} :
    (raiseIf p e : Session S L ε Unit).alone now c = .ok (u, c') ↔ ¬p ∧ c' = c := by
  unfold raiseIf
  split
  · rename_i h; rw [alone_raise]; simp [h]
  · rename_i h; rw [alone_pure]; simp [h]

theorem alone_orRaise {e : ε} {o : Option α} {b : α} :
    (orRaise e o : Session S L ε α).alone now c = .ok (b, c') ↔ o = some b ∧ c' = c := by
  cases o with
  | none => simp only [orRaise, alone_raise]; simp
  | some a => simp only [orRaise, alone_pure, Option.some.injEq]; constructor <;> (rintro ⟨rfl, rfl⟩; simp)

theorem alone_uuid4 {n : Nat} :
    (uuid4 : Session S L ε Nat).alone now c = .ok (n, c')
      ↔ n = c.next ∧ c' = { c with next := c.next + 1 } := by
  show Except.ok (c.next, _) = Except.ok (n, c') ↔ _
  simp [eq_comm]

theorem alone_utcnow {t : Nat} :
    (utcnow : Session S L ε Nat).alone now c = .ok (t, c') ↔ t = now ∧ c' = c := by
  show Except.ok (now, c) = Except.ok (t, c') ↔ _
  simp [eq_comm]

theorem alone_sendAll {ws : List (Write S L ε)} {u : Unit} :
    (sendAll ws).alone now c = .ok (u, c')
      ↔ ∃ db, applyAll ws c.db = some db ∧ c' = { c with db := db } := by
  induction ws generalizing c with
  | nil => simp [sendAll, alone_pure, applyAll]
  | cons w ws ih =>
      simp only [sendAll, alone_bind, alone_execute, applyAll]
      constructor
      · rintro ⟨_, c₁, ⟨hv, rfl⟩, h⟩
        obtain ⟨db, hdb, rfl⟩ := ih.mp h
        exact ⟨db, by rw [hv]; exact hdb, rfl⟩
      · rintro ⟨db, hdb, rfl⟩
        split at hdb
        · rename_i hv
          exact ⟨(), _, ⟨by simpa using hv, rfl⟩, ih.mpr ⟨db, hdb, rfl⟩⟩
        · exact absurd hdb (by simp)

theorem alone_flush {u : Unit} :
    (flush : Session S L ε Unit).alone now c = .ok (u, c')
      ↔ ∃ db, applyAll c.pending c.db = some db ∧ c' = { c with db := db, pending := [] } := by
  have h : (flush : Session S L ε Unit).alone now c
      = (sendAll c.pending).alone now { c with pending := [] } := rfl
  rw [h, alone_sendAll]

/-- A request run alone: the session, then what it left queued. -/
theorem commit_alone {m : Session S L ε α} {a : α} {s s' : S} {n n' : Nat} :
    m.commit.alone now s n = .ok (a, s', n')
      ↔ ∃ c, m.alone now ⟨s, [], n⟩ = .ok (a, c) ∧ applyAll c.pending c.db = some s'
          ∧ c.next = n' := by
  have hm : (∃ ws, (do let b ← m; flush; pure b : Session S L ε α).alone now ⟨s, [], n⟩
        = .ok (a, ⟨s', ws, n'⟩)) ↔ m.commit.alone now s n = .ok (a, s', n') := by
    rw [commit, Program.alone_bind, alone]
    cases (do let b ← m; flush; pure b : Session S L ε α) [] |>.alone now s n with
    | error e => simp [Except.map, Except.bind]
    | ok r =>
        obtain ⟨⟨b, ws⟩, db, k⟩ := r
        simp [Except.map, Except.bind, toConn, Program.alone]
  rw [← hm]
  simp only [alone_bind, alone_flush, alone_pure]
  constructor
  · rintro ⟨ws, b, c, hb, _, _, ⟨db, hdb, rfl⟩, rfl, hc⟩
    obtain ⟨rfl, rfl, rfl⟩ := Conn.mk.inj hc
    exact ⟨c, hb, hdb, rfl⟩
  · rintro ⟨c, hb, hdb, rfl⟩
    exact ⟨[], a, c, hb, (), _, ⟨s', hdb, rfl⟩, rfl, rfl⟩

end Session

end Txn
