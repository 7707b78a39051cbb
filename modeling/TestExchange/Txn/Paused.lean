import TestExchange.Txn.Success

/-!
# A session up to a call

A session that calls `f` somewhere on its way can be cut there: the part before
the call ends with its argument and with what is done with the answer, and the
whole is that part `resume`d. So "every call of `f`" is every end of the part
before it, and the connection a call finds is the one that part leaves.

Cutting moves the brackets of a sequence of statements, which sessions allow:
they are a lawful monad.
-/

namespace Txn

variable {S L ε α β γ δ : Type}

namespace Program

theorem bind_done {x : Program S L ε α} : x.bind .done = x := by
  induction x with
  | done a => rfl
  | raise e => rfl
  | select k ih => exact congrArg Program.select (funext ih)
  | lock rows k ih => exact congrArg (Program.lock rows) (funext ih)
  | exec w k ih => exact congrArg (Program.exec w) (funext ih)
  | uuid4 k ih => exact congrArg Program.uuid4 (funext ih)
  | utcnow k ih => exact congrArg Program.utcnow (funext ih)

theorem bind_assoc {x : Program S L ε α} {f : α → Program S L ε β} {g : β → Program S L ε γ} :
    (x.bind f).bind g = x.bind fun a => (f a).bind g := by
  induction x with
  | done a => rfl
  | raise e => rfl
  | select k ih => exact congrArg Program.select (funext ih)
  | lock rows k ih => exact congrArg (Program.lock rows) (funext ih)
  | exec w k ih => exact congrArg (Program.exec w) (funext ih)
  | uuid4 k ih => exact congrArg Program.uuid4 (funext ih)
  | utcnow k ih => exact congrArg Program.utcnow (funext ih)

end Program

namespace Session

instance : LawfulMonad (Session S L ε) :=
  LawfulMonad.mk' _
    (fun _ => funext fun _ => Program.bind_done)
    (fun _ _ => rfl)
    (fun _ _ _ => funext fun _ => Program.bind_assoc)

/-- A session that has come to a call: its argument, and what is done with its answer. -/
structure Paused (S L ε β γ α : Type) where
  arg : β
  rest : γ → Session S L ε α

/-- Make the call and go on. -/
def Paused.resume (f : β → Session S L ε γ) (p : Paused S L ε β γ α) : Session S L ε α :=
  f p.arg >>= p.rest

/-- The session goes on with `g` after what was left of it. -/
def Paused.andThen (p : Paused S L ε β γ α) (g : α → Session S L ε δ) : Paused S L ε β γ δ where
  arg := p.arg
  rest answer := p.rest answer >>= g

/-- A session that comes to a call comes to the same one as the first part of a longer session. -/
theorem resume_andThen {f : β → Session S L ε γ} {before : Session S L ε (Paused S L ε β γ α)}
    {g : α → Session S L ε δ} :
    (before >>= Paused.resume f) >>= g
      = (before >>= fun p => pure (p.andThen g)) >>= Paused.resume f := by
  simp only [bind_assoc, pure_bind, Paused.resume, Paused.andThen]

/-! ## Flushing first -/

variable {now : Nat} {c : Conn S L ε}

/-- What runs after a flush runs on a connection with nothing queued. -/
theorem alone_flush_bind {s : S} {m : Session S L ε α} (h : applyAll c.pending c.db = some s) :
    (flush >>= fun _ => m).alone now c = m.alone now { c with db := s, pending := [] } := by
  obtain ⟨u, c', hok, hc'⟩ : Returns flush now c fun _ c' => c' = { c with db := s, pending := [] } :=
    returns_flush h rfl
  rw [alone_bind_eq, hok, hc']
  rfl

end Session

end Txn
