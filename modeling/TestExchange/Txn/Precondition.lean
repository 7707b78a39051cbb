import TestExchange.Txn.Rely

/-!
# Preconditions of sessions

The rules of `Protocol.wp` for the operations of a session, to go through a
service statement by statement and pick what to remember of each read.
-/

namespace Txn

variable {S L ε R α β : Type}

namespace Protocol

variable {P : Protocol S L ε R} {r : R} {c : Ctx S L ε} {s : S} {ws : List (Write S L ε)}

theorem Learns.pick {rest : Ctx S L ε → Prop} (Q : S → Prop) (hQ : P.Stable c.held Q) (hq : Q s)
    (h : rest (c.learn Q)) : P.Learns c s rest := ⟨Q, hQ, hq, h⟩

/-- Nothing has to be remembered. -/
theorem Learns.skip {rest : Ctx S L ε → Prop} (h : rest c) : P.Learns c s rest := by
  refine ⟨fun _ => True, .true, trivial, ?_⟩
  have hc : c.learn (fun _ => True) = c := by
    unfold Ctx.learn
    simp only [and_true]
  rw [hc]
  exact h

theorem wp_bind {x : Program S L ε α} {f : α → Program S L ε β} {post : β → Ctx S L ε → Prop} :
    P.wp r (x.bind f) post = P.wp r x fun a => P.wp r (f a) post := by
  induction x with
  | done a => rfl
  | raise e => rfl
  | select k ih => funext c; simp only [Program.bind, wp, ih]
  | lock rows k ih => funext c; simp only [Program.bind, wp, ih]
  | exec w k ih => funext c; simp only [Program.bind, wp, ih]
  | uuid4 k ih => funext c; simp only [Program.bind, wp, ih]
  | utcnow k ih => funext c; simp only [Program.bind, wp, ih]

end Protocol

/-! ## Statement by statement -/

namespace Session

variable (P : Protocol S L ε R) (r : R)

/-- `Protocol.wp` for a session that starts with the queue `ws`. -/
def swp (m : Session S L ε α) (post : α → List (Write S L ε) → Ctx S L ε → Prop)
    (ws : List (Write S L ε)) (c : Ctx S L ε) : Prop :=
  P.wp r (m ws) (fun x c => post x.1 x.2 c) c

variable {P r} {c : Ctx S L ε} {ws : List (Write S L ε)}
  {post : α → List (Write S L ε) → Ctx S L ε → Prop}

@[simp] theorem swp_bind {m : Session S L ε α} {f : α → Session S L ε β}
    {post : β → List (Write S L ε) → Ctx S L ε → Prop} :
    swp P r (m >>= f) post = swp P r m fun a => swp P r (f a) post := by
  funext ws c
  show P.wp r ((m ws).bind fun x => f x.1 x.2) _ c = _
  rw [Protocol.wp_bind]
  rfl

@[simp] theorem swp_pure {a : α} : swp P r (pure a) post = post a := rfl

@[simp] theorem swp_raise {e : ε} : swp P r (raise e) post = fun _ _ => True := rfl

@[simp] theorem swp_raiseIf {p : Prop} [Decidable p] {e : ε}
    {post : Unit → List (Write S L ε) → Ctx S L ε → Prop} :
    swp P r (raiseIf p e) post = fun ws c => ¬p → post () ws c := by
  funext ws c
  unfold raiseIf
  by_cases hp : p
  · simp [hp]
  · simp [hp]

@[simp] theorem swp_orRaise {e : ε} {o : Option α} :
    swp P r (orRaise e o) post = fun ws c => ∀ a, o = some a → post a ws c := by
  funext ws c
  cases o with
  | none => simp [orRaise]
  | some a => simp [orRaise]

@[simp] theorem swp_uuid4 {post : Nat → List (Write S L ε) → Ctx S L ε → Prop} :
    swp P r uuid4 post = fun ws c => ∀ n, post n ws c := rfl

@[simp] theorem swp_utcnow {post : Nat → List (Write S L ε) → Ctx S L ε → Prop} :
    swp P r utcnow post = fun ws c => ∀ t, post t ws c := rfl

@[simp] theorem swp_add {w : Write S L ε} {post : Unit → List (Write S L ε) → Ctx S L ε → Prop} :
    swp P r (add w) post = fun ws c => post () (ws ++ [w]) c := rfl

/-- Flushing sends the queue in order. -/
theorem swp_flush {post : Unit → List (Write S L ε) → Ctx S L ε → Prop} :
    swp P r flush post = fun ws c => swp P r (sendAll ws) post [] c := rfl

theorem swp_sendAll_nil {post : Unit → List (Write S L ε) → Ctx S L ε → Prop} :
    swp P r (sendAll []) post = post () := rfl

theorem swp_sendAll_cons {w : Write S L ε} {vs : List (Write S L ε)}
    {post : Unit → List (Write S L ε) → Ctx S L ε → Prop} :
    swp P r (sendAll (w :: vs)) post = swp P r (execute w) fun _ => swp P r (sendAll vs) post :=
  swp_bind

theorem swp_query {q : S → α} :
    swp P r (query q) post ws c ↔ ∀ s, P.Inv s → c.known s →
      P.Learns (c.see (c.view s)) s fun c' => post (q (c.view s)) ws c' := Iff.rfl

theorem swp_queryForUpdate {rows : S → List L} {q : S → α} :
    swp P r (queryForUpdate rows q) post ws c ↔ ∀ s, P.Inv s → c.known s →
      P.Learns ((c.see (c.view s)).hold (rows (c.view s))) s fun c' => post (q (c.view s)) ws c' :=
  Iff.rfl

/-- A write that fails ends the session, so only what follows a success counts. -/
theorem swp_execute {w : Write S L ε} {post : Unit → List (Write S L ε) → Ctx S L ε → Prop} :
    swp P r (execute w) post ws c ↔ ∀ s, P.Inv s → c.known s →
      w.violates (c.view s) = none → P.cond ⟨r, c.seen, c.view s, s, w⟩ →
        P.Learns ((c.wrote w).hold (w.rows (c.view s))) s fun c' => post () ws c' := by
  unfold swp execute Protocol.wp
  refine forall_congr' fun s => imp_congr_right fun _ => imp_congr_right fun _ => ?_
  cases hv : w.violates (c.view s) with
  | some e => exact ⟨fun _ h => absurd h (by simp), fun _ => .skip trivial⟩
  | none => exact ⟨fun h _ => h, fun h => h rfl⟩

/-- **A request is safe if its session, followed by the last flush, may commit.** -/
theorem safe_commit {m : Session S L ε Unit}
    (h : ∀ s, P.Inv s →
      swp P r m (fun _ => swp P r flush fun _ _ c => P.Commits c) [] (.start s)) :
    P.Safe r m.commit := by
  intro s hs
  unfold commit
  rw [Protocol.wp_bind]
  have hrest : swp P r (do let a ← m; flush; pure a) (fun _ _ c => P.Commits c) [] (.start s) := by
    simp only [swp_bind, swp_pure]
    exact h s hs
  exact hrest

end Session

end Txn
