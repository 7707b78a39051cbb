import TestExchange.Txn.Program

/-!
# One program on two databases

Two databases related by `E` differ in nothing but what is to stay hidden.
Programs are `Coupled` if on related databases they issue the same statements:
a read may give them different values, but they go on in step, and their writes
meet the same constraints and leave related databases behind. Then they fail
alike or end with related results, whoever runs them at whatever time.

`F` is what the identifiers they draw are known to satisfy.
-/

namespace Txn

variable {S L ε α β γ δ : Type}

/-- Two outcomes: the same failure, or results that are related. -/
inductive SameOutcome (R : α → β → Prop) : Except ε α → Except ε β → Prop where
  | error (e : ε) : SameOutcome R (.error e) (.error e)
  | ok {a : α} {b : β} (h : R a b) : SameOutcome R (.ok a) (.ok b)

theorem SameOutcome.mono {R Q : α → β → Prop} {x : Except ε α} {y : Except ε β}
    (h : SameOutcome R x y) (hRQ : ∀ a b, R a b → Q a b) : SameOutcome Q x y := by
  cases h with
  | error e => exact .error e
  | ok h => exact .ok (hRQ _ _ h)

/-- A write that does not look at what is hidden. -/
structure Write.Blind (E : S → S → Prop) (w : Write S L ε) : Prop where
  /-- It meets the same constraints. -/
  violates : ∀ s s', E s s' → w.violates s = w.violates s'
  /-- It leaves related databases behind. -/
  effect : ∀ s s', E s s' → E (w.effect s) (w.effect s')

variable {E : S → S → Prop} {F : Nat → Prop}

/-- The same statements on related databases, with results related by `A`. -/
inductive Program.Coupled (E : S → S → Prop) (F : Nat → Prop) (A : α → β → Prop) :
    Program S L ε α → Program S L ε β → Prop where
  | done {a : α} {b : β} (h : A a b) : Coupled E F A (.done a) (.done b)
  | raise (e : ε) : Coupled E F A (.raise e) (.raise e)
  | select {k : S → Program S L ε α} {k' : S → Program S L ε β}
      (h : ∀ s s', E s s' → Coupled E F A (k s) (k' s')) : Coupled E F A (.select k) (.select k')
  | lock {rows rows' : S → List L} {k : S → Program S L ε α} {k' : S → Program S L ε β}
      (h : ∀ s s', E s s' → Coupled E F A (k s) (k' s')) :
      Coupled E F A (.lock rows k) (.lock rows' k')
  | exec {w : Write S L ε} {k : Option ε → Program S L ε α} {k' : Option ε → Program S L ε β}
      (hw : w.Blind E) (h : ∀ e, Coupled E F A (k e) (k' e)) : Coupled E F A (.exec w k) (.exec w k')
  | uuid4 {k : Nat → Program S L ε α} {k' : Nat → Program S L ε β}
      (h : ∀ n, F n → Coupled E F A (k n) (k' n)) : Coupled E F A (.uuid4 k) (.uuid4 k')
  | utcnow {k : Nat → Program S L ε α} {k' : Nat → Program S L ε β}
      (h : ∀ t, Coupled E F A (k t) (k' t)) : Coupled E F A (.utcnow k) (.utcnow k')

namespace Program.Coupled

variable {A : α → β → Prop} {B : γ → δ → Prop}

theorem bind {x : Program S L ε α} {y : Program S L ε β} {f : α → Program S L ε γ}
    {g : β → Program S L ε δ} (h : Coupled E F A x y)
    (hfg : ∀ a b, A a b → Coupled E F B (f a) (g b)) : Coupled E F B (x.bind f) (y.bind g) := by
  induction h with
  | done h => exact hfg _ _ h
  | raise e => exact .raise e
  | select _ ih => exact .select fun s s' hs => ih s s' hs
  | lock _ ih => exact .lock fun s s' hs => ih s s' hs
  | exec hw _ ih => exact .exec hw fun e => ih e
  | uuid4 _ ih => exact .uuid4 fun n hn => ih n hn
  | utcnow _ ih => exact .utcnow fun t => ih t

theorem mono {A' : α → β → Prop} {x : Program S L ε α} {y : Program S L ε β}
    (h : Coupled E F A x y) (hA : ∀ a b, A a b → A' a b) : Coupled E F A' x y := by
  induction h with
  | done h => exact .done (hA _ _ h)
  | raise e => exact .raise e
  | select _ ih => exact .select ih
  | lock _ ih => exact .lock ih
  | exec hw _ ih => exact .exec hw ih
  | uuid4 _ ih => exact .uuid4 ih
  | utcnow _ ih => exact .utcnow ih

/-- **Coupled programs have the same outcome on related databases.** -/
theorem alone {x : Program S L ε α} {y : Program S L ε β} (h : Coupled E F A x y) (now : Nat)
    {s s' : S} {next : Nat} (hs : E s s') (hF : ∀ n, next ≤ n → F n) :
    SameOutcome (fun r r' => A r.1 r'.1 ∧ E r.2.1 r'.2.1 ∧ r.2.2 = r'.2.2 ∧ next ≤ r.2.2)
      (x.alone now s next) (y.alone now s' next) := by
  induction h generalizing s s' next with
  | done h => exact .ok ⟨h, hs, rfl, Nat.le_refl _⟩
  | raise e => exact .error e
  | select _ ih => exact ih s s' hs hs hF
  | lock _ ih => exact ih s s' hs hs hF
  | @exec w k k' hw _ ih =>
      have hv := hw.violates s s' hs
      simp only [Program.alone, ← hv]
      cases w.violates s with
      | some e => exact ih (some e) hs hF
      | none => exact ih none (hw.effect s s' hs) hF
  | @uuid4 k k' _ ih =>
      have hlater : ∀ n, next + 1 ≤ n → F n := fun n hn => hF n (by omega)
      have hrest := ih next (hF next (Nat.le_refl _)) hs hlater
      refine hrest.mono fun r r' hr => ?_
      obtain ⟨hA, hE, hnext, hle⟩ := hr
      exact ⟨hA, hE, hnext, by omega⟩
  | utcnow _ ih => exact ih now hs hF

end Program.Coupled

/-! ## Sessions -/

namespace Session

/-- Coupled sessions: they start from the same queue of blind writes, and end with one. -/
def Coupled (E : S → S → Prop) (F : Nat → Prop) (A : α → β → Prop) (m : Session S L ε α)
    (m' : Session S L ε β) : Prop :=
  ∀ ws, (∀ w ∈ ws, w.Blind E) → Program.Coupled E F
    (fun x y => A x.1 y.1 ∧ x.2 = y.2 ∧ ∀ w ∈ x.2, w.Blind E) (m ws) (m' ws)

/-- A session that neither looks at what is hidden nor returns any of it. -/
abbrev Blind (E : S → S → Prop) (F : Nat → Prop) (m : Session S L ε α) : Prop :=
  Coupled E F Eq m m

variable {A : α → β → Prop} {B : γ → δ → Prop}

theorem Coupled.bind {m : Session S L ε α} {m' : Session S L ε β} {f : α → Session S L ε γ}
    {g : β → Session S L ε δ} (h : Coupled E F A m m')
    (hfg : ∀ a b, A a b → Coupled E F B (f a) (g b)) : Coupled E F B (m >>= f) (m' >>= g) := by
  intro ws hws
  refine (h ws hws).bind fun x y hxy => ?_
  obtain ⟨hA, hq, hblind⟩ := hxy
  have hrest := hfg x.1 y.1 hA x.2 hblind
  rw [← hq]
  exact hrest

theorem Blind.bind {m : Session S L ε α} {f : α → Session S L ε γ} {g : α → Session S L ε δ}
    (h : Blind E F m) (hfg : ∀ a, Coupled E F B (f a) (g a)) :
    Coupled E F B (m >>= f) (m >>= g) := by
  refine Coupled.bind h fun a b hab => ?_
  subst hab
  exact hfg a

theorem Coupled.mono {A' : α → β → Prop} {m : Session S L ε α} {m' : Session S L ε β}
    (h : Coupled E F A m m') (hA : ∀ a b, A a b → A' a b) : Coupled E F A' m m' :=
  fun ws hws => (h ws hws).mono fun _ _ hxy => ⟨hA _ _ hxy.1, hxy.2⟩

theorem coupled_pure {a : α} {b : β} (h : A a b) :
    Coupled E F A (pure a : Session S L ε α) (pure b) := fun _ hws => .done ⟨h, rfl, hws⟩

theorem coupled_query {q : S → α} {q' : S → β} (h : ∀ s s', E s s' → A (q s) (q' s')) :
    Coupled E F A (query q : Session S L ε α) (query q') :=
  fun _ hws => .select fun s s' hs => .done ⟨h s s' hs, rfl, hws⟩

theorem coupled_uuid4 :
    Coupled E F (fun a b => a = b ∧ F a) (uuid4 : Session S L ε Nat) uuid4 :=
  fun _ hws => .uuid4 fun _ hn => .done ⟨⟨rfl, hn⟩, rfl, hws⟩

/-- Past a check that passes in both, or else fails in both. -/
theorem coupled_raiseIf {p p' : Prop} [Decidable p] [Decidable p'] {e : ε} (h : p ↔ p') :
    Coupled E F (fun _ _ => ¬p) (raiseIf p e : Session S L ε Unit) (raiseIf p' e) := by
  unfold raiseIf
  by_cases hp : p
  · rw [if_pos hp, if_pos (h.mp hp)]
    exact fun _ _ => .raise e
  · rw [if_neg hp, if_neg fun hp' => hp (h.mpr hp')]
    exact coupled_pure hp

/-- Past a lookup that finds something in both, or else nothing in both. -/
theorem coupled_orRaise {e : ε} {o : Option α} {o' : Option β} (h : Option.Rel A o o') :
    Coupled E F A (orRaise e o : Session S L ε α) (orRaise e o') := by
  cases h with
  | some h => exact coupled_pure h
  | none => exact fun _ _ => .raise e

theorem blind_pure {a : α} : Blind E F (pure a : Session S L ε α) := coupled_pure rfl

theorem blind_query {q : S → α} (h : ∀ s s', E s s' → q s = q s') :
    Blind E F (query q : Session S L ε α) := coupled_query h

theorem blind_queryForUpdate {rows : S → List L} {q : S → α} (h : ∀ s s', E s s' → q s = q s') :
    Blind E F (queryForUpdate rows q : Session S L ε α) :=
  fun _ hws => .lock fun s s' hs => .done ⟨h s s' hs, rfl, hws⟩

theorem blind_raise {e : ε} : Blind E F (raise e : Session S L ε α) := fun _ _ => .raise e

theorem blind_raiseIf {p : Prop} [Decidable p] {e : ε} :
    Blind E F (raiseIf p e : Session S L ε Unit) := by
  unfold raiseIf
  split
  · exact blind_raise
  · exact blind_pure

theorem blind_orRaise {e : ε} {o : Option α} : Blind E F (orRaise e o : Session S L ε α) := by
  cases o with
  | none => exact blind_raise
  | some a => exact blind_pure

theorem blind_uuid4 : Blind E F (uuid4 : Session S L ε Nat) :=
  fun _ hws => .uuid4 fun _ _ => .done ⟨rfl, rfl, hws⟩

theorem blind_utcnow : Blind E F (utcnow : Session S L ε Nat) :=
  fun _ hws => .utcnow fun _ => .done ⟨rfl, rfl, hws⟩

theorem blind_add {w : Write S L ε} (h : w.Blind E) : Blind E F (add w) := by
  intro ws hws
  refine .done ⟨rfl, rfl, fun v hv => ?_⟩
  rcases List.mem_append.mp hv with hv | hv
  · exact hws v hv
  · rw [List.mem_singleton.mp hv]
    exact h

theorem blind_execute {w : Write S L ε} (h : w.Blind E) : Blind E F (execute w) := by
  intro ws hws
  refine .exec h fun e => ?_
  cases e with
  | none => exact .done ⟨rfl, rfl, hws⟩
  | some e => exact .raise e

theorem blind_executeNested {w : Write S L ε} (h : w.Blind E) : Blind E F (executeNested w) :=
  fun _ hws => .exec h fun _ => .done ⟨rfl, rfl, hws⟩

theorem blind_flush : Blind E F (flush : Session S L ε Unit) := by
  have hsend : ∀ ws : List (Write S L ε), (∀ w ∈ ws, w.Blind E) → Blind E F (sendAll ws) := by
    intro ws
    induction ws with
    | nil => exact fun _ => blind_pure
    | cons w ws ih =>
        intro hws
        have hrest := ih fun v hv => hws v (List.mem_cons_of_mem _ hv)
        exact (blind_execute (hws w List.mem_cons_self)).bind fun _ => hrest
  exact fun ws hws => hsend ws hws [] fun w hw => absurd hw (by simp)

/-- A whole request, from an empty queue to its commit. -/
theorem Coupled.commit {m : Session S L ε α} {m' : Session S L ε β} (h : Coupled E F A m m') :
    m.commit.Coupled E F A m'.commit := by
  have hflushed : Coupled E F A (do let a ← m; flush; pure a) (do let b ← m'; flush; pure b) :=
    h.bind fun a b hab => blind_flush.bind fun _ => coupled_pure hab
  exact (hflushed [] fun w hw => absurd hw (by simp)).bind fun x y hxy => .done hxy.1

end Session

end Txn
