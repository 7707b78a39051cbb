import TestExchange.Txn.Precondition

/-!
# The writes of a session, as a whole

For a stretch of a service of which only its writes matter, whatever it reads in
between. A session sends its changes in the order they were registered, so the
writes it `Emits` come after those that were queued before, sent or not. Two
things can be said about them: that each is of some kind (`Only`), and what they
do together to a part of the state (`Moves`). Both carry over to a session that
runs alone.
-/

namespace Txn

variable {S L ε R α β σ : Type}

/-! ## What comes after a context -/

/-- `c'` comes after `c`, with exactly the writes `ws` in between, and holds their rows. -/
structure Sends (ws : List (Write S L ε)) (c c' : Ctx S L ε) : Prop where
  writes : c'.writes = c.writes ++ ws
  locked : ∀ w ∈ ws, ∃ s, ∀ l ∈ w.rows s, l ∈ c'.held
  held : ∀ l ∈ c.held, l ∈ c'.held
  known : ∀ s, c'.known s → c.known s

namespace Sends

variable {c c₁ c' : Ctx S L ε} {ws vs : List (Write S L ε)} {w : Write S L ε}

theorem refl (c : Ctx S L ε) : Sends [] c c where
  writes := by simp
  locked := by simp
  held := fun _ hl => hl
  known := fun _ hk => hk

theorem trans (h : Sends ws c c₁) (h' : Sends vs c₁ c') : Sends (ws ++ vs) c c' where
  writes := by rw [h'.writes, h.writes, List.append_assoc]
  locked := by
    intro w hw
    rcases List.mem_append.mp hw with hw | hw
    · obtain ⟨s, hs⟩ := h.locked w hw
      exact ⟨s, fun l hl => h'.held l (hs l hl)⟩
    · exact h'.locked w hw
  held := fun l hl => h'.held l (h.held l hl)
  known := fun s hk => h.known s (h'.known s hk)

theorem see {s : S} : Sends [] c (c.see s) :=
  ⟨by simp [Ctx.see], by simp, fun _ hl => hl, fun _ hk => hk⟩

theorem hold {rows : List L} : Sends [] c (c.hold rows) :=
  ⟨by simp [Ctx.hold], by simp, fun _ hl => List.mem_append_right _ hl, fun _ hk => hk⟩

theorem learn {Q : S → Prop} : Sends [] c (c.learn Q) :=
  ⟨by simp [Ctx.learn], by simp, fun _ hl => hl, fun _ hk => hk.1⟩

theorem wrote {s : S} : Sends [w] c ((c.wrote w).hold (w.rows s)) where
  writes := rfl
  locked := by
    intro v hv
    rw [List.mem_singleton.mp hv]
    exact ⟨s, fun l hl => List.mem_append_left _ hl⟩
  held := fun _ hl => List.mem_append_right _ hl
  known := fun _ hk => hk

theorem view (h : Sends ws c c') (s : S) : c'.view s = effects ws (c.view s) := by
  rw [Ctx.view, h.writes, effects_append]
  rfl

end Sends

/-- `c'` comes after `c`, with nothing but writes of the kind `W` in between. -/
def Extends (W : Write S L ε → Prop) (c c' : Ctx S L ε) : Prop :=
  ∃ ws, (∀ w ∈ ws, W w) ∧ Sends ws c c'

namespace Extends

variable {W : Write S L ε → Prop} {c c₁ c' : Ctx S L ε}

theorem trans (h : Extends W c c₁) (h' : Extends W c₁ c') : Extends W c c' := by
  obtain ⟨ws, hws, hs⟩ := h
  obtain ⟨vs, hvs, hs'⟩ := h'
  exact ⟨ws ++ vs, fun w hw => (List.mem_append.mp hw).elim (hws w) (hvs w), hs.trans hs'⟩

theorem wrote {w : Write S L ε} {s : S} (h : W w) :
    Extends W c ((c.wrote w).hold (w.rows s)) := ⟨[w], by simpa using h, .wrote⟩

theorem held (h : Extends W c c') : ∀ l ∈ c.held, l ∈ c'.held := by
  obtain ⟨_, _, hs⟩ := h
  exact hs.held

theorem known (h : Extends W c c') {s : S} (hk : c'.known s) : c.known s := by
  obtain ⟨_, _, hs⟩ := h
  exact hs.known s hk

end Extends

/-! ## Traces -/

namespace Program

/-- `post` holds of the result and of the writes sent, after `sent`. -/
def Traces : Program S L ε α → List (Write S L ε) → (α → List (Write S L ε) → Prop) → Prop
  | .done a, sent, post => post a sent
  | .raise _, _, _ => True
  | .select k, sent, post => ∀ s, (k s).Traces sent post
  | .lock _ k, sent, post => ∀ s, (k s).Traces sent post
  | .exec w k, sent, post =>
      (k none).Traces (sent ++ [w]) post ∧ ∀ e, (k (some e)).Traces sent post
  | .uuid4 k, sent, post => ∀ n, (k n).Traces sent post
  | .utcnow k, sent, post => ∀ t, (k t).Traces sent post

theorem traces_bind {x : Program S L ε α} {f : α → Program S L ε β} {sent : List (Write S L ε)}
    {post : β → List (Write S L ε) → Prop} :
    (x.bind f).Traces sent post = x.Traces sent fun a sent => (f a).Traces sent post := by
  induction x generalizing sent with
  | done a => rfl
  | raise e => rfl
  | select k ih => simp only [bind, Traces, ih]
  | lock rows k ih => simp only [bind, Traces, ih]
  | exec w k ih => simp only [bind, Traces, ih]
  | uuid4 k ih => simp only [bind, Traces, ih]
  | utcnow k ih => simp only [bind, Traces, ih]

theorem Traces.mono {x : Program S L ε α} {sent : List (Write S L ε)}
    {p q : α → List (Write S L ε) → Prop} (h : x.Traces sent p) (hpq : ∀ a ws, p a ws → q a ws) :
    x.Traces sent q := by
  induction x generalizing sent with
  | done a => exact hpq a sent h
  | raise e => exact h
  | select k ih => exact fun s => ih s (h s)
  | lock rows k ih => exact fun s => ih s (h s)
  | exec w k ih => exact ⟨ih none h.1, fun e => ih (some e) (h.2 e)⟩
  | uuid4 k ih => exact fun n => ih n (h n)
  | utcnow k ih => exact fun t => ih t (h t)

end Program

/-- **The rule for what only the writes matter for.** -/
theorem Protocol.wp_traces {P : Protocol S L ε R} {r : R} {x : Program S L ε α}
    {p : α → List (Write S L ε) → Prop} {post : α → Ctx S L ε → Prop} {c : Ctx S L ε}
    {sent : List (Write S L ε)} (h : x.Traces sent p)
    (hpost : ∀ a ws c', p a (sent ++ ws) → Sends ws c c' → post a c') : P.wp r x post c := by
  induction x generalizing c sent with
  | done a => exact hpost a [] c (by rw [List.append_nil]; exact h) (.refl c)
  | raise e => exact trivial
  | select k ih =>
      intro s _ _
      exact .skip (ih _ (h _) fun a ws c' ha hc => hpost a ws c' ha (Sends.see.trans hc))
  | lock rows k ih =>
      intro s _ _
      exact .skip (ih _ (h _) fun a ws c' ha hc =>
        hpost a ws c' ha ((Sends.see.trans .hold).trans hc))
  | exec w k ih =>
      intro s _ _
      split
      · exact .skip (ih _ (h.2 _) hpost)
      · intro _
        refine .skip (ih _ h.1 fun a ws c' ha hc => hpost a (w :: ws) c' ?_ (Sends.wrote.trans hc))
        rw [List.append_assoc] at ha
        exact ha
  | uuid4 k ih => exact fun n => ih n (h n) hpost
  | utcnow k ih => exact fun t => ih t (h t) hpost

namespace Session

variable {K K' : List (Write S L ε) → Prop} {ws : List (Write S L ε)}

/-- `K` holds of the list of all writes the session registers. -/
def Emits (K : List (Write S L ε) → Prop) (m : Session S L ε α) : Prop :=
  ∀ ws sent, (m ws).Traces sent fun x sent' => ∃ new, K new ∧ sent' ++ x.2 = sent ++ ws ++ new

theorem Emits.bind {m : Session S L ε α} {f : α → Session S L ε β} (hm : Emits K m)
    (hf : ∀ a, Emits K' (f a)) :
    Emits (fun new => ∃ ws vs, K ws ∧ K' vs ∧ new = ws ++ vs) (m >>= f) := by
  intro ws sent
  show ((m ws).bind fun x => f x.1 x.2).Traces sent _
  rw [Program.traces_bind]
  refine (hm ws sent).mono fun x sent' ⟨new, hnew, heq⟩ => ?_
  refine (hf x.1 x.2 sent').mono fun y sent'' ⟨new', hnew', heq'⟩ => ?_
  exact ⟨new ++ new', ⟨new, new', hnew, hnew', rfl⟩, by rw [heq', heq, List.append_assoc]⟩

theorem Emits.mono {m : Session S L ε α} (hm : Emits K m) (h : ∀ ws, K ws → K' ws) : Emits K' m := by
  intro ws sent
  exact (hm ws sent).mono fun x sent' ⟨new, hnew, heq⟩ => ⟨new, h new hnew, heq⟩

/-- A session that registers nothing. -/
theorem emits_nil {m : Session S L ε α} (hK : K [])
    (h : ∀ ws sent, (m ws).Traces sent fun x sent' => sent' ++ x.2 = sent ++ ws) : Emits K m :=
  fun ws sent => (h ws sent).mono fun _ _ heq => ⟨[], hK, by rw [heq, List.append_nil]⟩

theorem emits_add {w : Write S L ε} (h : K [w]) : Emits K (add w) :=
  fun ws sent => ⟨[w], h, by rw [List.append_assoc]⟩

theorem traces_sendAll {queue sent : List (Write S L ε)} :
    (sendAll ws queue).Traces sent fun x sent' => sent' = sent ++ ws ∧ x.2 = queue := by
  induction ws generalizing sent with
  | nil => exact ⟨(List.append_nil sent).symm, rfl⟩
  | cons w ws ih =>
      refine ⟨?_, fun e => trivial⟩
      refine (@ih (sent ++ [w])).mono fun x sent' ⟨heq, hx⟩ => ⟨?_, hx⟩
      rw [heq, List.append_assoc]
      rfl

theorem emits_flush (hK : K []) : Emits K (flush : Session S L ε Unit) := by
  refine emits_nil hK fun ws sent => ?_
  refine traces_sendAll.mono fun x sent' ⟨heq, hx⟩ => ?_
  rw [heq, hx, List.append_nil]

variable {P : Protocol S L ε R} {r : R} {c : Ctx S L ε}
  {post : α → List (Write S L ε) → Ctx S L ε → Prop}

/-- The rule for a stretch of a session: some of its writes are sent, the others queued. -/
theorem swp_emits {m : Session S L ε α} (h : Emits K m)
    (hpost : ∀ a vs c' sent new, K new → sent ++ vs = ws ++ new → Sends sent c c' → post a vs c') :
    swp P r m post ws c := by
  refine Protocol.wp_traces (h ws []) ?_
  rintro x sent c' ⟨new, hnew, heq⟩ hc
  exact hpost x.1 x.2 c' sent new hnew heq hc

/-- The rule for known writes. -/
theorem swp_sendAll_sends {queue : List (Write S L ε)}
    {post : Unit → List (Write S L ε) → Ctx S L ε → Prop}
    (hpost : ∀ c', Sends ws c c' → post () queue c') : swp P r (sendAll ws) post queue c := by
  refine Protocol.wp_traces (traces_sendAll : (sendAll ws queue).Traces [] _) ?_
  rintro x sent c' ⟨heq, hx⟩ hc
  rw [hx]
  refine hpost c' ?_
  rw [List.nil_append, List.nil_append] at heq
  exact heq ▸ hc

theorem swp_flush_sends {post : Unit → List (Write S L ε) → Ctx S L ε → Prop}
    (hpost : ∀ c', Sends ws c c' → post () [] c') : swp P r flush post ws c :=
  swp_sendAll_sends hpost

/-- The rule for a change that is sent right away: what its constraints say is picked. -/
theorem swp_add_flush {w : Write S L ε} {Q : S → Prop}
    {post : Unit → List (Write S L ε) → Ctx S L ε → Prop}
    (hQ : ∀ s, P.Inv s → c.known s → w.violates (c.view s) = none →
      P.Stable (w.rows (c.view s) ++ c.held) Q ∧ Q s)
    (hpost : ∀ c' s, Sends [w] c c' → (∀ l ∈ w.rows s, l ∈ c'.held) → (∀ s, c'.known s → Q s) →
      post () [] c') :
    swp P r (add w) (fun _ => swp P r flush post) [] c := by
  rw [swp_add, swp_flush]
  show swp P r (sendAll [w]) post [] c
  rw [swp_sendAll_cons, swp_execute]
  intro s hs hk hv _
  obtain ⟨hstable, hq⟩ := hQ s hs hk hv
  refine .pick Q hstable hq (hpost _ (c.view s) (Sends.wrote.trans .learn) ?_ fun _ hk => hk.2)
  exact fun l hl => List.mem_append_left _ hl

/-- The rule for the rest of a request: all of it is sent. -/
theorem swp_rest {m : Session S L ε α} (h : Emits K m)
    (hcommit : ∀ c' new, K new → Sends (ws ++ new) c c' → P.Commits c') :
    swp P r m (fun _ => swp P r flush fun _ _ c => P.Commits c) ws c := by
  refine swp_emits h fun a vs c' sent new hnew heq hc => swp_flush_sends fun c'' hc' => ?_
  exact hcommit c'' new hnew (heq ▸ hc.trans hc')

/-! ### What kind the writes are of -/

section Kinds

variable {W : Write S L ε → Prop}

/-- Every write the session registers is of the kind `W`. -/
def Only (W : Write S L ε → Prop) (m : Session S L ε α) : Prop :=
  Emits (fun new => ∀ w ∈ new, W w) m

theorem Only.bind {m : Session S L ε α} {f : α → Session S L ε β} (hm : Only W m)
    (hf : ∀ a, Only W (f a)) : Only W (m >>= f) := by
  refine (Emits.bind hm hf).mono ?_
  rintro new ⟨ws, vs, hws, hvs, rfl⟩ w hw
  exact (List.mem_append.mp hw).elim (hws w) (hvs w)

/-- A session that registers nothing. -/
theorem only_nil {m : Session S L ε α}
    (h : ∀ ws sent, (m ws).Traces sent fun x sent' => sent' ++ x.2 = sent ++ ws) : Only W m :=
  emits_nil (by simp) h

theorem only_pure {a : α} : Only W (pure a : Session S L ε α) := only_nil fun _ _ => rfl

theorem only_query {q : S → α} : Only W (query q : Session S L ε α) := only_nil fun _ _ _ => rfl

theorem only_queryForUpdate {rows : S → List L} {q : S → α} :
    Only W (queryForUpdate rows q : Session S L ε α) := only_nil fun _ _ _ => rfl

theorem only_add {w : Write S L ε} (h : W w) : Only W (add w) :=
  emits_add fun v hv => by rw [List.mem_singleton.mp hv]; exact h

theorem only_flush : Only W (flush : Session S L ε Unit) := emits_flush (by simp)

theorem only_raise {e : ε} : Only W (raise e : Session S L ε α) := only_nil fun _ _ => trivial

theorem only_raiseIf {p : Prop} [Decidable p] {e : ε} : Only W (raiseIf p e : Session S L ε Unit) := by
  unfold raiseIf
  split
  · exact only_raise
  · exact only_pure

theorem only_orRaise {e : ε} {o : Option α} : Only W (orRaise e o : Session S L ε α) := by
  cases o with
  | none => exact only_raise
  | some a => exact only_pure

theorem only_uuid4 : Only W (uuid4 : Session S L ε Nat) := only_nil fun _ _ _ => rfl

theorem only_utcnow : Only W (utcnow : Session S L ε Nat) := only_nil fun _ _ _ => rfl

/-- The rule for a stretch of a session whose writes are all of one kind. -/
theorem swp_only {m : Session S L ε α} (h : Only W m) (hws : ∀ w ∈ ws, W w)
    (hpost : ∀ a vs c', (∀ w ∈ vs, W w) → Extends W c c' → post a vs c') :
    swp P r m post ws c := by
  refine swp_emits h fun a vs c' sent new hnew heq hc => ?_
  have hall : ∀ w ∈ sent ++ vs, W w := by
    rw [heq]
    intro w hw
    exact (List.mem_append.mp hw).elim (hws w) (hnew w)
  exact hpost a vs c' (fun w hw => hall w (List.mem_append_right _ hw))
    ⟨sent, fun w hw => hall w (List.mem_append_left _ hw), hc⟩

/-- The rule for a stretch of a session that registers nothing. -/
theorem swp_reads {m : Session S L ε α} (h : Only (fun _ => False) m)
    (hpost : ∀ a c', Sends [] c c' → post a [] c') : swp P r m post [] c := by
  refine swp_emits h fun a vs c' sent new hnew heq hc => ?_
  rw [List.eq_nil_iff_forall_not_mem.mpr hnew, List.append_nil] at heq
  obtain ⟨rfl, rfl⟩ := List.append_eq_nil_iff.mp heq
  exact hpost a c' hc

/-- The rule for the rest of a request: what matters is the state it commits in. -/
theorem swp_finish {m : Session S L ε α} (h : Only W m) (hws : ∀ w ∈ ws, W w)
    (hcommit : ∀ c', Extends W c c' → P.Commits c') :
    swp P r m (fun _ => swp P r flush fun _ _ c => P.Commits c) ws c := by
  refine swp_rest h fun c' new hnew hc => hcommit c' ⟨ws ++ new, ?_, hc⟩
  intro w hw
  exact (List.mem_append.mp hw).elim (hws w) (hnew w)

end Kinds

/-! ### What the writes do to a part of the state -/

section Moves

variable {π : S → σ} {A B : σ → σ → Prop}

/-- A write that does not touch the part. -/
def Keeps (π : S → σ) (w : Write S L ε) : Prop := ∀ s, π (w.effect s) = π s

/-- Everything the session registers, taken together, moves the part as `A` says. -/
def Moves (π : S → σ) (A : σ → σ → Prop) (m : Session S L ε α) : Prop :=
  Emits (fun new => ∀ s, A (π s) (π (effects new s))) m

theorem Moves.bind {m : Session S L ε α} {f : α → Session S L ε β} (hm : Moves π A m)
    (hf : ∀ a, Moves π B (f a)) : Moves π (fun x z => ∃ y, A x y ∧ B y z) (m >>= f) := by
  refine (Emits.bind hm hf).mono ?_
  rintro new ⟨ws, vs, hws, hvs, rfl⟩ s
  rw [effects_append]
  exact ⟨π (effects ws s), hws s, hvs _⟩

theorem Moves.mono {m : Session S L ε α} (hm : Moves π A m) (h : ∀ x y, A x y → B x y) :
    Moves π B m := Emits.mono hm fun _ hnew s => h _ _ (hnew s)

/-- What keeps the part may come first. -/
theorem Moves.after {m : Session S L ε α} {f : α → Session S L ε β} (hm : Only (Keeps π) m)
    (hf : ∀ a, Moves π A (f a)) : Moves π A (m >>= f) := by
  refine (Emits.bind hm hf).mono ?_
  rintro new ⟨ws, vs, hws, hvs, rfl⟩ s
  rw [effects_append, ← effects_keep hws s]
  exact hvs _

/-- What keeps the part may come last. -/
theorem Moves.before {m : Session S L ε α} {f : α → Session S L ε β} (hm : Moves π A m)
    (hf : ∀ a, Only (Keeps π) (f a)) : Moves π A (m >>= f) := by
  refine (Emits.bind hm hf).mono ?_
  rintro new ⟨ws, vs, hws, hvs, rfl⟩ s
  rw [effects_append, effects_keep hvs]
  exact hws s

theorem moves_add {w : Write S L ε} (h : ∀ s, A (π s) (π (w.effect s))) : Moves π A (add w) :=
  emits_add h

theorem moves_orRaise {e : ε} {o : Option α} {f : α → Session S L ε β}
    (h : ∀ a, o = some a → Moves π A (f a)) : Moves π A (orRaise e o >>= f) := by
  intro ws sent
  cases o with
  | none => exact trivial
  | some a => exact h a rfl ws sent

/-- The rule for the rest of a request, given what it does to the part. -/
theorem swp_moves {m : Session S L ε α} (h : Moves π A m)
    (hcommit : ∀ c', (∀ s, A (π (c.view s)) (π (c'.view s))) → (∀ l ∈ c.held, l ∈ c'.held) →
      (∀ s, c'.known s → c.known s) → P.Commits c') :
    swp P r m (fun _ => swp P r flush fun _ _ c => P.Commits c) [] c := by
  refine swp_rest h fun c' new hnew hc => hcommit c' (fun s => ?_) hc.held hc.known
  rw [hc.view]
  exact hnew (c.view s)

/-- What every write does, all of them do, if it can be done any number of times. -/
theorem Only.moves_each {m : Session S L ε α} (hm : Only (fun w => ∀ s, A (π s) (π (w.effect s))) m)
    (hrefl : ∀ x, A x x) (htrans : ∀ x y z, A x y → A y z → A x z) : Moves π A m := by
  refine Emits.mono hm fun new hnew => ?_
  induction new with
  | nil => exact fun s => hrefl (π s)
  | cons w ws ih =>
      intro s
      have hrest := ih (fun v hv => hnew v (List.mem_cons_of_mem _ hv)) (w.effect s)
      exact htrans _ _ _ (hnew w List.mem_cons_self s) hrest

theorem Only.moves {m : Session S L ε α} (hm : Only (Keeps π) m) (hrefl : ∀ x, A x x) :
    Moves π A m := by
  refine Emits.mono hm fun new hnew s => ?_
  rw [effects_keep hnew]
  exact hrefl _

end Moves

/-! ### Run alone -/

section Alone

variable {m : Session S L ε α} {a : α} {now : Nat} {c c' : Conn S L ε} {s s' : S}

theorem applyAll_effects (h : applyAll ws s = some s') : s' = effects ws s := by
  induction ws generalizing s with
  | nil => exact applyAll_nil.mp h
  | cons w ws ih => exact ih (applyAll_cons.mp h).2

/-- Running alone is one of the possible traces, in which every write goes through. -/
theorem traces_alone {x : Program S L ε α} {sent : List (Write S L ε)}
    {post : α → List (Write S L ε) → Prop} {n n' : Nat} (h : x.Traces sent post)
    (hok : x.alone now s n = .ok (a, s', n')) :
    ∃ ws, post a (sent ++ ws) ∧ applyAll ws s = some s' := by
  induction x generalizing sent s n with
  | done b =>
      obtain ⟨rfl, hs⟩ := Prod.mk.inj (Except.ok.inj hok)
      obtain ⟨rfl, -⟩ := Prod.mk.inj hs
      exact ⟨[], by rw [List.append_nil]; exact h, rfl⟩
  | raise e => exact absurd hok (by simp [Program.alone])
  | select k ih => exact ih s (h s) hok
  | lock rows k ih => exact ih s (h s) hok
  | exec w k ih =>
      unfold Program.alone at hok
      cases hv : w.violates s with
      | some e =>
          rw [hv] at hok
          exact ih _ (h.2 e) hok
      | none =>
          rw [hv] at hok
          obtain ⟨ws, hpost, happly⟩ := ih none h.1 hok
          refine ⟨w :: ws, ?_, applyAll_cons.mpr ⟨hv, happly⟩⟩
          rw [List.append_assoc] at hpost
          exact hpost
  | uuid4 k ih => exact ih n (h n) hok
  | utcnow k ih => exact ih now (h now) hok

/-- **What a session writes when it runs alone**: what was queued, and then what it registers. -/
theorem Emits.alone (h : Emits K m) (hok : m.alone now c = .ok (a, c'))
    (hf : applyAll c'.pending c'.db = some s') :
    ∃ new, K new ∧ applyAll (c.pending ++ new) c.db = some s' := by
  unfold Session.alone at hok
  cases hrun : (m c.pending).alone now c.db c.next with
  | error e =>
      rw [hrun] at hok
      exact absurd hok (by simp [Except.map])
  | ok r =>
      rw [hrun] at hok
      obtain ⟨⟨b, queue⟩, t, n⟩ := r
      obtain ⟨rfl, rfl⟩ := Prod.mk.inj (Except.ok.inj hok)
      obtain ⟨ws, ⟨new, hnew, heq⟩, happly⟩ := traces_alone (h c.pending []) hrun
      refine ⟨new, hnew, ?_⟩
      have hall : ws ++ queue = c.pending ++ new := by simpa using heq
      rw [← hall]
      exact applyAll_append.mpr ⟨t, happly, hf⟩

/-- **Run alone, the session sends and queues only writes of the kind `W`**, in whatever order. -/
def Confined (W : Write S L ε → Prop) (m : Session S L ε α) : Prop :=
  ∀ now c a c', m.alone now c = .ok (a, c') → (∀ w ∈ c.pending, W w) →
    (∀ w ∈ c'.pending, W w) ∧ ∃ ws, (∀ w ∈ ws, W w) ∧ applyAll ws c.db = some c'.db

variable {W : Write S L ε → Prop}

theorem Only.confined (h : Only W m) : Confined W m := by
  intro now c a c' hok hc
  unfold Session.alone at hok
  cases hrun : (m c.pending).alone now c.db c.next with
  | error e =>
      rw [hrun] at hok
      exact absurd hok (by simp [Except.map])
  | ok r =>
      rw [hrun] at hok
      obtain ⟨⟨b, queue⟩, t, n⟩ := r
      obtain ⟨rfl, rfl⟩ := Prod.mk.inj (Except.ok.inj hok)
      obtain ⟨ws, ⟨new, hnew, heq⟩, happly⟩ := traces_alone (h c.pending []) hrun
      have hall : ∀ w ∈ ws ++ queue, W w := by
        have heq : ws ++ queue = c.pending ++ new := by simpa using heq
        rw [heq]
        intro w hw
        exact (List.mem_append.mp hw).elim (hc w) (hnew w)
      exact ⟨fun w hw => hall w (List.mem_append_right _ hw), ws,
        fun w hw => hall w (List.mem_append_left _ hw), happly⟩

/-- What a session does not write to is the same before and after it. -/
theorem Only.flushes {π : S → σ} (h : Only (Keeps π) m) (hok : m.alone now c = .ok (a, c'))
    (hf : applyAll c'.pending c'.db = some s') :
    ∃ t, applyAll c.pending c.db = some t ∧ π s' = π t := by
  obtain ⟨new, hnew, happly⟩ := Emits.alone h hok hf
  obtain ⟨t, ht, happly⟩ := applyAll_append.mp happly
  refine ⟨t, ht, ?_⟩
  rw [applyAll_effects happly]
  exact effects_keep hnew t

/-- The same for what its own statements see, from an empty queue. -/
theorem Only.sees {π : S → σ} {n : Nat} (h : Only (Keeps π) m)
    (hok : m.alone now ⟨s, [], n⟩ = .ok (a, c')) : π c'.db = π s := by
  obtain ⟨_, ws, hws, happly⟩ := h.confined now _ a c' hok (by simp)
  rw [applyAll_effects happly]
  exact effects_keep hws s

theorem Confined.bind {f : α → Session S L ε β} (hm : Confined W m)
    (hf : ∀ a, Confined W (f a)) : Confined W (m >>= f) := by
  intro now c b c' hok hc
  obtain ⟨a, c₁, hok₁, hok₂⟩ := alone_bind.mp hok
  obtain ⟨hc₁, ws, hws, happly⟩ := hm now c a c₁ hok₁ hc
  obtain ⟨hc', vs, hvs, happly'⟩ := hf a now c₁ b c' hok₂ hc₁
  refine ⟨hc', ws ++ vs, fun w hw => ?_, applyAll_append.mpr ⟨_, happly, happly'⟩⟩
  exact (List.mem_append.mp hw).elim (hws w) (hvs w)

theorem confined_execute {w : Write S L ε} (hw : W w) : Confined W (execute w) := by
  intro now c u c' hok hc
  obtain ⟨hv, rfl⟩ := alone_execute.mp hok
  refine ⟨hc, [w], ?_, applyAll_cons.mpr ⟨hv, rfl⟩⟩
  intro v hm
  rw [List.mem_singleton.mp hm]
  exact hw

theorem confined_executeNested {w : Write S L ε} (hw : W w) : Confined W (executeNested w) := by
  intro now c e c' hok hc
  obtain ⟨he, rfl⟩ := alone_executeNested.mp hok
  cases hv : w.violates c.db with
  | some e' =>
      rw [he, hv]
      exact ⟨hc, [], by simp, rfl⟩
  | none =>
      rw [he, hv]
      refine ⟨hc, [w], ?_, applyAll_cons.mpr ⟨hv, rfl⟩⟩
      intro v hm
      rw [List.mem_singleton.mp hm]
      exact hw

/-- What every write of a kind preserves, a list of such writes preserves. -/
theorem applyAll_invariant {Inv : S → Prop} (hws : ∀ w ∈ ws, W w) (happly : applyAll ws s = some s')
    (hs : Inv s) (hstep : ∀ w t, W w → w.violates t = none → Inv t → Inv (w.effect t)) :
    Inv s' := by
  induction ws generalizing s with
  | nil =>
      rw [applyAll_nil.mp happly]
      exact hs
  | cons w ws ih =>
      obtain ⟨hv, happly⟩ := applyAll_cons.mp happly
      have hw := hstep w s (hws w List.mem_cons_self) hv hs
      exact ih (fun v hm => hws v (List.mem_cons_of_mem _ hm)) happly hw

/-- What every write of a kind preserves, a session preserves that is confined to it. -/
theorem Confined.invariant_alone (Inv : S → Prop) (h : Confined W m)
    (hok : m.alone now c = .ok (a, c')) (hpending : ∀ w ∈ c.pending, W w) (hs : Inv c.db)
    (hstep : ∀ w t, W w → w.violates t = none → Inv t → Inv (w.effect t)) :
    Inv c'.db ∧ ∀ t, applyAll c'.pending c'.db = some t → Inv t := by
  obtain ⟨hc, ws, hws, happly⟩ := h now c a c' hok hpending
  have hinv := applyAll_invariant hws happly hs hstep
  exact ⟨hinv, fun t ht => applyAll_invariant hc ht hinv hstep⟩

/-- **What every write of a kind preserves, a request preserves that is confined to it.** -/
theorem Confined.invariant (Inv : S → Prop) {n n' : Nat} (h : Confined W m)
    (hok : m.commit.alone now s n = .ok (a, s', n')) (hs : Inv s)
    (hstep : ∀ w t, W w → w.violates t = none → Inv t → Inv (w.effect t)) : Inv s' := by
  obtain ⟨c, hok, hf, _⟩ := commit_alone.mp hok
  exact (h.invariant_alone Inv hok (by simp) hs hstep).2 s' hf

/-- A write that keeps the property wherever it violates nothing. -/
def Preserves (Inv : S → Prop) (w : Write S L ε) : Prop :=
  ∀ s, w.violates s = none → Inv s → Inv (w.effect s)

theorem preserves_of_keeps {Inv : S → Prop} {w : Write S L ε} (h : ∀ s, Inv s → Inv (w.effect s)) :
    Preserves Inv w := fun s _ hs => h s hs

theorem applyAll_preserves {Inv : S → Prop} (hws : ∀ w ∈ ws, Preserves Inv w)
    (happly : applyAll ws s = some s') (hs : Inv s) : Inv s' :=
  applyAll_invariant hws happly hs fun _ t hw hv ht => hw t hv ht

theorem Confined.preserves {Inv : S → Prop} (h : Confined (Preserves Inv) m)
    (hok : m.alone now c = .ok (a, c')) (hpending : ∀ w ∈ c.pending, Preserves Inv w)
    (hs : Inv c.db) : Inv c'.db ∧ ∀ t, applyAll c'.pending c'.db = some t → Inv t :=
  h.invariant_alone Inv hok hpending hs fun _ t hw hv ht => hw t hv ht

end Alone

end Session

end Txn
