import TestExchange.Txn.Interleave

/-!
# Reasoning about one transaction among many

A `Protocol` fixes what every commit guarantees to the others, depending on what
it has locked, and an invariant of the committed states. A transaction is proved
on its own, against what the others may do: it may keep to itself any fact about
the committed state that no commit can change which lacks the locks it holds
(`Stable`). `Protocol.wp` is the precondition calculus for this, one rule for
each kind of statement, and `Protocol.good_step` its soundness: if every
transaction is proved, every interleaving keeps the invariant and every commit
keeps the guarantee.

A protocol can also restrict the runs it is about, by a condition on the writes
at the moment they take effect.
-/

namespace Txn

variable {S L ε R α β : Type}

/-- What the transactions agree on. -/
structure Protocol (S L ε R : Type) where
  /-- What holds of every committed state. -/
  Inv : S → Prop
  /-- What a commit may do that holds these locks. -/
  Guar : List L → S → S → Prop
  /-- When a write may take effect, in the runs considered. -/
  cond : Landing S L ε R → Bool := fun _ => true

/-- What a transaction has done and knows. -/
structure Ctx (S L ε : Type) where
  held : List L
  writes : List (Write S L ε)
  seen : S
  /-- What it knows about the committed state. -/
  known : S → Prop

namespace Ctx

/-- A transaction that has just begun. -/
def start (s : S) : Ctx S L ε := ⟨[], [], s, fun _ => True⟩

def view (c : Ctx S L ε) (s : S) : S := effects c.writes s

/-- Know `Q` as well. -/
def learn (c : Ctx S L ε) (Q : S → Prop) : Ctx S L ε := { c with known := fun s => c.known s ∧ Q s }

/-- Remember what was read. -/
def see (c : Ctx S L ε) (s : S) : Ctx S L ε := { c with seen := s }

/-- Hold more locks. -/
def hold (c : Ctx S L ε) (rows : List L) : Ctx S L ε := { c with held := rows ++ c.held }

/-- One more change. -/
def wrote (c : Ctx S L ε) (w : Write S L ε) : Ctx S L ε := { c with writes := c.writes ++ [w] }

variable {c : Ctx S L ε} {s s' : S} {rows : List L} {w : Write S L ε} {Q : S → Prop}

@[simp] theorem view_start : (start s : Ctx S L ε).view s' = s' := rfl

@[simp] theorem view_learn : (c.learn Q).view s = c.view s := rfl

@[simp] theorem view_see : (c.see s').view s = c.view s := rfl

@[simp] theorem view_hold : (c.hold rows).view s = c.view s := rfl

@[simp] theorem view_wrote : (c.wrote w).view s = w.effect (c.view s) := effects_concat

end Ctx

namespace Protocol

variable (P : Protocol S L ε R)

/-- A fact that commits lacking the locks `held` do not change. -/
def Stable (held : List L) (Q : S → Prop) : Prop :=
  ∀ locks s s', (∀ l ∈ held, l ∉ locks) → P.Inv s → P.Inv s' → P.Guar locks s s' → Q s → Q s'

variable {P}

theorem Stable.and {held : List L} {Q Q' : S → Prop} (h : P.Stable held Q) (h' : P.Stable held Q') :
    P.Stable held fun s => Q s ∧ Q' s := by
  intro locks s s' hl hs hs' hg hq
  exact ⟨h locks s s' hl hs hs' hg hq.1, h' locks s s' hl hs hs' hg hq.2⟩

theorem Stable.mono {held held' : List L} {Q : S → Prop} (h : P.Stable held Q)
    (hsub : ∀ l ∈ held, l ∈ held') : P.Stable held' Q :=
  fun locks s s' hl => h locks s s' fun l hm => hl l (hsub l hm)

theorem Stable.true {held : List L} : P.Stable held fun _ => True :=
  fun _ _ _ _ _ _ _ _ => trivial

variable (P)

/-- The rest goes through, once a stable fact about the current state `s` is picked. -/
def Learns (c : Ctx S L ε) (s : S) (rest : Ctx S L ε → Prop) : Prop :=
  ∃ Q, P.Stable c.held Q ∧ Q s ∧ rest (c.learn Q)

/--
**The program ends with `post` or is rolled back**, when it goes on from what
`c` records in a state where `c.known` holds, whatever the others commit in
between.
-/
def wp (r : R) : Program S L ε α → (α → Ctx S L ε → Prop) → Ctx S L ε → Prop
  | .done a, post, c => post a c
  | .raise _, _, _ => True
  | .select k, post, c => ∀ s, P.Inv s → c.known s →
      P.Learns (c.see (c.view s)) s (wp r (k (c.view s)) post)
  | .lock rows k, post, c => ∀ s, P.Inv s → c.known s →
      P.Learns ((c.see (c.view s)).hold (rows (c.view s))) s (wp r (k (c.view s)) post)
  | .exec w k, post, c => ∀ s, P.Inv s → c.known s →
      match w.violates (c.view s) with
      | some e => P.Learns c s (wp r (k (some e)) post)
      | none => P.cond ⟨r, c.seen, c.view s, s, w⟩ = true →
          P.Learns ((c.wrote w).hold (w.rows (c.view s))) s (wp r (k none) post)
  | .uuid4 k, post, c => ∀ n, wp r (k n) post c
  | .utcnow k, post, c => ∀ t, wp r (k t) post c

/-- What a transaction owes when it commits. -/
def Commits (c : Ctx S L ε) : Prop :=
  ∀ s, P.Inv s → c.known s → P.Guar c.held s (c.view s) ∧ P.Inv (c.view s)

/-- **A transaction that keeps to the protocol.** -/
def Safe (r : R) (x : Program S L ε Unit) : Prop :=
  ∀ s, P.Inv s → P.wp r x (fun _ c => P.Commits c) (.start s)

end Protocol

/-! ## Soundness -/

namespace Protocol

variable (P : Protocol S L ε R)

/-- The transaction is proved from where it stands. -/
structure Follows (t : Tx S L ε R) (s : S) (c : Ctx S L ε) : Prop where
  writes : c.writes = t.writes
  seen : c.seen = t.seen
  held : ∀ l ∈ c.held, l ∈ t.held
  stable : P.Stable c.held c.known
  known : c.known s
  wp : P.wp t.request t.rest (fun _ c => P.Commits c) c

/-- **A world in which everybody keeps to the protocol.** -/
structure Good (w : World S L ε R) : Prop where
  inv : P.Inv w.db
  exclusive : ∀ i j t u, w.txs.get? i = some t → w.txs.get? j = some u → i ≠ j →
    ∀ l ∈ t.locks, l ∉ u.locks
  follows : ∀ i t, w.txs.get? i = some t → ∃ c, P.Follows t w.db c

variable {P} {w w' : World S L ε R} {i now : Nat} {t t' : Tx S L ε R} {c : Ctx S L ε} {s : S}

theorem Follows.view (h : P.Follows t s c) : c.view = t.view := by
  funext s
  rw [Ctx.view, h.writes]
  rfl

/-- A picked fact is known from then on. -/
theorem Follows.learned {rest : Ctx S L ε → Prop} (h : P.Learns c s rest)
    (hw : c.writes = t.writes) (hs : c.seen = t.seen) (hl : ∀ l ∈ c.held, l ∈ t.held)
    (hstable : P.Stable c.held c.known) (hk : c.known s)
    (hrest : ∀ c, rest c → P.wp t.request t.rest (fun _ c => P.Commits c) c) :
    ∃ c, P.Follows t s c := by
  obtain ⟨Q, hQ, hq, h⟩ := h
  exact ⟨c.learn Q, hw, hs, hl, hstable.and hQ, ⟨hk, hq⟩, hrest _ h⟩

/-- Others may commit. -/
theorem Follows.others {locks : List L} {s' : S} (h : P.Follows t s c)
    (hl : ∀ l ∈ t.held, l ∉ locks) (hs : P.Inv s) (hs' : P.Inv s') (hg : P.Guar locks s s') :
    P.Follows t s' c :=
  { h with known := h.stable locks s s' (fun l hm => hl l (h.held l hm)) hs hs' hg h.known }

theorem Good.drop (h : P.Good w) : P.Good (w.drop i) where
  inv := h.inv
  exclusive := by
    intro j k u v hu hv
    exact h.exclusive j k u v (Table.get?_of_erase hu).2 (Table.get?_of_erase hv).2
  follows := fun j u hu => h.follows j u (Table.get?_of_erase hu).2

/-- Nobody is under way. -/
theorem good_idle {s : S} (hs : P.Inv s) (next : Nat) :
    P.Good (.idle s next) where
  inv := hs
  exclusive := fun i j t u ht => absurd (ht.symm.trans (Table.get?_empty i)) (by simp)
  follows := fun i t ht => absurd (ht.symm.trans (Table.get?_empty i)) (by simp)

/-- A request comes in. -/
theorem Good.begin (h : P.Good w) {program : R → Program S L ε Unit} {r : R}
    (hsafe : P.Safe r (program r)) (hnew : w.txs.get? i = none) :
    P.Good { w with txs := w.txs.insert i { request := r, rest := program r, seen := w.db } } where
  inv := h.inv
  exclusive := by
    intro j k u v hu hv hjk l hl hlv
    rcases Table.get?_insert_cases hu with hu | ⟨rfl, rfl, _⟩
    · rcases Table.get?_insert_cases hv with hv | ⟨rfl, rfl, _⟩
      · exact h.exclusive j k u v hu hv hjk l hl hlv
      · exact absurd hlv (by simp [Tx.locks])
    · exact absurd hl (by simp [Tx.locks])
  follows := by
    intro j u hu
    rcases Table.get?_insert_cases hu with hu | ⟨rfl, rfl, _⟩
    · exact h.follows j u hu
    · exact ⟨.start w.db, rfl, rfl, fun _ hl => hl, .true, trivial, hsafe w.db h.inv⟩

/-- A commit publishes the changes of a transaction that keeps to the protocol. -/
theorem Good.commit (h : P.Good w) (ht : w.txs.get? i = some t) {locks : List L} {s : S}
    (hlocks : ∀ l ∈ locks, l ∈ t.held) (hg : P.Guar locks w.db s) (hi : P.Inv s) :
    P.Good { w.drop i with db := s } := by
  refine ⟨hi, h.drop.exclusive, ?_⟩
  intro j u hu
  obtain ⟨hj, hu⟩ := Table.get?_of_erase hu
  obtain ⟨c, hc⟩ := h.follows j u hu
  refine ⟨c, hc.others ?_ h.inv hi hg⟩
  intro l hl hlt
  refine h.exclusive j i u t hu ht ?_ l (List.mem_append_right _ hl)
    (List.mem_append_right _ (hlocks l hlt))
  simpa using hj

variable [DecidableEq L]

theorem Good.put (h : P.Good w) (ht : w.txs.get? i = some t)
    (hlocks : ∀ l ∈ t'.locks, l ∈ t.locks ∨ w.free i l = true)
    (hf : ∃ c, P.Follows t' w.db c) : P.Good (w.put i t') where
  inv := h.inv
  exclusive := by
    have hout : ∀ j u, w.txs.get? j = some u → j ≠ i → ∀ l ∈ t'.locks, l ∉ u.locks := by
      intro j u hu hj l hl hul
      rcases hlocks l hl with hl | hfree
      · exact h.exclusive i j t u ht hu (Ne.symm hj) l hl hul
      · rw [World.free, Bool.not_eq_true'] at hfree
        have hnone := Table.any_eq_false.mp hfree j u hu
        simp [hj, hul] at hnone
    intro j k u v hu hv hjk l hl hlv
    rcases Table.get?_modify_cases hu with ⟨rfl, _, _, rfl⟩ | ⟨hj, hu'⟩
    · rcases Table.get?_modify_cases hv with ⟨rfl, _⟩ | ⟨hk, hv'⟩
      · exact hjk rfl
      · exact hout k v hv' hk l hl hlv
    · rcases Table.get?_modify_cases hv with ⟨rfl, _, _, rfl⟩ | ⟨_, hv'⟩
      · exact hout j u hu' hj l hlv hl
      · exact h.exclusive j k u v hu' hv' hjk l hl hlv
  follows := by
    intro j u hu
    rcases Table.get?_modify_cases hu with ⟨rfl, _, _, rfl⟩ | ⟨_, hu⟩
    · exact hf
    · exact h.follows j u hu

/-- The statement under way locks one more row. -/
theorem Good.take (h : P.Good w) (ht : w.txs.get? i = some t) {l : L}
    (hw : w.take i t l = some w') : P.Good w' ∧ w'.db = w.db := by
  unfold World.take at hw
  split at hw
  · rename_i hfree
    obtain rfl := Option.some.inj hw
    refine ⟨h.put ht ?_ ?_, rfl⟩
    · intro m hm
      rcases List.mem_cons.mp hm with rfl | hm
      · exact Or.inr hfree
      · exact Or.inl hm
    · obtain ⟨c, hc⟩ := h.follows i t ht
      exact ⟨c, hc.writes, hc.seen, hc.held, hc.stable, hc.known, hc.wp⟩
  · exact absurd hw (by simp)

/--
**Every step of a transaction that keeps to the protocol keeps the world good**,
and if it changes the committed state it keeps the guarantee.
-/
theorem Good.advance (h : P.Good w) (ht : w.txs.get? i = some t)
    (hw : w.advance i now t = some w')
    (hcond : ∀ x ∈ w.lands (.step i now), P.cond x = true) :
    P.Good w' ∧ (w'.db = w.db ∨ ∃ locks, P.Guar locks w.db w'.db) := by
  obtain ⟨c, hc⟩ := h.follows i t ht
  have hwp := hc.wp
  have hview : c.view w.db = t.view w.db := congrFun hc.view w.db
  have hheld : ∀ l ∈ c.held, l ∈ t.locks := fun l hl => List.mem_append_right _ (hc.held l hl)
  unfold World.advance at hw
  cases hrest : t.rest with
  | done a =>
      rw [hrest] at hw hwp
      obtain rfl := Option.some.inj hw
      -- the transaction commits: the guarantee is what its program has earned
      obtain ⟨hg, hi⟩ := hwp w.db h.inv hc.known
      rw [hview] at hg hi
      exact ⟨h.commit ht hc.held hg hi, Or.inr ⟨c.held, hg⟩⟩
  | raise e =>
      rw [hrest] at hw
      obtain rfl := Option.some.inj hw
      -- rolled back, and its locks are free again
      exact ⟨h.drop, Or.inl rfl⟩
  | select k =>
      rw [hrest] at hw hwp
      obtain rfl := Option.some.inj hw
      -- what is read is true of the committed state as the transaction sees it
      have hlearns := hwp w.db h.inv hc.known
      rw [hview] at hlearns
      refine ⟨h.put ht (fun l hl => Or.inl hl) ?_, Or.inl rfl⟩
      exact Follows.learned hlearns hc.writes rfl hc.held hc.stable hc.known fun c hr => hr
  | lock rows k =>
      rw [hrest] at hw hwp
      dsimp only at hw
      split at hw
      -- a lock is missing: it is taken, or waited for
      · obtain ⟨hgood, hdb⟩ := h.take ht hw
        exact ⟨hgood, Or.inl hdb⟩
      -- all rows are locked: what was known under fewer locks stays known
      · rename_i hnone
        obtain rfl := Option.some.inj hw
        have hlearns := hwp w.db h.inv hc.known
        rw [hview] at hlearns
        refine ⟨h.put ht (fun l hl => Or.inl hl) ?_, Or.inl rfl⟩
        refine Follows.learned hlearns hc.writes rfl ?_ ?_ hc.known fun c hr => hr
        · intro l hl
          rcases List.mem_append.mp hl with hl | hl
          · exact Tx.missing_eq_none.mp hnone l hl
          · exact hheld l hl
        · exact hc.stable.mono fun l hl => List.mem_append_right _ hl
  | exec write k =>
      rw [hrest] at hw hwp
      dsimp only at hw
      split at hw
      · obtain ⟨hgood, hdb⟩ := h.take ht hw
        exact ⟨hgood, Or.inl hdb⟩
      · rename_i hnone
        have hlearns := hwp w.db h.inv hc.known
        rw [hview] at hlearns
        cases hv : write.violates (t.view w.db) with
        -- a violated constraint goes back to the program, which has not written
        | some e =>
            rw [hv] at hw hlearns
            obtain rfl := Option.some.inj hw
            refine ⟨h.put ht ?_ ?_, Or.inl rfl⟩
            · exact fun l hl => Or.inl (List.mem_append_right _ hl)
            · exact Follows.learned hlearns hc.writes hc.seen hc.held hc.stable hc.known
                fun c hr => hr
        | none =>
            rw [hv] at hw hlearns
            obtain rfl := Option.some.inj hw
            have hlands : w.lands (.step i now)
                = some ⟨t.request, t.seen, t.view w.db, w.db, write⟩ := by
              simp [World.lands, ht, hrest, hnone, hv]
            have hlearns := hlearns (by rw [hc.seen]; exact hcond _ hlands)
            refine ⟨h.put ht (fun l hl => Or.inl hl) ?_, Or.inl rfl⟩
            refine Follows.learned hlearns ?_ hc.seen ?_ ?_ hc.known fun c hr => hr
            · show c.writes ++ [write] = t.writes ++ [write]
              rw [hc.writes]
            · intro l hl
              rcases List.mem_append.mp hl with hl | hl
              · exact Tx.missing_eq_none.mp hnone l hl
              · exact hheld l hl
            · exact hc.stable.mono fun l hl => List.mem_append_right _ hl
  | uuid4 k =>
      rw [hrest] at hw hwp
      obtain rfl := Option.some.inj hw
      refine ⟨?_, Or.inl rfl⟩
      -- the identifier is used up, and nothing else changes
      have hg : P.Good (w.put i { t with rest := k w.next }) :=
        h.put ht (fun l hl => Or.inl hl)
          ⟨c, hc.writes, hc.seen, hc.held, hc.stable, hc.known, hwp w.next⟩
      exact ⟨hg.inv, hg.exclusive, hg.follows⟩
  | utcnow k =>
      rw [hrest] at hw hwp
      obtain rfl := Option.some.inj hw
      exact ⟨h.put ht (fun l hl => Or.inl hl)
        ⟨c, hc.writes, hc.seen, hc.held, hc.stable, hc.known, hwp now⟩, Or.inl rfl⟩

variable {program : R → Program S L ε Unit}

/-- **Soundness: one step.** -/
theorem good_step (hsafe : ∀ r, P.Safe r (program r)) (h : P.Good w) {a : Act R}
    (hs : World.Step program P.cond w a w') :
    P.Good w' ∧ (w'.db = w.db ∨ ∃ locks, P.Guar locks w.db w'.db) := by
  obtain ⟨hact, hcond⟩ := hs
  unfold World.act at hact
  cases a with
  | start i r =>
      dsimp only at hact
      split at hact
      · exact absurd hact (by simp)
      · rename_i hnew
        obtain rfl := Option.some.inj hact
        have hnone := Table.contains_eq_false.mp (Bool.not_eq_true _ ▸ hnew)
        exact ⟨h.begin (hsafe r) hnone, Or.inl rfl⟩
  | step i now =>
      obtain ⟨t, ht, hadv⟩ := Option.bind_eq_some_iff.mp hact
      exact h.advance ht hadv hcond
  | kill i =>
      dsimp only at hact
      split at hact
      · obtain rfl := Option.some.inj hact
        exact ⟨h.drop, Or.inl rfl⟩
      · exact absurd hact (by simp)

/-- **Soundness: runs.** The committed state keeps the invariant throughout. -/
theorem good_runs (hsafe : ∀ r, P.Safe r (program r)) (h : P.Good w) {acts : List (Act R)}
    (hr : Runs (World.Step program P.cond) w acts w') : P.Good w' :=
  hr.invariant h fun _ _ _ hg hs => (good_step hsafe hg hs).1

/--
**What every commit relates, a run relates**: a reflexive and transitive relation
between committed states that the guarantee implies.
-/
theorem relates_runs {K : S → S → Prop} (hsafe : ∀ r, P.Safe r (program r)) (h : P.Good w)
    {acts : List (Act R)} (hr : Runs (World.Step program P.cond) w acts w') (hrefl : ∀ s, K s s)
    (htrans : ∀ s₁ s₂ s₃, K s₁ s₂ → K s₂ s₃ → K s₁ s₃)
    (hguar : ∀ locks s s', P.Inv s → P.Inv s' → P.Guar locks s s' → K s s') : K w.db w'.db := by
  refine hr.relates (R := fun w w' => K w.db w'.db) (p := fun _ => True) h (fun _ _ => trivial)
    (fun _ _ _ hg hs => (good_step hsafe hg hs).1) (fun w => hrefl w.db)
    (fun _ _ _ => htrans _ _ _) ?_
  intro w a w' hg _ hs
  obtain ⟨hg', hdb | ⟨locks, hguar'⟩⟩ := good_step hsafe hg hs
  · rw [hdb]
    exact hrefl w.db
  · exact hguar locks w.db w'.db hg.inv hg'.inv hguar'

end Protocol

end Txn
