import TestExchange.Proof.Ledger
import TestExchange.Txn.Precondition

/-!
# Concurrent credit changes

Any number of transactions, each recording one credit change. The row lock on
the account keeps a balance and its ledger together, with one gap: a change for
a user whose account is missing locks nothing, and if the account has appeared
by the second lookup, the balance it goes by is not protected. In runs where
that balance is still the committed one when the `UPDATE` takes effect, no
change is lost or duplicated.
-/

namespace TestExchange

open Txn Txn.Session Txn.World Exchange

/-- What happens in the database while credit changes are recorded. -/
abbrev CreditWorld := World Db Lock Failure CreditChange

/-- A transaction that records one credit change. -/
def recordChange (change : CreditChange) : Program Db Lock Failure Unit :=
  (discard (recordCreditEntry change)).commit

/-- The accounts the write updates are still as its transaction last saw them. -/
def balanceUnchanged (x : Landing Db Lock Failure CreditChange) : Bool :=
  (x.write.rows x.view).all fun
    | .creditAccount u =>
        (x.db.creditAccounts.get? u).all fun account =>
          (x.seen.creditAccounts.get? u).any (·.balance = account.balance)
    | _ => true

/-- What a commit does to the accounts and the ledger, depending on what it has locked. -/
structure CreditGuar (locks : List Lock) (db db' : Db) : Prop where
  accounts : ∀ u, .creditAccount u ∉ locks → db'.creditAccounts.get? u = db.creditAccounts.get? u
  kept : ∀ u, (db.creditAccounts.get? u).isSome → (db'.creditAccounts.get? u).isSome
  ledger : ∃ added, db'.creditLedgerEntries = db.creditLedgerEntries ++ added
    ∧ ∀ e ∈ added, .ledgerKey e.idempotencyKey ∈ locks

/-- What the transactions agree on: the books are balanced. -/
def creditProtocol : Protocol Db Lock Failure CreditChange where
  Inv db := Booked db.exchange
  Guar := CreditGuar
  cond := balanceUnchanged

variable {change : CreditChange} {u : Uuid} {key : String} {db : Db}

/-! ## What a transaction may keep to itself -/

theorem stable_account {held : List Lock} {o : Option CreditAccount}
    (h : .creditAccount u ∈ held) :
    creditProtocol.Stable held fun db => db.creditAccounts.get? u = o := by
  intro locks s s' hl _ _ hg hs
  exact (hg.accounts u (hl _ h)).trans hs

theorem stable_hasAccount {held : List Lock} :
    creditProtocol.Stable held fun db => (db.creditAccounts.get? u).isSome := by
  intro locks s s' _ _ _ hg hs
  exact hg.kept u hs

/-- Nobody else uses an idempotency key whose index entry is held. -/
theorem stable_key {held : List Lock} (h : .ledgerKey key ∈ held) :
    creditProtocol.Stable held fun db =>
      ∀ e ∈ db.creditLedgerEntries, e.idempotencyKey ≠ key := by
  intro locks s s' hl _ _ hg hs e he
  obtain ⟨added, hadded, hkeys⟩ := hg.ledger
  rw [hadded] at he
  rcases List.mem_append.mp he with he | he
  · exact hs e he
  · rintro rfl
    exact hl _ h (hkeys e he)

/-! ## One credit change -/

/-- The database with an account for the user. -/
def Db.openAccount (db : Db) (u : Uuid) : Db :=
  { db with creditAccounts := db.creditAccounts.insert u ⟨0⟩ }

theorem openAccount_of_some {a : CreditAccount} (h : db.creditAccounts.get? u = some a) :
    db.openAccount u = db := by
  rw [Db.openAccount, Table.insert_of_mem h]

theorem commits_nothing {c : Ctx Db Lock Failure} (h : c.writes = []) :
    creditProtocol.Commits c := by
  intro s hs _
  have hv : c.view s = s := by rw [Ctx.view, h]; rfl
  rw [hv]
  exact ⟨⟨fun _ _ => rfl, fun _ ha => ha, [], by simp, by simp⟩, hs⟩

/--
**The commit of a credit change**, once its account is locked and its key is
known to be new.
-/
theorem commits_change {c : Ctx Db Lock Failure} {n : Uuid} {o : Option CreditAccount}
    {account : CreditAccount} {opening : List Write}
    (hw : c.writes = opening ++ [writeCreditAccount change.userId (account.balance + change.delta),
      insertCreditLedgerEntry (change.entry n)])
    (hopen : ∀ s : Db, s.creditAccounts.get? change.userId = o →
      effects opening s = s.openAccount change.userId)
    (hbalance : account.balance = o.elim 0 (·.balance))
    (hdelta : change.delta ≠ 0) (hfunds : 0 ≤ account.balance + change.delta)
    (hlock : .creditAccount change.userId ∈ c.held)
    (hkeyLock : .ledgerKey change.idempotencyKey ∈ c.held)
    (hrow : ∀ s, c.known s → s.creditAccounts.get? change.userId = o)
    (hkey : ∀ s, c.known s → ∀ e ∈ s.creditLedgerEntries, e.idempotencyKey ≠ change.idempotencyKey) :
    creditProtocol.Commits c := by
  intro s hs hk
  have ho := hrow s hk
  have hbal : account.balance = s.exchange.balance change.userId := by
    rw [hbalance, ← ho]
    rfl
  have hview : (c.view s).exchange = s.exchange.enter change n := by
    rw [Ctx.view, hw, effects_append, hopen s ho, hbal]
    rfl
  refine ⟨⟨?_, ?_, [change.entry n], ?_, ?_⟩, ?_⟩
  · intro v hv
    have hne : v ≠ change.userId := by
      rintro rfl
      exact hv hlock
    show (c.view s).exchange.creditAccounts.get? v = _
    rw [hview]
    show ((s.creditAccounts.insert change.userId ⟨0⟩).modify change.userId _).get? v = _
    rw [Table.get?_modify_ne hne, Table.get?_insert_ne hne]
  · intro v hv
    show ((c.view s).exchange.creditAccounts.get? v).isSome
    rw [hview]
    obtain ⟨a, ha⟩ := Option.isSome_iff_exists.mp hv
    obtain ⟨b, hb⟩ := Table.exists_get?_modify (i := v) (k := change.userId)
      (f := fun _ => ⟨s.exchange.balance change.userId + change.delta⟩)
      (Table.get?_insert_of_some (k := change.userId) (a := ⟨0⟩) ha)
    exact Option.isSome_iff_exists.mpr ⟨b, hb⟩
  · exact congrArg Exchange.creditLedgerEntries hview
  · intro e he
    rw [List.mem_singleton.mp he]
    exact hkeyLock
  · show Booked (c.view s).exchange
    rw [hview]
    exact hs.credited (.entered n (hkey s hk) hdelta (hbal ▸ hfunds))

theorem balanceUnchanged_write {r : CreditChange} {seen view : Db} {b : Int} {a : CreditAccount}
    (h : balanceUnchanged ⟨r, seen, view, db, writeCreditAccount u b⟩ = true)
    (ha : db.creditAccounts.get? u = some a) :
    ∃ a', seen.creditAccounts.get? u = some a' ∧ a'.balance = a.balance := by
  simp only [balanceUnchanged, writeCreditAccount, List.all_cons, List.all_nil, Bool.and_true, ha,
    Option.all_some, Option.any_eq_true, decide_eq_true_eq] at h
  exact h

/--
The account a change goes by: when its `UPDATE` takes effect, it has the
committed balance, and so far the transaction has only opened it, if anything.
-/
def AccountFound (u : Uuid) (account : CreditAccount) (c : Ctx Db Lock Failure) : Prop :=
  ∀ s : Db, c.known s →
    (∀ a, s.creditAccounts.get? u = some a →
      ∃ a', c.seen.creditAccounts.get? u = some a' ∧ a'.balance = a.balance) →
    account.balance = (s.creditAccounts.get? u).elim 0 (·.balance)
      ∧ ∀ t : Db, t.creditAccounts.get? u = s.creditAccounts.get? u →
        effects c.writes t = t.openAccount u

/-- Looking the account up, with or without success. -/
theorem getCreditAccountForUpdate_spec {r : CreditChange} {s₀ s₁ : Db}
    {post : CreditAccount → List Write → Ctx Db Lock Failure → Prop}
    (hpost : ∀ account c, AccountFound u account c → post account [] c) :
    swp creditProtocol r (getCreditAccountForUpdate u) post [] ((Ctx.start s₀).see s₁) := by
  simp only [getCreditAccountForUpdate, selectForUpdate, swp_bind]
  rw [swp_queryForUpdate]
  intro s₂ _ _
  rw [Ctx.view_see, Ctx.view_start]
  cases hu : s₂.creditAccounts.get? u with
  | some account =>
      -- the row is there and locked
      refine .pick _ (stable_account (o := some account) ?_) hu (hpost account _ ?_)
      · rw [if_pos (Table.contains_eq_true.mpr ⟨account, hu⟩)]
        exact List.mem_append_left _ (List.mem_singleton_self _)
      rintro s ⟨_, hs⟩ _
      rw [hs]
      exact ⟨rfl, fun t ht => (openAccount_of_some ht).symm⟩
  | none =>
      refine .skip ?_
      rw [if_neg (by simp [hu])]
      simp only [ensureCreditAccount, swp_bind]
      rw [swp_query]
      intro s₃ _ _
      simp only [Ctx.view_see, Ctx.view_hold, Ctx.view_start]
      cases hu₃ : s₃.creditAccounts.get? u with
      | some account =>
          -- the account has appeared; nothing protects what was read
          refine .pick _ stable_hasAccount (Option.isSome_iff_exists.mpr ⟨account, hu₃⟩)
            (hpost account _ ?_)
          rintro s ⟨_, hs⟩ hland
          obtain ⟨a, ha⟩ := Option.isSome_iff_exists.mp hs
          obtain ⟨a', ha', hsame⟩ := hland a ha
          obtain rfl := Option.some.inj (hu₃.symm.trans ha')
          rw [ha]
          exact ⟨hsame, fun t ht => (openAccount_of_some ht).symm⟩
      | none =>
          -- the account is opened here, and its key taken
          refine .skip ?_
          simp only [swp_bind, swp_add, swp_flush, swp_pure, List.nil_append, swp_sendAll_cons,
            swp_sendAll_nil]
          rw [swp_execute]
          intro s₄ _ _ hv _
          simp only [Ctx.view_see, Ctx.view_hold, Ctx.view_start, insertCreditAccount, firstViolated_cons, Table.contains_eq_false] at hv
          refine .pick _ (stable_account (o := none) ?_) hv.1 (hpost ⟨0⟩ _ ?_)
          · exact List.mem_append_left _ (List.mem_singleton_self _)
          rintro s ⟨_, hs⟩ _
          rw [hs]
          exact ⟨rfl, fun _ _ => rfl⟩

/-- From the account on: the new balance, the entry, the commit. -/
theorem record_rest {r : CreditChange} {c : Ctx Db Lock Failure} {account : CreditAccount}
    (hdelta : change.delta ≠ 0)
    (hfound : AccountFound change.userId account c) :
    swp creditProtocol r (do
        raiseIf (account.balance + change.delta < 0) (.domain "Insufficient credits" 409)
        add (writeCreditAccount change.userId (account.balance + change.delta))
        let transactionId ← uuid4
        add (insertCreditLedgerEntry (change.entry transactionId))
        flush
        pure (change.entry transactionId))
      (fun _ => swp creditProtocol r flush fun _ _ c => creditProtocol.Commits c) [] c := by
  simp only [swp_bind, swp_raiseIf, swp_add, swp_uuid4, swp_pure, swp_flush, List.nil_append,
    List.cons_append, swp_sendAll_cons, swp_sendAll_nil]
  intro hfunds n
  rw [swp_execute]
  intro s hs hk _ hcond
  obtain ⟨hbalance, hopen⟩ := hfound s hk fun a ha => balanceUnchanged_write hcond ha
  refine .pick _ (stable_account (o := s.creditAccounts.get? change.userId) ?_) rfl ?_
  · exact List.mem_append_left _ (List.mem_singleton_self _)
  rw [swp_execute]
  intro t ht hkt hv _
  refine .pick _ (@stable_key change.idempotencyKey _ ?_) ?_ ?_
  · exact List.mem_append_left _ (List.mem_singleton_self _)
  · intro e he hkey
    have hview : (effects (c.writes ++ [writeCreditAccount change.userId
        (account.balance + change.delta)]) t).creditLedgerEntries = t.creditLedgerEntries := by
      rw [effects_concat, hopen t hkt.2]
      rfl
    simp only [insertCreditLedgerEntry, firstViolated_cons, List.any_eq_false] at hv
    refine hv.1 e ?_ (by simp [hkey, CreditChange.entry])
    exact hview ▸ he
  exact commits_change (o := s.creditAccounts.get? change.userId) (n := n)
    (List.append_assoc _ _ _) hopen hbalance hdelta (not_lt.mp hfunds)
    (List.mem_append_right _ (List.mem_append_left _ (List.mem_singleton_self _)))
    (List.mem_append_left _ (List.mem_singleton_self _)) (fun s hs => hs.1.2) fun s hs => hs.2

/-- **One credit change keeps to the protocol.** -/
theorem recordChange_safe (change : CreditChange) :
    creditProtocol.Safe change (recordChange change) := by
  refine safe_commit fun s₀ _ => ?_
  simp only [discard, recordCreditEntry, swp_bind, swp_pure]
  rw [swp_query]
  intro s₁ _ _
  refine .skip ?_
  rw [Ctx.view_start]
  cases s₁.creditLedgerEntries.find? fun e => e.idempotencyKey = change.idempotencyKey with
  | some entry => exact commits_nothing rfl
  | none =>
      simp only [swp_bind, swp_raiseIf]
      intro hdelta
      refine getCreditAccountForUpdate_spec fun account c hfound => ?_
      simpa only [swp_bind, swp_raiseIf, swp_pure] using record_rest hdelta hfound

/-- Nothing that was in the books is lost, and they are balanced. -/
structure CreditsKept (db db' : Db) : Prop where
  balances : ∀ u account, db'.creditAccounts.get? u = some account →
    account.balance = earned db'.creditLedgerEntries u ∧ 0 ≤ account.balance
  keys : (db'.creditLedgerEntries.map (·.idempotencyKey)).Nodup
  kept : ∀ e ∈ db.creditLedgerEntries, e ∈ db'.creditLedgerEntries

theorem Booked.creditsKept (h : Booked db.exchange) {db₀ : Db}
    (hkept : ∀ e ∈ db₀.creditLedgerEntries, e ∈ db.creditLedgerEntries) : CreditsKept db₀ db where
  balances := by
    intro u account hu
    have hbalance : db.exchange.balance u = account.balance := by
      show (db.creditAccounts.get? u).elim 0 (·.balance) = _
      rw [hu]
      rfl
    rw [← hbalance]
    exact ⟨h.balances u, h.solvent u⟩
  keys := h.keys
  kept := hkept

/--
**No credit change is lost or duplicated** in a run in which every balance is
still the committed one when its `UPDATE` takes effect.
-/
theorem credits_kept {db : Db} (hdb : Booked db.exchange) (next : Nat)
    {acts acts' : List (Act CreditChange)} {w w' : CreditWorld}
    (h : Runs (World.Step recordChange balanceUnchanged) (.idle db next) acts w)
    (h' : Runs (World.Step recordChange balanceUnchanged) w acts' w') : CreditsKept w.db w'.db := by
  have hgood := Protocol.good_runs (P := creditProtocol) recordChange_safe
    (Protocol.good_idle hdb next) h
  have hgood' := Protocol.good_runs recordChange_safe hgood h'
  refine Booked.creditsKept hgood'.inv ?_
  refine Protocol.relates_runs (P := creditProtocol)
    (K := fun s s' => ∀ e ∈ s.creditLedgerEntries, e ∈ s'.creditLedgerEntries) recordChange_safe
    hgood h' (fun s e he => he) (fun _ _ _ h h' e he => h' e (h e he)) ?_
  intro locks s s' _ _ hg e he
  obtain ⟨added, hadded, _⟩ := hg.ledger
  rw [hadded]
  exact List.mem_append_left _ he

/-! ## The gap -/

/-- One user, whose credit account does not exist yet. -/
def soloDb : Db :=
  { Db.empty with profiles := Table.empty.insert 1 ⟨none, "solo", "Solo", none, none, false, none, none⟩ }

/-- A change of the user's credits. -/
def soloChange (delta : Int) (key : String) : CreditChange where
  userId := 1
  delta := delta
  entryType := .signupGrant
  idempotencyKey := key

theorem booked_soloDb : Booked soloDb.exchange where
  keys := List.nodup_nil
  balances := fun _ => rfl
  accounts := fun e he => absurd he (by simp [soloDb, Db.exchange, Db.empty])
  solvent := fun _ => Int.le_refl 0

/-- The second change opens the account between the two lookups of the first. -/
def orderlySchedule : List (Act CreditChange) :=
  .start 1 (soloChange 5 "first") :: moves 1 2 ++ .start 2 (soloChange 3 "second") :: moves 2 10
    ++ moves 1 7

theorem credits_kept_solo :
    ∃ w, (World.idle soloDb 0).runWhen recordChange balanceUnchanged orderlySchedule = some w
      ∧ CreditsKept soloDb w.db := by
  have hsome : ((World.idle soloDb 0).runWhen recordChange balanceUnchanged
      orderlySchedule).isSome = true := by decide +kernel
  obtain ⟨w, hw⟩ := Option.isSome_iff_exists.mp hsome
  exact ⟨w, hw, credits_kept booked_soloDb 0 (.nil _) (World.runs_iff_runWhen.mpr hw)⟩

/-- Before the first change writes the balance it read, a third one changes it. -/
def lossySchedule : List (Act CreditChange) :=
  .start 1 (soloChange 5 "first") :: moves 1 2 ++ .start 2 (soloChange 3 "second") :: moves 2 10
    ++ moves 1 1 ++ .start 3 (soloChange 7 "third") :: moves 3 8 ++ moves 1 6

/-- The user's balance, and what the ledger adds up to. -/
def soloOutcome (w : CreditWorld) : Option Int × Int :=
  ((w.db.creditAccounts.get? 1).map (·.balance), earned w.db.creditLedgerEntries 1)

/-- Three changes are committed, `+3`, `+7` and `+5`, and the balance is 8. -/
theorem change_lost :
    ¬∀ (db : Db) (next : Nat) (acts : List (Act CreditChange)) (w : CreditWorld),
      Booked db.exchange → (World.idle db next).run recordChange acts = some w →
        CreditsKept db w.db := by
  intro h
  have hrun : ((World.idle soloDb 0).run recordChange lossySchedule).map soloOutcome
      = some (some 8, 15) := by decide +kernel
  obtain ⟨w, hw, hout⟩ := Option.map_eq_some_iff.mp hrun
  obtain ⟨haccount, htotal⟩ := Prod.mk.inj hout
  obtain ⟨account, ha, hbalance⟩ := Option.map_eq_some_iff.mp haccount
  have hsum := ((h soloDb 0 lossySchedule w booked_soloDb hw).balances 1 account ha).1
  omega

end TestExchange
