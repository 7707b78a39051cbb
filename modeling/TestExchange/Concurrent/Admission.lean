import TestExchange.Concurrent.Footprints
import TestExchange.Proof.References

/-!
# Saving profiles at the same time

Any number of saves of profiles, by new and by known users, interleaved. A new
user takes a seat under the lock of the seat counter. If there is no counter yet,
nothing is locked and the profiles are counted instead; but whoever was counted
wrong must have been admitted in between, and with that admission came a counter,
so starting another one fails. The count that is written is the right one either
way.
-/

namespace TestExchange

open Txn Txn.Session Txn.World

/-- One save of a profile. -/
structure Enrolment where
  settings : Settings
  userId : Uuid
  email : Option String
  payload : ProfileUpsert

/-- Its transaction, when there is room for `maxUsers`. -/
def Enrolment.program (maxUsers : Nat) (r : Enrolment) : Program Db Lock Failure Unit :=
  (discard (upsertProfile { r.settings with publicBetaMaxUsers := maxUsers } r.userId r.email
    r.payload)).commit

/-- What happens in the database while profiles are saved. -/
abbrev AdmissionWorld := World Db Lock Failure Enrolment

/-- `select(func.count(Profile.id))` -/
def Db.headcount (db : Db) : Nat := db.profiles.count fun _ => true

/-- The user's credit account is open. -/
def Db.HasAccount (db : Db) (u : Uuid) : Prop := ∃ a, db.creditAccounts.get? u = some a

/-- The ledger entries of a user. -/
def Db.entriesOf (db : Db) (u : Uuid) : List CreditLedgerEntry :=
  db.creditLedgerEntries.filter fun e => e.userId = u

/-- **The invariant of admission**, since the database was `db₀`. -/
structure Admitted (maxUsers : Nat) (db₀ db : Db) : Prop where
  /-- The counter, once there is one, counts the profiles. -/
  seats : ∀ state, db.betaProgramState = some state → state.claimedSeats = db.headcount
  room : db.headcount ≤ maxUsers
  accounts : ∀ u, db.Knows u → ¬db₀.Knows u → db.HasAccount u
  granted : ∀ u, db.Knows u → ¬db₀.Knows u → (db.entriesOf u).length ≤ 1
  /-- `credit_ledger_entries_user_id_fkey` -/
  holders : ∀ e ∈ db.creditLedgerEntries, db.Knows e.userId

/-- What a commit may do, depending on what it has locked. -/
structure AdmissionGuar (locks : List Lock) (db db' : Db) : Prop where
  state : .betaProgramState ∉ locks → db'.betaProgramState = db.betaProgramState
  /-- As long as there is no counter, nobody is admitted. -/
  uncounted : db'.betaProgramState = none →
    db.betaProgramState = none ∧ db'.headcount = db.headcount
  profiles : ∀ u, .profile u ∉ locks → db.profiles.get? u = none → db'.profiles.get? u = none
  accounts : ∀ u, db.HasAccount u → db'.HasAccount u

/-- What the transactions agree on. -/
def admissionProtocol (maxUsers : Nat) (db₀ : Db) : Protocol Db Lock Failure Enrolment where
  Inv := Admitted maxUsers db₀
  Guar := AdmissionGuar

variable {maxUsers n : Nat} {db₀ db : Db} {u : Uuid} {r : Enrolment}

/-! ## What a transaction may keep to itself -/

theorem stable_state {held : List Lock} {o : Option BetaProgramState}
    (h : .betaProgramState ∈ held) :
    (admissionProtocol maxUsers db₀).Stable held fun db => db.betaProgramState = o := by
  intro locks s s' hl _ _ hg hs
  exact (hg.state (hl _ h)).trans hs

/-- A count stays right as long as there is no counter. -/
theorem stable_uncounted {held : List Lock} :
    (admissionProtocol maxUsers db₀).Stable held fun db =>
      db.betaProgramState = none → db.headcount = n := by
  intro locks s s' _ _ _ hg hs hnone
  obtain ⟨hbefore, hsame⟩ := hg.uncounted hnone
  exact hsame.trans (hs hbefore)

theorem stable_unborn {held : List Lock} (h : .profile u ∈ held) :
    (admissionProtocol maxUsers db₀).Stable held fun db => db.profiles.get? u = none := by
  intro locks s s' hl _ _ hg hs
  exact hg.profiles u (hl _ h) hs

theorem stable_hasCreditAccount {held : List Lock} :
    (admissionProtocol maxUsers db₀).Stable held fun db => db.HasAccount u := by
  intro locks s s' _ _ _ hg hs
  exact hg.accounts u hs

/-! ## What is written around an admission -/

/-- The counts stay as they are, and `u` gets at most `k` ledger entries. -/
structure Settles (u : Uuid) (k : Nat) (s s' : Db) : Prop where
  state : s'.betaProgramState = s.betaProgramState
  headcount : s'.headcount = s.headcount
  profiles : ∀ v, s'.profiles.get? v = none ↔ s.profiles.get? v = none
  accounts : ∀ v, s.HasAccount v → s'.HasAccount v
  ledger : ∃ new, s'.creditLedgerEntries = s.creditLedgerEntries ++ new ∧ new.length ≤ k
    ∧ ∀ e ∈ new, e.userId = u

theorem Settles.refl (s : Db) : Settles u 0 s s :=
  ⟨rfl, rfl, fun _ => Iff.rfl, fun _ h => h, [], by simp, by simp, by simp⟩

theorem Settles.trans {k l : Nat} {s₁ s₂ s₃ : Db} (h : Settles u k s₁ s₂)
    (h' : Settles u l s₂ s₃) : Settles u (k + l) s₁ s₃ where
  state := h'.state.trans h.state
  headcount := h'.headcount.trans h.headcount
  profiles := fun v => (h'.profiles v).trans (h.profiles v)
  accounts := fun v hv => h'.accounts v (h.accounts v hv)
  ledger := by
    obtain ⟨new, hnew, hlength, hof⟩ := h.ledger
    obtain ⟨more, hmore, hlength', hof'⟩ := h'.ledger
    refine ⟨new ++ more, by rw [hmore, hnew, List.append_assoc], ?_, ?_⟩
    · rw [List.length_append]
      omega
    · intro e he
      rcases List.mem_append.mp he with he | he
      · exact hof e he
      · exact hof' e he

/-- A write that neither admits nor pays anybody. -/
def Incidental (u : Uuid) (w : Write) : Prop := ∀ s, Settles u 0 s (w.effect s)

theorem incidental_event {e : AuditEvent} : Incidental u (insertAuditEvent e) := fun s =>
  ⟨rfl, rfl, fun _ => Iff.rfl, fun _ h => h, [], (List.append_nil _).symm, by simp, by simp⟩

theorem incidental_savedProfile {v : Uuid} {loaded username : String} {f : Profile → Profile} :
    Incidental u (writeSavedProfile v loaded username f) := fun s =>
  ⟨rfl, Table.count_eq_of_get? fun _ _ => rfl, fun _ => Table.get?_modify_eq_none, fun _ h => h, [],
    (List.append_nil _).symm, by simp, by simp⟩

theorem incidental_openAccount {v : Uuid} {a : CreditAccount} :
    Incidental u (insertCreditAccount v a) := fun s =>
  ⟨rfl, rfl, fun _ => Iff.rfl, fun _ h => stays_insert h, [], (List.append_nil _).symm, by simp,
    by simp⟩

theorem incidental_balance {v : Uuid} {balance : Int} :
    Incidental u (writeCreditAccount v balance) := fun s =>
  ⟨rfl, rfl, fun _ => Iff.rfl, fun _ h => stays_modify h, [], (List.append_nil _).symm, by simp,
    by simp⟩

theorem settles_of_only {α : Type} {m : Session α} (h : Only (Incidental u) m) :
    Moves id (Settles u 0) m :=
  h.moves_each Settles.refl fun _ _ _ h h' => h.trans h'

theorem Settles.le {k l : Nat} {s s' : Db} (h : Settles u k s s') (hk : k ≤ l) :
    Settles u l s s' := by
  obtain ⟨new, hnew, hlength, hof⟩ := h.ledger
  exact { h with ledger := ⟨new, hnew, Nat.le_trans hlength hk, hof⟩ }

/-- What is incidental may come first. -/
theorem settles_after {α β : Type} {k : Nat} {m : Session α} {f : α → Session β}
    (hm : Only (Incidental u) m) (hf : ∀ a, Moves id (Settles u k) (f a)) :
    Moves id (Settles u k) (m >>= f) :=
  ((settles_of_only hm).bind hf).mono fun _ _ ⟨_, h, h'⟩ => (h.trans h').le (by omega)

/-- What is incidental may come last. -/
theorem settles_before {α β : Type} {k : Nat} {m : Session α} {f : α → Session β}
    (hm : Moves id (Settles u k) m) (hf : ∀ a, Only (Incidental u) (f a)) :
    Moves id (Settles u k) (m >>= f) :=
  (hm.bind fun a => settles_of_only (hf a)).mono fun _ _ ⟨_, h, h'⟩ => (h.trans h').le (by omega)

/-- A change of credits is at most one entry. -/
theorem recordCreditEntry_settles {change : CreditChange} :
    Moves id (Settles change.userId 1) (recordCreditEntry change) := by
  refine settles_after only_query fun existing => ?_
  cases existing with
  | some found => exact (settles_of_only only_pure).mono fun _ _ h => h.le (Nat.zero_le 1)
  | none =>
      refine settles_after only_raiseIf fun _ => settles_after
        (only_getCreditAccountForUpdate incidental_openAccount) fun _ =>
        settles_after only_raiseIf fun _ => settles_after (only_add incidental_balance) fun _ =>
        settles_after only_uuid4 fun t => ?_
      have hentry : Moves id (Settles change.userId 1)
          (add (insertCreditLedgerEntry (change.entry t))) := moves_add fun s =>
        ⟨rfl, rfl, fun _ => Iff.rfl, fun _ h => h, [change.entry t], rfl, Nat.le_refl 1,
          fun e he => by rw [List.mem_singleton.mp he]; rfl⟩
      exact settles_before hentry fun _ => only_flush.bind fun _ => only_pure

theorem grantSignupCredits_settles {grant : Nat} :
    Moves id (Settles u 1) (grantSignupCredits grant u) := by
  unfold grantSignupCredits
  split
  · exact settles_before recordCreditEntry_settles fun _ => only_pure
  · exact (settles_of_only only_pure).mono fun _ _ h => h.le (Nat.zero_le 1)

theorem Settles.knows {k : Nat} {s s' : Db} (h : Settles u k s s') (v : Uuid) :
    s'.Knows v ↔ s.Knows v := by
  unfold Db.Knows
  rw [← Option.ne_none_iff_exists', ← Option.ne_none_iff_exists']
  exact not_congr (h.profiles v)

/-- A transaction that admits nobody. -/
theorem commits_known {c : Ctx Db Lock Failure} (h : ∀ s, Settles u 0 s (c.view s)) :
    (admissionProtocol maxUsers db₀).Commits c := by
  intro s hs _
  have hview := h s
  have hledger : (c.view s).creditLedgerEntries = s.creditLedgerEntries := by
    obtain ⟨new, hnew, hlength, -⟩ := hview.ledger
    rw [hnew, List.eq_nil_of_length_eq_zero (Nat.le_zero.mp hlength), List.append_nil]
  refine ⟨⟨fun _ => hview.state, ?_, fun v _ hv => (hview.profiles v).mpr hv, hview.accounts⟩,
    ?_, ?_, ?_, ?_, ?_⟩
  · intro hnone
    exact ⟨hview.state.symm.trans hnone, hview.headcount⟩
  · intro state hstate
    rw [hview.headcount]
    exact hs.seats state (hview.state.symm.trans hstate)
  · rw [hview.headcount]
    exact hs.room
  · intro v hv hnew
    exact hview.accounts v (hs.accounts v ((hview.knows v).mp hv) hnew)
  · intro v hv hnew
    rw [Db.entriesOf, hledger]
    exact hs.granted v ((hview.knows v).mp hv) hnew
  · intro e he
    rw [hledger] at he
    exact (hview.knows e.userId).mpr (hs.holders e he)

/-! ## Admissions -/

/-- The database with the new profile, which takes the seat after the first `n`. -/
def Db.enrol (s : Db) (u : Uuid) (p : Profile) (n : Nat) : Db :=
  { s with betaProgramState := some ⟨n + 1⟩, profiles := s.profiles.insert u p }

/-- **The commit of an admission**, under the lock of the counter and the key of the profile. -/
theorem commits_admission {c : Ctx Db Lock Failure} {p : Profile}
    (hstate : .betaProgramState ∈ c.held) (hprofile : .profile u ∈ c.held)
    (hroom : n + 1 ≤ maxUsers)
    (hnew : ∀ s, c.known s → s.profiles.get? u = none)
    (hcount : ∀ s, Admitted maxUsers db₀ s → c.known s → s.headcount = n)
    (haccount : ∀ s, c.known s → (c.view s).HasAccount u)
    (hview : ∀ s, c.known s → Settles u 1 (s.enrol u p n) (c.view s)) :
    (admissionProtocol maxUsers db₀).Commits c := by
  intro s hs hk
  have hnone := hnew s hk
  -- one profile more than there was, and the counter says so
  have hseats : (c.view s).headcount = n + 1 := by
    rw [(hview s hk).headcount]
    show (s.profiles.insert u p).count _ = n + 1
    rw [Table.count_insert hnone]
    have hbefore : s.profiles.count (fun _ => true) = n := hcount s hs hk
    simp [hbefore]
  have hafter : (c.view s).betaProgramState = some ⟨n + 1⟩ := (hview s hk).state
  have hknown : ∀ v, (c.view s).Knows v → v = u ∨ s.Knows v := by
    intro v hv
    obtain ⟨q, hq⟩ := ((hview s hk).knows v).mp hv
    rcases Table.get?_insert_cases hq with hold | ⟨hvu, -, -⟩
    · exact Or.inr ⟨q, hold⟩
    · exact Or.inl hvu
  have hstays : ∀ v, s.Knows v → (c.view s).Knows v := by
    rintro v ⟨q, hq⟩
    exact ((hview s hk).knows v).mpr ⟨q, Table.get?_insert_of_some hq⟩
  -- the ledger has at most one new entry, of the new user
  obtain ⟨new, hledger, hlength, hof⟩ := (hview s hk).ledger
  have hledger : (c.view s).creditLedgerEntries = s.creditLedgerEntries ++ new := hledger
  refine ⟨⟨fun hfree => absurd hstate hfree, ?_, ?_, (hview s hk).accounts⟩, ?_, ?_, ?_, ?_, ?_⟩
  -- the counter does not go away
  · intro hgone
    rw [hafter] at hgone
    exact absurd hgone (by simp)
  -- nobody else's profile appears
  · intro v hv hvnone
    have hvu : v ≠ u := by
      intro h
      rw [h] at hv
      exact hv hprofile
    rw [(hview s hk).profiles v]
    show (s.profiles.insert u p).get? v = none
    rw [Table.get?_insert_ne hvu]
    exact hvnone
  -- the counter counts the profiles
  · intro state hsome
    rw [hafter] at hsome
    rw [hseats, ← Option.some.inj hsome]
  · rw [hseats]
    exact hroom
  · intro v hv hvnew
    rcases hknown v hv with rfl | hold
    · exact haccount s hk
    · exact (hview s hk).accounts v (hs.accounts v hold hvnew)
  · intro v hv hvnew
    rw [Db.entriesOf, hledger, List.filter_append, List.length_append]
    rcases hknown v hv with rfl | hold
    · -- nobody without a profile has an entry
      have hbefore : s.creditLedgerEntries.filter (fun e => e.userId = v) = [] := by
        rw [List.filter_eq_nil_iff]
        intro e he heq
        obtain ⟨q, hq⟩ := hs.holders e he
        rw [of_decide_eq_true heq, hnone] at hq
        exact absurd hq (by simp)
      have hfew := List.length_filter_le (fun e : CreditLedgerEntry => e.userId = v) new
      rw [hbefore, List.length_nil]
      omega
    · have hother : new.filter (fun e => e.userId = v) = [] := by
        rw [List.filter_eq_nil_iff]
        intro e he heq
        obtain ⟨q, hq⟩ := hold
        rw [← of_decide_eq_true heq, hof e he, hnone] at hq
        exact absurd hq (by simp)
      have hbefore : (s.entriesOf v).length ≤ 1 := hs.granted v hold hvnew
      rw [hother, List.length_nil, Nat.add_zero]
      exact hbefore
  · intro e he
    rw [hledger] at he
    rcases List.mem_append.mp he with he | he
    · exact hstays _ (hs.holders e he)
    · rw [hof e he]
      exact ((hview s hk).knows u).mpr ⟨p, Table.get?_insert_self hnone⟩

/-! ## One save of a profile -/

section Requests

variable {c : Ctx Db Lock Failure}

/-- The counter, locked or started: it is the number of profiles in the end. -/
theorem lockBetaState_spec {s₀ : Db} {post : BetaProgramState → List Write → Ctx Db Lock Failure → Prop}
    (hc : Sends [] (.start s₀) c)
    (hpost : ∀ state c', .betaProgramState ∈ c'.held →
      (∀ s, c'.known s → c'.view s = { s with betaProgramState := some state }
        ∧ (Admitted maxUsers db₀ s → s.headcount = state.claimedSeats)) → post state [] c') :
    swp (admissionProtocol maxUsers db₀) r lockBetaState post [] c := by
  have hview : ∀ s, c.view s = s := fun s => hc.view s
  unfold lockBetaState
  rw [swp_bind, swp_queryForUpdate]
  intro s₁ _ _
  rw [hview]
  cases hstate : s₁.betaProgramState with
  | some state =>
      refine .pick _ (stable_state (o := some state) ?_) hstate ?_
      · exact List.mem_append_left _ (List.mem_singleton_self _)
      refine hpost state _ (List.mem_append_left _ (List.mem_singleton_self _)) ?_
      rintro s ⟨_, hsome⟩
      refine ⟨?_, fun hs => (hs.seats state hsome).symm⟩
      rw [Ctx.view_learn, Ctx.view_hold, Ctx.view_see, hview, ← hsome]
  | none =>
      -- nothing is locked; the count is good until somebody starts a counter
      refine .skip ?_
      rw [swp_bind, swp_query]
      intro s₂ _ _
      rw [Ctx.view_hold, Ctx.view_see, hview]
      refine .pick _ (stable_uncounted (n := s₂.headcount)) (fun _ => rfl) ?_
      simp only [swp_bind, swp_add, swp_flush, swp_pure, List.nil_append, swp_sendAll_cons,
        swp_sendAll_nil]
      rw [swp_execute]
      intro s₃ _ _ hv _
      simp only [Ctx.view_learn, Ctx.view_see, Ctx.view_hold, hview, insertBetaProgramState,
        firstViolated_cons, Option.isSome_eq_false_iff, Option.isNone_iff_eq_none] at hv
      have hheld : Lock.betaProgramState ∈ (insertBetaProgramState ⟨s₂.headcount⟩).rows s₃ :=
        List.mem_singleton_self _
      refine .pick _ (stable_state (o := none) (List.mem_append_left _ hheld)) hv.1 ?_
      refine hpost ⟨s₂.headcount⟩ _ (List.mem_append_left _ hheld) ?_
      rintro s ⟨⟨_, hcount⟩, hnone⟩
      refine ⟨?_, fun _ => hcount hnone⟩
      rw [Ctx.view_learn, Ctx.view_hold, Ctx.view_wrote]
      simp only [Ctx.view_learn, Ctx.view_see, Ctx.view_hold, hview]
      show { s with betaProgramState := some (s.betaProgramState.getD ⟨s₂.headcount⟩) } = _
      rw [hnone]
      rfl

/-- The account, found or opened: it is there when the transaction ends. -/
theorem ensureCreditAccount_spec {post : CreditAccount → List Write → Ctx Db Lock Failure → Prop}
    (hsame : ∀ s, c.known s → (c.view s).creditAccounts = s.creditAccounts)
    (hpost : ∀ account c', (∀ s, Settles u 0 (c.view s) (c'.view s)) →
      (∀ l ∈ c.held, l ∈ c'.held) → (∀ s, c'.known s → c.known s ∧ (c'.view s).HasAccount u) →
      post account [] c') :
    swp (admissionProtocol maxUsers db₀) r (ensureCreditAccount u) post [] c := by
  unfold ensureCreditAccount
  rw [swp_bind, swp_query]
  intro s₁ _ hk
  rw [hsame s₁ hk]
  cases hfound : s₁.creditAccounts.get? u with
  | some account =>
      refine .pick _ (stable_hasCreditAccount (u := u)) ⟨account, hfound⟩ ?_
      refine hpost account _ (fun s => .refl (c.view s)) (fun _ hl => hl) ?_
      rintro s ⟨hks, a, ha⟩
      refine ⟨hks, a, ?_⟩
      rw [Ctx.view_learn, Ctx.view_see, hsame s hks]
      exact ha
  | none =>
      refine .skip ?_
      simp only [swp_bind, swp_add, swp_flush, swp_pure, List.nil_append, swp_sendAll_cons,
        swp_sendAll_nil]
      rw [swp_execute]
      intro s₂ _ _ _ _
      refine .skip (hpost ⟨0⟩ _ (fun s => ?_) (fun _ hl => List.mem_append_right _ hl)
        fun s hks => ⟨hks, ?_⟩)
      · rw [Ctx.view_hold, Ctx.view_wrote]
        exact incidental_openAccount (c.view s)
      rw [Ctx.view_hold, Ctx.view_wrote]
      show ∃ a, ((c.view s).creditAccounts.insert u ⟨0⟩).get? u = some a
      by_cases hnone : (c.view s).creditAccounts.get? u = none
      · exact ⟨⟨0⟩, Table.get?_insert_self hnone⟩
      · obtain ⟨a, ha⟩ := Option.ne_none_iff_exists'.mp hnone
        exact ⟨a, Table.get?_insert_of_some ha⟩

/-- The admission of a new user. -/
theorem admission_safe {s₀ : Db} (settings : Settings) {email : Option String}
    {payload : ProfileUpsert} (hm : settings.publicBetaMaxUsers = maxUsers)
    (hc : Sends [] (.start s₀) c) :
    swp (admissionProtocol maxUsers db₀) r (do
        raiseIf (settings.publicBetaEnabled = false)
          (.domain "Public beta registration is temporarily paused" 403)
        let betaState ← lockBetaState
        raiseIf (settings.publicBetaMaxUsers ≤ betaState.claimedSeats)
          (.domain "The public beta is full; join the waitlist for the next opening" 409)
        add (writeBetaProgramState ⟨betaState.claimedSeats + 1⟩)
        add (insertProfile u (payload.profile email))
        flush
        let _ ← ensureCreditAccount u
        grantSignupCredits settings.signupCreditGrant u
        addAuditEvent (some u) "profile.created" "profile" u []
        flush
        pure (u, payload.profile email))
      (fun _ => swp (admissionProtocol maxUsers db₀) r flush
        fun _ _ c => (admissionProtocol maxUsers db₀).Commits c) [] c := by
  rw [swp_bind, swp_raiseIf]
  intro _
  rw [swp_bind]
  -- the counter is locked from here on, or was started by this transaction
  refine lockBetaState_spec hc fun state c₁ hstate hcounted => ?_
  rw [swp_bind, swp_raiseIf]
  intro hroom
  rw [hm] at hroom
  rw [swp_bind, swp_add, swp_bind, swp_add, swp_bind, swp_flush]
  simp only [List.nil_append, List.cons_append, swp_sendAll_cons, swp_sendAll_nil]
  rw [swp_execute]
  intro s₁ _ _ _ _
  refine .skip ?_
  rw [swp_execute]
  intro s₂ _ hk₂ hv _
  -- the insert went through, so there was no profile, and the lock on its key keeps it so
  have hseen : (c₁.view s₂).profiles.get? u = none := by
    simp only [insertProfile, firstViolated_cons, Ctx.view_hold, Ctx.view_wrote] at hv
    exact Table.contains_eq_false.mp hv.1
  rw [(hcounted s₂ hk₂).1] at hseen
  refine .pick _ (stable_unborn (u := u) ?_) hseen ?_
  · exact List.mem_append_left _ List.mem_cons_self
  -- both writes together enrol the user
  have henrolled : ∀ s, c₁.known s →
      (insertProfile u (payload.profile email)).effect
        ((writeBetaProgramState ⟨state.claimedSeats + 1⟩).effect (c₁.view s))
        = s.enrol u (payload.profile email) state.claimedSeats := by
    intro s hk
    rw [(hcounted s hk).1]
    rfl
  rw [swp_bind]
  refine ensureCreditAccount_spec ?_ fun account c₂ hopened hheld hknown => ?_
  · intro s hk
    rw [Ctx.view_learn, Ctx.view_hold, Ctx.view_wrote, Ctx.view_hold, Ctx.view_wrote,
      henrolled s hk.1]
    rfl
  -- the rest opens an account and grants at most one entry
  have hrest : Moves id (Settles u 1) (do
      grantSignupCredits settings.signupCreditGrant u
      addAuditEvent (some u) "profile.created" "profile" u []
      flush
      pure (u, payload.profile email)) :=
    settles_before grantSignupCredits_settles fun _ =>
      (only_addAuditEvent incidental_event).bind fun _ => only_flush.bind fun _ => only_pure
  refine swp_moves hrest fun c₃ hmoved hheld₃ hknown₃ => ?_
  refine commits_admission (u := u) (n := state.claimedSeats) (p := payload.profile email)
    (hheld₃ _ (hheld _ ?_)) (hheld₃ _ (hheld _ ?_)) (not_le.mp hroom) ?_ ?_ ?_ ?_
  · exact List.mem_append_right _ (List.mem_append_right _ hstate)
  · exact List.mem_append_left _ List.mem_cons_self
  · exact fun s hk => (hknown s (hknown₃ s hk)).1.2
  · exact fun s hs hk => (hcounted s (hknown s (hknown₃ s hk)).1.1).2 hs
  · exact fun s hk => (hmoved s).accounts u (hknown s (hknown₃ s hk)).2
  · intro s hk
    have hwritten := hopened s
    rw [Ctx.view_learn, Ctx.view_hold, Ctx.view_wrote, Ctx.view_hold, Ctx.view_wrote,
      henrolled s (hknown s (hknown₃ s hk)).1.1] at hwritten
    exact (hwritten.trans (hmoved s)).le (Nat.le_refl 1)

/-- A known user's save. -/
theorem saving_safe {s₀ : Db} {loaded : Profile} {email : Option String} {payload : ProfileUpsert}
    (hc : Sends [] (.start s₀) c) :
    swp (admissionProtocol maxUsers db₀) r (do
        add (writeSavedProfile u loaded.username payload.username (payload.set email loaded))
        addAuditEvent (some u) "profile.updated" "profile" u []
        flush
        pure (u, payload.set email loaded loaded))
      (fun _ => swp (admissionProtocol maxUsers db₀) r flush
        fun _ _ c => (admissionProtocol maxUsers db₀).Commits c) [] c := by
  have honly : Only (Incidental u) (do
      add (writeSavedProfile u loaded.username payload.username (payload.set email loaded))
      addAuditEvent (some u) "profile.updated" "profile" u []
      flush
      pure (u, payload.set email loaded loaded)) :=
    (only_add incidental_savedProfile).bind fun _ =>
      (only_addAuditEvent incidental_event).bind fun _ => only_flush.bind fun _ => only_pure
  refine swp_moves (settles_of_only honly) fun c' hmoved _ _ => commits_known (u := u) fun s => ?_
  have hview : c.view s = s := hc.view s
  have hsettles := hmoved s
  rw [hview] at hsettles
  exact hsettles

end Requests

/-- **One save keeps to the protocol.** -/
theorem enrolment_safe (r : Enrolment) :
    (admissionProtocol maxUsers db₀).Safe r (r.program maxUsers) := by
  refine safe_commit fun s₀ _ => ?_
  unfold discard upsertProfile
  rw [swp_bind, swp_bind, swp_query]
  intro s₁ _ _
  refine .skip ?_
  rw [swp_bind, swp_raiseIf]
  intro _
  rw [swp_bind, swp_query]
  intro s₂ _ _
  refine .skip ?_
  simp only [Ctx.view_see, Ctx.view_start]
  have hc : Sends [] (.start s₀) (((Ctx.start s₀ : Ctx Db Lock Failure).see s₁).see s₂) :=
    Sends.see.trans .see
  cases s₂.profiles.get? r.userId with
  | none => exact admission_safe { r.settings with publicBetaMaxUsers := maxUsers } rfl hc
  | some loaded => exact saving_safe hc

/-- **What admission promises**, since the database was `db₀`. -/
structure Seated (maxUsers : Nat) (db₀ db : Db) : Prop where
  room : db.headcount ≤ maxUsers
  counted : ∀ state, db.betaProgramState = some state → state.claimedSeats = db.headcount
  accounts : ∀ u, db.Knows u → ¬db₀.Knows u → db.HasAccount u
  grants : ∀ u, db.Knows u → ¬db₀.Knows u →
    (db.entriesOf u).countP (fun e => e.entryType = .signupGrant) ≤ 1

/-- **The beta is never oversold**, in whatever order the saves of profiles take their steps. -/
theorem beta_seats {db : Db}
    (hseats : ∀ state, db.betaProgramState = some state → state.claimedSeats = db.headcount)
    (hroom : db.headcount ≤ maxUsers) (hholders : ∀ e ∈ db.creditLedgerEntries, db.Knows e.userId)
    (next : Nat) {acts : List (Act Enrolment)} {w : AdmissionWorld}
    (h : Runs (World.Step (Enrolment.program maxUsers) fun _ => true) (.idle db next) acts w) :
    Seated maxUsers db w.db := by
  have hstart : Admitted maxUsers db db :=
    ⟨hseats, hroom, fun u hu hnew => absurd hu hnew, fun u hu hnew => absurd hu hnew, hholders⟩
  have hinv := (Protocol.good_runs (P := admissionProtocol maxUsers db) enrolment_safe
    (Protocol.good_idle hstart next) h).inv
  refine ⟨hinv.room, hinv.seats, hinv.accounts, fun u hu hnew => ?_⟩
  exact Nat.le_trans List.countP_le_length (hinv.granted u hu hnew)

/-- The first save of a user. -/
def firstSave (u : Uuid) (username : String) : Enrolment where
  settings := {}
  userId := u
  email := none
  payload := { username := username, displayName := username }

/-- Both count the profiles before the other takes the only seat; the second has to fail. -/
def rushSchedule : List (Act Enrolment) :=
  .start 1 (firstSave 1 "ada") :: .start 2 (firstSave 2 "bob") :: moves 1 4 ++ moves 2 4
    ++ moves 1 17 ++ moves 2 3

theorem beta_seats_rush :
    ∃ w, (World.idle Db.empty 0).run (Enrolment.program 1) rushSchedule = some w
      ∧ w.db.headcount = 1 ∧ Seated 1 Db.empty w.db := by
  have hrun : ((World.idle Db.empty 0).run (Enrolment.program 1) rushSchedule).map
      (fun w => w.db.headcount) = some 1 := by decide +kernel
  obtain ⟨w, hw, hcount⟩ := Option.map_eq_some_iff.mp hrun
  refine ⟨w, hw, hcount, ?_⟩
  exact beta_seats (by simp [Db.empty]) (by decide) (by simp [Db.empty]) 0
    (World.runs_iff_run.mpr hw)

end TestExchange
