import TestExchange.Model.Reading
import TestExchange.Proof.References
import TestExchange.Proof.Widths
import TestExchange.Rate.Quota
import TestExchange.Txn.Checked

/-!
# The published seat count

The status of the beta and the admission to it are two pieces of code: one reads
the counter, or counts the profiles if there is none, the other locks or starts
it. They agree: new users who ask one after the other are admitted as long as
seats remain (`Quota.Metered`), and the status before a request says how it ends.

That is, if their profiles can be stored. Here the columns have their widths, and a
user with too long an address or picture URL meets the database's error instead of
the free seat.
-/

namespace TestExchange

open Txn Txn.Session

/-- A user's request to save a profile. -/
structure Signup where
  now : Time
  userId : Uuid
  email : Option String
  payload : ProfileUpsert

/-- The columns of `profiles` take what the request stores. -/
def Signup.Held (r : Signup) : Prop := (r.payload.profile r.email).Columns Varchar

instance (r : Signup) : Decidable r.Held :=
  inferInstanceAs (Decidable ((r.payload.profile r.email).Columns Varchar))

/-- Of an accepted body, only the URL of the picture may be too long, besides the address. -/
theorem Signup.held_iff {r : Signup} {body : ProfileUpsert} (h : body.parse = some r.payload) :
    r.Held ↔ (∀ s ∈ r.email, Varchar 320 s) ∧ ∀ url ∈ r.payload.avatarUrl, Varchar 500 url.str := by
  obtain ⟨husername, hdisplay, hbio⟩ := ProfileUpsert.parse_bounded h
  constructor
  · exact fun hheld => ⟨hheld.email, Option.forall_mem_map.mp hheld.avatarUrl⟩
  · rintro ⟨hemail, hurl⟩
    exact ⟨hemail, varchar_of_length _ _ husername, varchar_of_length _ _ hdisplay,
      fun s hs => varchar_of_length _ _ (hbio s hs), Option.forall_mem_map.mpr hurl,
      fun s hs => by cases hs⟩

/-- Serve one of them: commit what it did, or report its error and roll it all back. -/
def Service.signUp (settings : Settings) (s : Service) (r : Signup) : Option Failure × Service :=
  match ((upsertProfile settings r.userId r.email r.payload).commit.checked Db.tooWide).alone r.now
    s.db s.nextId with
  | .ok (_, db, nextId) => (none, ⟨db, nextId⟩)
  | .error e => (some e, s)

/-- What `beta_status` returns. -/
def Service.betaStatus (settings : Settings) (s : Service) : Except Failure (Nat × Nat × Bool) :=
  ((TestExchange.betaStatus settings.publicBetaEnabled settings.publicBetaMaxUsers).commit.alone 0
    s.db s.nextId).map (·.1)

/-- `ck_credit_balance_nonnegative` -/
def Db.Solvent (db : Db) : Prop := ∀ u account, db.creditAccounts.get? u = some account →
  0 ≤ account.balance

/-- Different users without profiles, who ask for different usernames nobody has. -/
structure Newcomers (s : Service) (signups : List Signup) : Prop where
  ids : ∀ r ∈ signups, r.userId < uuidBound
  users : (signups.map (·.userId)).Nodup
  unknown : ∀ r ∈ signups, s.db.profiles.get? r.userId = none
  usernames : (signups.map (·.payload.username)).Nodup
  unused : ∀ r ∈ signups, ∀ u p, s.db.profiles.get? u = some p → p.username ≠ r.payload.username
  solvent : s.db.Solvent
  held : s.db.Held

/-- The claimed seats, counted if there is no counter. -/
def Db.claimedSeats (db : Db) : Nat :=
  db.betaProgramState.elim (db.profiles.count fun _ => true) (·.claimedSeats)

/-- The seats that remain. -/
def Service.remainingSeats (settings : Settings) (s : Service) : Nat :=
  if settings.publicBetaEnabled then settings.publicBetaMaxUsers - s.db.claimedSeats else 0

variable {settings : Settings} {s : Service} {r : Signup} {signups : List Signup} {db d : Db}
  {now n bound : Nat} {u : Uuid} {c : Conn}

theorem betaStatus_eq : s.betaStatus settings = .ok (s.db.claimedSeats, s.remainingSeats settings,
    !settings.publicBetaEnabled || settings.publicBetaMaxUsers ≤ s.db.claimedSeats) := rfl

/-- The beta is full when no seats remain. -/
theorem full_iff : (!settings.publicBetaEnabled
      || decide (settings.publicBetaMaxUsers ≤ s.db.claimedSeats)) = true
    ↔ s.remainingSeats settings = 0 := by
  unfold Service.remainingSeats
  cases settings.publicBetaEnabled with
  | false => simp
  | true =>
      simp only [Bool.not_true, Bool.false_or, decide_eq_true_eq, if_true]
      omega

/-! ## One admission -/

/-- The database with a counter of the claimed seats. -/
def Db.counted (db : Db) : Db := { db with betaProgramState := some ⟨db.claimedSeats⟩ }

theorem lockBetaState_alone : lockBetaState.alone now ⟨db, [], n⟩
    = .ok (⟨db.claimedSeats⟩, ⟨db.counted, [], n⟩) := by
  unfold lockBetaState
  rw [alone_queryForUpdate_bind]
  cases hstate : db.betaProgramState with
  | some state =>
      have hclaimed : db.claimedSeats = state.claimedSeats := by
        unfold Db.claimedSeats
        rw [hstate]
        rfl
      have hcounted : db.counted = db := by
        unfold Db.counted
        rw [hclaimed, ← hstate]
      rw [hclaimed, hcounted]
      rfl
  | none =>
      have hclaimed : db.claimedSeats = db.profiles.count fun _ => true := by
        unfold Db.claimedSeats
        rw [hstate]
        rfl
      have hcounted : (insertBetaProgramState ⟨db.claimedSeats⟩).effect db = db.counted := by
        show { db with betaProgramState := some (db.betaProgramState.getD ⟨db.claimedSeats⟩) } = _
        rw [hstate]
        rfl
      have hstarted : applyAll [insertBetaProgramState ⟨db.claimedSeats⟩] db = some db.counted := by
        refine applyAll_cons.mpr ⟨?_, by rw [hcounted]; rfl⟩
        simp [insertBetaProgramState, hstate]
      simp only [alone_query_bind, alone_add_bind, List.nil_append]
      rw [← hclaimed]
      refine alone_bind.mpr ⟨(), _, alone_flush.mpr ⟨db.counted, hstarted, rfl⟩, rfl⟩

/-- Nothing is queued, and seats and profiles are those of `d`. -/
structure Stands (d : Db) (c : Conn) : Prop where
  pending : c.pending = []
  state : c.db.betaProgramState = d.betaProgramState
  profiles : c.db.profiles = d.profiles
  solvent : c.db.Solvent

theorem Stands.knows (h : Stands d c) (hu : d.Knows u) : c.db.Knows u := by
  obtain ⟨p, hp⟩ := hu
  exact ⟨p, by rw [h.profiles]; exact hp⟩

theorem solvent_insert {a : CreditAccount} (h : db.Solvent) (ha : 0 ≤ a.balance) {v : Uuid}
    {b : CreditAccount} (hb : (db.creditAccounts.insert u a).get? v = some b) : 0 ≤ b.balance := by
  rcases Table.get?_insert_cases hb with hold | ⟨-, rfl, -⟩
  · exact h v b hold
  · exact ha

theorem solvent_modify {a : CreditAccount} (h : db.Solvent) (ha : 0 ≤ a.balance) {v : Uuid}
    {b : CreditAccount} (hb : (db.creditAccounts.modify u fun _ => a).get? v = some b) :
    0 ≤ b.balance := by
  rcases Table.get?_modify_cases hb with ⟨-, -, -, rfl⟩ | ⟨-, hold⟩
  · exact ha
  · exact h v b hold

theorem ensureCreditAccount_stands (h : Stands d c) (hu : d.Knows u) :
    Returns (ensureCreditAccount u) now c fun a c' => Stands d c' ∧ 0 ≤ a.balance
      ∧ c'.db.creditLedgerEntries = c.db.creditLedgerEntries := by
  unfold ensureCreditAccount
  simp only [Returns, alone_query_bind]
  cases haccount : c.db.creditAccounts.get? u with
  | some account => exact returns_pure ⟨h, h.solvent u account haccount, rfl⟩
  | none =>
      simp only [alone_add_bind, h.pending, List.nil_append]
      refine (returns_flush (s := (insertCreditAccount u ⟨0⟩).effect c.db)
        (Q := fun _ c' => Stands d c' ∧ c'.db.creditLedgerEntries = c.db.creditLedgerEntries)
        (applyAll_cons.mpr ⟨?_, rfl⟩) ⟨⟨rfl, h.state, h.profiles, ?_⟩, rfl⟩).bind ?_
      · exact insertCreditAccount_accepted haccount (h.knows hu)
      · exact fun v b hb => solvent_insert h.solvent (Int.le_refl 0) hb
      · rintro _ c' ⟨hstands, hledger⟩
        exact returns_pure ⟨hstands, Int.le_refl 0, hledger⟩

theorem getCreditAccountForUpdate_stands (h : Stands d c) (hu : d.Knows u) :
    Returns (getCreditAccountForUpdate u) now c fun a c' => Stands d c' ∧ 0 ≤ a.balance
      ∧ c'.db.creditLedgerEntries = c.db.creditLedgerEntries := by
  unfold getCreditAccountForUpdate
  simp only [Returns, selectForUpdate, alone_queryForUpdate_bind]
  cases haccount : c.db.creditAccounts.get? u with
  | some account => exact returns_pure ⟨h, h.solvent u account haccount, rfl⟩
  | none => exact ensureCreditAccount_stands h hu

/-- A grant is entered, unless its key has been used. -/
theorem recordCreditEntry_stands {change : CreditChange} (h : Stands d c)
    (hu : d.Knows change.userId) (hby : change.createdBy = some change.userId)
    (hdelta : 0 < change.delta) : Returns (recordCreditEntry change) now c fun _ c' =>
      Stands d c' := by
  unfold recordCreditEntry
  simp only [Returns, alone_query_bind]
  cases hkey : c.db.creditLedgerEntries.find?
      fun e => e.idempotencyKey = change.idempotencyKey with
  | some entry => exact returns_pure h
  | none =>
      have hnonzero : ¬change.delta = 0 := by omega
      simp only [alone_raiseIf_bind hnonzero]
      refine (getCreditAccountForUpdate_stands h hu).bind ?_
      rintro account c₁ ⟨h₁, hbalance, hledger⟩
      have hfunds : ¬account.balance + change.delta < 0 := by omega
      simp only [Returns, alone_raiseIf_bind hfunds, alone_add_bind, alone_uuid4_bind, h₁.pending,
        List.nil_append, List.cons_append]
      have hknows := h₁.knows hu
      refine (returns_flush (s := (insertCreditLedgerEntry (change.entry c₁.next)).effect
          ((writeCreditAccount change.userId (account.balance + change.delta)).effect c₁.db))
        (Q := fun _ c' => Stands d c') (applyAll_cons.mpr ⟨?_, applyAll_cons.mpr ⟨?_, rfl⟩⟩)
        ⟨rfl, h₁.state, h₁.profiles, ?_⟩).bind fun _ c' hstands => returns_pure hstands
      · exact writeCreditAccount_accepted hfunds
      · refine insertCreditLedgerEntry_accepted (fun e he => ?_) hnonzero hknows hby hknows
        have hmem : e ∈ c₁.db.creditLedgerEntries := he
        rw [hledger] at hmem
        have hother := List.find?_eq_none.mp hkey e hmem
        exact fun hsame => hother (decide_eq_true hsame)
      · exact fun v b hb => solvent_modify h₁.solvent (not_lt.mp hfunds) hb

/-- What follows the admission itself: account, grant and audit event. -/
theorem welcome_stands {p : Profile} (h : Stands d c) (hu : d.Knows u) :
    Returns (do
        let _ ← ensureCreditAccount u
        grantSignupCredits settings.signupCreditGrant u
        addAuditEvent (some u) "profile.created" "profile" u []
        flush
        pure (u, p)) now c fun _ c' => Stands d c' := by
  refine (ensureCreditAccount_stands h hu).bind ?_
  rintro account c₁ ⟨h₁, -, -⟩
  have hgrant : Returns (grantSignupCredits settings.signupCreditGrant u) now c₁ fun _ c' =>
      Stands d c' := by
    unfold grantSignupCredits
    split
    · rename_i hpositive
      have hdelta : 0 < (signupGrantEntry settings.signupCreditGrant u).delta :=
        Int.natCast_pos.mpr hpositive
      exact (recordCreditEntry_stands h₁ hu rfl hdelta).bind fun _ c' hc => returns_pure hc
    · exact returns_pure h₁
  refine hgrant.bind ?_
  intro _ c₂ h₂
  simp only [Returns, addAuditEvent, alone_add_bind, h₂.pending, List.nil_append]
  refine (returns_flush (s := (insertAuditEvent ⟨some u, "profile.created", "profile", u, []⟩).effect
      c₂.db) (Q := fun _ c' => Stands d c') (applyAll_cons.mpr ⟨?_, rfl⟩)
    ⟨rfl, h₂.state, h₂.profiles, h₂.solvent⟩).bind fun _ c' hc => returns_pure hc
  exact insertAuditEvent_accepted rfl (h₂.knows hu)

/-- The database with the new profile, which takes a seat. -/
def Db.seated (db : Db) (u : Uuid) (p : Profile) : Db :=
  { db with
    betaProgramState := some ⟨db.claimedSeats + 1⟩
    profiles := db.profiles.insert u p }

theorem Newcomers.first (h : Newcomers s (r :: signups)) : s.db.profiles.get? r.userId = none
    ∧ ∀ u p, s.db.profiles.get? u = some p → p.username ≠ r.payload.username :=
  ⟨h.unknown r List.mem_cons_self, h.unused r List.mem_cons_self⟩

/-- As long as the username is free, a new user's request comes to the admission. -/
theorem upsertProfile_new (h : Newcomers s (r :: signups)) :
    (upsertProfile settings r.userId r.email r.payload).alone now ⟨s.db, [], n⟩ = (do
      raiseIf (settings.publicBetaEnabled = false)
        (.domain "Public beta registration is temporarily paused" 403)
      let betaState ← lockBetaState
      raiseIf (settings.publicBetaMaxUsers ≤ betaState.claimedSeats)
        (.domain "The public beta is full; join the waitlist for the next opening" 409)
      add (writeBetaProgramState ⟨betaState.claimedSeats + 1⟩)
      add (insertProfile r.userId (r.payload.profile r.email))
      flush
      let _ ← ensureCreditAccount r.userId
      grantSignupCredits settings.signupCreditGrant r.userId
      addAuditEvent (some r.userId) "profile.created" "profile" r.userId []
      flush
      pure (r.userId, r.payload.profile r.email) : Session (Uuid × Profile)).alone now
        ⟨s.db, [], n⟩ := by
  obtain ⟨hunknown, hunused⟩ := h.first
  have howner : s.db.profiles.find? (fun _ p => p.username = r.payload.username) = none :=
    Table.find?_eq_none.mpr fun k p hp => decide_eq_false (hunused k p hp)
  unfold upsertProfile
  rw [alone_query_bind, howner, alone_raiseIf_bind (by simp), alone_query_bind, hunknown]

theorem full_seats (hfull : s.remainingSeats settings = 0)
    (hpaused : ¬settings.publicBetaEnabled = false) :
    settings.publicBetaMaxUsers ≤ s.db.claimedSeats := by
  simp only [Bool.not_eq_false] at hpaused
  simp only [Service.remainingSeats, hpaused, if_true] at hfull
  omega

/-- **A new user is admitted while seats remain**, as far as the service is concerned. -/
theorem upsertProfile_admits (h : Newcomers s (r :: signups))
    (hroom : 0 < s.remainingSeats settings) :
    ∃ a c, (upsertProfile settings r.userId r.email r.payload).commit.alone r.now s.db s.nextId
        = .ok (a, c.db, c.next)
      ∧ Stands (s.db.seated r.userId (r.payload.profile r.email)) c := by
  obtain ⟨hunknown, hunused⟩ := h.first
  have hopen : ¬settings.publicBetaEnabled = false := by
    intro hpaused
    simp [Service.remainingSeats, hpaused] at hroom
  have hseats : ¬settings.publicBetaMaxUsers ≤ s.db.claimedSeats := by
    intro hfull
    unfold Service.remainingSeats at hroom
    split at hroom <;> omega
  have hadmitted : Returns (upsertProfile settings r.userId r.email r.payload) r.now
      ⟨s.db, [], s.nextId⟩ fun _ c =>
        Stands (s.db.seated r.userId (r.payload.profile r.email)) c := by
    simp only [Returns, upsertProfile_new h, alone_raiseIf_bind hopen]
    refine Returns.bind (Q := fun state c => state = ⟨s.db.claimedSeats⟩
      ∧ c = ⟨s.db.counted, [], s.nextId⟩) ⟨_, _, lockBetaState_alone, rfl, rfl⟩ ?_
    rintro _ _ ⟨rfl, rfl⟩
    simp only [Returns, alone_raiseIf_bind hseats, alone_add_bind, List.nil_append,
      List.cons_append]
    refine (returns_flush (s := s.db.seated r.userId (r.payload.profile r.email))
      (Q := fun _ c => Stands (s.db.seated r.userId (r.payload.profile r.email)) c)
      (applyAll_cons.mpr ⟨rfl, applyAll_cons.mpr ⟨?_, rfl⟩⟩)
      ⟨rfl, rfl, rfl, h.solvent⟩).bind fun _ c hc => welcome_stands hc ?_
    · simp only [insertProfile, firstViolated_cons, firstViolated_nil, and_true]
      refine ⟨Table.contains_eq_false.mpr hunknown, Table.any_eq_false.mpr fun k p hp => ?_⟩
      exact decide_eq_false (hunused k p hp)
    · exact ⟨_, Table.get?_insert_self hunknown⟩
  obtain ⟨a, c, hok, hstands⟩ := hadmitted
  exact ⟨a, c, commit_alone.mpr ⟨c, hok, by rw [hstands.pending]; rfl, rfl⟩, hstands⟩

/-- And refused, with the service's own error, when none do. -/
theorem upsertProfile_refuses (h : Newcomers s (r :: signups))
    (hfull : s.remainingSeats settings = 0) : ∃ message status,
      (upsertProfile settings r.userId r.email r.payload).commit.alone r.now s.db s.nextId
        = .error (.domain message status) := by
  have hfails : ∃ message status, Fails (upsertProfile settings r.userId r.email r.payload) r.now
      ⟨s.db, [], s.nextId⟩ (.domain message status) := by
    unfold Fails
    simp only [upsertProfile_new h]
    by_cases hpaused : settings.publicBetaEnabled = false
    · exact ⟨_, _, (fails_raiseIf hpaused).bind⟩
    · have hseats := full_seats hfull hpaused
      rw [alone_raiseIf_bind hpaused, alone_bind_eq, lockBetaState_alone]
      exact ⟨_, _, (fails_raiseIf hseats).bind⟩
  obtain ⟨message, status, hfails⟩ := hfails
  exact ⟨message, status, hfails.commit⟩

/-! ### With the columns as wide as they are -/

/-- So does the grant, whoever it is for. -/
theorem grant_holds {grant : Nat} (hu : u < uuidBound) :
    SafeChange (fun _ db => db.Held) n (signupGrantEntry grant u) where
  account _ _ _ hs := { hs with }
  balance _ _ _ _ hs := { hs with }
  entry _ _ _ _ hs := columns_insertCreditLedgerEntry hs
    ((signupGrant_fits hu : (signupGrantEntry grant u).Fits).entry.mono varchar_of_length)

/-- What is written fits if the profile does. -/
theorem upsertProfile_holds (huser : r.userId < uuidBound) (hr : r.Held) :
    Upholds (fun _ db => db.Held) bound n (upsertProfile settings r.userId r.email r.payload)
      fun _ _ => True :=
  upholds_upsertProfile
    { counter := fun _ _ _ _ hs => { hs with }
      seat := fun _ _ _ _ hs => { hs with }
      created := fun _ _ _ hs => { hs with profiles := hs.profiles.insert hr }
      updated := fun _ _ _ _ _ hs => { hs with profiles := hs.profiles.modify fun _ hp => hr.set hp }
      grant := grant_holds huser
      event := fun _ haction _ _ _ hs => columns_insertAuditEvent hs
        ⟨varchar_of_length _ _ haction, varchar_of_length 80 "profile" (by decide)⟩ }

/-- **A new user with a profile that fits is admitted while seats remain.** -/
theorem signUp_admits (h : Newcomers s (r :: signups)) (hroom : 0 < s.remainingSeats settings)
    (hr : r.Held) :
    (s.signUp settings r).1 = none
      ∧ (s.signUp settings r).2.db.betaProgramState = some ⟨s.db.claimedSeats + 1⟩
      ∧ (s.signUp settings r).2.db.profiles
        = s.db.profiles.insert r.userId (r.payload.profile r.email)
      ∧ (s.signUp settings r).2.db.Solvent ∧ (s.signUp settings r).2.db.Held := by
  obtain ⟨a, c, hcommit, hstands⟩ := upsertProfile_admits h hroom
  have hholds : ∀ bound,
      (∀ l ∈ (upsertProfile settings r.userId r.email r.payload).commit.leaves r.now s.db s.nextId,
        l.1 ≤ bound → l.2.Held)
      ∧ ∀ a db n, (upsertProfile settings r.userId r.email r.payload).commit.alone r.now s.db
        s.nextId = .ok (a, db, n) → n ≤ bound → db.Held := fun bound =>
    (upsertProfile_holds (h.ids r List.mem_cons_self) hr).commit h.held fun _ _ _ hs => hs
  -- nothing on the way is refused, so the check makes no difference
  have hchecked := Program.checked_eq fun l hl =>
    tooWide_eq_none.mpr ((hholds l.1).1 l hl (Nat.le_refl _))
  have hserved : s.signUp settings r = (none, ⟨c.db, c.next⟩) := by
    unfold Service.signUp
    rw [hchecked, hcommit]
  rw [hserved]
  exact ⟨rfl, hstands.state, hstands.profiles, hstands.solvent,
    (hholds c.next).2 _ _ _ hcommit (Nat.le_refl _)⟩

/-- **With one that does not, the seat is of no use.** -/
theorem signUp_overflows (h : Newcomers s (r :: signups)) (hroom : 0 < s.remainingSeats settings)
    (hr : ¬r.Held) : (s.signUp settings r).1 = some (.unhandled "DataError") := by
  obtain ⟨a, c, hcommit, hstands⟩ := upsertProfile_admits h hroom
  have hrow : c.db.profiles.get? r.userId = some (r.payload.profile r.email) := by
    rw [hstands.profiles]
    exact Table.get?_insert_self h.first.1
  have hheld : ¬c.db.Held := fun hheld => hr (hheld.profiles r.userId _ hrow)
  obtain ⟨e, t, herror, ht⟩ := Program.checked_refused hcommit (tooWide_eq_none.mpr h.held)
    (mt tooWide_eq_none.mp hheld)
  unfold Service.signUp
  rw [herror, eq_of_tooWide ht]

/-- As it was, or with the counter started. -/
def Unseated (d db : Db) : Prop := db = d ∨ db = d.counted

theorem lockBetaState_unseated : Upholds (fun _ db => Unseated d db) bound n lockBetaState
    fun k state => k = n ∧ state.claimedSeats = d.claimedSeats := by
  refine upholds_queryForUpdate_bind fun db hdb => ?_
  cases hstate : db.betaProgramState with
  | some state =>
      refine upholds_pure ⟨rfl, ?_⟩
      rcases hdb with rfl | rfl
      · unfold Db.claimedSeats
        rw [hstate]
        rfl
      · exact congrArg BetaProgramState.claimedSeats (Option.some.inj hstate).symm
  | none =>
      have hnone : d.betaProgramState = none := by
        rcases hdb with rfl | rfl
        · exact hstate
        · cases hstate
      have hclaimed : d.claimedSeats = d.profiles.count fun _ => true := by
        unfold Db.claimedSeats
        rw [hnone]
        rfl
      refine upholds_query_bind fun db' hdb' => ?_
      have hcount : db'.profiles.count (fun _ => true) = d.claimedSeats := by
        rw [hclaimed]
        rcases hdb' with rfl | rfl <;> rfl
      rw [hcount]
      refine upholds_add_bind ?_ (upholds_flush_bind (upholds_pure ⟨rfl, rfl⟩))
      rintro m - t (rfl | rfl)
      · refine Or.inr ?_
        show { t with betaProgramState := some (t.betaProgramState.getD ⟨t.claimedSeats⟩) } = _
        rw [hnone]
        rfl
      · exact Or.inr rfl

/-- Without a seat, nothing is written but the counter. -/
theorem upsertProfile_unseated (h : Newcomers s (r :: signups))
    (hfull : s.remainingSeats settings = 0) : Upholds (fun _ db => Unseated s.db db) bound n
      (upsertProfile settings r.userId r.email r.payload) fun _ _ => True := by
  refine upholds_query_bind fun _ _ => upholds_raiseIf_bind fun _ =>
    upholds_query_bind fun db hdb => ?_
  have hnew : db.profiles.get? r.userId = none := by
    rcases hdb with rfl | rfl <;> exact h.first.1
  rw [hnew]
  refine upholds_raiseIf_bind fun hopen => lockBetaState_unseated.bind fun k state _ hstate =>
    upholds_raiseIf_bind fun hroom => ?_
  rw [hstate.2] at hroom
  exact absurd (full_seats hfull hopen) hroom

/-- **And refused, with the service's own error, when none remain.** -/
theorem signUp_refuses (h : Newcomers s (r :: signups)) (hfull : s.remainingSeats settings = 0) :
    (∃ e, (s.signUp settings r).1 = some e ∧ ∃ message status, e = .domain message status)
      ∧ (s.signUp settings r).2 = s := by
  obtain ⟨message, status, hfails⟩ := upsertProfile_refuses h hfull
  have hleft : ∀ l ∈ (upsertProfile settings r.userId r.email r.payload).commit.leaves r.now s.db
      s.nextId, Unseated s.db l.2 := fun l hl =>
    ((upsertProfile_unseated h hfull).commit (Or.inl rfl) fun _ _ _ hs => hs).1 l hl (Nat.le_refl _)
  have hheld : ∀ l ∈ (upsertProfile settings r.userId r.email r.payload).commit.leaves r.now s.db
      s.nextId, l.2.tooWide = none := by
    intro l hl
    refine tooWide_eq_none.mpr ?_
    -- a counter that was started has no columns to fit
    rcases hleft l hl with hsame | hcounted
    · rw [hsame]
      exact h.held
    · rw [hcounted]
      exact { h.held with }
  have hchecked := Program.checked_eq hheld
  have hserved : s.signUp settings r = (some (.domain message status), s) := by
    unfold Service.signUp
    rw [hchecked, hfails]
  rw [hserved]
  exact ⟨⟨_, rfl, message, status, rfl⟩, rfl⟩

/-! ## One after the other -/

/-- Those who are left are still new. -/
theorem Newcomers.rest (h : Newcomers s (r :: signups)) {s' : Service}
    (hprofiles : s'.db.profiles = s.db.profiles.insert r.userId (r.payload.profile r.email))
    (hsolvent : s'.db.Solvent) (hheld : s'.db.Held) : Newcomers s' signups := by
  obtain ⟨huser, husers⟩ := List.nodup_cons.mp h.users
  obtain ⟨hname, hnames⟩ := List.nodup_cons.mp h.usernames
  refine ⟨fun q hq => h.ids q (List.mem_cons_of_mem _ hq), husers, fun q hq => ?_, hnames,
    fun q hq u p hp => ?_, hsolvent, hheld⟩
  · have hne : q.userId ≠ r.userId := by
      intro heq
      have hmem := List.mem_map_of_mem (f := fun q : Signup => q.userId) hq
      rw [heq] at hmem
      exact huser hmem
    rw [hprofiles, Table.get?_insert_ne hne]
    exact h.unknown q (List.mem_cons_of_mem _ hq)
  · rw [hprofiles] at hp
    rcases Table.get?_insert_cases hp with hold | ⟨-, rfl, -⟩
    · exact h.unused q (List.mem_cons_of_mem _ hq) u p hold
    · intro heq
      have hmem := List.mem_map_of_mem (f := fun q : Signup => q.payload.username) hq
      rw [← heq] at hmem
      exact hname hmem

/-- **The seats are a quota.** -/
theorem signUp_metered : Quota.Metered (Service.signUp settings) (Service.remainingSeats settings)
    Newcomers Signup.Held fun e => ∃ message status, e = .domain message status where
  admits := by
    intro s r signups h hroom hr
    obtain ⟨hserved, hstate, hprofiles, hsolvent, hheld⟩ := signUp_admits h hroom hr
    refine ⟨hserved, ?_, h.rest hprofiles hsolvent hheld⟩
    have hclaimed : (s.signUp settings r).2.db.claimedSeats = s.db.claimedSeats + 1 := by
      unfold Db.claimedSeats
      rw [hstate]
      rfl
    unfold Service.remainingSeats at hroom ⊢
    rw [hclaimed]
    split at hroom
    · rename_i henabled
      rw [if_pos henabled, if_pos henabled]
      omega
    · omega
  fails := by
    intro s r signups h hroom hr
    rw [signUp_overflows h hroom hr]
    simp
  refuses := fun s r signups h hfull => signUp_refuses h hfull
  skips := fun s r signups h => ⟨fun q hq => h.ids q (List.mem_cons_of_mem _ hq),
    (List.nodup_cons.mp h.users).2, fun q hq => h.unknown q (List.mem_cons_of_mem _ hq),
    (List.nodup_cons.mp h.usernames).2, fun q hq => h.unused q (List.mem_cons_of_mem _ hq),
    h.solvent, h.held⟩

/-- What the status says comes true: who is admitted, who is refused, what is left, who is next. -/
structure Predicted (settings : Settings) (s : Service) (signups : List Signup) (remaining : Nat) :
    Prop where
  admitted : ∀ answer ∈ (Quota.answers (Service.signUp settings) s signups).take
    (min signups.length remaining), answer = none
  refused : ∀ answer ∈ (Quota.answers (Service.signUp settings) s signups).drop
    (min signups.length remaining), ∃ message status, answer = some (.domain message status)
  left : ∃ claimed isFull, (Quota.after (Service.signUp settings) s signups).betaStatus settings
    = .ok (claimed, remaining - min signups.length remaining, isFull)
  next : ∀ before r rest, signups = before ++ r :: rest → ∃ claimed remaining isFull,
    (Quota.after (Service.signUp settings) s before).betaStatus settings
        = .ok (claimed, remaining, isFull)
      ∧ (isFull = true
        ↔ ((Quota.after (Service.signUp settings) s before).signUp settings r).1 ≠ none)

/--
**The status predicts admission** of new users who ask one after the other: as many
are admitted as seats remain, the first ones, and the others are refused by the
service; the status counts down with them, and says before each request how it
ends. This takes that the profiles of those it has seats for can be stored.
-/
theorem status_predicts_admission (settings : Settings) (s : Service) (signups : List Signup)
    (h : Newcomers s signups) (claimed remaining : Nat) (isFull : Bool)
    (hstatus : s.betaStatus settings = .ok (claimed, remaining, isFull)) :
    Predicted settings s signups remaining ↔ ∀ r ∈ signups.take remaining, r.Held := by
  rw [betaStatus_eq] at hstatus
  obtain ⟨-, hrest⟩ := Prod.mk.inj (Except.ok.inj hstatus)
  obtain ⟨rfl, -⟩ := Prod.mk.inj hrest
  constructor
  · exact fun hpredicted => (signUp_metered.admitted_iff h).mp hpredicted.admitted
  · intro hheld
    have hready : Quota.Ready (Service.remainingSeats settings) Newcomers Signup.Held s signups :=
      ⟨h, hheld⟩
    refine ⟨(signUp_metered.admitted_iff h).mpr hheld, ?_, ?_, ?_⟩
    · intro answer hanswer
      obtain ⟨e, rfl, message, status, rfl⟩ := signUp_metered.refused hready answer hanswer
      exact ⟨message, status, rfl⟩
    · rw [betaStatus_eq, signUp_metered.free_after hready]
      exact ⟨_, _, rfl⟩
    · rintro before r rest rfl
      refine ⟨_, _, _, betaStatus_eq, ?_⟩
      rw [full_iff]
      exact signUp_metered.next_fails_iff hready

/-- Two users who want the only seat. -/
def rivals : List Signup :=
  [⟨0, 1, none, { username := "ada", displayName := "Ada" }⟩,
   ⟨1, 2, none, { username := "bob", displayName := "Bob" }⟩]

theorem rivals_new : Newcomers .init rivals where
  ids := by decide
  users := by decide
  unknown := by decide
  usernames := by decide
  unused := fun r _ u p hp => absurd hp (by simp [Service.init, Db.empty])
  solvent := fun u a ha => absurd ha (by simp [Service.init, Db.empty])
  held := held_of_fits kept_empty.toFits

theorem rivals_held : ∀ r ∈ rivals.take 1, r.Held := by
  intro r hr
  obtain rfl := List.mem_singleton.mp hr
  exact
    { email := fun s hs => by cases hs
      username := varchar_of_length 40 "ada" (by decide)
      displayName := varchar_of_length 100 "Ada" (by decide)
      bio := fun s hs => by cases hs
      avatarUrl := fun s hs => by cases hs
      suspensionReason := fun s hs => by cases hs }

theorem status_predicts_admission_rivals :
    Service.init.betaStatus { publicBetaMaxUsers := 1 } = .ok (0, 1, false)
      ∧ Predicted { publicBetaMaxUsers := 1 } .init rivals 1 := by
  have hstatus : Service.init.betaStatus { publicBetaMaxUsers := 1 } = .ok (0, 1, false) := rfl
  exact ⟨hstatus, (status_predicts_admission { publicBetaMaxUsers := 1 } .init rivals rivals_new 0 1
    false hstatus).mpr rivals_held⟩

/-- A user with a picture whose URL is too long for its column. -/
def pictured : List Signup := [⟨0, 1, none, longPicture⟩]

theorem pictured_new : Newcomers .init pictured where
  ids := by decide
  users := by decide
  unknown := by decide
  usernames := by decide
  unused := fun r _ u p hp => absurd hp (by simp [Service.init, Db.empty])
  solvent := fun u a ha => absurd ha (by simp [Service.init, Db.empty])
  held := held_of_fits kept_empty.toFits

/-- There are 200 seats and the body is accepted, but the first user does not get one. -/
theorem status_misleads :
    longPicture.parse = some longPicture ∧ Newcomers .init pictured
      ∧ Service.init.betaStatus {} = .ok (0, 200, false)
      ∧ Quota.answers (Service.signUp {}) .init pictured = [some (.unhandled "DataError")]
      ∧ ¬Predicted {} .init pictured 200 := by
  have hpicture : ¬Signup.Held ⟨0, 1, none, longPicture⟩ := by
    intro hheld
    have htaken : Varchar 500 longUrl.str :=
      ((Signup.held_iff longPicture_parse).mp hheld).2 longUrl (Option.mem_some_self _)
    have hlast : 'a' ∈ longUrl.str.toList.drop 500 := by
      show 'a' ∈ (String.ofList longText).toList.drop 500
      rw [String.toList_ofList]
      decide +kernel
    exact absurd (htaken 'a' hlast) (by decide)
  have hanswers : Quota.answers (Service.signUp {}) .init pictured
      = [some (.unhandled "DataError")] := by
    unfold pictured Quota.answers Quota.answers
    rw [signUp_overflows pictured_new (by decide) hpicture]
  refine ⟨longPicture_parse, pictured_new, rfl, hanswers, fun hpredicted => ?_⟩
  have hall := hpredicted.admitted
  rw [hanswers] at hall
  exact absurd (hall _ List.mem_cons_self) (by simp)

end TestExchange
