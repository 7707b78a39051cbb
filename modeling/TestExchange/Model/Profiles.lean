import TestExchange.Model.Credits
import TestExchange.Model.Schemas

/-! # Profiles, beta admission, waitlist -/

namespace TestExchange

open Txn Txn.Session

/-- The settings the services read. -/
structure Settings where
  signupCreditGrant : Nat := 24
  publicBetaEnabled : Bool := true
  publicBetaMaxUsers : Nat := 200
  moderatorUserIds : List Uuid := []
  supabaseUrl : Option String := none
  supabaseServiceRoleKey : Option String := none

def ProfileUpsert.profile (payload : ProfileUpsert) (email : Option String) : Profile where
  email := email
  username := payload.username
  displayName := payload.displayName
  bio := payload.bio
  avatarUrl := payload.avatarUrl.map HttpUrl.str

/-- The columns of `loaded` that saving `payload` changes, set in `current`. -/
def ProfileUpsert.set (payload : ProfileUpsert) (email : Option String) (loaded current : Profile) :
    Profile :=
  { current with
    email := setIfChanged loaded.email email current.email
    username := setIfChanged loaded.username payload.username current.username
    displayName := setIfChanged loaded.displayName payload.displayName current.displayName
    bio := setIfChanged loaded.bio payload.bio current.bio
    avatarUrl :=
      setIfChanged loaded.avatarUrl (payload.avatarUrl.map HttpUrl.str) current.avatarUrl }

/-- The seat counter, locked if it exists, else started at the number of profiles. -/
def lockBetaState : Session BetaProgramState := do
  let betaState ← queryForUpdate
    (fun db => if db.betaProgramState.isSome then [.betaProgramState] else [])
    fun db => db.betaProgramState
  match betaState with
  | some state => pure state
  | none =>
      let profileCount ← query fun db => db.profiles.count fun _ => true
      add (insertBetaProgramState ⟨profileCount⟩)
      flush
      pure ⟨profileCount⟩

/-- The one entry that gives a new user credits to start with. -/
def signupGrantEntry (signupCreditGrant : Nat) (userId : Uuid) : CreditChange where
  userId := userId
  delta := signupCreditGrant
  entryType := .signupGrant
  idempotencyKey := idempotencyKey "profile" userId "signup-grant"
  referenceType := some "profile"
  referenceId := some userId
  note := some "Public beta starting credits"
  createdBy := some userId

/-- `if signup_credit_grant > 0: record_credit_entry(…)` -/
def grantSignupCredits (signupCreditGrant : Nat) (userId : Uuid) : Session Unit :=
  if 0 < signupCreditGrant then do
    let _ ← recordCreditEntry (signupGrantEntry signupCreditGrant userId)
    pure ()
  else pure ()

def upsertProfile (settings : Settings) (userId : Uuid) (email : Option String)
    (payload : ProfileUpsert) : Session (Uuid × Profile) := do
  let usernameOwner ← query fun db => db.profiles.find? fun _ p => p.username = payload.username
  raiseIf (∃ owner ∈ usernameOwner, owner.1 ≠ userId) (.domain "That username is already taken" 409)
  match ← query fun db => db.profiles.get? userId with
  | none =>
      raiseIf (settings.publicBetaEnabled = false)
        (.domain "Public beta registration is temporarily paused" 403)
      let betaState ← lockBetaState
      raiseIf (settings.publicBetaMaxUsers ≤ betaState.claimedSeats)
        (.domain "The public beta is full; join the waitlist for the next opening" 409)
      add (writeBetaProgramState ⟨betaState.claimedSeats + 1⟩)
      add (insertProfile userId (payload.profile email))
      flush
      let _ ← ensureCreditAccount userId
      grantSignupCredits settings.signupCreditGrant userId
      addAuditEvent (some userId) "profile.created" "profile" userId []
      flush
      pure (userId, payload.profile email)
  | some profile =>
      add (writeSavedProfile userId profile.username payload.username
        (payload.set email profile))
      addAuditEvent (some userId) "profile.updated" "profile" userId []
      flush
      pure (userId, payload.set email profile profile)

/--
`POST /beta/waitlist`. The insert runs in a savepoint: if the address turns out
to be taken, only the insert is undone and the winner's row is returned.
-/
def joinWaitlist (email : String) : Session (Uuid × WaitlistEntry) := do
  match ← query fun db => db.waitlistEntries.find? fun _ e => e.email = email with
  | some existing => pure existing
  | none =>
      let entryId ← uuid4
      let conflict ← executeNested (insertWaitlistEntry entryId ⟨email⟩)
      match conflict with
      | none => pure (entryId, ⟨email⟩)
      | some error =>
          orRaise error (← query fun db => db.waitlistEntries.find? fun _ e => e.email = email)

def suspendParticipant (participantId moderatorId : Uuid) (reason : String) :
    Session (Uuid × Profile) := do
  raiseIf (participantId = moderatorId) (.domain "Moderators cannot suspend their own account" 409)
  let profile ← orRaise (.domain "Participant not found" 404)
    (← selectForUpdate Db.profiles Lock.profile participantId)
  let now ← utcnow
  let set (p : Profile) : Profile :=
    { p with isSuspended := true, suspendedAt := some now, suspensionReason := some reason }
  add (writeProfile participantId set)
  addAuditEvent (some moderatorId) "profile.suspended" "profile" participantId
    [("reason", .str reason)]
  flush
  pure (participantId, set profile)

def restoreParticipant (participantId moderatorId : Uuid) : Session (Uuid × Profile) := do
  let profile ← orRaise (.domain "Participant not found" 404)
    (← selectForUpdate Db.profiles Lock.profile participantId)
  let set (p : Profile) : Profile :=
    { p with isSuspended := false, suspendedAt := none, suspensionReason := none }
  add (writeProfile participantId set)
  addAuditEvent (some moderatorId) "profile.restored" "profile" participantId []
  flush
  pure (participantId, set profile)

end TestExchange
