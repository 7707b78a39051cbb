import Mathlib.Algebra.Group.Nat.Defs
import TestExchange.Model.Enums
import TestExchange.Txn.Program
import TestExchange.Txn.Table

/-!
# Entities

One structure per mapped class, with the columns the services read or write;
the primary key is the key of the row in its table. `created_at` and
`updated_at` are left out: nothing computes with them, and the order in which
rows were inserted is the order of the table.

`Db` is the whole database. `Lock` lists everything a transaction can hold until
it ends: a row, or an entry of a unique index that an uncommitted insert owns.
-/

namespace TestExchange

open Txn

/-- Identifiers. A UUID is a 128-bit number; which number plays no role. -/
abbrev Uuid := Nat

/-- Microseconds since the epoch, in UTC. -/
abbrev Time := Nat

/-- `timedelta(days=1)`. -/
def oneDay : Time := 86400000000

/-- `timedelta(hours=1)`. -/
def oneHour : Time := 3600000000

/-- `.date()` of an instant: its day since the epoch. -/
def Time.date (t : Time) : Nat := t / oneDay

/-! ## The text of an identifier -/

/-- The last `width` hexadecimal digits of `n`. -/
def hexDigits : Nat → Nat → List Char
  | 0, _ => []
  | width + 1, n => hexDigits width (n / 16) ++ [Nat.digitChar (n % 16)]

/--
`str(uuid)`: the canonical 8-4-4-4-12 form. A number that needs more than 128
bits is no UUID; the leading `+` signs only keep `str` one-to-one on all numbers.
-/
def Uuid.str (u : Uuid) : String :=
  String.ofList (List.replicate (u / 16 ^ 32) '+' ++ (hexDigits 8 (u / 16 ^ 24) ++ '-' ::
    (hexDigits 4 (u / 16 ^ 20) ++ '-' :: (hexDigits 4 (u / 16 ^ 16) ++ '-' ::
      (hexDigits 4 (u / 16 ^ 12) ++ '-' :: hexDigits 12 u)))))

/-! ## Rows -/

structure Profile where
  email : Option String
  username : String
  displayName : String
  bio : Option String
  avatarUrl : Option String
  isSuspended : Bool := false
  suspendedAt : Option Time := none
  suspensionReason : Option String := none

/-- The singleton row that counts claimed public-beta seats. -/
structure BetaProgramState where
  claimedSeats : Nat

structure WaitlistEntry where
  email : String

structure Campaign where
  ownerId : Uuid
  name : String
  slug : String
  platform : Platform
  category : String
  publicSummary : String
  publicTesterRequirements : String
  minimumVersion : Option String
  targetTesters : Nat
  rewardCredits : Nat
  status : CampaignStatus := .draft
  publishedAt : Option Time := none

structure TestingContract where
  campaignId : Uuid
  version : Nat := 1
  testerInstructions : String
  accessInstructions : Option String
  deviceRequirements : Option String
  evidenceRequirements : String
  reviewWindowHours : Nat
  minimumDurationDays : Nat
  requiredSessions : Nat
  status : ContractStatus := .draft
  lockedAt : Option Time := none

structure ContractTask where
  contractId : Uuid
  position : Nat
  title : String
  instructions : String
  evidenceRequired : Bool

structure Assignment where
  campaignId : Uuid
  testerId : Uuid
  applicationNote : Option String
  status : AssignmentStatus := .applied
  acceptedAt : Option Time := none
  startedAt : Option Time := none
  submittedAt : Option Time := none
  completedAt : Option Time := none

structure TestingSession where
  assignmentId : Uuid
  sessionDate : Nat
  note : Option String

structure EvidenceSubmission where
  assignmentId : Uuid
  version : Nat
  summary : String
  status : SubmissionStatus := .submitted
  submittedAt : Time

structure EvidenceItem where
  submissionId : Uuid
  taskId : Option Uuid
  kind : EvidenceKind
  storageKey : Option String
  externalUrl : Option String
  note : Option String

structure Message where
  assignmentId : Uuid
  senderId : Uuid
  body : String

structure Notification where
  userId : Uuid
  kind : String
  title : String
  body : String
  entityType : String
  entityId : Uuid
  idempotencyKey : String
  readAt : Option Time := none

structure Review where
  submissionId : Uuid
  reviewerId : Uuid
  decision : ReviewDecision
  notes : String

/-- The current balance, under the user's id. -/
structure CreditAccount where
  balance : Int

structure CreditLedgerEntry where
  transactionId : Uuid
  userId : Uuid
  delta : Int
  entryType : CreditEntryType
  referenceType : Option String
  referenceId : Option Uuid
  note : Option String
  idempotencyKey : String
  createdBy : Option Uuid

structure Dispute where
  assignmentId : Uuid
  submissionId : Option Uuid
  openedBy : Uuid
  reason : String
  status : DisputeStatus := .open
  assignedTo : Option Uuid := none
  assignedAt : Option Time := none
  resolution : Option String := none
  remedy : Option DisputeRemedy := none
  resolvedBy : Option Uuid := none
  resolvedAt : Option Time := none

/-- The values found in the `details` of audit events. -/
inductive Json where
  | str (s : String)
  | int (n : Int)
  | bool (b : Bool)
  deriving DecidableEq

structure AuditEvent where
  actorId : Option Uuid
  action : String
  entityType : String
  entityId : Uuid
  details : List (String × Json)

/-! ## The database -/

/-- Every table. Ledger entries and audit events are only ever appended. -/
structure Db where
  profiles : Table Profile
  betaProgramState : Option BetaProgramState
  waitlistEntries : Table WaitlistEntry
  campaigns : Table Campaign
  testingContracts : Table TestingContract
  contractTasks : Table ContractTask
  assignments : Table Assignment
  testingSessions : Table TestingSession
  evidenceSubmissions : Table EvidenceSubmission
  evidenceItems : Table EvidenceItem
  messages : Table Message
  notifications : Table Notification
  reviews : Table Review
  creditAccounts : Table CreditAccount
  creditLedgerEntries : List CreditLedgerEntry
  disputes : Table Dispute
  auditEvents : List AuditEvent

/-- The database right after its creation. -/
def Db.empty : Db where
  profiles := .empty
  betaProgramState := none
  waitlistEntries := .empty
  campaigns := .empty
  testingContracts := .empty
  contractTasks := .empty
  assignments := .empty
  testingSessions := .empty
  evidenceSubmissions := .empty
  evidenceItems := .empty
  messages := .empty
  notifications := .empty
  reviews := .empty
  creditAccounts := .empty
  creditLedgerEntries := []
  disputes := .empty
  auditEvents := []

/-- What a transaction can hold: rows, and entries of unique indexes. -/
inductive Lock where
  | profile (id : Uuid)
  | betaProgramState
  | waitlistEntry (id : Uuid)
  | campaign (id : Uuid)
  | testingContract (id : Uuid)
  | contractTask (id : Uuid)
  | assignment (id : Uuid)
  | testingSession (id : Uuid)
  | evidenceSubmission (id : Uuid)
  | evidenceItem (id : Uuid)
  | message (id : Uuid)
  | notification (id : Uuid)
  | review (id : Uuid)
  | creditAccount (userId : Uuid)
  | dispute (id : Uuid)
  | usernameKey (username : String)
  | waitlistEmailKey (email : String)
  | slugKey (slug : String)
  | contractCampaignKey (campaignId : Uuid)
  | taskPositionKey (contractId : Uuid) (position : Nat)
  | campaignTesterKey (campaignId testerId : Uuid)
  | sessionDayKey (assignmentId : Uuid) (sessionDate : Nat)
  | submissionVersionKey (assignmentId : Uuid) (version : Nat)
  | reviewSubmissionKey (submissionId : Uuid)
  | notificationKey (idempotencyKey : String)
  | ledgerKey (idempotencyKey : String)
  deriving DecidableEq

/-- Why a request failed. Whatever the reason, its transaction is rolled back. -/
inductive Failure where
  /-- `DomainError`: a workflow rule said no. -/
  | domain (detail : String) (statusCode : Nat)
  /-- The database refused a write because of this constraint. -/
  | integrity (constraint : String)
  /-- `HTTPException`: the caller may not use the route. -/
  | http (statusCode : Nat) (detail : String)
  /-- The body did not pass its schema. -/
  | validation
  /-- An exception that nobody expects and no handler is there for. -/
  | unhandled (exception : String)

/-- A unit of work on this database. -/
abbrev Session := Txn.Session Db Lock Failure

/-- A write to this database. -/
abbrev Write := Txn.Write Db Lock Failure

/-- The database once the request is committed, or rolled back. -/
def databaseAfter {α : Type} (db : Db) : Except Failure (α × Db × Nat) → Db
  | .ok (_, db', _) => db'
  | .error _ => db

end TestExchange
