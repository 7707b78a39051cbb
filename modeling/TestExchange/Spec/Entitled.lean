import TestExchange.Model.Requests
import TestExchange.Txn.Edits

/-!
# Who may change what

The permissions the services enforce, as one policy over all tables. A caller
has a part in the work he tests, hosts or judges, and every row that a request
changes is the caller's own or belongs to such work. All roles are those held in
the database before the request.

The policy says who and which columns. What a status may become, and when, is
the business of the roster.
-/

namespace TestExchange

open Txn

/-! ## Roles -/

/-- The user owns the campaign. -/
def Db.Owns (db : Db) (u campaignId : Uuid) : Prop :=
  ∃ c, db.campaigns.get? campaignId = some c ∧ c.ownerId = u

/-- The campaign is not someone else's: it is the user's, or it is still to be created. -/
def Db.OwnsOrNew (db : Db) (u campaignId : Uuid) : Prop :=
  ∀ c, db.campaigns.get? campaignId = some c → c.ownerId = u

/-- The user is the tester of the assignment. -/
def Db.Tests (db : Db) (u assignmentId : Uuid) : Prop :=
  ∃ a, db.assignments.get? assignmentId = some a ∧ a.testerId = u

/-- The user owns the campaign of the assignment. -/
def Db.Hosts (db : Db) (u assignmentId : Uuid) : Prop :=
  ∃ a, db.assignments.get? assignmentId = some a ∧ db.Owns u a.campaignId

/-- The user is the moderator to whom a dispute about the assignment is assigned. -/
def Db.Judges (db : Db) (settings : Settings) (u assignmentId : Uuid) : Prop :=
  u ∈ settings.moderatorUserIds ∧ ∃ id d, db.disputes.get? id = some d
    ∧ d.assignmentId = assignmentId ∧ d.status = .underReview ∧ d.assignedTo = some u

/-- The contract of a task is not someone else's. -/
def Db.OwnsTask (db : Db) (u : Uuid) (task : ContractTask) : Prop :=
  ∀ k, db.testingContracts.get? task.contractId = some k → db.OwnsOrNew u k.campaignId

/-- The user pays for the assignment: he hosts it, or decides its dispute. -/
def Db.Pays (db : Db) (settings : Settings) (u assignmentId : Uuid) : Prop :=
  db.Hosts u assignmentId ∨ db.Judges settings u assignmentId

/--
Whom the user tells of what he does: the two sides of work he has a part in, and
the owner of a campaign that is open for applications.
-/
def Db.Tells (db : Db) (settings : Settings) (u v : Uuid) : Prop :=
  (∃ i a, db.assignments.get? i = some a ∧ (a.testerId = v ∨ db.Owns v a.campaignId)
    ∧ (a.testerId = u ∨ db.Pays settings u i))
  ∨ ∃ id c, db.campaigns.get? id = some c ∧ c.status = .published ∧ c.ownerId = v

/-! ## The policy -/

section Policy

variable (settings : Settings) (db : Db) (u : Uuid)

/-- The columns a moderator leaves alone. -/
def Profile.SamePerson (p q : Profile) : Prop :=
  q.email = p.email ∧ q.username = p.username ∧ q.displayName = p.displayName ∧ q.bio = p.bio
    ∧ q.avatarUrl = p.avatarUrl

/-- The columns a user leaves alone. -/
def Profile.SameStanding (p q : Profile) : Prop :=
  q.isSuspended = p.isSuspended ∧ q.suspendedAt = p.suspendedAt
    ∧ q.suspensionReason = p.suspensionReason

/-- Users edit themselves, moderators suspend others and restore. -/
def profileEdits : Edits Profile where
  changes id p q := (p.SamePerson q ∨ id = u)
    ∧ (p.SameStanding q ∨ u ∈ settings.moderatorUserIds ∧ (q.isSuspended = true → id ≠ u))
  creates id p := id = u ∧ p.isSuspended = false
  removes _ _ := False

/-- Anyone may join; nobody is changed or removed. -/
def waitlistEdits : Edits WaitlistEntry where
  changes _ _ _ := False
  creates _ _ := True
  removes _ _ := False

/--
Owners edit their campaigns. Others only complete one, by settling the last of
its work: the tester who withdraws, or the moderator who decides.
-/
def campaignEdits : Edits Campaign where
  changes id c d := d.ownerId = c.ownerId ∧ d.slug = c.slug ∧ d.platform = c.platform
    ∧ (c.ownerId = u ∨ d = { c with status := .completed } ∧ ∃ i a,
        db.assignments.get? i = some a ∧ a.campaignId = id ∧ (a.testerId = u ∨ db.Judges settings u i))
  creates _ c := c.ownerId = u
  removes _ _ := False

def contractEdits : Edits TestingContract where
  changes _ k l := l.campaignId = k.campaignId ∧ db.OwnsOrNew u k.campaignId
  creates _ k := db.OwnsOrNew u k.campaignId
  removes _ _ := False

def taskEdits : Edits ContractTask where
  changes _ t v := db.OwnsTask u t ∧ db.OwnsTask u v
  creates _ t := db.OwnsTask u t
  removes _ t := db.OwnsTask u t

/-- Testers work, owners and judges decide; nobody decides in another's place. -/
def assignmentEdits : Edits Assignment where
  changes id a b :=
    b.campaignId = a.campaignId ∧ b.testerId = a.testerId ∧ b.applicationNote = a.applicationNote
      ∧ (a.testerId = u ∧ b.status ∈ [AssignmentStatus.inProgress, .submitted, .cancelled]
        ∨ db.Owns u a.campaignId
          ∧ b.status ∈ [AssignmentStatus.accepted, .cancelled, .approved, .changesRequested, .rejected]
        ∨ db.Judges settings u id ∧ b.status ∈ [AssignmentStatus.approved, .rejected])
  creates _ a := a.testerId = u ∧ a.status = .applied ∧ ∃ c,
    db.campaigns.get? a.campaignId = some c ∧ c.status = .published ∧ c.ownerId ≠ u
  removes _ _ := False

def sessionEdits : Edits TestingSession where
  changes _ _ _ := False
  creates _ t := db.Tests u t.assignmentId
  removes _ _ := False

/-- What was submitted stays as it was; only its status is decided. -/
def submissionEdits : Edits EvidenceSubmission where
  changes _ e f := f = { e with status := f.status }
    ∧ (db.Hosts u e.assignmentId
        ∧ f.status ∈ [SubmissionStatus.approved, .changesRequested, .rejected]
      ∨ db.Judges settings u e.assignmentId ∧ f.status ∈ [SubmissionStatus.approved, .rejected])
  creates _ e := db.Tests u e.assignmentId ∧ e.status = .submitted
  removes _ _ := False

/-- Evidence comes with its submission; a task that is deleted takes its link with it. -/
def itemEdits : Edits EvidenceItem where
  changes _ i j := j = { i with taskId := none } ∧ ∀ taskId task, i.taskId = some taskId →
    db.contractTasks.get? taskId = some task → db.OwnsTask u task
  creates _ i := db.evidenceSubmissions.get? i.submissionId = none
  removes _ _ := False

def messageEdits : Edits Message where
  changes _ _ _ := False
  creates _ m := m.senderId = u ∧ (db.Tests u m.assignmentId ∨ db.Hosts u m.assignmentId)
  removes _ _ := False

/-- A notification is for someone the user tells, or for himself, and read once, by whom it is for. -/
def notificationEdits : Edits Notification where
  changes _ n o := n.userId = u ∧ n.readAt = none ∧ o.readAt.isSome = true
    ∧ o = { n with readAt := o.readAt }
  creates _ n := n.readAt = none ∧ (n.userId = u ∨ db.Tells settings u n.userId)
  removes _ _ := False

def reviewEdits : Edits Review where
  changes _ _ _ := False
  creates _ r := r.reviewerId = u ∧ ∃ e,
    db.evidenceSubmissions.get? r.submissionId = some e ∧ db.Hosts u e.assignmentId
  removes _ _ := False

/-- Only accounts of the user, and of the testers he pays. -/
def accountEdits : Edits CreditAccount where
  changes id _ _ := id = u ∨ ∃ i a, db.assignments.get? i = some a ∧ a.testerId = id
    ∧ db.Pays settings u i
  creates id _ := id = u ∨ ∃ i a, db.assignments.get? i = some a ∧ a.testerId = id
    ∧ db.Pays settings u i
  removes _ _ := False

/-- The tester opens it, a moderator claims it, and that moderator resolves it. -/
def disputeEdits : Edits Dispute where
  changes _ d e :=
    e.assignmentId = d.assignmentId ∧ e.submissionId = d.submissionId ∧ e.openedBy = d.openedBy
      ∧ e.reason = d.reason ∧ u ∈ settings.moderatorUserIds ∧ e.assignedTo = some u
      ∧ (d.status = .open ∧ e.status = .underReview ∧ e.resolvedBy = d.resolvedBy
        ∨ d.status = .underReview ∧ d.assignedTo = some u ∧ e.resolvedBy = some u)
  creates _ d := d.openedBy = u ∧ d.status = .open ∧ d.assignedTo = none ∧ d.resolvedBy = none
    ∧ db.Tests u d.assignmentId
  removes _ _ := False

/-- The grant of a user who joins, the spend for his own campaign, or the reward of a tester he pays. -/
def CreditLedgerEntry.DueTo (e : CreditLedgerEntry) : Prop :=
  e.createdBy = some u
    ∧ (e.userId = u ∧ e.entryType = .signupGrant ∧ e.delta = settings.signupCreditGrant
        ∧ db.profiles.get? u = none
      ∨ e.userId = u ∧ e.entryType = .posting ∧ e.delta ≤ 0
        ∧ (∃ id, e.referenceId = some id ∧ db.OwnsOrNew u id)
      ∨ e.entryType = .reward ∧ ∃ i a c, db.assignments.get? i = some a ∧ a.testerId = e.userId
        ∧ db.campaigns.get? a.campaignId = some c ∧ e.delta = c.rewardCredits ∧ db.Pays settings u i)

/-- **Everything that differs is something the user may change.** -/
structure Entitled (db' : Db) : Prop where
  profiles : Table.Edited (profileEdits settings u) db.profiles db'.profiles
  /-- A seat is taken only by someone without a profile. -/
  seats : db'.betaProgramState = db.betaProgramState ∨ db.profiles.get? u = none
  waitlist : Table.Edited waitlistEdits db.waitlistEntries db'.waitlistEntries
  campaigns : Table.Edited (campaignEdits settings db u) db.campaigns db'.campaigns
  contracts : Table.Edited (contractEdits db u) db.testingContracts db'.testingContracts
  tasks : Table.Edited (taskEdits db u) db.contractTasks db'.contractTasks
  assignments : Table.Edited (assignmentEdits settings db u) db.assignments db'.assignments
  sessions : Table.Edited (sessionEdits db u) db.testingSessions db'.testingSessions
  submissions : Table.Edited (submissionEdits settings db u) db.evidenceSubmissions
    db'.evidenceSubmissions
  items : Table.Edited (itemEdits db u) db.evidenceItems db'.evidenceItems
  messages : Table.Edited (messageEdits db u) db.messages db'.messages
  notifications : Table.Edited (notificationEdits settings db u) db.notifications db'.notifications
  reviews : Table.Edited (reviewEdits db u) db.reviews db'.reviews
  accounts : Table.Edited (accountEdits settings db u) db.creditAccounts db'.creditAccounts
  ledger : Appends (fun e => e.DueTo settings db u) db.creditLedgerEntries db'.creditLedgerEntries
  disputes : Table.Edited (disputeEdits settings db u) db.disputes db'.disputes
  events : Appends (fun e => e.actorId = some u) db.auditEvents db'.auditEvents

theorem Entitled.refl : Entitled settings db u db where
  profiles := .refl _
  seats := .inl rfl
  waitlist := .refl _
  campaigns := .refl _
  contracts := .refl _
  tasks := .refl _
  assignments := .refl _
  sessions := .refl _
  submissions := .refl _
  items := .refl _
  messages := .refl _
  notifications := .refl _
  reviews := .refl _
  accounts := .refl _
  ledger := .refl _
  disputes := .refl _
  events := .refl _

end Policy

end TestExchange
