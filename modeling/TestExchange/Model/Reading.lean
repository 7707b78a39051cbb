import TestExchange.Model.Evidence

/-!
# What the services read

The lookups and listings behind the routes that change nothing. The order of a
table is the order its rows were created in, so a listing by `created_at` is the
table's own, or its reverse.
-/

namespace TestExchange

open Txn Txn.Session

/-! ## Campaigns and assignments -/

/-- Published, with a tester slot left. -/
def Db.isOpen (db : Db) (campaignId : Uuid) (campaign : Campaign) : Bool :=
  campaign.status = .published && db.occupiedSlots campaignId < campaign.targetTesters

/-- `order_by(Campaign.published_at.desc())` -/
def listPublicCampaigns : Session (List (Uuid × Campaign)) :=
  query fun db => (db.campaigns.where' db.isOpen).insertionSort fun c d =>
    d.2.publishedAt.getD 0 ≤ c.2.publishedAt.getD 0

/-- The handler of `/campaigns/{slug}`. -/
def publicCampaign (slug : String) : Session (Uuid × Campaign) := do
  let campaign ← orRaise (.domain "Campaign not found" 404)
    (← query fun db => db.campaigns.find? fun _ c => c.slug = slug && c.status = .published)
  let occupiedSlots ← query fun db => db.occupiedSlots campaign.1
  raiseIf (campaign.2.targetTesters ≤ occupiedSlots) (.domain "Campaign not found" 404)
  pure campaign

def listOwnedCampaigns (ownerId : Uuid) : Session (List (Uuid × Campaign)) :=
  query fun db => (db.campaigns.where' fun _ c => c.ownerId = ownerId).reverse

/-- Theirs as a tester, or in a campaign of theirs. -/
def Db.isParty (db : Db) (userId : Uuid) (assignment : Assignment) : Bool :=
  (db.campaigns.get? assignment.campaignId).any fun c =>
    assignment.testerId = userId || c.ownerId = userId

def listUserAssignments (userId : Uuid) : Session (List (Uuid × Assignment)) :=
  query fun db => (db.assignments.where' fun _ a => db.isParty userId a).reverse

/-- `get_assignment`, then `require_assignment_participant`. -/
def getOwnAssignment (assignmentId userId : Uuid) : Session Assignment := do
  let assignment ← getAssignment assignmentId
  let _ ← requireAssignmentParticipant assignment userId
  pure assignment

def listTestingSessions (assignmentId userId : Uuid) : Session (List (Uuid × TestingSession)) := do
  let _ ← getOwnAssignment assignmentId userId
  query fun db => (db.testingSessions.where' fun _ t => t.assignmentId = assignmentId).insertionSort
    fun s t => s.2.sessionDate ≤ t.2.sessionDate

def listMessages (assignmentId userId : Uuid) : Session (List (Uuid × Message)) := do
  let _ ← getOwnAssignment assignmentId userId
  query fun db => db.messages.where' fun _ m => m.assignmentId = assignmentId

/-- The audit trail of an assignment. -/
def Db.auditOf (db : Db) (assignmentId : Uuid) : List AuditEvent :=
  db.auditEvents.filter fun e => e.entityType = "assignment" && e.entityId = assignmentId

def listAssignmentAudit (assignmentId : Uuid) : Session (List AuditEvent) :=
  query fun db => db.auditOf assignmentId

/-! ## Submissions -/

/-- The items of a submission. -/
def Db.itemsOf (db : Db) (submissionId : Uuid) : List (Uuid × EvidenceItem) :=
  db.evidenceItems.where' fun _ item => item.submissionId = submissionId

def getSubmission (submissionId userId : Uuid) :
    Session (EvidenceSubmission × List (Uuid × EvidenceItem)) := do
  let submission ← orRaise (.domain "Submission not found" 404)
    (← query fun db => db.evidenceSubmissions.get? submissionId)
  let assignment ← getAssignment submission.assignmentId
  let _ ← requireAssignmentParticipant assignment userId
  let items ← query fun db => db.itemsOf submissionId
  pure (submission, items)

def listSubmissions (assignmentId userId : Uuid) : Session (List (Uuid × EvidenceSubmission)) := do
  let _ ← getOwnAssignment assignmentId userId
  query fun db => (db.submissionsOf assignmentId).insertionSort
    fun s t => t.2.version ≤ s.2.version

def listSubmissionReviews (submissionId userId : Uuid) : Session (List (Uuid × Review)) := do
  let _ ← getSubmission submissionId userId
  query fun db => db.reviews.where' fun _ r => r.submissionId = submissionId

/-! ## Notifications, credits, disputes -/

def listNotifications (userId : Uuid) : Session (List (Uuid × Notification)) :=
  query fun db => ((db.notifications.where' fun _ n => n.userId = userId).reverse).take 100

def listCreditEntries (userId : Uuid) : Session (List CreditLedgerEntry) :=
  query fun db => (db.creditLedgerEntries.filter fun e => e.userId = userId).reverse

def listUserDisputes (userId : Uuid) : Session (List (Uuid × Dispute)) :=
  query fun db => (db.disputes.where' fun _ d =>
    (db.assignments.get? d.assignmentId).any fun a => db.isParty userId a).reverse

def listDisputes (statusFilter : Option DisputeStatus) : Session (List (Uuid × Dispute)) :=
  query fun db => db.disputes.where' fun _ d => statusFilter.all fun status => d.status = status

/-! ## Profiles, beta seats, waitlist -/

/-- Claimed seats, remaining seats, and whether the beta is full. -/
def betaStatus (enabled : Bool) (maxUsers : Nat) : Session (Nat × Nat × Bool) := do
  let claimed ← query fun db =>
    db.betaProgramState.elim (db.profiles.count fun _ => true) (·.claimedSeats)
  let remaining := if enabled then maxUsers - claimed else 0
  pure (claimed, remaining, !enabled || maxUsers ≤ claimed)

def listWaitlist : Session (List (Uuid × WaitlistEntry)) :=
  query fun db => db.waitlistEntries.where' fun _ _ => true

def listParticipants : Session (List (Uuid × Profile)) :=
  query fun db => ((db.profiles.where' fun _ _ => true).reverse).take 500

/-! ## The moderation case -/

structure ModerationCase where
  dispute : Dispute
  assignment : Assignment
  campaign : Campaign
  contract : Uuid × TestingContract
  tasks : List (Uuid × ContractTask)
  submissions : List (Uuid × EvidenceSubmission)
  evidenceBySubmission : List (Uuid × List (Uuid × EvidenceItem))
  reviews : List (Uuid × Review)
  messages : List (Uuid × Message)
  auditEvents : List AuditEvent

def getModerationCase (disputeId : Uuid) : Session ModerationCase := do
  let dispute ← orRaise (.domain "Dispute not found" 404)
    (← query fun db => db.disputes.get? disputeId)
  let assignmentId := dispute.assignmentId
  let assignment ← orRaise (.domain "Assignment not found" 404)
    (← query fun db => db.assignments.get? assignmentId)
  let campaign ← getCampaign assignment.campaignId
  let contract ← orRaise (.domain "Testing contract not found" 404)
    (← query fun db => db.contractOf assignment.campaignId)
  let tasks ← query fun db => sortTasks (db.tasksOf contract.1)
  let submissions ← query fun db => (db.submissionsOf assignmentId).insertionSort
    fun s t => s.2.version ≤ t.2.version
  let submissionIds := submissions.map Prod.fst
  let evidenceBySubmission ← query fun db => submissionIds.map fun id => (id, db.itemsOf id)
  let reviews ← query fun db => db.reviews.where' fun _ r => r.submissionId ∈ submissionIds
  let messages ← query fun db => db.messages.where' fun _ m => m.assignmentId = assignmentId
  let auditEvents ← query fun db => db.auditOf assignmentId
  pure
    { dispute := dispute
      assignment, campaign, contract, tasks, submissions, evidenceBySubmission, reviews, messages
      auditEvents }

end TestExchange
