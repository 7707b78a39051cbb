import TestExchange.Model.Quality
import TestExchange.Model.Requests

/-!
# Responses

What every route answers: the schemas its result goes through, the routes that
only read, and the handlers with their responses. A schema that carries all the
columns of a row is the row here, under its identifier; `created_at` and
`updated_at` are left out as they are in the tables, and so are the identifiers
of ledger entries and audit events.

In front of the handlers a rate limiter may turn a request away. What it does
depends on earlier requests and the clock alone, so the requests here are the
ones it lets through.
-/

namespace TestExchange

open Txn Txn.Session

/-! ## Schemas -/

structure PublicProfileRead where
  id : Uuid
  username : String
  displayName : String
  bio : Option String
  avatarUrl : Option String

structure ProfileRead extends PublicProfileRead where
  email : Option String

structure ModerationParticipantRead extends ProfileRead where
  isSuspended : Bool
  suspendedAt : Option Time
  suspensionReason : Option String

/-- The owner's profile is there for every campaign the foreign key allows. -/
structure CampaignRead extends Campaign where
  id : Uuid
  ownerProfile : Option PublicProfileRead

structure ContractTaskRead where
  id : Uuid
  position : Nat
  title : String
  instructions : String
  evidenceRequired : Bool

structure ContractRead extends TestingContract where
  id : Uuid
  tasks : List ContractTaskRead

structure AssignmentRead extends Assignment where
  id : Uuid
  testerProfile : Option PublicProfileRead

structure EvidenceItemRead where
  id : Uuid
  taskId : Option Uuid
  kind : EvidenceKind
  storageKey : Option String
  externalUrl : Option String
  note : Option String

structure SubmissionRead extends EvidenceSubmission where
  id : Uuid
  items : List EvidenceItemRead

structure ModerationDisputeCaseRead where
  dispute : Uuid × Dispute
  assignment : AssignmentRead
  campaign : CampaignRead
  contract : ContractRead
  submissions : List SubmissionRead
  reviews : List (Uuid × Review)
  messages : List (Uuid × Message)
  auditEvents : List AuditEvent

structure BetaStatusRead where
  enabled : Bool
  maxUsers : Nat
  claimedSeats : Nat
  remainingSeats : Nat
  isFull : Bool

/-- The body of a successful answer. -/
inductive Response where
  | health (status environment : String)
  | capabilities (isModerator : Bool)
  | betaStatus (status : BetaStatusRead)
  | waitlistEntry (entry : Uuid × WaitlistEntry)
  | waitlistEntries (entries : List (Uuid × WaitlistEntry))
  | profile (profile : ProfileRead)
  | participant (participant : ModerationParticipantRead)
  | participants (participants : List ModerationParticipantRead)
  | campaign (campaign : CampaignRead)
  | campaigns (campaigns : List CampaignRead)
  | contract (contract : ContractRead)
  | assignment (assignment : AssignmentRead)
  | assignments (assignments : List AssignmentRead)
  | testingSession (session : Uuid × TestingSession)
  | testingSessions (sessions : List (Uuid × TestingSession))
  | submission (submission : SubmissionRead)
  | submissions (submissions : List SubmissionRead)
  | qualityCheck (report : QualityCheckRead)
  | review (review : Uuid × Review)
  | reviews (reviews : List (Uuid × Review))
  | message (message : Uuid × Message)
  | messages (messages : List (Uuid × Message))
  | notification (notification : Uuid × Notification)
  | notifications (notifications : List (Uuid × Notification))
  | balance (userId : Uuid) (balance : Int)
  | ledger (entries : List CreditLedgerEntry)
  | dispute (dispute : Uuid × Dispute)
  | disputes (disputes : List (Uuid × Dispute))
  | audit (events : List AuditEvent)
  | disputeCase (read : ModerationDisputeCaseRead)
  | evidenceUrl (url : String) (expiresIn : Nat)
  | noContent

/-! ## From rows to schemas -/

def publicProfileRead (id : Uuid) (profile : Profile) : PublicProfileRead where
  id := id
  username := profile.username
  displayName := profile.displayName
  bio := profile.bio
  avatarUrl := profile.avatarUrl

def profileRead (id : Uuid) (profile : Profile) : ProfileRead where
  toPublicProfileRead := publicProfileRead id profile
  email := profile.email

def moderationParticipantRead (id : Uuid) (profile : Profile) : ModerationParticipantRead where
  toProfileRead := profileRead id profile
  isSuspended := profile.isSuspended
  suspendedAt := profile.suspendedAt
  suspensionReason := profile.suspensionReason

/-- The related profile, loaded with the row it belongs to. -/
def Db.publicProfile (db : Db) (userId : Uuid) : Option PublicProfileRead :=
  (db.profiles.get? userId).map (publicProfileRead userId)

def Db.campaignRead (db : Db) (campaign : Uuid × Campaign) : CampaignRead where
  toCampaign := campaign.2
  id := campaign.1
  ownerProfile := db.publicProfile campaign.2.ownerId

def Db.assignmentRead (db : Db) (assignment : Uuid × Assignment) : AssignmentRead where
  toAssignment := assignment.2
  id := assignment.1
  testerProfile := db.publicProfile assignment.2.testerId

def contractTaskRead (task : Uuid × ContractTask) : ContractTaskRead where
  id := task.1
  position := task.2.position
  title := task.2.title
  instructions := task.2.instructions
  evidenceRequired := task.2.evidenceRequired

def contractRead (contract : Uuid × TestingContract) (tasks : List (Uuid × ContractTask)) :
    ContractRead where
  toTestingContract := contract.2
  id := contract.1
  tasks := tasks.map contractTaskRead

def evidenceItemRead (item : Uuid × EvidenceItem) : EvidenceItemRead where
  id := item.1
  taskId := item.2.taskId
  kind := item.2.kind
  storageKey := item.2.storageKey
  externalUrl := item.2.externalUrl
  note := item.2.note

def submissionRead (id : Uuid) (submission : EvidenceSubmission)
    (items : List (Uuid × EvidenceItem)) : SubmissionRead where
  toEvidenceSubmission := submission
  id := id
  items := items.map evidenceItemRead

/-- The answer of a route whose `response_model` is `CampaignRead`. -/
def campaignResponse (campaign : Uuid × Campaign) : Session Response := do
  pure (.campaign (← query fun db => db.campaignRead campaign))

def campaignsResponse (campaigns : List (Uuid × Campaign)) : Session Response := do
  pure (.campaigns (← query fun db => campaigns.map db.campaignRead))

def assignmentResponse (assignment : Uuid × Assignment) : Session Response := do
  pure (.assignment (← query fun db => db.assignmentRead assignment))

def assignmentsResponse (assignments : List (Uuid × Assignment)) : Session Response := do
  pure (.assignments (← query fun db => assignments.map db.assignmentRead))

def contractResponse (campaignId : Uuid) : Session Response := do
  let (contract, tasks) ← getContract campaignId
  pure (.contract (contractRead contract tasks))

def submissionResponse (submissionId userId : Uuid) : Session SubmissionRead := do
  let (submission, items) ← getSubmission submissionId userId
  pure (submissionRead submissionId submission items)

/-- `[submission_response(db, record.id, user.id) for record in records]` -/
def submissionResponses (userId : Uuid) : List (Uuid × EvidenceSubmission) →
    Session (List SubmissionRead)
  | [] => pure []
  | record :: records => do
      let first ← submissionResponse record.1 userId
      let rest ← submissionResponses userId records
      pure (first :: rest)

def caseResponse (disputeId : Uuid) (case : ModerationCase) : Session Response := do
  let assignment ← query fun db => db.assignmentRead (case.dispute.assignmentId, case.assignment)
  let campaign ← query fun db => db.campaignRead (case.assignment.campaignId, case.campaign)
  pure (.disputeCase
    { dispute := (disputeId, case.dispute)
      assignment
      campaign
      contract := contractRead case.contract case.tasks
      submissions := case.submissions.map fun submission =>
        submissionRead submission.1 submission.2
          ((case.evidenceBySubmission.lookup submission.1).getD [])
      reviews := case.reviews
      messages := case.messages
      auditEvents := case.auditEvents })

/-! ## The routes that only read -/

/-- The settings the routes read. -/
structure AppSettings extends Settings where
  appEnv : String := "development"

inductive Query where
  | health
  | ready
  | betaStatus
  | publicCampaigns
  | publicCampaign (slug : String)
  | profile
  | capabilities
  | mine
  | contract (campaignId : Uuid)
  | assignments
  | assignment (assignmentId : Uuid)
  | assignmentCampaign (assignmentId : Uuid)
  | assignmentContract (assignmentId : Uuid)
  | testingSessions (assignmentId : Uuid)
  | submission (submissionId : Uuid)
  | submissionQualityCheck (submissionId : Uuid)
  | submissions (assignmentId : Uuid)
  | reviews (submissionId : Uuid)
  | messages (assignmentId : Uuid)
  | disputes
  | audit (assignmentId : Uuid)
  | notifications
  | ledger
  | moderationDisputes (statusFilter : Option DisputeStatus)
  | disputeCase (disputeId : Uuid)
  | participants
  | waitlist

def readProfile (userId : Uuid) : Session Response := do
  let profile ← orRaise (.domain "Profile not found" 404)
    (← query fun db => db.profiles.get? userId)
  pure (.profile (profileRead userId profile))

def publicBetaStatus (settings : AppSettings) : Session Response := do
  let (claimedSeats, remainingSeats, isFull) ←
    betaStatus settings.publicBetaEnabled settings.publicBetaMaxUsers
  pure (.betaStatus
    { enabled := settings.publicBetaEnabled, maxUsers := settings.publicBetaMaxUsers, claimedSeats,
      remainingSeats, isFull })

/-- Only the owner reads a contract by its campaign. -/
def readContract (campaignId userId : Uuid) : Session Response := do
  let campaign ← getCampaign campaignId
  requireCampaignOwner campaign userId
  contractResponse campaignId

/-- A participant reads it by the assignment, the tester only once accepted. -/
def assignmentContract (assignmentId userId : Uuid) : Session Response := do
  let record ← getOwnAssignment assignmentId userId
  raiseIf (userId = record.testerId ∧ record.acceptedAt = none)
    (.domain "The private testing contract unlocks after acceptance" 403)
  contractResponse record.campaignId

def assignmentCampaign (assignmentId userId : Uuid) : Session Response := do
  let record ← getOwnAssignment assignmentId userId
  let campaign ← getCampaign record.campaignId
  campaignResponse (record.campaignId, campaign)

/-- The handlers of the routes that only read. -/
def answerQuery (settings : AppSettings) (user : CurrentUser) : Query → Session Response
  | .health => pure (.health "ok" settings.appEnv)
  | .ready => do
      let _ ← query fun db => (db.campaigns.rows.head?).map Prod.fst
      pure (.health "ready" settings.appEnv)
  | .betaStatus => publicBetaStatus settings
  | .publicCampaigns => do campaignsResponse (← listPublicCampaigns)
  | .publicCampaign slug => do campaignResponse (← publicCampaign slug)
  | .profile => do
      getActiveUser user
      readProfile user.id
  | .capabilities => do
      getActiveUser user
      pure (.capabilities (user.id ∈ settings.moderatorUserIds))
  | .mine => do
      getActiveUser user
      campaignsResponse (← listOwnedCampaigns user.id)
  | .contract campaignId => do
      getActiveUser user
      readContract campaignId user.id
  | .assignments => do
      getActiveUser user
      assignmentsResponse (← listUserAssignments user.id)
  | .assignment assignmentId => do
      getActiveUser user
      let record ← getOwnAssignment assignmentId user.id
      assignmentResponse (assignmentId, record)
  | .assignmentCampaign assignmentId => do
      getActiveUser user
      assignmentCampaign assignmentId user.id
  | .assignmentContract assignmentId => do
      getActiveUser user
      assignmentContract assignmentId user.id
  | .testingSessions assignmentId => do
      getActiveUser user
      pure (.testingSessions (← listTestingSessions assignmentId user.id))
  | .submission submissionId => do
      getActiveUser user
      pure (.submission (← submissionResponse submissionId user.id))
  | .submissionQualityCheck submissionId => do
      getActiveUser user
      -- letters outside ASCII keep their case here
      pure (.qualityCheck (← buildSubmissionQualityCheck String.toLower submissionId user.id))
  | .submissions assignmentId => do
      getActiveUser user
      let records ← listSubmissions assignmentId user.id
      pure (.submissions (← submissionResponses user.id records))
  | .reviews submissionId => do
      getActiveUser user
      pure (.reviews (← listSubmissionReviews submissionId user.id))
  | .messages assignmentId => do
      getActiveUser user
      pure (.messages (← listMessages assignmentId user.id))
  | .disputes => do
      getActiveUser user
      pure (.disputes (← listUserDisputes user.id))
  | .audit assignmentId => do
      getActiveUser user
      let _ ← getOwnAssignment assignmentId user.id
      pure (.audit (← listAssignmentAudit assignmentId))
  | .notifications => do
      getActiveUser user
      pure (.notifications (← listNotifications user.id))
  | .ledger => do
      getActiveUser user
      let _ ← getProfile user.id
      pure (.ledger (← listCreditEntries user.id))
  | .moderationDisputes statusFilter => do
      getModerator settings.toSettings user
      pure (.disputes (← listDisputes statusFilter))
  | .disputeCase disputeId => do
      getModerator settings.toSettings user
      caseResponse disputeId (← getModerationCase disputeId)
  | .participants => do
      getModerator settings.toSettings user
      let profiles ← listParticipants
      pure (.participants (profiles.map fun profile => moderationParticipantRead profile.1 profile.2))
  | .waitlist => do
      getModerator settings.toSettings user
      pure (.waitlistEntries (← listWaitlist))

/-! ## The routes that change something, with their answers -/

/-- The handlers of `handle`, each with its response. -/
def answerRequest (settings : AppSettings) (user : CurrentUser) : Request → Session Response
  | .saveProfile payload => do
      getActiveUser user
      let profile ←
        upsertProfile settings.toSettings user.id user.email (← validated payload.parse)
      pure (.profile (profileRead profile.1 profile.2))
  | .waitlist payload => do
      let payload ← validated payload.parse
      pure (.waitlistEntry (← joinWaitlist payload.email))
  | .balance => do
      getActiveUser user
      pure (.balance user.id (← creditBalance user.id))
  | .createCampaign payload => do
      getActiveUser user
      campaignResponse (← createCampaign user.id (← validated payload.parse))
  | .launchCampaign payload => do
      getActiveUser user
      campaignResponse (← launchCampaign user.id (← validated payload.parse))
  | .updateCampaign campaignId payload => do
      getActiveUser user
      campaignResponse (← updateCampaign campaignId user.id (← validated payload.parse))
  | .saveContract campaignId payload => do
      getActiveUser user
      let _ ← upsertContract campaignId user.id (← validated payload.parse)
      contractResponse campaignId
  | .publishCampaign campaignId => do
      getActiveUser user
      campaignResponse (← publishCampaign campaignId user.id)
  | .transitionCampaign campaignId action => do
      getActiveUser user
      campaignResponse (← transitionCampaign campaignId user.id action)
  | .apply campaignId payload => do
      getActiveUser user
      assignmentResponse (← applyToCampaign campaignId user.id (← validated payload.parse))
  | .accept assignmentId => do
      getActiveUser user
      assignmentResponse (← acceptAssignment assignmentId user.id)
  | .decline assignmentId => do
      getActiveUser user
      assignmentResponse (← declineAssignment assignmentId user.id)
  | .withdraw assignmentId => do
      getActiveUser user
      assignmentResponse (← withdrawAssignment assignmentId user.id)
  | .start assignmentId => do
      getActiveUser user
      assignmentResponse (← startAssignment assignmentId user.id)
  | .recordSession assignmentId payload => do
      getActiveUser user
      pure (.testingSession
        (← recordTestingSession assignmentId user.id (← validated payload.parse)))
  | .submit assignmentId payload => do
      getActiveUser user
      let submission ← createSubmission assignmentId user.id (← validated payload.parse)
      pure (.submission (← submissionResponse submission.1 user.id))
  | .review submissionId payload => do
      getActiveUser user
      pure (.review (← createReview submissionId user.id (← validated payload.parse)))
  | .message assignmentId payload => do
      getActiveUser user
      pure (.message (← addMessage assignmentId user.id (← validated payload.parse)))
  | .openDispute assignmentId payload => do
      getActiveUser user
      pure (.dispute (← openDispute assignmentId user.id (← validated payload.parse)))
  | .claimDispute disputeId => do
      getModerator settings.toSettings user
      pure (.dispute (← claimDispute disputeId user.id))
  | .resolveDispute disputeId payload => do
      getModerator settings.toSettings user
      pure (.dispute (← resolveDispute disputeId user.id (← validated payload.parse)))
  | .evidenceUrl disputeId evidenceId answer => do
      getModerator settings.toSettings user
      let url ← moderatorEvidenceUrl settings.toSettings disputeId evidenceId user.id answer
      pure (.evidenceUrl url 60)
  | .suspend participantId payload => do
      getModerator settings.toSettings user
      let payload ← validated payload.parse
      let profile ← suspendParticipant participantId user.id payload.reason
      pure (.participant (moderationParticipantRead profile.1 profile.2))
  | .restore participantId => do
      getModerator settings.toSettings user
      let profile ← restoreParticipant participantId user.id
      pure (.participant (moderationParticipantRead profile.1 profile.2))
  | .readNotification notificationId => do
      getActiveUser user
      pure (.notification (← markNotificationRead notificationId user.id))
  | .readAllNotifications => do
      getActiveUser user
      markAllNotificationsRead user.id
      pure .noContent

/-! ## The whole interface -/

/-- Any route, with what the caller sends. -/
inductive Endpoint where
  | read (query : Query)
  | write (request : Request)

/-- Whoever calls, and when. -/
structure Call where
  now : Time
  user : CurrentUser
  endpoint : Endpoint

def Endpoint.answer (settings : AppSettings) (user : CurrentUser) : Endpoint → Session Response
  | .read query => answerQuery settings user query
  | .write request => answerRequest settings user request

/-- Serve one call: its answer, and the service after its transaction. -/
def Service.respond (settings : AppSettings) (s : Service) (call : Call) :
    Except Failure Response × Service :=
  match (call.endpoint.answer settings call.user).commit.alone call.now s.db s.nextId with
  | .ok (response, db, nextId) => (.ok response, ⟨db, nextId⟩)
  | .error failure => (.error failure, s)

/-- The service after the listed calls. -/
def Service.after (settings : AppSettings) (s : Service) (calls : List Call) : Service :=
  calls.foldl (fun s call => (s.respond settings call).2) s

end TestExchange
