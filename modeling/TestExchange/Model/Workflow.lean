import TestExchange.Model.Campaigns
import Mathlib.Data.List.Infix

/-!
# The testing workflow

From application to review: what testers and owners do to an assignment, its
sessions, its submissions and its dispute.
-/

namespace TestExchange

open Txn Txn.Session

def applyToCampaign (campaignId testerId : Uuid) (payload : AssignmentApply) :
    Session (Uuid × Assignment) := do
  let _ ← getProfile testerId
  let campaign ← orRaise (.domain "Campaign not found" 404)
    (← selectForUpdate Db.campaigns Lock.campaign campaignId)
  raiseIf (campaign.status ≠ .published) (.domain "This campaign is not accepting testers" 409)
  raiseIf (campaign.ownerId = testerId)
    (.domain "Campaign owners cannot test their own campaign" 409)
  let existing ← query fun db => db.assignments.find? fun _ a =>
    a.campaignId = campaignId && a.testerId = testerId
  raiseIf (existing.isSome = true) (.domain "You already applied to this campaign" 409)
  let occupiedSlots ← query fun db => db.occupiedSlots campaignId
  raiseIf (campaign.targetTesters ≤ occupiedSlots)
    (.domain "This campaign already has its target number of testers" 409)
  let assignmentId ← uuid4
  let assignment : Assignment :=
    { campaignId, testerId, applicationNote := payload.applicationNote }
  add (insertAssignment assignmentId assignment)
  flush
  addAuditEvent (some testerId) "assignment.applied" "assignment" assignmentId []
  let displayName ← testerDisplayName assignment
  addNotification
    { userId := campaign.ownerId
      kind := "application_received"
      title := s!"New application for {campaign.name}"
      body := s!"{displayName} requested a tester spot."
      entityType := "assignment"
      entityId := assignmentId
      idempotencyKey := idempotencyKey "assignment" assignmentId "application-notification" }
  pure (assignmentId, assignment)

def acceptAssignment (assignmentId ownerId : Uuid) : Session (Uuid × Assignment) := do
  let campaignId ← orRaise (.domain "Assignment not found" 404)
    (← query fun db => (db.assignments.get? assignmentId).map (·.campaignId))
  -- Every accept for the same campaign serializes on this row before capacity is counted.
  let campaign ← orRaise (.domain "Campaign not found" 404)
    (← selectForUpdate Db.campaigns Lock.campaign campaignId)
  requireCampaignOwner campaign ownerId
  raiseIf (campaign.status ≠ .published) (.domain "This campaign is not accepting testers" 409)
  let assignment ← orRaise (.domain "Assignment not found" 404)
    (← selectForUpdate Db.assignments Lock.assignment assignmentId)
  raiseIf (assignment.status ≠ .applied) (.domain "Only pending applications can be accepted" 409)
  let occupiedSlots ← query fun db => db.occupiedSlots campaignId
  raiseIf (campaign.targetTesters ≤ occupiedSlots)
    (.domain "This campaign already has its target number of testers" 409)
  let now ← utcnow
  let set (a : Assignment) : Assignment := { a with status := .accepted, acceptedAt := some now }
  add (writeAssignment assignmentId set)
  addAuditEvent (some ownerId) "assignment.accepted" "assignment" assignmentId []
  addNotification
    { userId := assignment.testerId
      kind := "application_accepted"
      title := s!"You were accepted for {campaign.name}"
      body := "The locked contract and private access instructions are now available."
      entityType := "assignment"
      entityId := assignmentId
      idempotencyKey := idempotencyKey "assignment" assignmentId "accepted-notification" }
  flush
  pure (assignmentId, set assignment)

def declineAssignment (assignmentId ownerId : Uuid) : Session (Uuid × Assignment) := do
  let assignment ← orRaise (.domain "Assignment not found" 404)
    (← selectForUpdate Db.assignments Lock.assignment assignmentId)
  let campaign ← getCampaign assignment.campaignId
  requireCampaignOwner campaign ownerId
  raiseIf (assignment.status ≠ .applied) (.domain "Only pending applications can be declined" 409)
  let now ← utcnow
  let set (a : Assignment) : Assignment := { a with status := .cancelled, completedAt := some now }
  add (writeAssignment assignmentId set)
  addAuditEvent (some ownerId) "assignment.declined" "assignment" assignmentId []
  addNotification
    { userId := assignment.testerId
      kind := "application_declined"
      title := s!"Application update for {campaign.name}"
      body := "The campaign owner selected other testers for this campaign."
      entityType := "assignment"
      entityId := assignmentId
      idempotencyKey := idempotencyKey "assignment" assignmentId "declined-notification" }
  flush
  pure (assignmentId, set assignment)

def withdrawAssignment (assignmentId testerId : Uuid) : Session (Uuid × Assignment) := do
  let assignment ← orRaise (.domain "Assignment not found" 404)
    (← selectForUpdate Db.assignments Lock.assignment assignmentId)
  raiseIf (assignment.testerId ≠ testerId)
    (.domain "Only the tester can withdraw from this assignment" 403)
  raiseIf (assignment.status ∉
      [AssignmentStatus.applied, .accepted, .inProgress, .changesRequested])
    (.domain "This assignment can no longer be withdrawn" 409)
  let campaign ← orRaise (.domain "Campaign not found" 404)
    (← selectForUpdate Db.campaigns Lock.campaign assignment.campaignId)
  let now ← utcnow
  let set (a : Assignment) : Assignment := { a with status := .cancelled, completedAt := some now }
  add (writeAssignment assignmentId set)
  addAuditEvent (some testerId) "assignment.withdrawn" "assignment" assignmentId
    [("previous_status", .str assignment.status.value)]
  let displayName ← testerDisplayName assignment
  addNotification
    { userId := campaign.ownerId
      kind := "tester_withdrew"
      title := s!"A tester withdrew from {campaign.name}"
      body := s!"{displayName} is no longer participating."
      entityType := "assignment"
      entityId := assignmentId
      idempotencyKey := idempotencyKey "assignment" assignmentId "withdrawn-notification" }
  let _ ← maybeCompleteCampaign assignment.campaignId campaign testerId
  flush
  pure (assignmentId, set assignment)

/-- The one operation on an assignment that reads it without locking it. -/
def startAssignment (assignmentId testerId : Uuid) : Session (Uuid × Assignment) := do
  let assignment ← getAssignment assignmentId
  raiseIf (assignment.testerId ≠ testerId)
    (.domain "Only the assigned tester can start this test" 403)
  raiseIf (assignment.status ≠ .accepted) (.domain "Only accepted assignments can be started" 409)
  let now ← utcnow
  let set (a : Assignment) : Assignment := { a with status := .inProgress, startedAt := some now }
  add (writeAssignment assignmentId set)
  let sessionId ← uuid4
  add (insertTestingSession sessionId
    { assignmentId, sessionDate := Time.date now, note := some "Testing started" })
  addAuditEvent (some testerId) "assignment.started" "assignment" assignmentId []
  flush
  pure (assignmentId, set assignment)

def contractForAssignment (assignment : Assignment) :
    Session ((Uuid × TestingContract) × List (Uuid × ContractTask)) := do
  let contract ← orRaise (.domain "The campaign does not have a testing contract" 409)
    (← query fun db => db.contractOf assignment.campaignId)
  let tasks ← query fun db => db.tasksOf contract.1
  pure (contract, tasks)

/-- `session_date.isoformat()`; dates are day numbers here. -/
def isoformat (date : Nat) : String := toString date

def recordTestingSession (assignmentId testerId : Uuid) (payload : TestingSessionCreate) :
    Session (Uuid × TestingSession) := do
  let assignment ← orRaise (.domain "Assignment not found" 404)
    (← selectForUpdate Db.assignments Lock.assignment assignmentId)
  raiseIf (assignment.testerId ≠ testerId)
    (.domain "Only the assigned tester can record a session" 403)
  raiseIf (assignment.status ∉ [AssignmentStatus.inProgress, .changesRequested])
    (.domain "Sessions can only be recorded while testing is active" 409)
  let today := Time.date (← utcnow)
  let existing ← query fun db => db.testingSessions.find? fun _ t =>
    t.assignmentId = assignmentId && t.sessionDate = today
  raiseIf (existing.isSome = true) (.domain "A testing session is already recorded for today" 409)
  let sessionId ← uuid4
  let session : TestingSession := { assignmentId, sessionDate := today, note := payload.note }
  add (insertTestingSession sessionId session)
  flush
  addAuditEvent (some testerId) "testing_session.recorded" "assignment" assignmentId
    [("testing_session_id", .str (Uuid.str sessionId)), ("session_date", .str (isoformat today))]
  pure (sessionId, session)

/-! ## Submissions -/

/-- `PurePosixPath(key).parts`: a root, then the segments that are neither empty nor `.`. -/
def pathParts (key : List Char) : List (List Char) :=
  (if key.head? = some '/' then [['/']] else [])
    ++ (key.splitOn '/').filter fun segment => segment ≠ [] && segment ≠ ['.']

/-- `path.name`: the last part, unless it is the root. -/
def pathName (key : List Char) : List Char :=
  match (pathParts key).getLast? with
  | none => []
  | some part => if part = ['/'] then [] else part

/-- Keep uploaded evidence inside the assignment folder enforced by Storage RLS. -/
def validateStorageKey (assignmentId : Uuid) (storageKey : String) : Session Unit :=
  let key := storageKey.toList
  let parts := pathParts key
  let expectedFolder := Uuid.str assignmentId
  raiseIf ('\\' ∈ key ∨ key.head? = some '/' ∨ "://".toList <:+: key ∨ ['.', '.'] ∈ parts
      ∨ parts.length < 2 ∨ parts.head? ≠ some expectedFolder.toList ∨ pathName key = [])
    (.domain s!"Evidence storage keys must use {expectedFolder}/<file-name>" 422)

/-- The content and folder checks on the submitted items, in order. -/
def checkItems (assignmentId : Uuid) : List EvidenceItemCreate → Session Unit
  | [] => pure ()
  | item :: items => do
      raiseIf (item.storageKey = none ∧ item.externalUrl = none ∧ item.note = none)
        (.domain "Every evidence item must include a file, link, or note" 422)
      match item.storageKey with
      | none => pure ()
      | some storageKey => validateStorageKey assignmentId storageKey
      checkItems assignmentId items

def EvidenceItemCreate.item (item : EvidenceItemCreate) (submissionId : Uuid) : EvidenceItem where
  submissionId := submissionId
  taskId := item.taskId
  kind := item.kind
  storageKey := item.storageKey
  externalUrl := item.externalUrl.map HttpUrl.str
  note := item.note

def addItems (submissionId : Uuid) : List EvidenceItemCreate → Session Unit
  | [] => pure ()
  | item :: items => do
      let itemId ← uuid4
      add (insertEvidenceItem itemId (item.item submissionId))
      addItems submissionId items

/-- The submissions of an assignment. -/
def Db.submissionsOf (db : Db) (assignmentId : Uuid) : List (Uuid × EvidenceSubmission) :=
  db.evidenceSubmissions.where' fun _ e => e.assignmentId = assignmentId

/-- `select(func.max(version))`, or `0` if there is none. -/
def Db.latestVersion (db : Db) (assignmentId : Uuid) : Nat :=
  (db.submissionsOf assignmentId).foldl (fun v e => max v e.2.version) 0

def createSubmission (assignmentId testerId : Uuid) (payload : SubmissionCreate) :
    Session (Uuid × EvidenceSubmission) := do
  let assignment ← orRaise (.domain "Assignment not found" 404)
    (← selectForUpdate Db.assignments Lock.assignment assignmentId)
  raiseIf (assignment.testerId ≠ testerId)
    (.domain "Only the assigned tester can submit evidence" 403)
  raiseIf (assignment.status ∉ [AssignmentStatus.inProgress, .changesRequested])
    (.domain "This assignment is not ready for a submission" 409)
  let (contract, tasks) ← contractForAssignment assignment
  let now ← utcnow
  let startedAt ← orRaise (.domain "Start this assignment before submitting evidence" 409)
    assignment.startedAt
  let earliestSubmission := startedAt + contract.2.minimumDurationDays * oneDay
  raiseIf (now < earliestSubmission)
    (.domain
      s!"This contract requires {contract.2.minimumDurationDays} full days of testing" 409)
  let sessionCount ← query fun db => db.testingSessions.count fun t => t.assignmentId = assignmentId
  raiseIf (sessionCount < contract.2.requiredSessions)
    (.domain s!"Record {contract.2.requiredSessions} testing sessions before submitting" 409)
  let validTaskIds := tasks.map Prod.fst
  let requiredTaskIds := (tasks.filter (·.2.evidenceRequired)).map Prod.fst
  let submittedTaskIds := payload.items.filterMap (·.taskId)
  raiseIf (∃ taskId ∈ submittedTaskIds, taskId ∉ validTaskIds)
    (.domain "Evidence references a task outside this testing contract" 422)
  raiseIf (∃ taskId ∈ requiredTaskIds, taskId ∉ submittedTaskIds)
    (.domain "Provide evidence for every required contract task" 422)
  checkItems assignmentId payload.items
  let latestVersion ← query fun db => db.latestVersion assignmentId
  let submissionId ← uuid4
  -- `submitted_at` is the server's clock when the row is inserted
  let insertedAt ← utcnow
  let submission : EvidenceSubmission :=
    { assignmentId, version := latestVersion + 1, summary := payload.summary,
      submittedAt := insertedAt }
  add (insertEvidenceSubmission submissionId submission)
  flush
  addItems submissionId payload.items
  let now ← utcnow
  add (writeAssignment assignmentId fun a =>
    { a with status := .submitted, submittedAt := some now })
  addAuditEvent (some testerId) "submission.created" "assignment" assignmentId
    [("submission_id", .str (Uuid.str submissionId)), ("version", .int submission.version)]
  let campaign ← getCampaign assignment.campaignId
  let displayName ← testerDisplayName assignment
  addNotification
    { userId := campaign.ownerId
      kind := "submission_received"
      title := s!"Evidence ready for {campaign.name}"
      body := s!"{displayName} submitted version {submission.version} for review."
      entityType := "submission"
      entityId := submissionId
      idempotencyKey := idempotencyKey "submission" submissionId "owner-notification" }
  flush
  pure (submissionId, submission)

/-! ## Reviews -/

/-- `notes[:500]` -/
def firstChars (n : Nat) (s : String) : String := String.ofList (s.toList.take n)

/-- `decision.value.replace("_", " ")` -/
def spaced (s : String) : String :=
  String.ofList (s.toList.map fun c => if c = '_' then ' ' else c)

/-- Disputes a moderator still has to decide. -/
def activeDisputeStatuses : List DisputeStatus := [.open, .underReview]

/-- An active dispute of the assignment. -/
def Db.activeDispute (db : Db) (assignmentId : Uuid) : Option (Uuid × Dispute) :=
  db.disputes.find? fun _ d => d.assignmentId = assignmentId && d.status ∈ activeDisputeStatuses

/-- The one entry that pays a tester for an assignment. -/
def rewardEntry (assignmentId : Uuid) (assignment : Assignment) (campaign : Campaign)
    (note : String) (createdBy : Uuid) : CreditChange where
  userId := assignment.testerId
  delta := campaign.rewardCredits
  entryType := .reward
  idempotencyKey := idempotencyKey "assignment" assignmentId "reward"
  referenceType := some "assignment"
  referenceId := some assignmentId
  note := some note
  createdBy := some createdBy

/-- What each decision does to the submission, the assignment and the ledger. -/
def applyDecision (submissionId : Uuid) (assignmentId : Uuid) (assignment : Assignment)
    (campaign : Campaign) (reviewerId : Uuid) : ReviewDecision → Session Unit
  | .approved => do
      let now ← utcnow
      add (writeEvidenceSubmission submissionId fun e => { e with status := .approved })
      add (writeAssignment assignmentId fun a =>
        { a with status := .approved, completedAt := some now })
      let _ ← recordCreditEntry
        (rewardEntry assignmentId assignment campaign s!"Approved test for {campaign.name}"
          reviewerId)
      flush
      let _ ← maybeCompleteCampaign assignment.campaignId campaign reviewerId
      pure ()
  | .changesRequested => do
      add (writeEvidenceSubmission submissionId fun e => { e with status := .changesRequested })
      add (writeAssignment assignmentId fun a => { a with status := .changesRequested })
  | .rejected => do
      add (writeEvidenceSubmission submissionId fun e => { e with status := .rejected })
      add (writeAssignment assignmentId fun a => { a with status := .rejected })

/-- `f"submission.{payload.decision.value}"` -/
def ReviewDecision.auditAction (decision : ReviewDecision) : String := s!"submission.{decision.value}"

def createReview (submissionId reviewerId : Uuid) (payload : ReviewCreate) :
    Session (Uuid × Review) := do
  let assignmentId ← orRaise (.domain "Submission not found" 404)
    (← query fun db => (db.evidenceSubmissions.get? submissionId).map (·.assignmentId))
  -- Serialize owner decisions with tester escalations and moderator decisions.
  let assignment ← orRaise (.domain "Assignment not found" 500)
    (← selectForUpdate Db.assignments Lock.assignment assignmentId)
  let submission ← orRaise (.domain "Submission not found" 404)
    (← selectForUpdate Db.evidenceSubmissions Lock.evidenceSubmission submissionId)
  let campaign ← orRaise (.domain "Campaign not found" 404)
    (← selectForUpdate Db.campaigns Lock.campaign assignment.campaignId)
  requireCampaignOwner campaign reviewerId
  let activeDispute ← query fun db => db.activeDispute assignmentId
  raiseIf (activeDispute.isSome = true)
    (.domain "A moderator is handling this submission's escalation" 409)
  raiseIf (submission.status ≠ .submitted)
    (.domain "This submission has already been reviewed" 409)
  raiseIf (assignment.status ≠ .submitted) (.domain "The assignment is not awaiting review" 409)
  let reviewId ← uuid4
  let review : Review :=
    { submissionId, reviewerId, decision := payload.decision, notes := payload.notes }
  add (insertReview reviewId review)
  flush
  applyDecision submissionId assignmentId assignment campaign reviewerId payload.decision
  addAuditEvent (some reviewerId) payload.decision.auditAction "assignment" assignmentId
    [("submission_id", .str (Uuid.str submissionId)), ("review_id", .str (Uuid.str reviewId))]
  addNotification
    { userId := assignment.testerId
      kind := "submission_reviewed"
      title := s!"Your {campaign.name} submission was {spaced payload.decision.value}"
      body := firstChars 500 payload.notes
      entityType := "submission"
      entityId := submissionId
      idempotencyKey := idempotencyKey "review" reviewId "tester-notification" }
  flush
  pure (reviewId, review)

/-! ## Messages and disputes -/

def addMessage (assignmentId senderId : Uuid) (payload : MessageCreate) :
    Session (Uuid × Message) := do
  let assignment ← getAssignment assignmentId
  let _ ← requireAssignmentParticipant assignment senderId
  let messageId ← uuid4
  let message : Message := { assignmentId, senderId, body := payload.body }
  add (insertMessage messageId message)
  flush
  addAuditEvent (some senderId) "message.created" "assignment" assignmentId
    [("message_id", .str (Uuid.str messageId))]
  let campaign ← getCampaign assignment.campaignId
  addNotification
    { userId := if senderId = assignment.testerId then campaign.ownerId else assignment.testerId
      kind := "message_received"
      title := s!"New private message about {campaign.name}"
      body := firstChars 500 payload.body
      entityType := "assignment"
      entityId := assignmentId
      idempotencyKey := idempotencyKey "message" messageId "recipient-notification" }
  pure (messageId, message)

/-- The checks that depend on why the assignment can be escalated. -/
def checkEscalation (assignment : Assignment) (submission : EvidenceSubmission) : Session Unit := do
  if assignment.status = .submitted then do
    raiseIf (submission.status ≠ .submitted)
      (.domain "Only the current pending submission can be escalated" 409)
    let (contract, _) ← contractForAssignment assignment
    let now ← utcnow
    raiseIf (now < submission.submittedAt + contract.2.reviewWindowHours * oneHour)
      (.domain "The owner's review window has not ended yet" 409)
  else
    raiseIf (submission.status ≠ .rejected) (.domain "Only a rejected submission can be disputed" 409)

def openDispute (assignmentId openedBy : Uuid) (payload : DisputeCreate) :
    Session (Uuid × Dispute) := do
  let assignment ← orRaise (.domain "Assignment not found" 404)
    (← selectForUpdate Db.assignments Lock.assignment assignmentId)
  let _ ← requireAssignmentParticipant assignment openedBy
  raiseIf (assignment.testerId ≠ openedBy)
    (.domain "Only the tester can request a moderator review" 403)
  raiseIf (assignment.status ∉ [AssignmentStatus.rejected, .submitted])
    (.domain "Only rejected or overdue submissions can be escalated" 409)
  let submissionId ← orRaise (.domain "A submission is required" 422) payload.submissionId
  let submission ← orRaise (.domain "The submission does not belong to this assignment" 422)
    (← query fun db => db.evidenceSubmissions.get? submissionId)
  raiseIf (submission.assignmentId ≠ assignmentId)
    (.domain "The submission does not belong to this assignment" 422)
  checkEscalation assignment submission
  let existing ← query fun db => db.disputes.find? fun _ d => d.assignmentId = assignmentId
  raiseIf (existing.isSome = true) (.domain "This assignment already has a dispute" 409)
  let disputeId ← uuid4
  let dispute : Dispute :=
    { assignmentId, submissionId := some submissionId, openedBy, reason := payload.reason }
  add (insertDispute disputeId dispute)
  flush
  addAuditEvent (some openedBy) "dispute.opened" "assignment" assignmentId
    [("dispute_id", .str (Uuid.str disputeId))]
  let campaign ← getCampaign assignment.campaignId
  addNotification
    { userId := campaign.ownerId
      kind := "dispute_opened"
      title := s!"A dispute was opened for {campaign.name}"
      body := firstChars 500 payload.reason
      entityType := "dispute"
      entityId := disputeId
      idempotencyKey := idempotencyKey "dispute" disputeId "owner-notification" }
  pure (disputeId, dispute)

end TestExchange
