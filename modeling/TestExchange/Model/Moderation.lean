import TestExchange.Model.Workflow

/-!
# Moderation

Claiming a dispute, deciding it, and opening its evidence.
-/

namespace TestExchange

open Txn Txn.Session

def claimDispute (disputeId moderatorId : Uuid) : Session (Uuid × Dispute) := do
  let dispute ← orRaise (.domain "Dispute not found" 404)
    (← selectForUpdate Db.disputes Lock.dispute disputeId)
  if dispute.status = .underReview then do
    raiseIf (dispute.assignedTo ≠ some moderatorId)
      (.domain "This dispute is already assigned to another moderator" 409)
    pure (disputeId, dispute)
  else do
    raiseIf (dispute.status ≠ .open) (.domain "Only open disputes can be claimed" 409)
    let now ← utcnow
    let set (d : Dispute) : Dispute :=
      { d with status := .underReview, assignedTo := some moderatorId, assignedAt := some now }
    add (writeDispute disputeId moderatorId "fk_disputes_assigned_to_profiles" set)
    addAuditEvent (some moderatorId) "dispute.claimed" "assignment" dispute.assignmentId
      [("dispute_id", .str (Uuid.str disputeId))]
    flush
    pure (disputeId, set dispute)

/-- The disputed submission, if it belongs to the disputed assignment. -/
def disputedSubmission (assignmentId : Uuid) (submission : Option EvidenceSubmission) :
    Session EvidenceSubmission := do
  let submission ← orRaise (.domain "The disputed submission was not found" 409) submission
  raiseIf (submission.assignmentId ≠ assignmentId)
    (.domain "The disputed submission was not found" 409)
  pure submission

/-- An overdue submission whose dispute is decided against the tester. -/
def rejectOverdue (dispute : Dispute) (payload : DisputeResolve) : Session Unit := do
  raiseIf (payload.outcome ≠ .rejected)
    (.domain "An overdue submission must be approved or rejected" 422)
  let submissionId ← orRaise (.domain "The disputed submission was not found" 409)
    dispute.submissionId
  let _ ← disputedSubmission dispute.assignmentId
    (← query fun db => db.evidenceSubmissions.get? submissionId)
  let now ← utcnow
  add (writeEvidenceSubmission submissionId fun e => { e with status := .rejected })
  add (writeAssignment dispute.assignmentId fun a =>
    { a with status := .rejected, completedAt := some now })

/-- The award: approve the disputed work and pay its tester. -/
def awardTester (dispute : Dispute) (assignment : Assignment) (moderatorId : Uuid) :
    Session Unit := do
  let submissionId ← orRaise (.domain "This dispute has no submission to approve" 409)
    dispute.submissionId
  raiseIf (assignment.status ∉ [AssignmentStatus.rejected, .submitted])
    (.domain "Only rejected or overdue work can receive a dispute award" 409)
  let _ ← disputedSubmission dispute.assignmentId
    (← selectForUpdate Db.evidenceSubmissions Lock.evidenceSubmission submissionId)
  let campaign ← orRaise (.domain "Campaign not found" 404)
    (← selectForUpdate Db.campaigns Lock.campaign assignment.campaignId)
  let now ← utcnow
  add (writeEvidenceSubmission submissionId fun e => { e with status := .approved })
  add (writeAssignment dispute.assignmentId fun a =>
    { a with status := .approved, completedAt := some now })
  let _ ← recordCreditEntry
    (rewardEntry dispute.assignmentId assignment campaign
      s!"Moderator-approved test for {campaign.name}" moderatorId)
  flush
  let _ ← maybeCompleteCampaign assignment.campaignId campaign moderatorId
  pure ()

/-- What the decision does to the disputed work. -/
def applyRemedy (dispute : Dispute) (assignment : Assignment) (moderatorId : Uuid)
    (payload : DisputeResolve) : Session Unit :=
  if payload.remedy = .awardTester then awardTester dispute assignment moderatorId
  else if assignment.status = .submitted then rejectOverdue dispute payload
  else pure ()

/-- One of the two notifications a decision sends. -/
def resolutionNotification (disputeId : Uuid) (campaign : Campaign) (payload : DisputeResolve)
    (recipientId : Uuid) (audience : String) : Notification where
  userId := recipientId
  kind := "dispute_resolved"
  title := s!"Dispute resolved for {campaign.name}"
  body := firstChars 500 payload.resolution
  entityType := "dispute"
  entityId := disputeId
  idempotencyKey := idempotencyKey "dispute" disputeId s!"{audience}-resolution-notification"

/-- `f"dispute.{payload.outcome}"` -/
def DisputeOutcome.auditAction (outcome : DisputeOutcome) : String := s!"dispute.{outcome.value}"

def resolveDispute (disputeId moderatorId : Uuid) (payload : DisputeResolve) :
    Session (Uuid × Dispute) := do
  let dispute ← orRaise (.domain "Dispute not found" 404)
    (← selectForUpdate Db.disputes Lock.dispute disputeId)
  raiseIf (dispute.status ≠ .underReview) (.domain "Claim this dispute before resolving it" 409)
  raiseIf (dispute.assignedTo ≠ some moderatorId)
    (.domain "Only the assigned moderator can resolve this dispute" 403)
  let assignment ← orRaise (.domain "Assignment not found" 404)
    (← selectForUpdate Db.assignments Lock.assignment dispute.assignmentId)
  applyRemedy dispute assignment moderatorId payload
  let now ← utcnow
  let set (d : Dispute) : Dispute :=
    { d with
      status := payload.outcome.status, resolution := some payload.resolution,
      remedy := some payload.remedy, resolvedBy := some moderatorId, resolvedAt := some now }
  add (writeDispute disputeId moderatorId "disputes_resolved_by_fkey" set)
  addAuditEvent (some moderatorId) payload.outcome.auditAction "assignment" dispute.assignmentId
    [("dispute_id", .str (Uuid.str disputeId)), ("outcome", .str payload.outcome.value),
     ("remedy", .str payload.remedy.value)]
  let campaign ← getCampaign assignment.campaignId
  addNotification
    (resolutionNotification disputeId campaign payload assignment.testerId "tester")
  addNotification (resolutionNotification disputeId campaign payload campaign.ownerId "owner")
  flush
  pure (disputeId, set dispute)

end TestExchange
