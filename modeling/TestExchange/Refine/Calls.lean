import TestExchange.Model.Requests
import TestExchange.Txn.Paused

/-!
# The calls of `maybe_complete_campaign`

The four services that look whether a campaign is completed, each cut at that
call. The part before the call is written out again, under a name of its own,
and the service is that part resumed.
-/

namespace TestExchange

open Txn Txn.Session

/-- The arguments of `maybe_complete_campaign`. -/
structure CompletionCall where
  campaignId : Uuid
  campaign : Campaign
  actorId : Uuid

def CompletionCall.run (call : CompletionCall) : Session Bool :=
  maybeCompleteCampaign call.campaignId call.campaign call.actorId

/-- A service that has come to the call. -/
abbrev AtCompletion (α : Type) : Type := Paused Db Lock Failure CompletionCall Bool α

def withdrawToCompletion (assignmentId testerId : Uuid) :
    Session (AtCompletion (Uuid × Assignment)) := do
  let assignment ← orRaise (.domain "Assignment not found" 404)
    (← selectForUpdate Db.assignments Lock.assignment assignmentId)
  raiseIf (assignment.testerId ≠ testerId)
    (.domain "Only the tester can withdraw from this assignment" 403)
  raiseIf (assignment.status ∉
      [AssignmentStatus.applied, .accepted, .inProgress, .changesRequested])
    (.domain "This assignment can no longer be withdrawn" 409)
  let campaign ← orRaise (.domain "Campaign not found" 404)
    (← selectForUpdate Db.campaigns Lock.campaign assignment.campaignId)
  let now ← utcnow
  let set (a : Assignment) : Assignment := { a with status := .cancelled, completedAt := some now }
  add (writeAssignment assignmentId set)
  addAuditEvent (some testerId) "assignment.withdrawn" "assignment" assignmentId
    [("previous_status", .str assignment.status.value)]
  let displayName ← testerDisplayName assignment
  addNotification
    { userId := campaign.ownerId
      kind := "tester_withdrew"
      title := s!"A tester withdrew from {campaign.name}"
      body := s!"{displayName} is no longer participating."
      entityType := "assignment"
      entityId := assignmentId
      idempotencyKey := idempotencyKey "assignment" assignmentId "withdrawn-notification" }
  pure
    { arg := ⟨assignment.campaignId, campaign, testerId⟩
      rest := fun _ => do
        flush
        pure (assignmentId, set assignment) }

theorem withdrawAssignment_paused {assignmentId testerId : Uuid} :
    withdrawAssignment assignmentId testerId
      = withdrawToCompletion assignmentId testerId >>= Paused.resume CompletionCall.run := by
  simp only [withdrawAssignment, withdrawToCompletion, bind_assoc, pure_bind]
  rfl

/-- Work is approved and paid for, by its owner or by a moderator. -/
def approveToCompletion (submissionId assignmentId : Uuid) (assignment : Assignment)
    (campaign : Campaign) (note : String) (actorId : Uuid) : Session (AtCompletion Unit) := do
  let now ← utcnow
  add (writeEvidenceSubmission submissionId fun e => { e with status := .approved })
  add (writeAssignment assignmentId fun a =>
    { a with status := .approved, completedAt := some now })
  let _ ← recordCreditEntry (rewardEntry assignmentId assignment campaign note actorId)
  flush
  pure { arg := ⟨assignment.campaignId, campaign, actorId⟩, rest := fun _ => pure () }

theorem applyDecision_paused {submissionId assignmentId reviewerId : Uuid}
    {assignment : Assignment} {campaign : Campaign} :
    applyDecision submissionId assignmentId assignment campaign reviewerId .approved
      = approveToCompletion submissionId assignmentId assignment campaign
          s!"Approved test for {campaign.name}" reviewerId >>= Paused.resume CompletionCall.run := by
  simp only [applyDecision, approveToCompletion, bind_assoc, pure_bind]
  rfl

def reviewToCompletion (submissionId reviewerId : Uuid) (payload : ReviewCreate) :
    Session (AtCompletion (Uuid × Review)) := do
  let assignmentId ← orRaise (.domain "Submission not found" 404)
    (← query fun db => (db.evidenceSubmissions.get? submissionId).map (·.assignmentId))
  let assignment ← orRaise (.domain "Assignment not found" 500)
    (← selectForUpdate Db.assignments Lock.assignment assignmentId)
  let submission ← orRaise (.domain "Submission not found" 404)
    (← selectForUpdate Db.evidenceSubmissions Lock.evidenceSubmission submissionId)
  let campaign ← orRaise (.domain "Campaign not found" 404)
    (← selectForUpdate Db.campaigns Lock.campaign assignment.campaignId)
  requireCampaignOwner campaign reviewerId
  let activeDispute ← query fun db => db.activeDispute assignmentId
  raiseIf (activeDispute.isSome = true)
    (.domain "A moderator is handling this submission's escalation" 409)
  raiseIf (submission.status ≠ .submitted)
    (.domain "This submission has already been reviewed" 409)
  raiseIf (assignment.status ≠ .submitted) (.domain "The assignment is not awaiting review" 409)
  let reviewId ← uuid4
  let review : Review :=
    { submissionId, reviewerId, decision := payload.decision, notes := payload.notes }
  add (insertReview reviewId review)
  flush
  let approval ← approveToCompletion submissionId assignmentId assignment campaign
    s!"Approved test for {campaign.name}" reviewerId
  pure <| approval.andThen fun _ => do
    addAuditEvent (some reviewerId) payload.decision.auditAction "assignment" assignmentId
      [("submission_id", .str (Uuid.str submissionId)), ("review_id", .str (Uuid.str reviewId))]
    addNotification
      { userId := assignment.testerId
        kind := "submission_reviewed"
        title := s!"Your {campaign.name} submission was {spaced payload.decision.value}"
        body := firstChars 500 payload.notes
        entityType := "submission"
        entityId := submissionId
        idempotencyKey := idempotencyKey "review" reviewId "tester-notification" }
    flush
    pure (reviewId, review)

theorem createReview_paused {submissionId reviewerId : Uuid} {payload : ReviewCreate}
    (h : payload.decision = .approved) :
    createReview submissionId reviewerId payload
      = reviewToCompletion submissionId reviewerId payload
          >>= Paused.resume CompletionCall.run := by
  simp only [createReview, reviewToCompletion, h, applyDecision_paused, bind_assoc, pure_bind,
    Paused.resume, Paused.andThen]

def awardToCompletion (dispute : Dispute) (assignment : Assignment) (moderatorId : Uuid) :
    Session (AtCompletion Unit) := do
  let submissionId ← orRaise (.domain "This dispute has no submission to approve" 409)
    dispute.submissionId
  raiseIf (assignment.status ∉ [AssignmentStatus.rejected, .submitted])
    (.domain "Only rejected or overdue work can receive a dispute award" 409)
  let _ ← disputedSubmission dispute.assignmentId
    (← selectForUpdate Db.evidenceSubmissions Lock.evidenceSubmission submissionId)
  let campaign ← orRaise (.domain "Campaign not found" 404)
    (← selectForUpdate Db.campaigns Lock.campaign assignment.campaignId)
  approveToCompletion submissionId dispute.assignmentId assignment campaign
    s!"Moderator-approved test for {campaign.name}" moderatorId

theorem awardTester_paused {dispute : Dispute} {assignment : Assignment} {moderatorId : Uuid} :
    awardTester dispute assignment moderatorId
      = awardToCompletion dispute assignment moderatorId >>= Paused.resume CompletionCall.run := by
  simp only [awardTester, awardToCompletion, approveToCompletion, bind_assoc, pure_bind]
  rfl

def resolveToCompletion (disputeId moderatorId : Uuid) (payload : DisputeResolve) :
    Session (AtCompletion (Uuid × Dispute)) := do
  let dispute ← orRaise (.domain "Dispute not found" 404)
    (← selectForUpdate Db.disputes Lock.dispute disputeId)
  raiseIf (dispute.status ≠ .underReview) (.domain "Claim this dispute before resolving it" 409)
  raiseIf (dispute.assignedTo ≠ some moderatorId)
    (.domain "Only the assigned moderator can resolve this dispute" 403)
  let assignment ← orRaise (.domain "Assignment not found" 404)
    (← selectForUpdate Db.assignments Lock.assignment dispute.assignmentId)
  let award ← awardToCompletion dispute assignment moderatorId
  pure <| award.andThen fun _ => do
    let now ← utcnow
    let set (d : Dispute) : Dispute :=
      { d with
        status := payload.outcome.status, resolution := some payload.resolution,
        remedy := some payload.remedy, resolvedBy := some moderatorId, resolvedAt := some now }
    add (writeDispute disputeId moderatorId "disputes_resolved_by_fkey" set)
    addAuditEvent (some moderatorId) payload.outcome.auditAction "assignment" dispute.assignmentId
      [("dispute_id", .str (Uuid.str disputeId)), ("outcome", .str payload.outcome.value),
       ("remedy", .str payload.remedy.value)]
    let campaign ← getCampaign assignment.campaignId
    addNotification
      (resolutionNotification disputeId campaign payload assignment.testerId "tester")
    addNotification (resolutionNotification disputeId campaign payload campaign.ownerId "owner")
    flush
    pure (disputeId, set dispute)

theorem resolveDispute_paused {disputeId moderatorId : Uuid} {payload : DisputeResolve}
    (h : payload.remedy = .awardTester) :
    resolveDispute disputeId moderatorId payload
      = resolveToCompletion disputeId moderatorId payload
          >>= Paused.resume CompletionCall.run := by
  simp only [resolveDispute, resolveToCompletion, applyRemedy, h, if_true, awardTester_paused,
    bind_assoc, pure_bind, Paused.resume, Paused.andThen]

def closeToCompletion (campaignId ownerId : Uuid) : Session (AtCompletion (Uuid × Campaign)) := do
  let campaign ← orRaise (.domain "Campaign not found" 404)
    (← selectForUpdate Db.campaigns Lock.campaign campaignId)
  requireCampaignOwner campaign ownerId
  let newStatus ← performTransition campaignId campaign ownerId .close
  addAuditEvent (some ownerId) TransitionAction.close.auditAction "campaign" campaignId
    [("previous_status", .str campaign.status.value), ("new_status", .str newStatus.value),
     ("refund_credits", .int 0)]
  pure
    { arg := ⟨campaignId, { campaign with status := newStatus }, ownerId⟩
      rest := fun completed => do
        flush
        pure (campaignId,
          { campaign with status := if completed then .completed else newStatus }) }

theorem transitionCampaign_paused {campaignId ownerId : Uuid} :
    transitionCampaign campaignId ownerId .close
      = closeToCompletion campaignId ownerId >>= Paused.resume CompletionCall.run := by
  simp only [transitionCampaign, closeToCompletion, completeIfClosed, if_true, bind_assoc,
    pure_bind]
  rfl

/-! ## The callers -/

/-- The services that call `maybe_complete_campaign`, with their arguments. -/
inductive CompletionCaller where
  | createReview (submissionId reviewerId : Uuid) (payload : ReviewCreate)
  | withdrawAssignment (assignmentId testerId : Uuid)
  | resolveDispute (disputeId moderatorId : Uuid) (payload : DisputeResolve)
  | closeCampaign (campaignId ownerId : Uuid)

namespace CompletionCaller

def service : CompletionCaller → Session Unit
  | .createReview submissionId reviewerId payload =>
      discard (TestExchange.createReview submissionId reviewerId payload)
  | .withdrawAssignment assignmentId testerId =>
      discard (TestExchange.withdrawAssignment assignmentId testerId)
  | .resolveDispute disputeId moderatorId payload =>
      discard (TestExchange.resolveDispute disputeId moderatorId payload)
  | .closeCampaign campaignId ownerId =>
      discard (transitionCampaign campaignId ownerId .close)

/-- Of the decisions, only an approval and an award look at the campaign. -/
def Looks : CompletionCaller → Prop
  | .createReview _ _ payload => payload.decision = .approved
  | .resolveDispute _ _ payload => payload.remedy = .awardTester
  | _ => True

/-- The part before the call. -/
def toCompletion : CompletionCaller → Session (AtCompletion Unit)
  | .createReview submissionId reviewerId payload => do
      let p ← reviewToCompletion submissionId reviewerId payload
      pure (p.andThen fun _ => pure ())
  | .withdrawAssignment assignmentId testerId => do
      let p ← withdrawToCompletion assignmentId testerId
      pure (p.andThen fun _ => pure ())
  | .resolveDispute disputeId moderatorId payload => do
      let p ← resolveToCompletion disputeId moderatorId payload
      pure (p.andThen fun _ => pure ())
  | .closeCampaign campaignId ownerId => do
      let p ← closeToCompletion campaignId ownerId
      pure (p.andThen fun _ => pure ())

/-- **A service that looks at a campaign is its part before the call, resumed.** -/
theorem service_paused {caller : CompletionCaller} (h : caller.Looks) :
    caller.service = caller.toCompletion >>= Paused.resume CompletionCall.run := by
  cases caller with
  | createReview submissionId reviewerId payload =>
      rw [service, discard, createReview_paused h]
      exact resume_andThen
  | withdrawAssignment assignmentId testerId =>
      rw [service, discard, withdrawAssignment_paused]
      exact resume_andThen
  | resolveDispute disputeId moderatorId payload =>
      rw [service, discard, resolveDispute_paused h]
      exact resume_andThen
  | closeCampaign campaignId ownerId =>
      rw [service, discard, transitionCampaign_paused]
      exact resume_andThen

end CompletionCaller

end TestExchange
