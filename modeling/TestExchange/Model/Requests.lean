import TestExchange.Model.Evidence

/-!
# Requests

Every route that can change the database, behind the checks that come before
its service: the account is not suspended, moderator routes are for moderators,
the body passes its schema. One request is one transaction, committed if the
handler returns and rolled back if it fails.

Routes that only read are left out: a committed `SELECT` changes nothing.
-/

namespace TestExchange

open Txn Txn.Session

/-- The caller, as its verified token describes it. -/
structure CurrentUser where
  id : Uuid
  email : Option String

/-- The routes that change something, with what the caller sends. -/
inductive Request where
  | saveProfile (payload : ProfileUpsert)
  | waitlist (payload : WaitlistCreate)
  | balance
  | createCampaign (payload : CampaignCreate)
  | launchCampaign (payload : CampaignLaunch)
  | updateCampaign (campaignId : Uuid) (payload : CampaignUpdate)
  | saveContract (campaignId : Uuid) (payload : ContractUpsert)
  | publishCampaign (campaignId : Uuid)
  | transitionCampaign (campaignId : Uuid) (action : TransitionAction)
  | apply (campaignId : Uuid) (payload : AssignmentApply)
  | accept (assignmentId : Uuid)
  | decline (assignmentId : Uuid)
  | withdraw (assignmentId : Uuid)
  | start (assignmentId : Uuid)
  | recordSession (assignmentId : Uuid) (payload : TestingSessionCreate)
  | submit (assignmentId : Uuid) (payload : SubmissionCreate)
  | review (submissionId : Uuid) (payload : ReviewCreate)
  | message (assignmentId : Uuid) (payload : MessageCreate)
  | openDispute (assignmentId : Uuid) (payload : DisputeCreate)
  | claimDispute (disputeId : Uuid)
  | resolveDispute (disputeId : Uuid) (payload : DisputeResolve)
  | evidenceUrl (disputeId evidenceId : Uuid) (answer : SigningAnswer)
  | suspend (participantId : Uuid) (payload : ParticipantSuspension)
  | restore (participantId : Uuid)
  | readNotification (notificationId : Uuid)
  | readAllNotifications

/-- `get_active_user`: a suspended profile may not use the API. -/
def getActiveUser (user : CurrentUser) : Session Unit := do
  let profile ← query fun db => db.profiles.get? user.id
  raiseIf (∃ p ∈ profile, p.isSuspended = true)
    (.http 403 "This account is suspended. Contact support if you believe this is an error.")

/-- `get_moderator` -/
def getModerator (settings : Settings) (user : CurrentUser) : Session Unit := do
  getActiveUser user
  raiseIf (user.id ∉ settings.moderatorUserIds) (.http 403 "Moderator access required")

/-- The body after its schema, or the answer that it does not fit. -/
def validated {α : Type} (payload : Option α) : Session α := orRaise .validation payload

/-- Run a service for its effect. -/
def discard {α : Type} (service : Session α) : Session Unit := do
  let _ ← service
  pure ()

/-- The handler of each route. -/
def handle (settings : Settings) (user : CurrentUser) : Request → Session Unit
  | .saveProfile payload => do
      getActiveUser user
      discard (upsertProfile settings user.id user.email (← validated payload.parse))
  | .waitlist payload => do
      let payload ← validated payload.parse
      discard (joinWaitlist payload.email)
  | .balance => do
      getActiveUser user
      discard (creditBalance user.id)
  | .createCampaign payload => do
      getActiveUser user
      discard (createCampaign user.id (← validated payload.parse))
  | .launchCampaign payload => do
      getActiveUser user
      discard (launchCampaign user.id (← validated payload.parse))
  | .updateCampaign campaignId payload => do
      getActiveUser user
      discard (updateCampaign campaignId user.id (← validated payload.parse))
  | .saveContract campaignId payload => do
      getActiveUser user
      let _ ← upsertContract campaignId user.id (← validated payload.parse)
      discard (getContract campaignId)
  | .publishCampaign campaignId => do
      getActiveUser user
      discard (publishCampaign campaignId user.id)
  | .transitionCampaign campaignId action => do
      getActiveUser user
      discard (transitionCampaign campaignId user.id action)
  | .apply campaignId payload => do
      getActiveUser user
      discard (applyToCampaign campaignId user.id (← validated payload.parse))
  | .accept assignmentId => do
      getActiveUser user
      discard (acceptAssignment assignmentId user.id)
  | .decline assignmentId => do
      getActiveUser user
      discard (declineAssignment assignmentId user.id)
  | .withdraw assignmentId => do
      getActiveUser user
      discard (withdrawAssignment assignmentId user.id)
  | .start assignmentId => do
      getActiveUser user
      discard (startAssignment assignmentId user.id)
  | .recordSession assignmentId payload => do
      getActiveUser user
      discard (recordTestingSession assignmentId user.id (← validated payload.parse))
  | .submit assignmentId payload => do
      getActiveUser user
      discard (createSubmission assignmentId user.id (← validated payload.parse))
  | .review submissionId payload => do
      getActiveUser user
      discard (createReview submissionId user.id (← validated payload.parse))
  | .message assignmentId payload => do
      getActiveUser user
      discard (addMessage assignmentId user.id (← validated payload.parse))
  | .openDispute assignmentId payload => do
      getActiveUser user
      discard (openDispute assignmentId user.id (← validated payload.parse))
  | .claimDispute disputeId => do
      getModerator settings user
      discard (claimDispute disputeId user.id)
  | .resolveDispute disputeId payload => do
      getModerator settings user
      discard (resolveDispute disputeId user.id (← validated payload.parse))
  | .evidenceUrl disputeId evidenceId answer => do
      getModerator settings user
      discard (moderatorEvidenceUrl settings disputeId evidenceId user.id answer)
  | .suspend participantId payload => do
      getModerator settings user
      let payload ← validated payload.parse
      discard (suspendParticipant participantId user.id payload.reason)
  | .restore participantId => do
      getModerator settings user
      discard (restoreParticipant participantId user.id)
  | .readNotification notificationId => do
      getActiveUser user
      discard (markNotificationRead notificationId user.id)
  | .readAllNotifications => do
      getActiveUser user
      discard (markAllNotificationsRead user.id)

/-! ## One request at a time -/

/-- The database and the next identifier the generator returns. -/
structure Service where
  db : Db
  nextId : Nat

/-- Nothing has happened yet. -/
def Service.init : Service := ⟨.empty, 0⟩

/-- Serve one request at the given time: commit what it did, or roll it all back. -/
def Service.serve (settings : Settings) (s : Service) (now : Time) (user : CurrentUser)
    (request : Request) : Service :=
  match (handle settings user request).commit.alone now s.db s.nextId with
  | .ok (_, db, nextId) => ⟨db, nextId⟩
  | .error _ => s

/-- The states a run of requests, one at a time, can lead to. -/
inductive Reachable (settings : Settings) : Service → Prop where
  /-- The empty database. -/
  | init : Reachable settings .init
  /-- One more request, by anyone, at any time. -/
  | tail {s : Service} (h : Reachable settings s) (now : Time) (user : CurrentUser)
      (request : Request) : Reachable settings (s.serve settings now user request)

/-- Serve the listed requests in order. -/
def Service.run (settings : Settings) (s : Service) :
    List (Time × CurrentUser × Request) → Service
  | [] => s
  | (now, user, request) :: rest => (s.serve settings now user request).run settings rest

theorem reachable_run {settings : Settings} {s : Service} (h : Reachable settings s)
    (requests : List (Time × CurrentUser × Request)) : Reachable settings (s.run settings requests) := by
  induction requests generalizing s with
  | nil => exact h
  | cons r rest ih => exact ih (h.tail r.1 r.2.1 r.2.2)

end TestExchange
