import TestExchange.Model.Credits
import TestExchange.Model.Notifications
import TestExchange.Model.Schemas
import Mathlib.Data.List.Sort

/-!
# Campaigns and their contracts

From draft to publication, and the owner's control over recruitment afterwards.
Publishing is where the promise is fixed: the spend, the status and the lock on
the contract are one transaction.
-/

namespace TestExchange

open Txn Txn.Session

def CampaignCreate.campaign (payload : CampaignCreate) (ownerId : Uuid) : Campaign where
  ownerId := ownerId
  name := payload.name
  slug := payload.slug
  platform := payload.platform
  category := payload.category
  publicSummary := payload.publicSummary
  publicTesterRequirements := payload.publicTesterRequirements
  minimumVersion := payload.minimumVersion
  targetTesters := payload.targetTesters
  rewardCredits := payload.rewardCredits

def createCampaign (ownerId : Uuid) (payload : CampaignCreate) : Session (Uuid × Campaign) := do
  let _ ← getProfile ownerId
  let taken ← query fun db => db.campaigns.any fun _ c => c.slug = payload.slug
  raiseIf (taken = true) (.domain "That campaign slug is already in use" 409)
  let campaignId ← uuid4
  let campaign := payload.campaign ownerId
  add (insertCampaign campaignId campaign)
  flush
  addAuditEvent (some ownerId) "campaign.created" "campaign" campaignId []
  pure (campaignId, campaign)

/-! ## Editing a draft -/

/-- `setattr` of a patched column that may not be null. -/
def PatchField.set {α : Type} [DecidableEq α] (patch : PatchField α) (loaded current : α) : α :=
  match patch with
  | some (some value) => setIfChanged loaded value current
  | _ => current

/-- `setattr` of a patched column that may be null. -/
def PatchField.setNullable {α : Type} [DecidableEq α] (patch : PatchField α)
    (loaded current : Option α) : Option α :=
  match patch with
  | some value => setIfChanged loaded value current
  | none => current

/-- The columns of `loaded` that the patch changes, set in `current`. -/
def CampaignUpdate.set (payload : CampaignUpdate) (loaded current : Campaign) : Campaign :=
  { current with
    name := payload.name.set loaded.name current.name
    category := payload.category.set loaded.category current.category
    publicSummary := payload.publicSummary.set loaded.publicSummary current.publicSummary
    publicTesterRequirements :=
      payload.publicTesterRequirements.set loaded.publicTesterRequirements
        current.publicTesterRequirements
    minimumVersion := payload.minimumVersion.setNullable loaded.minimumVersion current.minimumVersion
    targetTesters := payload.targetTesters.set loaded.targetTesters current.targetTesters
    rewardCredits := payload.rewardCredits.set loaded.rewardCredits current.rewardCredits }

/-- The patched value of a column differs from the loaded one. -/
def PatchField.changes {α : Type} [DecidableEq α] (patch : PatchField α) (loaded : α) : Bool :=
  match patch with
  | some value => value ≠ some loaded
  | none => false

/-- Some column differs from what was loaded, so the flush sends an `UPDATE`. -/
def CampaignUpdate.changes (payload : CampaignUpdate) (loaded : Campaign) : Bool :=
  payload.name.changes loaded.name || payload.category.changes loaded.category
    || payload.publicSummary.changes loaded.publicSummary
    || payload.publicTesterRequirements.changes loaded.publicTesterRequirements
    || payload.minimumVersion.any (· ≠ loaded.minimumVersion)
    || payload.targetTesters.changes loaded.targetTesters
    || payload.rewardCredits.changes loaded.rewardCredits

/-- The `UPDATE` of a patched draft; a `null` is refused by every column but one. -/
def patchCampaign (campaignId : Uuid) (payload : CampaignUpdate) (loaded : Campaign) : Write where
  rows _ := if payload.changes loaded then [.campaign campaignId] else []
  violates _ := firstViolated
    [(payload.name = some none, "campaigns.name"),
     (payload.category = some none, "campaigns.category"),
     (payload.publicSummary = some none, "campaigns.public_summary"),
     (payload.publicTesterRequirements = some none, "campaigns.public_tester_requirements"),
     (payload.targetTesters = some none, "campaigns.target_testers"),
     (payload.rewardCredits = some none, "campaigns.reward_credits"),
     (payload.targetTesters = some (some 0), "ck_campaign_target_testers_positive"),
     (payload.rewardCredits = some (some 0), "ck_campaign_reward_positive")]
  effect db := { db with campaigns := db.campaigns.modify campaignId (payload.set loaded) }

def updateCampaign (campaignId ownerId : Uuid) (payload : CampaignUpdate) :
    Session (Uuid × Campaign) := do
  let campaign ← getCampaign campaignId
  requireCampaignOwner campaign ownerId
  raiseIf (campaign.status ≠ .draft)
    (.domain "Published campaigns cannot change their testing promise" 409)
  add (patchCampaign campaignId payload campaign)
  addAuditEvent (some ownerId) "campaign.updated" "campaign" campaignId []
  flush
  pure (campaignId, payload.set campaign campaign)

/-! ## The contract -/

/-- `setattr` of every contract column the payload carries, on the loaded object. -/
def ContractUpsert.set (payload : ContractUpsert) (loaded current : TestingContract) :
    TestingContract :=
  { current with
    testerInstructions :=
      setIfChanged loaded.testerInstructions payload.testerInstructions current.testerInstructions
    accessInstructions :=
      setIfChanged loaded.accessInstructions payload.accessInstructions current.accessInstructions
    deviceRequirements :=
      setIfChanged loaded.deviceRequirements payload.deviceRequirements current.deviceRequirements
    evidenceRequirements :=
      setIfChanged loaded.evidenceRequirements payload.evidenceRequirements
        current.evidenceRequirements
    reviewWindowHours :=
      setIfChanged loaded.reviewWindowHours payload.reviewWindowHours current.reviewWindowHours
    minimumDurationDays :=
      setIfChanged loaded.minimumDurationDays payload.minimumDurationDays
        current.minimumDurationDays
    requiredSessions :=
      setIfChanged loaded.requiredSessions payload.requiredSessions current.requiredSessions }

def ContractUpsert.contract (payload : ContractUpsert) (campaignId : Uuid) : TestingContract where
  campaignId := campaignId
  testerInstructions := payload.testerInstructions
  accessInstructions := payload.accessInstructions
  deviceRequirements := payload.deviceRequirements
  evidenceRequirements := payload.evidenceRequirements
  reviewWindowHours := payload.reviewWindowHours
  minimumDurationDays := payload.minimumDurationDays
  requiredSessions := payload.requiredSessions

def ContractTaskInput.task (task : ContractTaskInput) (contractId : Uuid) (position : Nat) :
    ContractTask where
  contractId := contractId
  position := position
  title := task.title
  instructions := task.instructions
  evidenceRequired := task.evidenceRequired

/-- `for position, task in enumerate(tasks): db.add(…)`, from a given position on. -/
def addTasks (contractId : Uuid) : Nat → List ContractTaskInput → Session Unit
  | _, [] => pure ()
  | position, task :: tasks => do
      let taskId ← uuid4
      add (insertContractTask taskId (task.task contractId position))
      addTasks contractId (position + 1) tasks

/-- The contract row of a campaign. -/
def Db.contractOf (db : Db) (campaignId : Uuid) : Option (Uuid × TestingContract) :=
  db.testingContracts.find? fun _ c => c.campaignId = campaignId

/-- The tasks of a contract. -/
def Db.tasksOf (db : Db) (contractId : Uuid) : List (Uuid × ContractTask) :=
  db.contractTasks.where' fun _ t => t.contractId = contractId

/-- The contract a save leaves behind: a new one, or the next version of the old one. -/
def saveContract (campaignId : Uuid) (payload : ContractUpsert) :
    Option (Uuid × TestingContract) → Session (Uuid × TestingContract)
  | none => do
      let contractId ← uuid4
      let contract := payload.contract campaignId
      add (insertTestingContract contractId contract)
      flush
      pure (contractId, contract)
  | some (contractId, contract) => do
      raiseIf (contract.status = .locked) (.domain "The contract is locked" 409)
      let set (current : TestingContract) : TestingContract :=
        payload.set contract { current with version := contract.version + 1 }
      add (writeTestingContract contractId set)
      -- the bulk delete finds and locks its rows, then removes them
      let tasks ← queryForUpdate (fun db => (db.tasksOf contractId).map fun t => .contractTask t.1)
        fun db => db.tasksOf contractId
      execute (deleteContractTasks (tasks.map Prod.fst))
      pure (contractId, set contract)

def upsertContract (campaignId ownerId : Uuid) (payload : ContractUpsert) :
    Session (Uuid × TestingContract) := do
  let campaign ← getCampaign campaignId
  requireCampaignOwner campaign ownerId
  raiseIf (campaign.status ≠ .draft) (.domain "The contract is locked after publication" 409)
  let existing ← query fun db => db.contractOf campaignId
  let contract ← saveContract campaignId payload existing
  addTasks contract.1 0 payload.tasks
  addAuditEvent (some ownerId) "contract.saved" "campaign" campaignId
    [("contract_id", .str (Uuid.str contract.1)), ("version", .int contract.2.version)]
  flush
  pure contract

/-- `order_by(ContractTask.position)`: positions are distinct within a contract. -/
def sortTasks (tasks : List (Uuid × ContractTask)) : List (Uuid × ContractTask) :=
  tasks.insertionSort fun s t => s.2.position ≤ t.2.position

def getContract (campaignId : Uuid) :
    Session ((Uuid × TestingContract) × List (Uuid × ContractTask)) := do
  let contract ← orRaise (.domain "Testing contract not found" 404)
    (← query fun db => db.contractOf campaignId)
  let tasks ← query fun db => sortTasks (db.tasksOf contract.1)
  pure (contract, tasks)

/-! ## Publication -/

/-- `target_testers * reward_credits` -/
def Campaign.requiredCredits (campaign : Campaign) : Nat :=
  campaign.targetTesters * campaign.rewardCredits

/-- The one entry that pays for a campaign. -/
def postingEntry (campaignId : Uuid) (campaign : Campaign) (ownerId : Uuid) : CreditChange where
  userId := ownerId
  delta := -campaign.requiredCredits
  entryType := .posting
  idempotencyKey := idempotencyKey "campaign" campaignId "posting"
  referenceType := some "campaign"
  referenceId := some campaignId
  note := some s!"Published {campaign.name}: permanent spend for {campaign.targetTesters} tester rewards"
  createdBy := some ownerId

def publishCampaign (campaignId ownerId : Uuid) : Session (Uuid × Campaign) := do
  let campaign ← orRaise (.domain "Campaign not found" 404)
    (← selectForUpdate Db.campaigns Lock.campaign campaignId)
  requireCampaignOwner campaign ownerId
  if campaign.status = .published then pure (campaignId, campaign) else do
  raiseIf (campaign.status ≠ .draft) (.domain "Only draft campaigns can be published" 409)
  let (contract, tasks) ← getContract campaignId
  raiseIf (tasks = []) (.domain "Add at least one contract task before publishing" 409)
  let _ ← recordCreditEntry (postingEntry campaignId campaign ownerId)
  let now ← utcnow
  let set (c : Campaign) : Campaign := { c with status := .published, publishedAt := some now }
  add (writeCampaign campaignId set)
  add (writeTestingContract contract.1 fun c => { c with status := .locked, lockedAt := some now })
  addAuditEvent (some ownerId) "campaign.published" "campaign" campaignId
    [("spent_credits", .int campaign.requiredCredits), ("refundable", .bool false)]
  flush
  pure (campaignId, set campaign)

/-- Create, lock, fund, and publish a campaign in one database transaction. -/
def launchCampaign (ownerId : Uuid) (payload : CampaignLaunch) : Session (Uuid × Campaign) := do
  let campaign ← createCampaign ownerId payload.campaign
  let _ ← upsertContract campaign.1 ownerId payload.contract
  publishCampaign campaign.1 ownerId

/-! ## Completion and recruitment -/

/-- The campaign is closed, and work was accepted and is all settled. -/
def closedWorkSettled (campaignId : Uuid) (campaign : Campaign) : Session Bool :=
  if campaign.status = .cancelled then do
    let activeCount ← query fun db => db.assignments.count fun a =>
      a.campaignId = campaignId && a.status ∈ activeTestingAssignmentStatuses
    let acceptedCount ← query fun db => db.assignments.count fun a =>
      a.campaignId = campaignId && a.acceptedAt.isSome
    pure (activeCount = 0 && 0 < acceptedCount)
  else pure false

/--
Complete a campaign whose target is reached, or whose recruitment is closed and
whose accepted work is settled. `campaign` is the session's object: its status
includes changes that are still queued, while the counts are read from the
database.
-/
def maybeCompleteCampaign (campaignId : Uuid) (campaign : Campaign) (actorId : Uuid) :
    Session Bool := do
  let approvedCount ← query fun db => db.assignments.count fun a =>
    a.campaignId = campaignId && a.status = .approved
  let targetReached : Bool :=
    (campaign.status = .published || campaign.status = .paused)
      && campaign.targetTesters ≤ approvedCount
  let closedWorkSettled ← closedWorkSettled campaignId campaign
  if targetReached || closedWorkSettled then do
    add (writeCampaign campaignId fun c => { c with status := .completed })
    addAuditEvent (some actorId) "campaign.completed" "campaign" campaignId
      [("approved_testers", .int approvedCount), ("target_reached", .bool targetReached),
       ("recruitment_closed", .bool closedWorkSettled)]
    pure true
  else pure false

/-- The application is declined because recruitment closes. -/
def declinePending (campaign : Campaign) (ownerId : Uuid) (now : Time) :
    List (Uuid × Assignment) → Session Unit
  | [] => pure ()
  | (assignmentId, assignment) :: rest => do
      add (writeAssignment assignmentId fun a =>
        { a with status := .cancelled, completedAt := some now })
      addAuditEvent (some ownerId) "assignment.declined" "assignment" assignmentId
        [("reason", .str "recruitment_closed")]
      addNotification
        { userId := assignment.testerId
          kind := "application_closed"
          title := s!"Recruitment closed for {campaign.name}"
          body := "The campaign closed recruitment before this application was accepted."
          entityType := "assignment"
          entityId := assignmentId
          idempotencyKey :=
            idempotencyKey "assignment" assignmentId "recruitment-closed-notification" }
      declinePending campaign ownerId now rest

/-- `f"campaign.{payload.action}d"`, except that closing is spelled out. -/
def TransitionAction.auditAction (action : TransitionAction) : String :=
  if action ≠ .close then s!"campaign.{action.value}d" else "campaign.closed"

/-- The checks and changes of one transition; returns the new status. -/
def performTransition (campaignId : Uuid) (campaign : Campaign) (ownerId : Uuid) :
    TransitionAction → Session CampaignStatus
  | .pause => do
      raiseIf (campaign.status ≠ .published) (.domain "Only published campaigns can be paused" 409)
      add (writeCampaign campaignId fun c => { c with status := .paused })
      pure .paused
  | .resume => do
      raiseIf (campaign.status ≠ .paused) (.domain "Only paused campaigns can be resumed" 409)
      let occupiedSlots ← query fun db => db.occupiedSlots campaignId
      raiseIf (campaign.targetTesters ≤ occupiedSlots)
        (.domain "This campaign already has its target number of testers" 409)
      add (writeCampaign campaignId fun c => { c with status := .published })
      pure .published
  | .close => do
      raiseIf (campaign.status ≠ .published ∧ campaign.status ≠ .paused)
        (.domain "Only an open or paused campaign can be closed" 409)
      add (writeCampaign campaignId fun c => { c with status := .cancelled })
      let pending (db : Db) : List (Uuid × Assignment) :=
        db.assignments.where' fun _ a => a.campaignId = campaignId && a.status = .applied
      let pendingAssignments ←
        queryForUpdate (fun db => (pending db).map fun r => .assignment r.1) pending
      let now ← utcnow
      declinePending campaign ownerId now pendingAssignments
      pure .cancelled

/-- Closing may find that everything is settled already. -/
def completeIfClosed (campaignId : Uuid) (campaign : Campaign) (ownerId : Uuid)
    (action : TransitionAction) : Session Bool :=
  if action = .close then maybeCompleteCampaign campaignId campaign ownerId else pure false

def transitionCampaign (campaignId ownerId : Uuid) (action : TransitionAction) :
    Session (Uuid × Campaign) := do
  let campaign ← orRaise (.domain "Campaign not found" 404)
    (← selectForUpdate Db.campaigns Lock.campaign campaignId)
  requireCampaignOwner campaign ownerId
  let newStatus ← performTransition campaignId campaign ownerId action
  addAuditEvent (some ownerId) action.auditAction "campaign" campaignId
    [("previous_status", .str campaign.status.value), ("new_status", .str newStatus.value),
     ("refund_credits", .int 0)]
  let completed ← completeIfClosed campaignId { campaign with status := newStatus } ownerId action
  flush
  pure (campaignId, { campaign with status := if completed then .completed else newStatus })

end TestExchange
