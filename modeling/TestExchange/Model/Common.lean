import TestExchange.Model.Writes

/-!
# What the services share

Lookups that fail with the service's own error, the two permission checks, and
the audit trail. A mapped object is its identifier paired with its row.
-/

namespace TestExchange

open Txn Txn.Session

/-- `select(…).where(id == …).with_for_update()`: locks the row if it is there. -/
def selectForUpdate {α : Type} (table : Db → Table α) (lock : Uuid → Lock) (id : Uuid) :
    Session (Option α) :=
  queryForUpdate (fun db => if (table db).contains id then [lock id] else [])
    fun db => (table db).get? id

def getProfile (userId : Uuid) : Session Profile := do
  orRaise (.domain "Create your profile before using this feature" 409)
    (← query fun db => db.profiles.get? userId)

def getCampaign (campaignId : Uuid) : Session Campaign := do
  orRaise (.domain "Campaign not found" 404) (← query fun db => db.campaigns.get? campaignId)

def getAssignment (assignmentId : Uuid) : Session Assignment := do
  orRaise (.domain "Assignment not found" 404) (← query fun db => db.assignments.get? assignmentId)

def requireCampaignOwner (campaign : Campaign) (userId : Uuid) : Session Unit :=
  raiseIf (campaign.ownerId ≠ userId)
    (.domain "Only the campaign owner can perform this action" 403)

def requireAssignmentParticipant (assignment : Assignment) (userId : Uuid) : Session Campaign := do
  let campaign ← getCampaign assignment.campaignId
  raiseIf (userId ≠ assignment.testerId ∧ userId ≠ campaign.ownerId)
    (.domain "This workspace is private to its tester and campaign owner" 403)
  pure campaign

def addAuditEvent (actorId : Option Uuid) (action entityType : String) (entityId : Uuid)
    (details : List (String × Json)) : Session Unit :=
  add (insertAuditEvent { actorId, action, entityType, entityId, details })

/-- `assignment.tester_profile.display_name`. -/
def testerDisplayName (assignment : Assignment) : Session String :=
  query fun db => (db.profiles.get? assignment.testerId).elim "" (·.displayName)

/-- The occupied slots of a campaign: its assignments in an occupied status. -/
def Db.occupiedSlots (db : Db) (campaignId : Uuid) : Nat :=
  db.assignments.count fun a =>
    a.campaignId = campaignId && a.status ∈ occupiedAssignmentStatuses

/-- The `f"{scope}:{id}:{purpose}"` under which something happens at most once. -/
def idempotencyKey (scope : String) (id : Uuid) (purpose : String) : String :=
  s!"{scope}:{Uuid.str id}:{purpose}"

end TestExchange
