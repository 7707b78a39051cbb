import TestExchange.Model.Entities

/-!
# Writes and the constraints they meet

The `INSERT`s and `UPDATE`s the services issue, each with the constraints the
tables declare: primary and unique keys, foreign keys, `CHECK`s. An insert also
takes its entries of the unique indexes, so that a second insert of the same key
has to wait for the first; an update takes the row. What a column can hold is no
part of these constraints: see the columns for that.
-/

namespace TestExchange

open Txn

/-- The first constraint of the list that is violated. -/
def firstViolated : List (Bool × String) → Option Failure
  | [] => none
  | (violated, name) :: rest => if violated then some (.integrity name) else firstViolated rest

@[simp] theorem firstViolated_nil : firstViolated [] = none := rfl

@[simp] theorem firstViolated_cons {b : Bool} {name : String} {l : List (Bool × String)} :
    firstViolated ((b, name) :: l) = none ↔ b = false ∧ firstViolated l = none := by
  cases b <;> simp [firstViolated]

/-- A nullable foreign key to `profiles`. -/
def Db.missingProfile (db : Db) : Option Uuid → Bool
  | none => false
  | some userId => !db.profiles.contains userId

/-- `column = new` on a loaded object: flushed only if it differs from what was loaded. -/
def setIfChanged {α : Type} [DecidableEq α] (loaded new current : α) : α :=
  if new = loaded then current else new

@[simp] theorem setIfChanged_self {α : Type} [DecidableEq α] (loaded new : α) :
    setIfChanged loaded new loaded = new := by
  unfold setIfChanged
  split
  · rename_i h; exact h.symm
  · rfl

/-! ## Profiles, seats, waitlist -/

def insertProfile (id : Uuid) (p : Profile) : Write where
  rows _ := [.profile id, .usernameKey p.username]
  violates db := firstViolated
    [(db.profiles.contains id, "profiles_pkey"),
     (db.profiles.any fun _ q => q.username = p.username, "ix_profiles_username")]
  effect db := { db with profiles := db.profiles.insert id p }

/-- An update of a profile that leaves its username alone. -/
def writeProfile (id : Uuid) (f : Profile → Profile) : Write where
  rows _ := [.profile id]
  violates _ := none
  effect db := { db with profiles := db.profiles.modify id f }

/-- The update of a profile saved again, whose username becomes `username`. -/
def writeSavedProfile (id : Uuid) (loaded username : String) (f : Profile → Profile) : Write where
  rows _ := .profile id :: if username = loaded then [] else [.usernameKey username]
  violates db := firstViolated
    [(db.profiles.any fun i q => i ≠ id && q.username = username, "ix_profiles_username")]
  effect db := { db with profiles := db.profiles.modify id f }

def insertBetaProgramState (state : BetaProgramState) : Write where
  rows _ := [.betaProgramState]
  violates db := firstViolated [(db.betaProgramState.isSome, "beta_program_state_pkey")]
  effect db :=
    { db with betaProgramState := some (db.betaProgramState.getD state) }

def writeBetaProgramState (state : BetaProgramState) : Write where
  rows _ := [.betaProgramState]
  violates _ := none
  effect db := { db with betaProgramState := db.betaProgramState.map fun _ => state }

def insertWaitlistEntry (id : Uuid) (e : WaitlistEntry) : Write where
  rows _ := [.waitlistEntry id, .waitlistEmailKey e.email]
  violates db := firstViolated
    [(db.waitlistEntries.contains id, "waitlist_entries_pkey"),
     (db.waitlistEntries.any fun _ f => f.email = e.email, "ix_waitlist_entries_email")]
  effect db := { db with waitlistEntries := db.waitlistEntries.insert id e }

/-! ## Campaigns and contracts -/

def insertCampaign (id : Uuid) (c : Campaign) : Write where
  rows _ := [.campaign id, .slugKey c.slug]
  violates db := firstViolated
    [(db.campaigns.contains id, "campaigns_pkey"),
     (db.campaigns.any fun _ d => d.slug = c.slug, "ix_campaigns_slug"),
     (!db.profiles.contains c.ownerId, "campaigns_owner_id_fkey"),
     (c.targetTesters = 0, "ck_campaign_target_testers_positive"),
     (c.rewardCredits = 0, "ck_campaign_reward_positive")]
  effect db := { db with campaigns := db.campaigns.insert id c }

/-- An update that changes neither the tester target nor the reward. -/
def writeCampaign (id : Uuid) (f : Campaign → Campaign) : Write where
  rows _ := [.campaign id]
  violates _ := none
  effect db := { db with campaigns := db.campaigns.modify id f }

def insertTestingContract (id : Uuid) (c : TestingContract) : Write where
  rows _ := [.testingContract id, .contractCampaignKey c.campaignId]
  violates db := firstViolated
    [(db.testingContracts.contains id, "testing_contracts_pkey"),
     (db.testingContracts.any fun _ d => d.campaignId = c.campaignId,
       "ix_testing_contracts_campaign_id"),
     (!db.campaigns.contains c.campaignId, "testing_contracts_campaign_id_fkey")]
  effect db := { db with testingContracts := db.testingContracts.insert id c }

def writeTestingContract (id : Uuid) (f : TestingContract → TestingContract) : Write where
  rows _ := [.testingContract id]
  violates _ := none
  effect db := { db with testingContracts := db.testingContracts.modify id f }

def insertContractTask (id : Uuid) (t : ContractTask) : Write where
  rows _ := [.contractTask id, .taskPositionKey t.contractId t.position]
  violates db := firstViolated
    [(db.contractTasks.contains id, "contract_tasks_pkey"),
     (db.contractTasks.any fun _ u => u.contractId = t.contractId && u.position = t.position,
       "uq_contract_task_position"),
     (!db.testingContracts.contains t.contractId, "contract_tasks_contract_id_fkey")]
  effect db := { db with contractTasks := db.contractTasks.insert id t }

/-- A bulk delete of tasks; evidence that referred to one of them loses the link. -/
def deleteContractTasks (ids : List Uuid) : Write where
  rows _ := ids.map .contractTask
  violates _ := none
  effect db :=
    { db with
      contractTasks := db.contractTasks.erase ids
      evidenceItems := db.evidenceItems.map fun _ item =>
        { item with taskId := item.taskId.filter fun taskId => taskId ∉ ids } }

/-! ## Assignments and what testers send -/

def insertAssignment (id : Uuid) (a : Assignment) : Write where
  rows _ := [.assignment id, .campaignTesterKey a.campaignId a.testerId]
  violates db := firstViolated
    [(db.assignments.contains id, "assignments_pkey"),
     (db.assignments.any fun _ b => b.campaignId = a.campaignId && b.testerId = a.testerId,
       "uq_campaign_tester"),
     (!db.campaigns.contains a.campaignId, "assignments_campaign_id_fkey"),
     (!db.profiles.contains a.testerId, "assignments_tester_id_fkey")]
  effect db := { db with assignments := db.assignments.insert id a }

def writeAssignment (id : Uuid) (f : Assignment → Assignment) : Write where
  rows _ := [.assignment id]
  violates _ := none
  effect db := { db with assignments := db.assignments.modify id f }

def insertTestingSession (id : Uuid) (t : TestingSession) : Write where
  rows _ := [.testingSession id, .sessionDayKey t.assignmentId t.sessionDate]
  violates db := firstViolated
    [(db.testingSessions.contains id, "testing_sessions_pkey"),
     (db.testingSessions.any fun _ u =>
        u.assignmentId = t.assignmentId && u.sessionDate = t.sessionDate, "uq_testing_session_day"),
     (!db.assignments.contains t.assignmentId, "testing_sessions_assignment_id_fkey")]
  effect db := { db with testingSessions := db.testingSessions.insert id t }

def insertEvidenceSubmission (id : Uuid) (e : EvidenceSubmission) : Write where
  rows _ := [.evidenceSubmission id, .submissionVersionKey e.assignmentId e.version]
  violates db := firstViolated
    [(db.evidenceSubmissions.contains id, "evidence_submissions_pkey"),
     (db.evidenceSubmissions.any fun _ f =>
        f.assignmentId = e.assignmentId && f.version = e.version,
       "uq_assignment_submission_version"),
     (e.version = 0, "ck_submission_version_positive"),
     (!db.assignments.contains e.assignmentId, "evidence_submissions_assignment_id_fkey")]
  effect db := { db with evidenceSubmissions := db.evidenceSubmissions.insert id e }

def writeEvidenceSubmission (id : Uuid) (f : EvidenceSubmission → EvidenceSubmission) : Write where
  rows _ := [.evidenceSubmission id]
  violates _ := none
  effect db := { db with evidenceSubmissions := db.evidenceSubmissions.modify id f }

def insertEvidenceItem (id : Uuid) (e : EvidenceItem) : Write where
  rows _ := [.evidenceItem id]
  violates db := firstViolated
    [(db.evidenceItems.contains id, "evidence_items_pkey"),
     (e.storageKey.isNone && e.externalUrl.isNone && e.note.isNone, "ck_evidence_has_content"),
     (!db.evidenceSubmissions.contains e.submissionId, "evidence_items_submission_id_fkey"),
     (e.taskId.any fun taskId => !db.contractTasks.contains taskId, "evidence_items_task_id_fkey")]
  effect db := { db with evidenceItems := db.evidenceItems.insert id e }

def insertMessage (id : Uuid) (m : Message) : Write where
  rows _ := [.message id]
  violates db := firstViolated
    [(db.messages.contains id, "messages_pkey"),
     (!db.assignments.contains m.assignmentId, "messages_assignment_id_fkey"),
     (!db.profiles.contains m.senderId, "messages_sender_id_fkey")]
  effect db := { db with messages := db.messages.insert id m }

/-! ## Decisions, credits, records -/

def insertReview (id : Uuid) (r : Review) : Write where
  rows _ := [.review id, .reviewSubmissionKey r.submissionId]
  violates db := firstViolated
    [(db.reviews.contains id, "reviews_pkey"),
     (db.reviews.any fun _ q => q.submissionId = r.submissionId, "ix_reviews_submission_id"),
     (!db.evidenceSubmissions.contains r.submissionId, "reviews_submission_id_fkey"),
     (!db.profiles.contains r.reviewerId, "reviews_reviewer_id_fkey")]
  effect db := { db with reviews := db.reviews.insert id r }

def insertCreditAccount (userId : Uuid) (a : CreditAccount) : Write where
  rows _ := [.creditAccount userId]
  violates db := firstViolated
    [(db.creditAccounts.contains userId, "credit_accounts_pkey"),
     (a.balance < 0, "ck_credit_balance_nonnegative"),
     (!db.profiles.contains userId, "credit_accounts_user_id_fkey")]
  effect db := { db with creditAccounts := db.creditAccounts.insert userId a }

def writeCreditAccount (userId : Uuid) (balance : Int) : Write where
  rows _ := [.creditAccount userId]
  violates _ := firstViolated [(balance < 0, "ck_credit_balance_nonnegative")]
  effect db := { db with creditAccounts := db.creditAccounts.modify userId fun _ => ⟨balance⟩ }

def insertCreditLedgerEntry (e : CreditLedgerEntry) : Write where
  rows _ := [.ledgerKey e.idempotencyKey]
  violates db := firstViolated
    [(db.creditLedgerEntries.any fun f => f.idempotencyKey = e.idempotencyKey,
       "credit_ledger_entries_idempotency_key_key"),
     (e.delta = 0, "ck_credit_delta_nonzero"),
     (!db.profiles.contains e.userId, "credit_ledger_entries_user_id_fkey"),
     (db.missingProfile e.createdBy, "credit_ledger_entries_created_by_fkey")]
  effect db := { db with creditLedgerEntries := db.creditLedgerEntries ++ [e] }

def insertDispute (id : Uuid) (d : Dispute) : Write where
  rows _ := [.dispute id]
  violates db := firstViolated
    [(db.disputes.contains id, "disputes_pkey"),
     (!db.assignments.contains d.assignmentId, "disputes_assignment_id_fkey"),
     (d.submissionId.any fun s => !db.evidenceSubmissions.contains s,
       "disputes_submission_id_fkey"),
     (!db.profiles.contains d.openedBy, "disputes_opened_by_fkey")]
  effect db := { db with disputes := db.disputes.insert id d }

/-- An update of a dispute that stores `userId` in a column the constraint `fkey` is on. -/
def writeDispute (id userId : Uuid) (fkey : String) (f : Dispute → Dispute) : Write where
  rows _ := [.dispute id]
  violates db := firstViolated [(!db.profiles.contains userId, fkey)]
  effect db := { db with disputes := db.disputes.modify id f }

def insertNotification (id : Uuid) (n : Notification) : Write where
  rows _ := [.notification id, .notificationKey n.idempotencyKey]
  violates db := firstViolated
    [(db.notifications.contains id, "notifications_pkey"),
     (db.notifications.any fun _ m => m.idempotencyKey = n.idempotencyKey,
       "notifications_idempotency_key_key"),
     (!db.profiles.contains n.userId, "notifications_user_id_fkey")]
  effect db := { db with notifications := db.notifications.insert id n }

def writeNotification (id : Uuid) (f : Notification → Notification) : Write where
  rows _ := [.notification id]
  violates _ := none
  effect db := { db with notifications := db.notifications.modify id f }

/-- `UPDATE notifications SET read_at = now` for the unread ones among `ids`. -/
def writeNotificationsRead (ids : List Uuid) (now : Time) : Write where
  rows _ := ids.map .notification
  violates _ := none
  effect db :=
    { db with
      notifications := db.notifications.map fun id n =>
        if id ∈ ids then { n with readAt := some now } else n }

def insertAuditEvent (e : AuditEvent) : Write where
  rows _ := []
  violates db := firstViolated [(db.missingProfile e.actorId, "audit_events_actor_id_fkey")]
  effect db := { db with auditEvents := db.auditEvents ++ [e] }

end TestExchange
