import TestExchange.Concurrent.Footprints

/-!
# The tables a request writes

Every request writes only to certain tables (`Request.relations`), whatever it
reads and wherever it fails. So whatever is said about other tables is the same
before and after it, and a property of a table has to be looked at only for the
few requests that write there.
-/

namespace TestExchange

open Txn Txn.Session

/-- The tables of the database. -/
inductive Relation where
  | profiles
  | betaProgramState
  | waitlistEntries
  | campaigns
  | testingContracts
  | contractTasks
  | assignments
  | testingSessions
  | evidenceSubmissions
  | evidenceItems
  | messages
  | notifications
  | reviews
  | creditAccounts
  | creditLedgerEntries
  | disputes
  | auditEvents
  deriving DecidableEq

/-- The writes to each table. The deletion of tasks also takes them out of the evidence. -/
inductive WritesTo : Relation → Write → Prop where
  | insertProfile {id : Uuid} {p : Profile} : WritesTo .profiles (insertProfile id p)
  | writeProfile {id : Uuid} {f : Profile → Profile} : WritesTo .profiles (writeProfile id f)
  | writeSavedProfile {id : Uuid} {loaded username : String} {f : Profile → Profile} :
      WritesTo .profiles (writeSavedProfile id loaded username f)
  | insertBetaProgramState {state : BetaProgramState} :
      WritesTo .betaProgramState (insertBetaProgramState state)
  | writeBetaProgramState {state : BetaProgramState} :
      WritesTo .betaProgramState (writeBetaProgramState state)
  | insertWaitlistEntry {id : Uuid} {e : WaitlistEntry} :
      WritesTo .waitlistEntries (insertWaitlistEntry id e)
  | insertCampaign {id : Uuid} {c : Campaign} : WritesTo .campaigns (insertCampaign id c)
  | writeCampaign {id : Uuid} {f : Campaign → Campaign} : WritesTo .campaigns (writeCampaign id f)
  | patchCampaign {id : Uuid} {payload : CampaignUpdate} {loaded : Campaign} :
      WritesTo .campaigns (patchCampaign id payload loaded)
  | insertTestingContract {id : Uuid} {c : TestingContract} :
      WritesTo .testingContracts (insertTestingContract id c)
  | writeTestingContract {id : Uuid} {f : TestingContract → TestingContract} :
      WritesTo .testingContracts (writeTestingContract id f)
  | insertContractTask {id : Uuid} {t : ContractTask} :
      WritesTo .contractTasks (insertContractTask id t)
  | deleteContractTasks {ids : List Uuid} : WritesTo .contractTasks (deleteContractTasks ids)
  | insertAssignment {id : Uuid} {a : Assignment} : WritesTo .assignments (insertAssignment id a)
  | writeAssignment {id : Uuid} {f : Assignment → Assignment} :
      WritesTo .assignments (writeAssignment id f)
  | insertTestingSession {id : Uuid} {t : TestingSession} :
      WritesTo .testingSessions (insertTestingSession id t)
  | insertEvidenceSubmission {id : Uuid} {e : EvidenceSubmission} :
      WritesTo .evidenceSubmissions (insertEvidenceSubmission id e)
  | writeEvidenceSubmission {id : Uuid} {f : EvidenceSubmission → EvidenceSubmission} :
      WritesTo .evidenceSubmissions (writeEvidenceSubmission id f)
  | insertEvidenceItem {id : Uuid} {e : EvidenceItem} :
      WritesTo .evidenceItems (insertEvidenceItem id e)
  | insertMessage {id : Uuid} {m : Message} : WritesTo .messages (insertMessage id m)
  | insertReview {id : Uuid} {r : Review} : WritesTo .reviews (insertReview id r)
  | insertCreditAccount {id : Uuid} {a : CreditAccount} :
      WritesTo .creditAccounts (insertCreditAccount id a)
  | writeCreditAccount {id : Uuid} {balance : Int} :
      WritesTo .creditAccounts (writeCreditAccount id balance)
  | insertCreditLedgerEntry {e : CreditLedgerEntry} :
      WritesTo .creditLedgerEntries (insertCreditLedgerEntry e)
  | insertDispute {id : Uuid} {d : Dispute} : WritesTo .disputes (insertDispute id d)
  | writeDispute {id userId : Uuid} {fkey : String} {f : Dispute → Dispute} :
      WritesTo .disputes (writeDispute id userId fkey f)
  | insertNotification {id : Uuid} {n : Notification} :
      WritesTo .notifications (insertNotification id n)
  | writeNotification {id : Uuid} {f : Notification → Notification} :
      WritesTo .notifications (writeNotification id f)
  | writeNotificationsRead {ids : List Uuid} {now : Time} :
      WritesTo .notifications (writeNotificationsRead ids now)
  | insertAuditEvent {e : AuditEvent} : WritesTo .auditEvents (insertAuditEvent e)

/-- A write to one of the listed tables. -/
def Within (relations : List Relation) (w : Write) : Prop := ∃ r ∈ relations, WritesTo r w

theorem WritesTo.within {r : Relation} {w : Write} {relations : List Relation} (h : WritesTo r w)
    (hr : r ∈ relations) : Within relations w := ⟨r, hr, h⟩

/-- The tables a request may write to. -/
def Request.relations : Request → List Relation
  | .saveProfile _ =>
      [.profiles, .betaProgramState, .creditAccounts, .creditLedgerEntries, .auditEvents]
  | .waitlist _ => [.waitlistEntries]
  | .balance => [.creditAccounts]
  | .createCampaign _ | .updateCampaign _ _ => [.campaigns, .auditEvents]
  | .launchCampaign _ =>
      [.campaigns, .testingContracts, .contractTasks, .creditAccounts, .creditLedgerEntries,
       .auditEvents]
  | .saveContract _ _ => [.testingContracts, .contractTasks, .auditEvents]
  | .publishCampaign _ =>
      [.campaigns, .testingContracts, .creditAccounts, .creditLedgerEntries, .auditEvents]
  | .transitionCampaign _ _ | .withdraw _ =>
      [.campaigns, .assignments, .notifications, .auditEvents]
  | .apply _ _ | .accept _ | .decline _ => [.assignments, .notifications, .auditEvents]
  | .start _ => [.assignments, .testingSessions, .auditEvents]
  | .recordSession _ _ => [.testingSessions, .auditEvents]
  | .submit _ _ =>
      [.evidenceSubmissions, .evidenceItems, .assignments, .notifications, .auditEvents]
  | .review _ _ =>
      [.reviews, .notifications, .evidenceSubmissions, .assignments, .campaigns, .creditAccounts,
       .creditLedgerEntries, .auditEvents]
  | .message _ _ => [.messages, .notifications, .auditEvents]
  | .openDispute _ _ => [.disputes, .notifications, .auditEvents]
  | .claimDispute _ => [.disputes, .auditEvents]
  | .resolveDispute _ _ =>
      [.disputes, .notifications, .evidenceSubmissions, .assignments, .campaigns, .creditAccounts,
       .creditLedgerEntries, .auditEvents]
  | .evidenceUrl _ _ _ => [.auditEvents]
  | .suspend _ _ | .restore _ => [.profiles, .auditEvents]
  | .readNotification _ | .readAllNotifications => [.notifications]

/-! ## Services -/

section Services

variable {rs : List Relation}

theorem within_event (h : .auditEvents ∈ rs) {e : AuditEvent} : Within rs (insertAuditEvent e) :=
  WritesTo.insertAuditEvent.within h

theorem only_event (h : .auditEvents ∈ rs) {actorId : Option Uuid} {action entityType : String}
    {id : Uuid} {details : List (String × Json)} :
    Only (Within rs) (addAuditEvent actorId action entityType id details) :=
  only_addAuditEvent (within_event h)

theorem only_notify (h : .notifications ∈ rs) {n : Notification} :
    Only (Within rs) (addNotification n) :=
  only_addNotification fun _ => WritesTo.insertNotification.within h

theorem only_credit (h : .creditAccounts ∈ rs) (h' : .creditLedgerEntries ∈ rs)
    {change : CreditChange} : Only (Within rs) (recordCreditEntry change) :=
  only_recordCreditEntry (WritesTo.insertCreditAccount.within h)
    (fun _ => WritesTo.writeCreditAccount.within h)
    fun _ => WritesTo.insertCreditLedgerEntry.within h'

theorem only_completion (h : .campaigns ∈ rs) (h' : .auditEvents ∈ rs) {id actorId : Uuid}
    {campaign : Campaign} : Only (Within rs) (maybeCompleteCampaign id campaign actorId) :=
  only_maybeCompleteCampaign (WritesTo.writeCampaign.within h) fun _ => within_event h'

theorem only_assignment (h : .assignments ∈ rs) {id : Uuid} {f : Assignment → Assignment} :
    Only (Within rs) (add (writeAssignment id f)) := only_add (WritesTo.writeAssignment.within h)

theorem only_submission (h : .evidenceSubmissions ∈ rs) {id : Uuid}
    {f : EvidenceSubmission → EvidenceSubmission} :
    Only (Within rs) (add (writeEvidenceSubmission id f)) :=
  only_add (WritesTo.writeEvidenceSubmission.within h)

theorem only_widen {α : Type} {rs' : List Relation} {m : Session α} (h : Only (Within rs) m)
    (hsub : rs ⊆ rs') : Only (Within rs') m :=
  Emits.mono h fun _ hnew w hw =>
    let ⟨r, hr, hwrites⟩ := hnew w hw
    ⟨r, hsub hr, hwrites⟩

/-- What no write to the tables changes, the session keeps. -/
theorem only_keeping {α σ : Type} {π : Db → σ} {m : Session α} (h : Only (Within rs) m)
    (hπ : ∀ r ∈ rs, ∀ w, WritesTo r w → ∀ db, π (w.effect db) = π db) : Only (Keeps π) m :=
  Emits.mono h fun _ hnew w hw =>
    let ⟨r, hr, hwrites⟩ := hnew w hw
    hπ r hr w hwrites

theorem upsertProfile_within {settings : Settings} {userId : Uuid} {email : Option String}
    {payload : ProfileUpsert} :
    Only (Within [.profiles, .betaProgramState, .creditAccounts, .creditLedgerEntries, .auditEvents])
      (upsertProfile settings userId email payload) := by
  refine only_query.bind fun _ => only_raiseIf.bind fun _ => only_query.bind fun found => ?_
  cases found with
  | some profile =>
      refine (only_add (WritesTo.writeSavedProfile.within (by decide))).bind fun _ => ?_
      exact (only_event (by decide)).bind fun _ => only_flush.bind fun _ => only_pure
  | none =>
      refine only_raiseIf.bind fun _ => Only.bind ?_ fun state => ?_
      · refine only_queryForUpdate.bind fun found => ?_
        cases found with
        | some state => exact only_pure
        | none =>
            refine only_query.bind fun _ => ?_
            exact (only_add (WritesTo.insertBetaProgramState.within (by decide))).bind fun _ =>
              only_flush.bind fun _ => only_pure
      · refine only_raiseIf.bind fun _ =>
          (only_add (WritesTo.writeBetaProgramState.within (by decide))).bind fun _ =>
          (only_add (WritesTo.insertProfile.within (by decide))).bind fun _ =>
          only_flush.bind fun _ =>
          (only_ensureCreditAccount (WritesTo.insertCreditAccount.within (by decide))).bind fun _ =>
          Only.bind ?_ fun _ => ?_
        · unfold grantSignupCredits
          split
          · exact (only_credit (by decide) (by decide)).bind fun _ => only_pure
          · exact only_pure
        · exact (only_event (by decide)).bind fun _ => only_flush.bind fun _ => only_pure

theorem createCampaign_within {ownerId : Uuid} {payload : CampaignCreate} (h : .campaigns ∈ rs)
    (h' : .auditEvents ∈ rs) : Only (Within rs) (createCampaign ownerId payload) :=
  only_getProfile.bind fun _ => only_query.bind fun _ => only_raiseIf.bind fun _ =>
    only_uuid4.bind fun _ => (only_add (WritesTo.insertCampaign.within h)).bind fun _ =>
    only_flush.bind fun _ => (only_event h').bind fun _ => only_pure

theorem upsertContract_within {campaignId ownerId : Uuid} {payload : ContractUpsert}
    (h : .testingContracts ∈ rs) (h' : .contractTasks ∈ rs) (h'' : .auditEvents ∈ rs) :
    Confined (Within rs) (upsertContract campaignId ownerId payload) := by
  have hreads : Only (Within rs) (getCampaign campaignId) := only_getCampaign
  refine hreads.confined.bind fun _ => only_requireCampaignOwner.confined.bind fun _ =>
    only_raiseIf.confined.bind fun _ => only_query.confined.bind fun existing =>
    Confined.bind ?_ fun contract => Only.confined ?_
  · cases existing with
    | none =>
        exact (only_uuid4.bind fun _ =>
          (only_add (WritesTo.insertTestingContract.within h)).bind fun _ =>
          only_flush.bind fun _ => only_pure).confined
    | some found =>
        -- the tasks are deleted while the change of the contract is still queued
        refine only_raiseIf.confined.bind fun _ =>
          (only_add (WritesTo.writeTestingContract.within h)).confined.bind fun _ =>
          only_queryForUpdate.confined.bind fun _ =>
          (confined_execute (WritesTo.deleteContractTasks.within h')).bind fun _ =>
          only_pure.confined
  · exact (only_addTasks fun _ _ _ => WritesTo.insertContractTask.within h').bind fun _ =>
      (only_event h'').bind fun _ => only_flush.bind fun _ => only_pure

theorem publishCampaign_within {campaignId ownerId : Uuid} (h : .campaigns ∈ rs)
    (h' : .testingContracts ∈ rs) (ha : .creditAccounts ∈ rs) (hl : .creditLedgerEntries ∈ rs)
    (he : .auditEvents ∈ rs) : Only (Within rs) (publishCampaign campaignId ownerId) :=
  only_publishCampaign (fun _ => WritesTo.writeCampaign.within h)
    (fun _ _ => WritesTo.writeTestingContract.within h')
    (fun _ _ => WritesTo.insertCreditAccount.within ha)
    (fun _ _ => WritesTo.writeCreditAccount.within ha)
    (fun _ => WritesTo.insertCreditLedgerEntry.within hl) fun _ => within_event he

theorem launchCampaign_within {ownerId : Uuid} {payload : CampaignLaunch} :
    Confined (Within [.campaigns, .testingContracts, .contractTasks, .creditAccounts,
      .creditLedgerEntries, .auditEvents]) (launchCampaign ownerId payload) :=
  (createCampaign_within (by decide) (by decide)).confined.bind fun _ =>
    (upsertContract_within (by decide) (by decide) (by decide)).bind fun _ =>
    (publishCampaign_within (by decide) (by decide) (by decide) (by decide) (by decide)).confined

theorem savedContract_within {campaignId ownerId : Uuid} {payload : ContractUpsert} :
    Confined (Within [.testingContracts, .contractTasks, .auditEvents])
      (upsertContract campaignId ownerId payload) :=
  upsertContract_within (by decide) (by decide) (by decide)

theorem publishedCampaign_within {campaignId ownerId : Uuid} :
    Only (Within [.campaigns, .testingContracts, .creditAccounts, .creditLedgerEntries,
      .auditEvents]) (publishCampaign campaignId ownerId) :=
  publishCampaign_within (by decide) (by decide) (by decide) (by decide) (by decide)

theorem updateCampaign_within {campaignId ownerId : Uuid} {payload : CampaignUpdate} :
    Only (Within [.campaigns, .auditEvents]) (updateCampaign campaignId ownerId payload) :=
  only_getCampaign.bind fun _ => only_requireCampaignOwner.bind fun _ => only_raiseIf.bind fun _ =>
    (only_add (WritesTo.patchCampaign.within (by decide))).bind fun _ =>
    (only_event (by decide)).bind fun _ => only_flush.bind fun _ => only_pure

theorem creditBalance_within {userId : Uuid} :
    Only (Within [.creditAccounts]) (creditBalance userId) :=
  only_getProfile.bind fun _ => (only_ensureCreditAccount
    (WritesTo.insertCreditAccount.within (by decide))).bind fun _ => only_pure

theorem transitionCampaign_within {campaignId ownerId : Uuid} {action : TransitionAction} :
    Only (Within [.campaigns, .assignments, .notifications, .auditEvents])
      (transitionCampaign campaignId ownerId action) := by
  refine only_selectForUpdate.bind fun _ => only_orRaise.bind fun campaign =>
    only_requireCampaignOwner.bind fun _ => Only.bind ?_ fun _ => (only_event (by decide)).bind
    fun _ => Only.bind ?_ fun _ => only_flush.bind fun _ => only_pure
  · have hwrite : ∀ f, Only (Within [.campaigns, .assignments, .notifications, .auditEvents])
        (add (writeCampaign campaignId f)) :=
      fun f => only_add (WritesTo.writeCampaign.within (by decide))
    cases action with
    | pause => exact only_raiseIf.bind fun _ => (hwrite _).bind fun _ => only_pure
    | resume =>
        exact only_raiseIf.bind fun _ => only_query.bind fun _ => only_raiseIf.bind fun _ =>
          (hwrite _).bind fun _ => only_pure
    | close =>
        refine only_raiseIf.bind fun _ => (hwrite _).bind fun _ =>
          only_queryForUpdate.bind fun _ => only_utcnow.bind fun _ => Only.bind ?_ fun _ => only_pure
        exact only_declinePending (fun _ => WritesTo.writeAssignment.within (by decide))
          (fun _ => within_event (by decide))
          fun _ _ => WritesTo.insertNotification.within (by decide)
  · unfold completeIfClosed
    split
    · exact only_completion (by decide) (by decide)
    · exact only_pure

theorem applyToCampaign_within {campaignId testerId : Uuid} {payload : AssignmentApply} :
    Only (Within [.assignments, .notifications, .auditEvents])
      (applyToCampaign campaignId testerId payload) :=
  only_getProfile.bind fun _ => only_selectForUpdate.bind fun _ => only_orRaise.bind fun _ =>
    only_raiseIf.bind fun _ => only_raiseIf.bind fun _ => only_query.bind fun _ =>
    only_raiseIf.bind fun _ => only_query.bind fun _ => only_raiseIf.bind fun _ =>
    only_uuid4.bind fun _ => (only_add (WritesTo.insertAssignment.within (by decide))).bind fun _ =>
    only_flush.bind fun _ => (only_event (by decide)).bind fun _ =>
    only_testerDisplayName.bind fun _ => (only_notify (by decide)).bind fun _ => only_pure

theorem acceptAssignment_within {id ownerId : Uuid} :
    Only (Within [.assignments, .notifications, .auditEvents]) (acceptAssignment id ownerId) :=
  only_query.bind fun _ => only_orRaise.bind fun _ => only_selectForUpdate.bind fun _ =>
    only_orRaise.bind fun _ => only_requireCampaignOwner.bind fun _ => only_raiseIf.bind fun _ =>
    only_selectForUpdate.bind fun _ => only_orRaise.bind fun _ => only_raiseIf.bind fun _ =>
    only_query.bind fun _ => only_raiseIf.bind fun _ => only_utcnow.bind fun _ =>
    (only_assignment (by decide)).bind fun _ => (only_event (by decide)).bind fun _ =>
    (only_notify (by decide)).bind fun _ => only_flush.bind fun _ => only_pure

theorem declineAssignment_within {id ownerId : Uuid} :
    Only (Within [.assignments, .notifications, .auditEvents]) (declineAssignment id ownerId) :=
  only_selectForUpdate.bind fun _ => only_orRaise.bind fun _ => only_getCampaign.bind fun _ =>
    only_requireCampaignOwner.bind fun _ => only_raiseIf.bind fun _ => only_utcnow.bind fun _ =>
    (only_assignment (by decide)).bind fun _ => (only_event (by decide)).bind fun _ =>
    (only_notify (by decide)).bind fun _ => only_flush.bind fun _ => only_pure

theorem withdrawAssignment_within {id testerId : Uuid} :
    Only (Within [.campaigns, .assignments, .notifications, .auditEvents])
      (withdrawAssignment id testerId) :=
  only_selectForUpdate.bind fun _ => only_orRaise.bind fun _ => only_raiseIf.bind fun _ =>
    only_raiseIf.bind fun _ => only_selectForUpdate.bind fun _ => only_orRaise.bind fun _ =>
    only_utcnow.bind fun _ => (only_assignment (by decide)).bind fun _ =>
    (only_event (by decide)).bind fun _ => only_testerDisplayName.bind fun _ =>
    (only_notify (by decide)).bind fun _ => (only_completion (by decide) (by decide)).bind fun _ =>
    only_flush.bind fun _ => only_pure

theorem startAssignment_within {id testerId : Uuid} :
    Only (Within [.assignments, .testingSessions, .auditEvents]) (startAssignment id testerId) :=
  only_getAssignment.bind fun _ => only_raiseIf.bind fun _ => only_raiseIf.bind fun _ =>
    only_utcnow.bind fun _ => (only_assignment (by decide)).bind fun _ => only_uuid4.bind fun _ =>
    (only_add (WritesTo.insertTestingSession.within (by decide))).bind fun _ =>
    (only_event (by decide)).bind fun _ => only_flush.bind fun _ => only_pure

theorem recordTestingSession_within {id testerId : Uuid} {payload : TestingSessionCreate} :
    Only (Within [.testingSessions, .auditEvents]) (recordTestingSession id testerId payload) :=
  only_selectForUpdate.bind fun _ => only_orRaise.bind fun _ => only_raiseIf.bind fun _ =>
    only_raiseIf.bind fun _ => only_utcnow.bind fun _ => only_query.bind fun _ =>
    only_raiseIf.bind fun _ => only_uuid4.bind fun _ =>
    (only_add (WritesTo.insertTestingSession.within (by decide))).bind fun _ =>
    only_flush.bind fun _ => (only_event (by decide)).bind fun _ => only_pure

theorem only_createSubmission {W : Write → Prop} {id testerId : Uuid} {payload : SubmissionCreate}
    (hsubmission : ∀ k e, e.assignmentId = id → W (insertEvidenceSubmission k e))
    (hitem : ∀ k item, W (insertEvidenceItem k item)) (hassignment : ∀ f, W (writeAssignment id f))
    (hevent : ∀ e, W (insertAuditEvent e)) (hnotification : ∀ k m, W (insertNotification k m)) :
    Only W (createSubmission id testerId payload) :=
  only_selectForUpdate.bind fun _ => only_orRaise.bind fun _ => only_raiseIf.bind fun _ =>
    only_raiseIf.bind fun _ => only_contractForAssignment.bind fun _ => only_utcnow.bind fun _ =>
    only_orRaise.bind fun _ => only_raiseIf.bind fun _ => only_query.bind fun _ =>
    only_raiseIf.bind fun _ => only_raiseIf.bind fun _ => only_raiseIf.bind fun _ =>
    only_checkItems.bind fun _ => only_query.bind fun _ => only_uuid4.bind fun _ =>
    only_utcnow.bind fun _ => (only_add (hsubmission _ _ rfl)).bind fun _ =>
    only_flush.bind fun _ => (only_addItems fun _ _ => hitem _ _).bind fun _ =>
    only_utcnow.bind fun _ => (only_add (hassignment _)).bind fun _ =>
    (only_addAuditEvent (hevent _)).bind fun _ => only_getCampaign.bind fun _ =>
    only_testerDisplayName.bind fun _ => (only_addNotification fun _ => hnotification _ _).bind
    fun _ => only_flush.bind fun _ => only_pure

theorem createSubmission_within {id testerId : Uuid} {payload : SubmissionCreate} :
    Only (Within [.evidenceSubmissions, .evidenceItems, .assignments, .notifications, .auditEvents])
      (createSubmission id testerId payload) :=
  only_createSubmission (fun _ _ _ => WritesTo.insertEvidenceSubmission.within (by decide))
    (fun _ _ => WritesTo.insertEvidenceItem.within (by decide))
    (fun _ => WritesTo.writeAssignment.within (by decide)) (fun _ => within_event (by decide))
    fun _ _ => WritesTo.insertNotification.within (by decide)

/-- The tables a decision about submitted work may write to. -/
def decisionRelations : List Relation :=
  [.evidenceSubmissions, .assignments, .campaigns, .creditAccounts, .creditLedgerEntries,
   .auditEvents]

theorem applyDecision_within {submissionId id reviewerId : Uuid} {a : Assignment} {x : Campaign}
    {decision : ReviewDecision} :
    Only (Within decisionRelations) (applyDecision submissionId id a x reviewerId decision) := by
  cases decision with
  | approved =>
      exact only_utcnow.bind fun _ => (only_submission (by decide)).bind fun _ =>
        (only_assignment (by decide)).bind fun _ => (only_credit (by decide) (by decide)).bind
        fun _ => only_flush.bind fun _ => (only_completion (by decide) (by decide)).bind fun _ =>
        only_pure
  | changesRequested =>
      exact (only_submission (by decide)).bind fun _ => only_assignment (by decide)
  | rejected => exact (only_submission (by decide)).bind fun _ => only_assignment (by decide)

theorem createReview_within {submissionId reviewerId : Uuid} {payload : ReviewCreate} :
    Only (Within (.reviews :: .notifications :: decisionRelations))
      (createReview submissionId reviewerId payload) :=
  only_query.bind fun _ => only_orRaise.bind fun _ => only_selectForUpdate.bind fun _ =>
    only_orRaise.bind fun _ => only_selectForUpdate.bind fun _ => only_orRaise.bind fun _ =>
    only_selectForUpdate.bind fun _ => only_orRaise.bind fun _ =>
    only_requireCampaignOwner.bind fun _ => only_query.bind fun _ => only_raiseIf.bind fun _ =>
    only_raiseIf.bind fun _ => only_raiseIf.bind fun _ => only_uuid4.bind fun _ =>
    (only_add (WritesTo.insertReview.within (by decide))).bind fun _ => only_flush.bind fun _ =>
    (only_widen applyDecision_within (by decide)).bind fun _ => (only_event (by decide)).bind
    fun _ => (only_notify (by decide)).bind fun _ => only_flush.bind fun _ => only_pure

theorem addMessage_within {id senderId : Uuid} {payload : MessageCreate} :
    Only (Within [.messages, .notifications, .auditEvents]) (addMessage id senderId payload) :=
  only_getAssignment.bind fun _ => only_requireAssignmentParticipant.bind fun _ =>
    only_uuid4.bind fun _ => (only_add (WritesTo.insertMessage.within (by decide))).bind fun _ =>
    only_flush.bind fun _ => (only_event (by decide)).bind fun _ => only_getCampaign.bind fun _ =>
    (only_notify (by decide)).bind fun _ => only_pure

theorem openDispute_within {id openedBy : Uuid} {payload : DisputeCreate} :
    Only (Within [.disputes, .notifications, .auditEvents]) (openDispute id openedBy payload) := by
  refine only_selectForUpdate.bind fun _ => only_orRaise.bind fun _ =>
    only_requireAssignmentParticipant.bind fun _ => only_raiseIf.bind fun _ =>
    only_raiseIf.bind fun _ => only_orRaise.bind fun _ => only_query.bind fun _ =>
    only_orRaise.bind fun _ => only_raiseIf.bind fun _ => Only.bind ?_ fun _ => ?_
  · unfold checkEscalation
    split
    · exact only_raiseIf.bind fun _ => only_contractForAssignment.bind fun _ =>
        only_utcnow.bind fun _ => only_raiseIf
    · exact only_raiseIf
  · exact only_query.bind fun _ => only_raiseIf.bind fun _ => only_uuid4.bind fun _ =>
      (only_add (WritesTo.insertDispute.within (by decide))).bind fun _ => only_flush.bind fun _ =>
      (only_event (by decide)).bind fun _ => only_getCampaign.bind fun _ =>
      (only_notify (by decide)).bind fun _ => only_pure

theorem claimDispute_within {disputeId moderatorId : Uuid} :
    Only (Within [.disputes, .auditEvents]) (claimDispute disputeId moderatorId) := by
  refine only_selectForUpdate.bind fun _ => only_orRaise.bind fun _ => ?_
  split
  · exact only_raiseIf.bind fun _ => only_pure
  · exact only_raiseIf.bind fun _ => only_utcnow.bind fun _ =>
      (only_add (WritesTo.writeDispute.within (by decide))).bind fun _ =>
      (only_event (by decide)).bind fun _ => only_flush.bind fun _ => only_pure

theorem only_disputedSubmission {id : Uuid} {o : Option EvidenceSubmission} {W : Write → Prop} :
    Only W (disputedSubmission id o) :=
  only_orRaise.bind fun _ => only_raiseIf.bind fun _ => only_pure

theorem applyRemedy_within {d : Dispute} {a : Assignment} {moderatorId : Uuid}
    {payload : DisputeResolve} :
    Only (Within decisionRelations) (applyRemedy d a moderatorId payload) := by
  unfold applyRemedy
  split
  · exact only_orRaise.bind fun _ => only_raiseIf.bind fun _ => only_selectForUpdate.bind fun _ =>
      only_disputedSubmission.bind fun _ => only_selectForUpdate.bind fun _ =>
      only_orRaise.bind fun _ => only_utcnow.bind fun _ => (only_submission (by decide)).bind
      fun _ => (only_assignment (by decide)).bind fun _ =>
      (only_credit (by decide) (by decide)).bind fun _ => only_flush.bind fun _ =>
      (only_completion (by decide) (by decide)).bind fun _ => only_pure
  · split
    · exact only_raiseIf.bind fun _ => only_orRaise.bind fun _ => only_query.bind fun _ =>
        only_disputedSubmission.bind fun _ => only_utcnow.bind fun _ =>
        (only_submission (by decide)).bind fun _ => only_assignment (by decide)
    · exact only_pure

theorem resolveDispute_within {disputeId moderatorId : Uuid} {payload : DisputeResolve} :
    Only (Within (.disputes :: .notifications :: decisionRelations))
      (resolveDispute disputeId moderatorId payload) :=
  only_selectForUpdate.bind fun _ => only_orRaise.bind fun _ => only_raiseIf.bind fun _ =>
    only_raiseIf.bind fun _ => only_selectForUpdate.bind fun _ => only_orRaise.bind fun _ =>
    (only_widen applyRemedy_within (by decide)).bind fun _ => only_utcnow.bind fun _ =>
    (only_add (WritesTo.writeDispute.within (by decide))).bind fun _ =>
    (only_event (by decide)).bind fun _ => only_getCampaign.bind fun _ =>
    (only_notify (by decide)).bind fun _ => (only_notify (by decide)).bind fun _ =>
    only_flush.bind fun _ => only_pure

theorem moderatorEvidenceUrl_within {settings : Settings} {disputeId evidenceId moderatorId : Uuid}
    {answer : SigningAnswer} :
    Only (Within [.auditEvents])
      (moderatorEvidenceUrl settings disputeId evidenceId moderatorId answer) := by
  refine only_query.bind fun _ => only_query.bind fun _ => only_query.bind fun _ =>
    only_orRaise.bind fun _ => only_orRaise.bind fun _ => only_orRaise.bind fun _ =>
    only_raiseIf.bind fun _ => only_orRaise.bind fun _ => only_raiseIf.bind fun _ =>
    Only.bind ?_ fun _ => (only_event (by decide)).bind fun _ => only_flush.bind fun _ => only_pure
  unfold signStorageEvidence
  split
  · exact only_orRaise.bind fun _ => only_raiseIf.bind fun _ => only_pure
  · exact only_raise

theorem writeProfile_within {participantId moderatorId : Uuid} {action : String}
    {details : List (String × Json)} {f : Profile → Profile} {β : Type} {b : β} :
    Only (Within [.profiles, .auditEvents]) (do
      add (writeProfile participantId f)
      addAuditEvent (some moderatorId) action "profile" participantId details
      flush
      pure b) :=
  (only_add (WritesTo.writeProfile.within (by decide))).bind fun _ =>
    (only_event (by decide)).bind fun _ => only_flush.bind fun _ => only_pure

theorem joinWaitlist_within {email : String} :
    Confined (Within [.waitlistEntries]) (joinWaitlist email) := by
  have hread : Only (Within [.waitlistEntries])
      (query fun db => db.waitlistEntries.find? fun _ e => e.email = email) := only_query
  refine hread.confined.bind fun existing => ?_
  cases existing with
  | some entry => exact only_pure.confined
  | none =>
      refine only_uuid4.confined.bind fun id => (confined_executeNested
        (WritesTo.insertWaitlistEntry.within (by decide))).bind fun conflict => ?_
      cases conflict with
      | none => exact only_pure.confined
      | some error => exact hread.confined.bind fun _ => only_orRaise.confined

theorem markNotificationRead_within {id userId : Uuid} :
    Only (Within [.notifications]) (markNotificationRead id userId) := by
  refine only_selectForUpdate.bind fun _ => only_orRaise.bind fun n => only_raiseIf.bind fun _ => ?_
  split
  · exact only_pure
  · exact only_utcnow.bind fun _ =>
      (only_add (WritesTo.writeNotification.within (by decide))).bind fun _ =>
      only_flush.bind fun _ => only_pure

theorem markAllNotificationsRead_within {userId : Uuid} :
    Confined (Within [.notifications]) (markAllNotificationsRead userId) :=
  only_utcnow.confined.bind fun _ => only_queryForUpdate.confined.bind fun _ =>
    confined_execute (WritesTo.writeNotificationsRead.within (by decide))

end Services

/-! ## Requests -/

section Requests

variable {settings : Settings} {user : CurrentUser} {W : Write → Prop}

theorem only_getActiveUser : Only W (getActiveUser user) := only_query.bind fun _ => only_raiseIf

theorem only_getModerator : Only W (getModerator settings user) :=
  only_getActiveUser.bind fun _ => only_raiseIf

/-- Behind the check for a suspended account, for its effect. -/
theorem confined_active {α : Type} {m : Session α} (h : Confined W m) :
    Confined W (getActiveUser user >>= fun _ => discard m) :=
  only_getActiveUser.confined.bind fun _ => h.bind fun _ => only_pure.confined

theorem confined_moderator {α : Type} {m : Session α} (h : Confined W m) :
    Confined W (getModerator settings user >>= fun _ => discard m) :=
  only_getModerator.confined.bind fun _ => h.bind fun _ => only_pure.confined

/-- The same for a service that takes the body of the request. -/
theorem confined_activeBody {α β : Type} {o : Option β} {m : β → Session α}
    (h : ∀ b, Confined W (m b)) :
    Confined W (getActiveUser user >>= fun _ => validated o >>= fun b => discard (m b)) :=
  only_getActiveUser.confined.bind fun _ => only_orRaise.confined.bind fun b =>
    (h b).bind fun _ => only_pure.confined

theorem confined_moderatorBody {α β : Type} {o : Option β} {m : β → Session α}
    (h : ∀ b, Confined W (m b)) :
    Confined W (getModerator settings user >>= fun _ => validated o >>= fun b => discard (m b)) :=
  only_getModerator.confined.bind fun _ => only_orRaise.confined.bind fun b =>
    (h b).bind fun _ => only_pure.confined

/-- **A request writes only to its tables.** -/
theorem handle_within (request : Request) :
    Confined (Within request.relations) (handle settings user request) := by
  cases request with
  | saveProfile payload => exact confined_activeBody fun _ => upsertProfile_within.confined
  | waitlist payload =>
      exact only_orRaise.confined.bind fun _ => joinWaitlist_within.bind fun _ => only_pure.confined
  | balance =>
      exact confined_active creditBalance_within.confined
  | createCampaign payload =>
      exact confined_activeBody fun _ =>
        (createCampaign_within List.mem_cons_self (List.mem_cons_of_mem _ List.mem_cons_self)).confined
  | launchCampaign payload =>
      exact confined_activeBody fun _ => launchCampaign_within
  | updateCampaign id payload =>
      exact confined_activeBody fun _ => updateCampaign_within.confined
  | saveContract id payload =>
      exact only_getActiveUser.confined.bind fun _ => only_orRaise.confined.bind fun _ =>
        savedContract_within.bind fun _ => only_getContract.confined.bind fun _ =>
        only_pure.confined
  | publishCampaign id => exact confined_active publishedCampaign_within.confined
  | transitionCampaign id action => exact confined_active transitionCampaign_within.confined
  | apply id payload => exact confined_activeBody fun _ => applyToCampaign_within.confined
  | accept id => exact confined_active acceptAssignment_within.confined
  | decline id => exact confined_active declineAssignment_within.confined
  | withdraw id => exact confined_active withdrawAssignment_within.confined
  | start id => exact confined_active startAssignment_within.confined
  | recordSession id payload =>
      exact confined_activeBody fun _ => recordTestingSession_within.confined
  | submit id payload => exact confined_activeBody fun _ => createSubmission_within.confined
  | review id payload => exact confined_activeBody fun _ => createReview_within.confined
  | message id payload => exact confined_activeBody fun _ => addMessage_within.confined
  | openDispute id payload => exact confined_activeBody fun _ => openDispute_within.confined
  | claimDispute id => exact confined_moderator claimDispute_within.confined
  | resolveDispute id payload =>
      exact confined_moderatorBody fun _ => resolveDispute_within.confined
  | evidenceUrl disputeId evidenceId answer =>
      exact confined_moderator moderatorEvidenceUrl_within.confined
  | suspend id payload =>
      exact confined_moderatorBody fun _ => (only_raiseIf.bind fun _ =>
        only_selectForUpdate.bind fun _ => only_orRaise.bind fun _ => only_utcnow.bind fun _ =>
        writeProfile_within).confined
  | restore id =>
      exact confined_moderator (only_selectForUpdate.bind fun _ => only_orRaise.bind fun _ =>
        writeProfile_within).confined
  | readNotification id => exact confined_active markNotificationRead_within.confined
  | readAllNotifications => exact confined_active markAllNotificationsRead_within

/-- A request that succeeds leaves alone what none of its tables holds. -/
theorem commit_keeps {σ : Type} {π : Db → σ} {request : Request} {now n n' : Nat} {db db' : Db}
    {u : Unit} (hok : (handle settings user request).commit.alone now db n = .ok (u, db', n'))
    (h : ∀ r ∈ request.relations, ∀ w, WritesTo r w → ∀ db, π (w.effect db) = π db) :
    π db' = π db := by
  refine (handle_within request).invariant (fun t => π t = π db) hok rfl ?_
  intro w t hw _ ht
  obtain ⟨r, hr, hw⟩ := hw
  exact (h r hr w hw t).trans ht

end Requests

end TestExchange
