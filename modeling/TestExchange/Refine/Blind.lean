import TestExchange.Refine.Privacy

/-!
# Every service is blind

Statement by statement: none of the services looks at the private text of the
hidden campaign `c`, or hands any of it on. Publishing, submitting and escalating
do load the contract, but use only its terms and the identifiers of its tasks;
for them the two runs carry different contracts for a while.
-/

namespace TestExchange

open Txn Txn.Session

variable {c : Uuid} {p : Uuid → Prop} {F : Nat → Prop}

/-! ## Shared pieces -/

section Shared

/-- A write to other tables is registered. -/
theorem blind_register {w : Write}
    (h : ∀ db, (w.violates (db.withoutText c), w.effect (db.withoutText c),
        (w.effect db).testingContracts)
      = (w.violates db, (w.effect db).withoutText c, db.testingContracts)) :
    Blind (Hidden c p) F (add w) := by
  have hrest (db : Db) := (Prod.mk.inj (h db)).2
  exact blind_add (blind_of_public (fun db => (Prod.mk.inj (h db)).1)
    (fun db => (Prod.mk.inj (hrest db)).1) fun db => (Prod.mk.inj (hrest db)).2)

theorem blind_getProfile {id : Uuid} : Blind (Hidden c p) F (getProfile id) :=
  (blind_read fun _ => rfl).bind fun _ => blind_orRaise

theorem blind_getCampaign {id : Uuid} : Blind (Hidden c p) F (getCampaign id) :=
  (blind_read fun _ => rfl).bind fun _ => blind_orRaise

theorem blind_getAssignment {id : Uuid} : Blind (Hidden c p) F (getAssignment id) :=
  (blind_read fun _ => rfl).bind fun _ => blind_orRaise

theorem blind_requireAssignmentParticipant {a : Assignment} {userId : Uuid} :
    Blind (Hidden c p) F (requireAssignmentParticipant a userId) :=
  blind_getCampaign.bind fun _ => blind_raiseIf.bind fun _ => blind_pure

theorem blind_testerDisplayName {a : Assignment} : Blind (Hidden c p) F (testerDisplayName a) :=
  blind_read fun _ => rfl

theorem blind_addAuditEvent {actorId : Option Uuid} {action entityType : String} {id : Uuid}
    {details : List (String × Json)} :
    Blind (Hidden c p) F (addAuditEvent actorId action entityType id details) :=
  blind_register fun _ => rfl

theorem blind_addNotification {n : Notification} : Blind (Hidden c p) F (addNotification n) := by
  refine (blind_read fun _ => rfl).bind fun existing => ?_
  cases existing with
  | some _ => exact blind_pure
  | none =>
      refine blind_uuid4.bind fun id => ?_
      exact (blind_register fun _ => rfl).bind
        fun _ => blind_flush

theorem blind_ensureCreditAccount {userId : Uuid} :
    Blind (Hidden c p) F (ensureCreditAccount userId) := by
  refine (blind_read fun _ => rfl).bind fun existing => ?_
  cases existing with
  | some _ => exact blind_pure
  | none =>
      exact (blind_register fun _ => rfl).bind
        fun _ => blind_flush.bind fun _ => blind_pure

theorem blind_getCreditAccountForUpdate {userId : Uuid} :
    Blind (Hidden c p) F (getCreditAccountForUpdate userId) := by
  refine (blind_selectForUpdate fun _ => rfl).bind fun account => ?_
  cases account with
  | some _ => exact blind_pure
  | none => exact blind_ensureCreditAccount

theorem blind_recordCreditEntry {change : CreditChange} :
    Blind (Hidden c p) F (recordCreditEntry change) := by
  refine (blind_read fun _ => rfl).bind fun existing => ?_
  cases existing with
  | some _ => exact blind_pure
  | none =>
      refine blind_raiseIf.bind fun _ => blind_getCreditAccountForUpdate.bind fun account => ?_
      refine blind_raiseIf.bind fun _ => Blind.bind ?_ fun _ => blind_uuid4.bind fun id => ?_
      · exact blind_register fun _ => rfl
      · exact (blind_register fun _ => rfl).bind
          fun _ => blind_flush.bind fun _ => blind_pure

theorem blind_writeAssignment {id : Uuid} {f : Assignment → Assignment} :
    Blind (Hidden c p) F (add (writeAssignment id f)) :=
  blind_register fun _ => rfl

theorem blind_writeCampaign {id : Uuid} {f : Campaign → Campaign} :
    Blind (Hidden c p) F (add (writeCampaign id f)) :=
  blind_register fun _ => rfl

theorem blind_writeEvidenceSubmission {id : Uuid} {f : EvidenceSubmission → EvidenceSubmission} :
    Blind (Hidden c p) F (add (writeEvidenceSubmission id f)) :=
  blind_register fun _ => rfl

theorem blind_maybeCompleteCampaign {id actorId : Uuid} {campaign : Campaign} :
    Blind (Hidden c p) F (maybeCompleteCampaign id campaign actorId) := by
  refine (blind_read fun _ => rfl).bind fun _ => Blind.bind ?_ fun settled => ?_
  · unfold closedWorkSettled
    split
    · exact (blind_read fun _ => rfl).bind fun _ => (blind_read fun _ => rfl).bind fun _ => blind_pure
    · exact blind_pure
  · split
    · exact blind_writeCampaign.bind fun _ => blind_addAuditEvent.bind fun _ => blind_pure
    · exact blind_pure

end Shared

/-! ## Profiles and credits -/

theorem blind_lockBetaState : Blind (Hidden c p) F lockBetaState := by
  refine (blind_lockingRead fun _ => rfl).bind fun state => ?_
  cases state with
  | some _ => exact blind_pure
  | none =>
      refine (blind_read fun _ => rfl).bind fun _ => ?_
      exact (blind_register fun _ => rfl).bind
        fun _ => blind_flush.bind fun _ => blind_pure

theorem blind_grantSignupCredits {grant : Nat} {userId : Uuid} :
    Blind (Hidden c p) F (grantSignupCredits grant userId) := by
  unfold grantSignupCredits
  split
  · exact blind_recordCreditEntry.bind fun _ => blind_pure
  · exact blind_pure

theorem blind_upsertProfile {settings : Settings} {userId : Uuid} {email : Option String}
    {payload : ProfileUpsert} :
    Blind (Hidden c p) F (upsertProfile settings userId email payload) := by
  refine (blind_read fun _ => rfl).bind fun _ => blind_raiseIf.bind fun _ => ?_
  refine (blind_read fun _ => rfl).bind fun existing => ?_
  cases existing with
  | none =>
      refine blind_raiseIf.bind fun _ => blind_lockBetaState.bind fun _ => blind_raiseIf.bind
        fun _ => Blind.bind ?_ fun _ => Blind.bind ?_ fun _ => ?_
      · exact blind_register fun _ => rfl
      · exact blind_register fun _ => rfl
      · exact blind_flush.bind fun _ => blind_ensureCreditAccount.bind fun _ =>
          blind_grantSignupCredits.bind fun _ => blind_addAuditEvent.bind fun _ =>
            blind_flush.bind fun _ => blind_pure
  | some profile =>
      refine Blind.bind ?_ fun _ => blind_addAuditEvent.bind fun _ =>
        blind_flush.bind fun _ => blind_pure
      exact blind_register fun _ => rfl

theorem blind_joinWaitlist {email : String} : Blind (Hidden c p) F (joinWaitlist email) := by
  refine (blind_read fun _ => rfl).bind fun existing => ?_
  cases existing with
  | some _ => exact blind_pure
  | none =>
      refine blind_uuid4.bind fun id => Blind.bind ?_ fun conflict => ?_
      · exact blind_executeNested (blind_of_public (fun _ => rfl) (fun _ => rfl) fun _ => rfl)
      · cases conflict with
        | none => exact blind_pure
        | some error => exact (blind_read fun _ => rfl).bind fun _ => blind_orRaise

theorem blind_creditBalance {userId : Uuid} : Blind (Hidden c p) F (creditBalance userId) :=
  blind_getProfile.bind fun _ => blind_ensureCreditAccount.bind fun _ => blind_pure

theorem blind_suspendParticipant {participantId moderatorId : Uuid} {reason : String} :
    Blind (Hidden c p) F (suspendParticipant participantId moderatorId reason) := by
  refine blind_raiseIf.bind fun _ => (blind_selectForUpdate fun _ => rfl).bind fun _ => ?_
  refine blind_orRaise.bind fun _ => blind_utcnow.bind fun _ => Blind.bind ?_ fun _ =>
    blind_addAuditEvent.bind fun _ => blind_flush.bind fun _ => blind_pure
  exact blind_register fun _ => rfl

theorem blind_restoreParticipant {participantId moderatorId : Uuid} :
    Blind (Hidden c p) F (restoreParticipant participantId moderatorId) := by
  refine (blind_selectForUpdate fun _ => rfl).bind fun _ => blind_orRaise.bind fun _ =>
    Blind.bind ?_ fun _ => blind_addAuditEvent.bind fun _ => blind_flush.bind fun _ => blind_pure
  exact blind_register fun _ => rfl

theorem blind_markNotificationRead {notificationId userId : Uuid} :
    Blind (Hidden c p) F (markNotificationRead notificationId userId) := by
  refine (blind_selectForUpdate fun _ => rfl).bind fun _ => blind_orRaise.bind fun n =>
    blind_raiseIf.bind fun _ => ?_
  cases n.readAt with
  | some _ => exact blind_pure
  | none =>
      refine blind_utcnow.bind fun _ => Blind.bind ?_ fun _ => blind_flush.bind fun _ => blind_pure
      exact blind_register fun _ => rfl

theorem blind_markAllNotificationsRead {userId : Uuid} :
    Blind (Hidden c p) F (markAllNotificationsRead userId) := by
  refine blind_utcnow.bind fun _ => (blind_lockingRead fun _ => rfl).bind fun _ => ?_
  exact blind_execute (blind_of_public (fun _ => rfl) (fun _ => rfl) fun _ => rfl)

/-! ## Campaigns -/

theorem blind_updateCampaign {campaignId ownerId : Uuid} {payload : CampaignUpdate} :
    Blind (Hidden c p) F (updateCampaign campaignId ownerId payload) := by
  refine blind_getCampaign.bind fun _ => blind_raiseIf.bind fun _ => blind_raiseIf.bind fun _ =>
    Blind.bind ?_ fun _ => blind_addAuditEvent.bind fun _ => blind_flush.bind fun _ => blind_pure
  exact blind_register fun _ => rfl

/-- A new campaign is not the hidden one. -/
theorem coupled_createCampaign {ownerId : Uuid} {payload : CampaignCreate} :
    Coupled (Hidden c p) (Fresh c p) (fun r r' => r = r' ∧ r.1 ≠ c)
      (createCampaign ownerId payload) (createCampaign ownerId payload) := by
  refine blind_getProfile.bind fun _ => (blind_read fun _ => rfl).bind fun _ =>
    blind_raiseIf.bind fun _ => coupled_uuid4.bind fun id id' h => ?_
  obtain ⟨rfl, hfresh⟩ := h
  refine Blind.bind ?_ fun _ => blind_flush.bind fun _ => blind_addAuditEvent.bind fun _ =>
    coupled_pure ⟨rfl, hfresh.1⟩
  exact blind_register fun _ => rfl

theorem blind_addTasks {contractId : Uuid} (hk : ¬p contractId) {tasks : List ContractTaskInput}
    {position : Nat} : Blind (Hidden c p) F (addTasks contractId position tasks) := by
  induction tasks generalizing position with
  | nil => exact blind_pure
  | cons task tasks ih =>
      refine blind_uuid4.bind fun id => Blind.bind ?_ fun _ => ih
      exact blind_add (blind_insertContractTask hk)

/-- Saving the contract of another campaign, which leaves a contract of that campaign. -/
theorem coupled_saveContract {d : Uuid} (hd : d ≠ c) {payload : ContractUpsert}
    {existing : Option (Uuid × TestingContract)} (hexisting : ∀ r, existing = some r → ¬p r.1) :
    Coupled (Hidden c p) (Fresh c p) (fun r r' => r = r' ∧ ¬p r.1)
      (saveContract d payload existing) (saveContract d payload existing) := by
  cases existing with
  | none =>
      refine coupled_uuid4.bind fun id id' h => ?_
      obtain ⟨rfl, hfresh⟩ := h
      refine Blind.bind ?_ fun _ => blind_flush.bind fun _ => coupled_pure ⟨rfl, hfresh.2⟩
      exact blind_add (blind_insertTestingContract hd)
  | some r =>
      have hr := hexisting r rfl
      refine blind_raiseIf.bind fun _ => Blind.bind ?_ fun _ => Blind.bind ?_ fun tasks => ?_
      · exact blind_add (blind_writeTestingContract (fun _ => rfl) (.inl hr))
      · exact blind_queryForUpdate fun db db' h => h.tasksOf_eq hr
      · exact (blind_execute blind_deleteContractTasks).bind fun _ => coupled_pure ⟨rfl, hr⟩

theorem blind_upsertContract {d ownerId : Uuid} (hd : d ≠ c) {payload : ContractUpsert} :
    Blind (Hidden c p) (Fresh c p) (upsertContract d ownerId payload) := by
  refine blind_getCampaign.bind fun _ => blind_raiseIf.bind fun _ => blind_raiseIf.bind fun _ => ?_
  refine (coupled_otherContract (fun _ _ h => h) hd).bind fun existing existing' h => ?_
  obtain ⟨rfl, hnot⟩ := h
  refine (coupled_saveContract hd hnot).bind fun contract contract' h => ?_
  obtain ⟨rfl, hcontract⟩ := h
  exact (blind_addTasks hcontract).bind fun _ => blind_addAuditEvent.bind fun _ =>
    blind_flush.bind fun _ => blind_pure

/-- Publication loads the contract and uses its identifier, and that there are tasks. -/
theorem blind_publishCampaign {d ownerId : Uuid} :
    Blind (Hidden c p) F (publishCampaign d ownerId) := by
  refine (blind_selectForUpdate fun _ => rfl).bind fun _ => blind_orRaise.bind fun campaign =>
    blind_raiseIf.bind fun _ => ?_
  split
  · exact blind_pure
  refine blind_raiseIf.bind fun _ => coupled_getContract.bind fun x y hxy => ?_
  obtain ⟨contract, tasks⟩ := x
  obtain ⟨contract', tasks'⟩ := y
  obtain ⟨hcontract, htasks⟩ := hxy
  have hid : contract.1 = contract'.1 :=
    (congrArg Prod.fst hcontract : (bareContract contract).1 = (bareContract contract').1)
  have hnil : tasks = [] ↔ tasks' = [] := by
    rw [← List.map_eq_nil_iff (f := bareTask), ← List.map_eq_nil_iff (f := bareTask) (l := tasks'),
      htasks]
  simp only
  rw [← hid]
  refine (coupled_raiseIf hnil).bind fun _ _ _ => ?_
  refine blind_recordCreditEntry.bind fun _ => blind_utcnow.bind fun _ =>
    blind_writeCampaign.bind fun _ => Blind.bind ?_ fun _ => blind_addAuditEvent.bind fun _ =>
      blind_flush.bind fun _ => blind_pure
  exact blind_add (blind_writeTestingContract (fun _ => rfl) (.inr fun _ => rfl))

theorem blind_launchCampaign {ownerId : Uuid} {payload : CampaignLaunch} :
    Blind (Hidden c p) (Fresh c p) (launchCampaign ownerId payload) := by
  refine coupled_createCampaign.bind fun campaign campaign' h => ?_
  obtain ⟨rfl, hnew⟩ := h
  exact (blind_upsertContract hnew).bind fun _ => blind_publishCampaign

theorem blind_declinePending {campaign : Campaign} {ownerId : Uuid} {now : Time}
    {rest : List (Uuid × Assignment)} :
    Blind (Hidden c p) F (declinePending campaign ownerId now rest) := by
  induction rest with
  | nil => exact blind_pure
  | cons r rest ih =>
      exact blind_writeAssignment.bind fun _ => blind_addAuditEvent.bind fun _ =>
        blind_addNotification.bind fun _ => ih

theorem blind_performTransition {campaignId ownerId : Uuid} {campaign : Campaign}
    {action : TransitionAction} :
    Blind (Hidden c p) F (performTransition campaignId campaign ownerId action) := by
  cases action with
  | pause => exact blind_raiseIf.bind fun _ => blind_writeCampaign.bind fun _ => blind_pure
  | resume =>
      exact blind_raiseIf.bind fun _ => (blind_read fun _ => rfl).bind fun _ =>
        blind_raiseIf.bind fun _ => blind_writeCampaign.bind fun _ => blind_pure
  | close =>
      exact blind_raiseIf.bind fun _ => blind_writeCampaign.bind fun _ =>
        (blind_lockingRead fun _ => rfl).bind fun _ => blind_utcnow.bind fun _ =>
          blind_declinePending.bind fun _ => blind_pure

theorem blind_transitionCampaign {campaignId ownerId : Uuid} {action : TransitionAction} :
    Blind (Hidden c p) F (transitionCampaign campaignId ownerId action) := by
  refine (blind_selectForUpdate fun _ => rfl).bind fun _ => blind_orRaise.bind fun campaign =>
    blind_raiseIf.bind fun _ => blind_performTransition.bind fun _ => ?_
  refine blind_addAuditEvent.bind fun _ => Blind.bind ?_ fun _ => blind_flush.bind fun _ => blind_pure
  unfold completeIfClosed
  split
  · exact blind_maybeCompleteCampaign
  · exact blind_pure

/-! ## The testing workflow -/

theorem blind_applyToCampaign {campaignId testerId : Uuid} {payload : AssignmentApply} :
    Blind (Hidden c p) F (applyToCampaign campaignId testerId payload) := by
  refine blind_getProfile.bind fun _ => (blind_selectForUpdate fun _ => rfl).bind fun _ =>
    blind_orRaise.bind fun campaign => blind_raiseIf.bind fun _ => blind_raiseIf.bind fun _ => ?_
  refine (blind_read fun _ => rfl).bind fun _ => blind_raiseIf.bind fun _ =>
    (blind_read fun _ => rfl).bind fun _ => blind_raiseIf.bind fun _ => ?_
  refine blind_uuid4.bind fun id => Blind.bind ?_ fun _ => blind_flush.bind fun _ =>
    blind_addAuditEvent.bind fun _ => blind_testerDisplayName.bind fun _ =>
      blind_addNotification.bind fun _ => blind_pure
  exact blind_register fun _ => rfl

theorem blind_acceptAssignment {assignmentId ownerId : Uuid} :
    Blind (Hidden c p) F (acceptAssignment assignmentId ownerId) := by
  refine (blind_read fun _ => rfl).bind fun _ => blind_orRaise.bind fun campaignId =>
    (blind_selectForUpdate fun _ => rfl).bind fun _ => blind_orRaise.bind fun campaign =>
      blind_raiseIf.bind fun _ => blind_raiseIf.bind fun _ => ?_
  refine (blind_selectForUpdate fun _ => rfl).bind fun _ => blind_orRaise.bind fun _ =>
    blind_raiseIf.bind fun _ => (blind_read fun _ => rfl).bind fun _ => blind_raiseIf.bind fun _ => ?_
  exact blind_utcnow.bind fun _ => blind_writeAssignment.bind fun _ =>
    blind_addAuditEvent.bind fun _ => blind_addNotification.bind fun _ =>
      blind_flush.bind fun _ => blind_pure

theorem blind_declineAssignment {assignmentId ownerId : Uuid} :
    Blind (Hidden c p) F (declineAssignment assignmentId ownerId) := by
  refine (blind_selectForUpdate fun _ => rfl).bind fun _ => blind_orRaise.bind fun _ =>
    blind_getCampaign.bind fun _ => blind_raiseIf.bind fun _ => blind_raiseIf.bind fun _ => ?_
  exact blind_utcnow.bind fun _ => blind_writeAssignment.bind fun _ =>
    blind_addAuditEvent.bind fun _ => blind_addNotification.bind fun _ =>
      blind_flush.bind fun _ => blind_pure

theorem blind_withdrawAssignment {assignmentId testerId : Uuid} :
    Blind (Hidden c p) F (withdrawAssignment assignmentId testerId) := by
  refine (blind_selectForUpdate fun _ => rfl).bind fun _ => blind_orRaise.bind fun assignment =>
    blind_raiseIf.bind fun _ => blind_raiseIf.bind fun _ =>
      (blind_selectForUpdate fun _ => rfl).bind fun _ => blind_orRaise.bind fun campaign => ?_
  exact blind_utcnow.bind fun _ => blind_writeAssignment.bind fun _ =>
    blind_addAuditEvent.bind fun _ => blind_testerDisplayName.bind fun _ =>
      blind_addNotification.bind fun _ => blind_maybeCompleteCampaign.bind fun _ =>
        blind_flush.bind fun _ => blind_pure

theorem blind_startAssignment {assignmentId testerId : Uuid} :
    Blind (Hidden c p) F (startAssignment assignmentId testerId) := by
  refine blind_getAssignment.bind fun _ => blind_raiseIf.bind fun _ => blind_raiseIf.bind fun _ =>
    blind_utcnow.bind fun _ => blind_writeAssignment.bind fun _ => blind_uuid4.bind fun _ => ?_
  refine Blind.bind ?_ fun _ => blind_addAuditEvent.bind fun _ => blind_flush.bind fun _ => blind_pure
  exact blind_register fun _ => rfl

theorem blind_recordTestingSession {assignmentId testerId : Uuid} {payload : TestingSessionCreate} :
    Blind (Hidden c p) F (recordTestingSession assignmentId testerId payload) := by
  refine (blind_selectForUpdate fun _ => rfl).bind fun _ => blind_orRaise.bind fun _ =>
    blind_raiseIf.bind fun _ => blind_raiseIf.bind fun _ => blind_utcnow.bind fun now =>
      (blind_read fun _ => rfl).bind fun _ => blind_raiseIf.bind fun _ => ?_
  refine blind_uuid4.bind fun _ => Blind.bind ?_ fun _ => blind_flush.bind fun _ =>
    blind_addAuditEvent.bind fun _ => blind_pure
  exact blind_register fun _ => rfl

theorem blind_checkItems {assignmentId : Uuid} {items : List EvidenceItemCreate} :
    Blind (Hidden c p) F (checkItems assignmentId items) := by
  induction items with
  | nil => exact blind_pure
  | cons item items ih =>
      refine blind_raiseIf.bind fun _ => ?_
      split
      · exact ih
      · exact blind_raiseIf.bind fun _ => ih

theorem blind_addItems {submissionId : Uuid} {items : List EvidenceItemCreate} :
    Blind (Hidden c p) F (addItems submissionId items) := by
  induction items with
  | nil => exact blind_pure
  | cons item items ih =>
      exact blind_uuid4.bind fun id => (blind_add blind_insertEvidenceItem).bind fun _ => ih

section Terms

variable {tasks tasks' : List (Uuid × ContractTask)}

theorem ids_of_bare (h : tasks.map bareTask = tasks'.map bareTask) :
    tasks.map Prod.fst = tasks'.map Prod.fst := by
  have hids : ∀ tasks : List (Uuid × ContractTask),
      (tasks.map bareTask).map Prod.fst = tasks.map Prod.fst := fun tasks => by
    rw [List.map_map]; rfl
  rw [← hids, ← hids tasks', h]

theorem requiredIds_of_bare (h : tasks.map bareTask = tasks'.map bareTask) :
    (tasks.filter (·.2.evidenceRequired)).map Prod.fst
      = (tasks'.filter (·.2.evidenceRequired)).map Prod.fst := by
  have hrequired : ∀ tasks : List (Uuid × ContractTask),
      ((tasks.map bareTask).filter (·.2.evidenceRequired)).map Prod.fst
        = (tasks.filter (·.2.evidenceRequired)).map Prod.fst := fun tasks => by
    rw [List.filter_map, List.map_map]; rfl
  rw [← hrequired, ← hrequired tasks', h]

/-- What two contracts with the same terms have in common, as far as submissions go. -/
theorem SameTerms.terms {x y : (Uuid × TestingContract) × List (Uuid × ContractTask)}
    (h : SameTerms x y) :
    x.1.2.minimumDurationDays = y.1.2.minimumDurationDays
      ∧ x.1.2.requiredSessions = y.1.2.requiredSessions
      ∧ x.1.2.reviewWindowHours = y.1.2.reviewWindowHours := by
  have hterms : ∀ {α : Type} (f : Uuid × TestingContract → α),
      f (bareContract x.1) = f (bareContract y.1) := fun f => congrArg f h.1
  exact ⟨hterms (·.2.minimumDurationDays), hterms (·.2.requiredSessions),
    hterms (·.2.reviewWindowHours)⟩

end Terms

theorem blind_createSubmission {assignmentId testerId : Uuid} {payload : SubmissionCreate} :
    Blind (Hidden c p) F (createSubmission assignmentId testerId payload) := by
  refine (blind_selectForUpdate fun _ => rfl).bind fun _ => blind_orRaise.bind fun assignment =>
    blind_raiseIf.bind fun _ => blind_raiseIf.bind fun _ =>
      coupled_contractForAssignment.bind fun x y hxy => ?_
  obtain ⟨hdays, hsessions, -⟩ := hxy.terms
  have htasks := ids_of_bare hxy.2
  have hrequired := requiredIds_of_bare hxy.2
  obtain ⟨contract, tasks⟩ := x
  obtain ⟨contract', tasks'⟩ := y
  simp only at hdays hsessions htasks hrequired ⊢
  rw [← hdays, ← hsessions, ← htasks, ← hrequired]
  refine blind_utcnow.bind fun _ => blind_orRaise.bind fun startedAt => blind_raiseIf.bind fun _ =>
    (blind_read fun _ => rfl).bind fun _ => blind_raiseIf.bind fun _ => blind_raiseIf.bind fun _ =>
      blind_raiseIf.bind fun _ => blind_checkItems.bind fun _ => (blind_read fun _ => rfl).bind
        fun latestVersion => blind_uuid4.bind fun _ => blind_utcnow.bind fun _ => ?_
  refine Blind.bind ?_ fun _ => blind_flush.bind fun _ => blind_addItems.bind fun _ =>
    blind_utcnow.bind fun _ => blind_writeAssignment.bind fun _ => blind_addAuditEvent.bind fun _ =>
      blind_getCampaign.bind fun _ => blind_testerDisplayName.bind fun _ =>
        blind_addNotification.bind fun _ => blind_flush.bind fun _ => blind_pure
  exact blind_register fun _ => rfl

theorem blind_applyDecision {submissionId assignmentId reviewerId : Uuid} {assignment : Assignment}
    {campaign : Campaign} {decision : ReviewDecision} :
    Blind (Hidden c p) F
      (applyDecision submissionId assignmentId assignment campaign reviewerId decision) := by
  cases decision with
  | approved =>
      exact blind_utcnow.bind fun _ => blind_writeEvidenceSubmission.bind fun _ =>
        blind_writeAssignment.bind fun _ => blind_recordCreditEntry.bind fun _ =>
          blind_flush.bind fun _ => blind_maybeCompleteCampaign.bind fun _ => blind_pure
  | changesRequested =>
      exact blind_writeEvidenceSubmission.bind fun _ => blind_writeAssignment
  | rejected => exact blind_writeEvidenceSubmission.bind fun _ => blind_writeAssignment

theorem blind_createReview {submissionId reviewerId : Uuid} {payload : ReviewCreate} :
    Blind (Hidden c p) F (createReview submissionId reviewerId payload) := by
  refine (blind_read fun _ => rfl).bind fun _ => blind_orRaise.bind fun assignmentId =>
    (blind_selectForUpdate fun _ => rfl).bind fun _ => blind_orRaise.bind fun assignment =>
      (blind_selectForUpdate fun _ => rfl).bind fun _ => blind_orRaise.bind fun submission =>
        (blind_selectForUpdate fun _ => rfl).bind fun _ => blind_orRaise.bind fun campaign => ?_
  refine blind_raiseIf.bind fun _ => (blind_read fun _ => rfl).bind fun _ =>
    blind_raiseIf.bind fun _ => blind_raiseIf.bind fun _ => blind_raiseIf.bind fun _ => ?_
  refine blind_uuid4.bind fun _ => Blind.bind ?_ fun _ => blind_flush.bind fun _ =>
    blind_applyDecision.bind fun _ => blind_addAuditEvent.bind fun _ =>
      blind_addNotification.bind fun _ => blind_flush.bind fun _ => blind_pure
  exact blind_register fun _ => rfl

theorem blind_addMessage {assignmentId senderId : Uuid} {payload : MessageCreate} :
    Blind (Hidden c p) F (addMessage assignmentId senderId payload) := by
  refine blind_getAssignment.bind fun _ => blind_requireAssignmentParticipant.bind fun _ =>
    blind_uuid4.bind fun _ => Blind.bind ?_ fun _ => blind_flush.bind fun _ =>
      blind_addAuditEvent.bind fun _ => blind_getCampaign.bind fun _ =>
        blind_addNotification.bind fun _ => blind_pure
  exact blind_register fun _ => rfl

theorem blind_checkEscalation {assignment : Assignment} {submission : EvidenceSubmission} :
    Blind (Hidden c p) F (checkEscalation assignment submission) := by
  unfold checkEscalation
  split
  · refine blind_raiseIf.bind fun _ => coupled_contractForAssignment.bind fun x y hxy => ?_
    obtain ⟨-, -, hhours⟩ := hxy.terms
    obtain ⟨contract, tasks⟩ := x
    obtain ⟨contract', tasks'⟩ := y
    simp only at hhours ⊢
    rw [← hhours]
    exact blind_utcnow.bind fun _ => blind_raiseIf
  · exact blind_raiseIf

theorem blind_openDispute {assignmentId openedBy : Uuid} {payload : DisputeCreate} :
    Blind (Hidden c p) F (openDispute assignmentId openedBy payload) := by
  refine (blind_selectForUpdate fun _ => rfl).bind fun _ => blind_orRaise.bind fun assignment =>
    blind_requireAssignmentParticipant.bind fun _ => blind_raiseIf.bind fun _ =>
      blind_raiseIf.bind fun _ => blind_orRaise.bind fun submissionId => ?_
  refine (blind_read fun _ => rfl).bind fun _ => blind_orRaise.bind fun submission =>
    blind_raiseIf.bind fun _ => blind_checkEscalation.bind fun _ =>
      (blind_read fun _ => rfl).bind fun _ => blind_raiseIf.bind fun _ => ?_
  refine blind_uuid4.bind fun _ => Blind.bind ?_ fun _ => blind_flush.bind fun _ =>
    blind_addAuditEvent.bind fun _ => blind_getCampaign.bind fun _ =>
      blind_addNotification.bind fun _ => blind_pure
  exact blind_register fun _ => rfl

/-! ## Moderation -/

theorem blind_writeDispute {id userId : Uuid} {fkey : String} {f : Dispute → Dispute} :
    Blind (Hidden c p) F (add (writeDispute id userId fkey f)) :=
  blind_register fun _ => rfl

theorem blind_claimDispute {disputeId moderatorId : Uuid} :
    Blind (Hidden c p) F (claimDispute disputeId moderatorId) := by
  refine (blind_selectForUpdate fun _ => rfl).bind fun _ => blind_orRaise.bind fun dispute => ?_
  split
  · exact blind_raiseIf.bind fun _ => blind_pure
  · exact blind_raiseIf.bind fun _ => blind_utcnow.bind fun _ => blind_writeDispute.bind fun _ =>
      blind_addAuditEvent.bind fun _ => blind_flush.bind fun _ => blind_pure

theorem blind_disputedSubmission {assignmentId : Uuid} {submission : Option EvidenceSubmission} :
    Blind (Hidden c p) F (disputedSubmission assignmentId submission) :=
  blind_orRaise.bind fun _ => blind_raiseIf.bind fun _ => blind_pure

theorem blind_applyRemedy {dispute : Dispute} {assignment : Assignment} {moderatorId : Uuid}
    {payload : DisputeResolve} :
    Blind (Hidden c p) F (applyRemedy dispute assignment moderatorId payload) := by
  unfold applyRemedy
  split
  · refine blind_orRaise.bind fun submissionId => blind_raiseIf.bind fun _ =>
      (blind_selectForUpdate fun _ => rfl).bind fun _ => blind_disputedSubmission.bind fun _ =>
        (blind_selectForUpdate fun _ => rfl).bind fun _ => blind_orRaise.bind fun campaign => ?_
    exact blind_utcnow.bind fun _ => blind_writeEvidenceSubmission.bind fun _ =>
      blind_writeAssignment.bind fun _ => blind_recordCreditEntry.bind fun _ =>
        blind_flush.bind fun _ => blind_maybeCompleteCampaign.bind fun _ => blind_pure
  · split
    · exact blind_raiseIf.bind fun _ => blind_orRaise.bind fun submissionId =>
        (blind_read fun _ => rfl).bind fun _ => blind_disputedSubmission.bind fun _ =>
          blind_utcnow.bind fun _ => blind_writeEvidenceSubmission.bind fun _ =>
            blind_writeAssignment
    · exact blind_pure

theorem blind_resolveDispute {disputeId moderatorId : Uuid} {payload : DisputeResolve} :
    Blind (Hidden c p) F (resolveDispute disputeId moderatorId payload) := by
  refine (blind_selectForUpdate fun _ => rfl).bind fun _ => blind_orRaise.bind fun dispute =>
    blind_raiseIf.bind fun _ => blind_raiseIf.bind fun _ =>
      (blind_selectForUpdate fun _ => rfl).bind fun _ => blind_orRaise.bind fun assignment => ?_
  exact blind_applyRemedy.bind fun _ => blind_utcnow.bind fun _ => blind_writeDispute.bind fun _ =>
    blind_addAuditEvent.bind fun _ => blind_getCampaign.bind fun _ =>
      blind_addNotification.bind fun _ => blind_addNotification.bind fun _ =>
        blind_flush.bind fun _ => blind_pure

theorem blind_signStorageEvidence {settings : Settings} {storageKey : String}
    {answer : SigningAnswer} :
    Blind (Hidden c p) F (signStorageEvidence settings storageKey answer) := by
  unfold signStorageEvidence
  split
  · exact blind_orRaise.bind fun _ => blind_raiseIf.bind fun _ => blind_pure
  · exact blind_raise

theorem blind_moderatorEvidenceUrl {settings : Settings} {disputeId evidenceId moderatorId : Uuid}
    {answer : SigningAnswer} :
    Blind (Hidden c p) F
      (moderatorEvidenceUrl settings disputeId evidenceId moderatorId answer) := by
  refine (blind_read fun _ => rfl).bind fun _ => (blind_read fun _ => rfl).bind fun item =>
    (blind_read fun _ => rfl).bind fun _ => blind_orRaise.bind fun dispute =>
      blind_orRaise.bind fun item => blind_orRaise.bind fun submission => ?_
  exact blind_raiseIf.bind fun _ => blind_orRaise.bind fun _ => blind_raiseIf.bind fun _ =>
    blind_signStorageEvidence.bind fun _ => blind_addAuditEvent.bind fun _ =>
      blind_flush.bind fun _ => blind_pure

end TestExchange
