import TestExchange.Refine.Blind
import TestExchange.Proof.Lifecycle

/-!
# Private contract text does not leak

Three routes answer with the text of a contract: the owner's, the participants'
and the moderators'. Each of them turns an outsider away before the text is
read. All other answers are the same whatever the text says, to whomever they
go, and no request carries the text anywhere else. So an outsider's answers are
the same, however long the two runs are.
-/

namespace TestExchange

open Txn Txn.Session

/--
Not the owner of the campaign, not a moderator, and not a tester whose
assignment on the campaign was ever accepted.
-/
structure Outsider (settings : Settings) (campaignId userId : Uuid) (db : Db) : Prop where
  notOwner : ∀ campaign, db.campaigns.get? campaignId = some campaign → campaign.ownerId ≠ userId
  notModerator : userId ∉ settings.moderatorUserIds
  notAccepted : ∀ id assignment, db.assignments.get? id = some assignment →
    assignment.campaignId = campaignId → assignment.testerId = userId → assignment.acceptedAt = none

variable {c : Uuid} {p : Uuid → Prop} {F : Nat → Prop} {settings : AppSettings} {user : CurrentUser}

/-! ## Answers that are the same for everybody -/

theorem blind_getActiveUser : Blind (Hidden c p) F (getActiveUser user) :=
  (blind_read fun _ => rfl).bind fun _ => blind_raiseIf

theorem blind_getModerator {settings : Settings} :
    Blind (Hidden c p) F (getModerator settings user) :=
  blind_getActiveUser.bind fun _ => blind_raiseIf

theorem blind_campaignResponse {campaign : Uuid × Campaign} :
    Blind (Hidden c p) F (campaignResponse campaign) :=
  (blind_read fun _ => rfl).bind fun _ => blind_pure

theorem blind_campaignsResponse {campaigns : List (Uuid × Campaign)} :
    Blind (Hidden c p) F (campaignsResponse campaigns) :=
  (blind_read fun _ => rfl).bind fun _ => blind_pure

theorem blind_assignmentResponse {assignment : Uuid × Assignment} :
    Blind (Hidden c p) F (assignmentResponse assignment) :=
  (blind_read fun _ => rfl).bind fun _ => blind_pure

theorem blind_getOwnAssignment {assignmentId userId : Uuid} :
    Blind (Hidden c p) F (getOwnAssignment assignmentId userId) :=
  blind_getAssignment.bind fun _ => blind_requireAssignmentParticipant.bind fun _ => blind_pure

theorem blind_getSubmission {submissionId userId : Uuid} :
    Blind (Hidden c p) F (getSubmission submissionId userId) :=
  (blind_read fun _ => rfl).bind fun _ => blind_orRaise.bind fun _ => blind_getAssignment.bind
    fun _ => blind_requireAssignmentParticipant.bind fun _ => (blind_read fun _ => rfl).bind
      fun _ => blind_pure

theorem blind_submissionResponse {submissionId userId : Uuid} :
    Blind (Hidden c p) F (submissionResponse submissionId userId) :=
  blind_getSubmission.bind fun _ => blind_pure

theorem blind_submissionResponses {userId : Uuid} {records : List (Uuid × EvidenceSubmission)} :
    Blind (Hidden c p) F (submissionResponses userId records) := by
  induction records with
  | nil => exact blind_pure
  | cons record records ih =>
      exact blind_submissionResponse.bind fun _ => ih.bind fun _ => blind_pure

/-- The quality check knows the contract's identifier and which tasks need evidence. -/
theorem blind_buildSubmissionQualityCheck {lower : String → String} {submissionId userId : Uuid} :
    Blind (Hidden c p) F (buildSubmissionQualityCheck lower submissionId userId) := by
  refine blind_getSubmission.bind fun x => blind_getAssignment.bind fun assignment =>
    Blind.bind (blind_read fun db => ?_) fun _ => blind_orRaise.bind fun contractId =>
      coupled_sortedTasks.bind fun tasks tasks' htasks => ?_
  · rw [contractOf_withoutText, Option.map_map]
    rfl
  · simp only [requiredIds_of_bare htasks]
    exact blind_pure

theorem blind_answerRequest {request : Request}
    (hsave : ∀ payload, request ≠ .saveContract c payload) :
    Blind (Hidden c p) (Fresh c p) (answerRequest settings user request) := by
  cases request with
  | saveProfile payload =>
      exact blind_getActiveUser.bind fun _ => blind_orRaise.bind fun _ =>
        blind_upsertProfile.bind fun _ => blind_pure
  | waitlist payload =>
      exact blind_orRaise.bind fun _ => blind_joinWaitlist.bind fun _ => blind_pure
  | balance =>
      exact blind_getActiveUser.bind fun _ => blind_creditBalance.bind fun _ => blind_pure
  | createCampaign payload =>
      refine blind_getActiveUser.bind fun _ => blind_orRaise.bind fun _ =>
        coupled_createCampaign.bind fun campaign campaign' h => ?_
      obtain ⟨rfl, -⟩ := h
      exact blind_campaignResponse
  | launchCampaign payload =>
      exact blind_getActiveUser.bind fun _ => blind_orRaise.bind fun _ =>
        blind_launchCampaign.bind fun _ => blind_campaignResponse
  | updateCampaign campaignId payload =>
      exact blind_getActiveUser.bind fun _ => blind_orRaise.bind fun _ =>
        blind_updateCampaign.bind fun _ => blind_campaignResponse
  | saveContract campaignId payload =>
      have hne : campaignId ≠ c := fun h => hsave payload (h ▸ rfl)
      exact blind_getActiveUser.bind fun _ => blind_orRaise.bind fun _ =>
        (blind_upsertContract hne).bind fun _ =>
          (blind_getContract (fun _ _ h => h) hne).bind fun _ => blind_pure
  | publishCampaign campaignId =>
      exact blind_getActiveUser.bind fun _ => blind_publishCampaign.bind fun _ =>
        blind_campaignResponse
  | transitionCampaign campaignId action =>
      exact blind_getActiveUser.bind fun _ => blind_transitionCampaign.bind fun _ =>
        blind_campaignResponse
  | apply campaignId payload =>
      exact blind_getActiveUser.bind fun _ => blind_orRaise.bind fun _ =>
        blind_applyToCampaign.bind fun _ => blind_assignmentResponse
  | accept assignmentId =>
      exact blind_getActiveUser.bind fun _ => blind_acceptAssignment.bind fun _ =>
        blind_assignmentResponse
  | decline assignmentId =>
      exact blind_getActiveUser.bind fun _ => blind_declineAssignment.bind fun _ =>
        blind_assignmentResponse
  | withdraw assignmentId =>
      exact blind_getActiveUser.bind fun _ => blind_withdrawAssignment.bind fun _ =>
        blind_assignmentResponse
  | start assignmentId =>
      exact blind_getActiveUser.bind fun _ => blind_startAssignment.bind fun _ =>
        blind_assignmentResponse
  | recordSession assignmentId payload =>
      exact blind_getActiveUser.bind fun _ => blind_orRaise.bind fun _ =>
        blind_recordTestingSession.bind fun _ => blind_pure
  | submit assignmentId payload =>
      exact blind_getActiveUser.bind fun _ => blind_orRaise.bind fun _ =>
        blind_createSubmission.bind fun _ => blind_submissionResponse.bind fun _ => blind_pure
  | review submissionId payload =>
      exact blind_getActiveUser.bind fun _ => blind_orRaise.bind fun _ =>
        blind_createReview.bind fun _ => blind_pure
  | message assignmentId payload =>
      exact blind_getActiveUser.bind fun _ => blind_orRaise.bind fun _ =>
        blind_addMessage.bind fun _ => blind_pure
  | openDispute assignmentId payload =>
      exact blind_getActiveUser.bind fun _ => blind_orRaise.bind fun _ =>
        blind_openDispute.bind fun _ => blind_pure
  | claimDispute disputeId =>
      exact blind_getModerator.bind fun _ => blind_claimDispute.bind fun _ => blind_pure
  | resolveDispute disputeId payload =>
      exact blind_getModerator.bind fun _ => blind_orRaise.bind fun _ =>
        blind_resolveDispute.bind fun _ => blind_pure
  | evidenceUrl disputeId evidenceId answer =>
      exact blind_getModerator.bind fun _ => blind_moderatorEvidenceUrl.bind fun _ => blind_pure
  | suspend participantId payload =>
      exact blind_getModerator.bind fun _ => blind_orRaise.bind fun _ =>
        blind_suspendParticipant.bind fun _ => blind_pure
  | restore participantId =>
      exact blind_getModerator.bind fun _ => blind_restoreParticipant.bind fun _ => blind_pure
  | readNotification notificationId =>
      exact blind_getActiveUser.bind fun _ => blind_markNotificationRead.bind fun _ => blind_pure
  | readAllNotifications =>
      exact blind_getActiveUser.bind fun _ => blind_markAllNotificationsRead.bind fun _ => blind_pure

/-! ## The three routes to the text -/

/-- The routes that answer with a contract's text. -/
def Query.readsContract : Query → Bool
  | .contract _ => true
  | .assignmentContract _ => true
  | .disputeCase _ => true
  | _ => false

theorem blind_answerQuery {query : Query} (hquery : query.readsContract = false) :
    Blind (Hidden c p) F (answerQuery settings user query) := by
  cases query with
  | health => exact blind_pure
  | ready => exact (blind_read fun _ => rfl).bind fun _ => blind_pure
  | betaStatus =>
      refine Blind.bind ?_ fun _ => blind_pure
      exact (blind_read fun _ => rfl).bind fun _ => blind_pure
  | publicCampaigns => exact (blind_read fun _ => rfl).bind fun _ => blind_campaignsResponse
  | publicCampaign slug =>
      refine Blind.bind ?_ fun _ => blind_campaignResponse
      exact (blind_read fun _ => rfl).bind fun _ => blind_orRaise.bind fun _ =>
        (blind_read fun _ => rfl).bind fun _ => blind_raiseIf.bind fun _ => blind_pure
  | profile =>
      exact blind_getActiveUser.bind fun _ => (blind_read fun _ => rfl).bind fun _ =>
        blind_orRaise.bind fun _ => blind_pure
  | capabilities => exact blind_getActiveUser.bind fun _ => blind_pure
  | mine =>
      exact blind_getActiveUser.bind fun _ => (blind_read fun _ => rfl).bind fun _ =>
        blind_campaignsResponse
  | contract campaignId => exact absurd hquery (by simp [Query.readsContract])
  | assignments =>
      exact blind_getActiveUser.bind fun _ => (blind_read fun _ => rfl).bind fun _ =>
        (blind_read fun _ => rfl).bind fun _ => blind_pure
  | assignment assignmentId =>
      exact blind_getActiveUser.bind fun _ => blind_getOwnAssignment.bind fun _ =>
        blind_assignmentResponse
  | assignmentCampaign assignmentId =>
      exact blind_getActiveUser.bind fun _ => blind_getOwnAssignment.bind fun _ =>
        blind_getCampaign.bind fun _ => blind_campaignResponse
  | assignmentContract assignmentId => exact absurd hquery (by simp [Query.readsContract])
  | testingSessions assignmentId =>
      refine blind_getActiveUser.bind fun _ => Blind.bind ?_ fun _ => blind_pure
      exact blind_getOwnAssignment.bind fun _ => blind_read fun _ => rfl
  | submission submissionId =>
      exact blind_getActiveUser.bind fun _ => blind_submissionResponse.bind fun _ => blind_pure
  | submissionQualityCheck submissionId =>
      exact blind_getActiveUser.bind fun _ => blind_buildSubmissionQualityCheck.bind fun _ =>
        blind_pure
  | submissions assignmentId =>
      refine blind_getActiveUser.bind fun _ => Blind.bind ?_ fun _ =>
        blind_submissionResponses.bind fun _ => blind_pure
      exact blind_getOwnAssignment.bind fun _ => blind_read fun _ => rfl
  | reviews submissionId =>
      refine blind_getActiveUser.bind fun _ => Blind.bind ?_ fun _ => blind_pure
      exact blind_getSubmission.bind fun _ => blind_read fun _ => rfl
  | messages assignmentId =>
      refine blind_getActiveUser.bind fun _ => Blind.bind ?_ fun _ => blind_pure
      exact blind_getOwnAssignment.bind fun _ => blind_read fun _ => rfl
  | disputes =>
      exact blind_getActiveUser.bind fun _ => (blind_read fun _ => rfl).bind fun _ => blind_pure
  | audit assignmentId =>
      exact blind_getActiveUser.bind fun _ => blind_getOwnAssignment.bind fun _ =>
        (blind_read fun _ => rfl).bind fun _ => blind_pure
  | notifications =>
      exact blind_getActiveUser.bind fun _ => (blind_read fun _ => rfl).bind fun _ => blind_pure
  | ledger =>
      exact blind_getActiveUser.bind fun _ => blind_getProfile.bind fun _ =>
        (blind_read fun _ => rfl).bind fun _ => blind_pure
  | moderationDisputes statusFilter =>
      exact blind_getModerator.bind fun _ => (blind_read fun _ => rfl).bind fun _ => blind_pure
  | disputeCase disputeId => exact absurd hquery (by simp [Query.readsContract])
  | participants =>
      exact blind_getModerator.bind fun _ => (blind_read fun _ => rfl).bind fun _ => blind_pure
  | waitlist =>
      exact blind_getModerator.bind fun _ => (blind_read fun _ => rfl).bind fun _ => blind_pure

/-- Whoever asks for a case, both runs fail alike or not at all. -/
theorem coupled_getModerationCase {disputeId : Uuid} : Coupled (Hidden c p) F (fun _ _ => True)
    (getModerationCase disputeId) (getModerationCase disputeId) := by
  refine (blind_read fun _ => rfl).bind fun _ => blind_orRaise.bind fun dispute =>
    (blind_read fun _ => rfl).bind fun _ => blind_orRaise.bind fun assignment =>
      blind_getCampaign.bind fun campaign => coupled_contractOf.bind fun _ _ hfound =>
        (coupled_orRaise hfound).bind fun contract contract' hcontract => ?_
  have hid : contract.1 = contract'.1 :=
    (congrArg Prod.fst hcontract : (bareContract contract).1 = (bareContract contract').1)
  rw [← hid]
  exact coupled_sortedTasks.bind fun _ _ _ => (blind_read fun _ => rfl).bind fun _ =>
    (blind_read fun _ => rfl).bind fun _ => (blind_read fun _ => rfl).bind fun _ =>
      (blind_read fun _ => rfl).bind fun _ => (blind_read fun _ => rfl).bind fun _ =>
        coupled_pure trivial

/-- Whoever asks for anything, both runs fail alike or not at all. -/
theorem coupled_answerQuery {query : Query} :
    Coupled (Hidden c p) F (fun _ _ => True) (answerQuery settings user query)
      (answerQuery settings user query) := by
  by_cases hquery : query.readsContract = true
  · cases query with
    | contract campaignId =>
        exact blind_getActiveUser.bind fun _ => blind_getCampaign.bind fun _ =>
          blind_raiseIf.bind fun _ => coupled_getContract.bind fun _ _ _ => coupled_pure trivial
    | assignmentContract assignmentId =>
        exact blind_getActiveUser.bind fun _ => blind_getOwnAssignment.bind fun _ =>
          blind_raiseIf.bind fun _ => coupled_getContract.bind fun _ _ _ => coupled_pure trivial
    | disputeCase disputeId =>
        have hread : ∀ (α : Type) (q q' : Db → α), Coupled (Hidden c p) F (fun _ _ => True)
            (query q : Session α) (query q') := fun _ _ _ => coupled_query fun _ _ _ => trivial
        exact blind_getModerator.bind fun _ => coupled_getModerationCase.bind fun _ _ _ =>
          (hread _ _ _).bind fun _ _ _ => (hread _ _ _).bind fun _ _ _ => coupled_pure trivial
    | _ => exact absurd hquery (by simp [Query.readsContract])
  · have hblind : Blind (Hidden c p) F (answerQuery settings user query) :=
      blind_answerQuery (Bool.eq_false_iff.mpr hquery)
    exact hblind.mono fun _ _ _ => trivial

/-! ## Outsiders are turned away -/

/-- The two databases of a comparison, and that the caller is an outsider. -/
def Unseen (settings : Settings) (c : Uuid) (p : Uuid → Prop) (userId : Uuid) (db db' : Db) : Prop :=
  Hidden c p db db' ∧ Outsider settings c userId db

section Outside

variable {settings : Settings} {userId d : Uuid}

theorem unseen_read {α : Type} {q : Db → α} (hq : ∀ db, q (db.withoutText c) = q db) :
    Blind (Unseen settings c p userId) F (query q : Session α) :=
  blind_query fun _ _ h => h.1.eq_of_public hq

theorem unseen_getActiveUser : Blind (Unseen settings c p userId) F (getActiveUser user) :=
  (unseen_read fun _ => rfl).bind fun _ => blind_raiseIf

/-- A lookup of a row of which something is known because the caller is an outsider. -/
theorem unseen_lookup {α : Type} {q : Db → Option α} {e : Failure} {Q : α → Prop}
    (hq : ∀ db, q (db.withoutText c) = q db)
    (hQ : ∀ db, Outsider settings c userId db → ∀ a, q db = some a → Q a) :
    Coupled (Unseen settings c p userId) F (fun a a' => a = a' ∧ Q a)
      (query q >>= fun found => orRaise e found : Session α)
      (query q >>= fun found => orRaise e found) := by
  have hquery : Coupled (Unseen settings c p userId) F
      (fun o o' => o = o' ∧ ∀ a, o = some a → Q a) (query q : Session (Option α)) (query q) :=
    coupled_query fun db db' h => ⟨h.1.eq_of_public hq, hQ db h.2⟩
  refine hquery.bind fun o o' h => ?_
  obtain ⟨rfl, hknown⟩ := h
  cases o with
  | none => exact fun _ _ => .raise e
  | some a => exact coupled_pure ⟨rfl, hknown a rfl⟩

/-- An outsider does not own the campaign. -/
theorem unseen_getCampaign : Coupled (Unseen settings c p userId) F
    (fun campaign campaign' => campaign = campaign' ∧ (d = c → campaign.ownerId ≠ userId))
    (getCampaign d) (getCampaign d) := by
  refine unseen_lookup (fun _ => rfl) fun db hout campaign hget hd => ?_
  subst hd
  exact hout.notOwner campaign hget

theorem unseen_contractResponse (hd : d ≠ c) :
    Blind (Unseen settings c p userId) F (contractResponse d) :=
  (blind_getContract (fun _ _ h => h.1) hd).bind fun _ => blind_pure

theorem unseen_readContract : Blind (Unseen settings c p userId) F (readContract d userId) := by
  refine unseen_getCampaign.bind fun campaign campaign' h => ?_
  obtain ⟨rfl, howner⟩ := h
  refine (coupled_raiseIf Iff.rfl).bind fun _ _ hpassed => ?_
  by_cases hd : d = c
  · exact absurd (howner hd) hpassed
  · exact unseen_contractResponse hd

theorem unseen_getAssignment {assignmentId : Uuid} : Coupled (Unseen settings c p userId) F
    (fun a a' => a = a' ∧ (a.campaignId = c → a.testerId = userId → a.acceptedAt = none))
    (getAssignment assignmentId) (getAssignment assignmentId) :=
  unseen_lookup (fun _ => rfl) fun _ hout a hget => hout.notAccepted assignmentId a hget

/-- An outsider who takes part in an assignment of the campaign is its tester. -/
theorem unseen_participant {a : Assignment} : Coupled (Unseen settings c p userId) F
    (fun _ _ => a.campaignId = c → userId = a.testerId)
    (requireAssignmentParticipant a userId) (requireAssignmentParticipant a userId) := by
  refine unseen_getCampaign.bind fun campaign campaign' h => ?_
  obtain ⟨rfl, howner⟩ := h
  refine (coupled_raiseIf Iff.rfl).bind fun _ _ hparty => coupled_pure fun hc => ?_
  by_contra htester
  exact hparty ⟨htester, fun h => howner hc h.symm⟩

/-- And was never accepted. -/
theorem unseen_getOwnAssignment {assignmentId : Uuid} : Coupled (Unseen settings c p userId) F
    (fun a a' => a = a' ∧ (a.campaignId = c → userId = a.testerId ∧ a.acceptedAt = none))
    (getOwnAssignment assignmentId userId) (getOwnAssignment assignmentId userId) := by
  refine unseen_getAssignment.bind fun a a' h => ?_
  obtain ⟨rfl, hpending⟩ := h
  refine unseen_participant.bind fun _ _ htester => ?_
  exact coupled_pure ⟨rfl, fun hc => ⟨htester hc, hpending hc (htester hc).symm⟩⟩

theorem unseen_assignmentContract {assignmentId : Uuid} :
    Blind (Unseen settings c p userId) F (assignmentContract assignmentId userId) := by
  refine unseen_getOwnAssignment.bind fun a a' h => ?_
  obtain ⟨rfl, hpending⟩ := h
  refine (coupled_raiseIf Iff.rfl).bind fun _ _ hpassed => ?_
  by_cases hc : a.campaignId = c
  · exact absurd (hpending hc) hpassed
  · exact unseen_contractResponse hc

/-- An outsider is no moderator. -/
theorem unseen_getModerator (hnot : user.id ∉ settings.moderatorUserIds) {α : Type}
    {f : Unit → Session α} :
    Blind (Unseen settings c p userId) F (getModerator settings user >>= f) := by
  have hturned : Coupled (Unseen settings c p userId) F (fun _ _ => False)
      (getModerator settings user) (getModerator settings user) := by
    refine unseen_getActiveUser.bind fun _ => (coupled_raiseIf Iff.rfl).mono fun _ _ hpassed => ?_
    exact hpassed hnot
  exact hturned.bind fun _ _ h => h.elim

end Outside

/-- **An outsider's answer is the same whatever the text says**, and nothing is changed. -/
theorem unseen_answerQuery {query : Query} (hquery : query.readsContract = true)
    (hnot : user.id ∉ settings.toSettings.moderatorUserIds) :
    Blind (Unseen settings.toSettings c p user.id) F (answerQuery settings user query) := by
  cases query with
  | contract campaignId => exact unseen_getActiveUser.bind fun _ => unseen_readContract
  | assignmentContract assignmentId =>
      exact unseen_getActiveUser.bind fun _ => unseen_assignmentContract
  | disputeCase disputeId => exact unseen_getModerator hnot
  | _ => exact absurd hquery (by simp [Query.readsContract])

/-! ## Two runs -/

/-- Two services that differ in hidden text only, and hand out the same new identifiers. -/
structure Twins (c : Uuid) (p : Uuid → Prop) (s s' : Service) : Prop where
  hidden : Hidden c p s.db s'.db
  nextId : s.nextId = s'.nextId
  fresh : ∀ n, s.nextId ≤ n → Fresh c p n

theorem respond_coupled {E : Db → Db → Prop} {A : Response → Response → Prop} {s s' : Service}
    (call : Call)
    (h : Coupled E F A (call.endpoint.answer settings call.user)
      (call.endpoint.answer settings call.user))
    (hs : E s.db s'.db) (hnext : s.nextId = s'.nextId) (hF : ∀ n, s.nextId ≤ n → F n) :
    E (s.respond settings call).2.db (s'.respond settings call).2.db
      ∧ (s.respond settings call).2.nextId = (s'.respond settings call).2.nextId
      ∧ s.nextId ≤ (s.respond settings call).2.nextId
      ∧ SameOutcome A (s.respond settings call).1 (s'.respond settings call).1 := by
  have hout := h.commit.alone call.now hs hF
  unfold Service.respond
  rw [← hnext]
  generalize (call.endpoint.answer settings call.user).commit.alone call.now s.db s.nextId = r at hout
  generalize (call.endpoint.answer settings call.user).commit.alone call.now s'.db s.nextId = r' at hout
  cases hout with
  | error e => exact ⟨hs, hnext, Nat.le_refl _, .error e⟩
  | @ok x y hxy =>
      obtain ⟨hA, hE, hnext', hle⟩ := hxy
      exact ⟨hE, hnext', hle, .ok hA⟩

theorem Twins.of_outcome {E : Db → Db → Prop} {A : Response → Response → Prop} {s s' t t' : Service}
    {r r' : Except Failure Response} (h : Twins c p s s')
    (hE : ∀ db db', E db db' → Hidden c p db db')
    (hout : E t.db t'.db ∧ t.nextId = t'.nextId ∧ s.nextId ≤ t.nextId ∧ SameOutcome A r r') :
    Twins c p t t' where
  hidden := hE _ _ hout.1
  nextId := hout.2.1
  fresh := fun n hn => h.fresh n (Nat.le_trans hout.2.2.1 hn)

theorem eq_of_sameOutcome {r r' : Except Failure Response} (h : SameOutcome Eq r r') : r = r' := by
  cases h with
  | error e => rfl
  | ok h => rw [h]

/-- **One call on both services**: they stay twins, and an outsider gets one answer. -/
theorem twins_respond {s s' : Service} {call : Call} (h : Twins c p s s')
    (hsave : ∀ payload, call.endpoint ≠ .write (.saveContract c payload)) :
    Twins c p (s.respond settings call).2 (s'.respond settings call).2
      ∧ (Outsider settings.toSettings c call.user.id s.db →
        (s.respond settings call).1 = (s'.respond settings call).1) := by
  obtain ⟨now, user, endpoint⟩ := call
  -- an answer that is the same for everybody
  have hpublic : Blind (Hidden c p) (Fresh c p) (endpoint.answer settings user) →
      Twins c p (s.respond settings ⟨now, user, endpoint⟩).2
          (s'.respond settings ⟨now, user, endpoint⟩).2
        ∧ (Outsider settings.toSettings c user.id s.db →
          (s.respond settings ⟨now, user, endpoint⟩).1
            = (s'.respond settings ⟨now, user, endpoint⟩).1) := by
    intro hblind
    have hout := respond_coupled ⟨now, user, endpoint⟩ hblind h.hidden h.nextId h.fresh
    exact ⟨h.of_outcome (fun _ _ h => h) hout, fun _ => eq_of_sameOutcome hout.2.2.2⟩
  cases endpoint with
  | write request =>
      exact hpublic (blind_answerRequest fun payload hp => hsave payload (congrArg Endpoint.write hp))
  | read query =>
      by_cases hquery : query.readsContract = true
      · have hcoupled : Coupled (Hidden c p) (Fresh c p) (fun _ _ => True)
            (answerQuery settings user query) (answerQuery settings user query) := coupled_answerQuery
        have hout := respond_coupled ⟨now, user, .read query⟩ hcoupled h.hidden h.nextId h.fresh
        refine ⟨h.of_outcome (fun _ _ h => h) hout, fun houtsider => ?_⟩
        have hsame := respond_coupled ⟨now, user, .read query⟩
          (unseen_answerQuery (F := Fresh c p) (p := p) hquery houtsider.notModerator)
          ⟨h.hidden, houtsider⟩ h.nextId h.fresh
        exact eq_of_sameOutcome hsame.2.2.2
      · exact hpublic (blind_answerQuery (Bool.eq_false_iff.mpr hquery))

/-- **Any number of calls**: the services stay twins. -/
theorem twins_after {s s' : Service} {calls : List Call} (h : Twins c p s s')
    (hsave : ∀ call ∈ calls, ∀ payload, call.endpoint ≠ .write (.saveContract c payload)) :
    Twins c p (s.after settings calls) (s'.after settings calls) := by
  induction calls generalizing s s' with
  | nil => exact h
  | cons call calls ih =>
      have hfirst : Twins c p (s.respond settings call).2 (s'.respond settings call).2 :=
        (twins_respond h (hsave call List.mem_cons_self)).1
      exact ih hfirst fun later hlater => hsave later (List.mem_cons_of_mem _ hlater)

/--
**Private text does not leak.** Two services whose databases differ only in the
private text of one campaign serve the same calls, none of which saves that
contract: their databases still differ only in that text, and whoever is an
outsider when a call arrives gets the same answer to it from both.
-/
theorem private_text_contained (settings : AppSettings) (campaignId : Uuid) (s s' : Service)
    (hsame : s.db.withoutText campaignId = s'.db.withoutText campaignId)
    (hnext : s.nextId = s'.nextId)
    (hfresh : ∀ n, s.nextId ≤ n → n ≠ campaignId ∧ s.db.ownsContract campaignId n = false)
    (calls : List Call)
    (hsave : ∀ call ∈ calls, ∀ payload, call.endpoint ≠ .write (.saveContract campaignId payload)) :
    (s.after settings calls).db.withoutText campaignId
        = (s'.after settings calls).db.withoutText campaignId
      ∧ ∀ before call rest, calls = before ++ call :: rest →
        Outsider settings.toSettings campaignId call.user.id (s.after settings before).db →
          ((s.after settings before).respond settings call).1
            = ((s'.after settings before).respond settings call).1 := by
  have htwins : Twins campaignId (fun k => s.db.ownsContract campaignId k = true) s s' := by
    refine ⟨⟨hsame, fun _ => Iff.rfl⟩, hnext, fun n hn => ?_⟩
    obtain ⟨hne, hnot⟩ := hfresh n hn
    exact ⟨hne, Bool.eq_false_iff.mp hnot⟩
  refine ⟨(twins_after htwins hsave).hidden.same, fun before call rest hcalls houtsider => ?_⟩
  have hbefore : ∀ earlier ∈ before, earlier ∈ calls := fun earlier hearlier =>
    hcalls ▸ List.mem_append_left _ hearlier
  have hcall : call ∈ calls := hcalls ▸ List.mem_append_right _ List.mem_cons_self
  have hnow : Twins campaignId (fun k => s.db.ownsContract campaignId k = true)
      (s.after settings before) (s'.after settings before) :=
    twins_after htwins fun earlier hearlier => hsave earlier (hbefore earlier hearlier)
  exact (twins_respond hnow (hsave call hcall)).2 houtsider

/-- A published campaign of user 1, number 4, with the given instructions for its testers. -/
def secretService (text : String) : Service where
  db :=
    { Db.empty with
      profiles := (Table.empty.insert 1 ⟨none, "owner", "Owner", none, none, false, none, none⟩).insert 2
        ⟨none, "first", "First", none, none, false, none, none⟩
      campaigns := Table.empty.insert 4
        { benchCampaign.campaign.campaign 1 with status := .published, publishedAt := some 0 }
      testingContracts := Table.empty.insert 5
        { benchCampaign.contract.contract 4 with testerInstructions := text }
      contractTasks := Table.empty.insert 6 ⟨5, 0, "Find", text, true⟩ }
  nextId := 7

/-- User 2 applies, and asks for the contract before being accepted. -/
def curiousCalls : List Call :=
  [⟨0, ⟨2, none⟩, .write (.apply 4 {})⟩, ⟨0, ⟨2, none⟩, .read (.assignmentContract 7)⟩]

theorem private_text_contained_curious :
    ((secretService "Code 12").db.testingContracts.get? 5).map (·.testerInstructions) = some "Code 12"
      ∧ ((secretService "Code 34").db.testingContracts.get? 5).map (·.testerInstructions)
        = some "Code 34"
      ∧ (((secretService "Code 12").after {} (curiousCalls.take 1)).db.assignments.get? 7).isSome
        = true
      ∧ (((secretService "Code 12").after {} (curiousCalls.take 1)).respond {}
            ⟨0, ⟨2, none⟩, .read (.assignmentContract 7)⟩).1
        = (((secretService "Code 34").after {} (curiousCalls.take 1)).respond {}
            ⟨0, ⟨2, none⟩, .read (.assignmentContract 7)⟩).1 := by
  refine ⟨rfl, rfl, by decide +kernel, ?_⟩
  have hfresh : ∀ n, (secretService "Code 12").nextId ≤ n →
      n ≠ 4 ∧ (secretService "Code 12").db.ownsContract 4 n = false := by
    intro n hn
    have hn : 7 ≤ n := hn
    have hget : (secretService "Code 12").db.testingContracts.get? n = none :=
      Table.get?_insert_ne (by omega)
    refine ⟨by omega, ?_⟩
    unfold Db.ownsContract
    rw [hget]
    rfl
  have hsave : ∀ call ∈ curiousCalls, ∀ payload, call.endpoint ≠ .write (.saveContract 4 payload) := by
    intro call hcall payload
    simp only [curiousCalls, List.mem_cons, List.not_mem_nil, or_false] at hcall
    rcases hcall with rfl | rfl
    · exact fun h => Request.noConfusion (Endpoint.write.inj h)
    · exact fun h => Endpoint.noConfusion h
  have hrun := private_text_contained {} 4 (secretService "Code 12") (secretService "Code 34") rfl rfl
    hfresh curiousCalls hsave
  refine hrun.2 (curiousCalls.take 1) ⟨0, ⟨2, none⟩, .read (.assignmentContract 7)⟩ [] rfl ?_
  refine ⟨fun campaign hget => ?_, by decide, fun id assignment hget hcampaign htester => ?_⟩
  · have howner : (((secretService "Code 12").after {} (curiousCalls.take 1)).db.campaigns.get?
        4).map (·.ownerId) = some 1 := by decide +kernel
    rw [hget] at howner
    exact fun h => absurd (h.symm.trans (Option.some.inj howner)) (by decide)
  · have hnone : ((secretService "Code 12").after {} (curiousCalls.take 1)).db.assignments.any
        (fun _ a => a.acceptedAt.isSome) = false := by decide +kernel
    exact Option.not_isSome_iff_eq_none.mp (Bool.eq_false_iff.mp (Table.any_eq_false.mp hnone id assignment hget))

end TestExchange
