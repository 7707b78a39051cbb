import TestExchange.Model.Responses
import TestExchange.Proof.Suspension
import TestExchange.Refine.Refusals

/-!
# How every call ends

The routes around the services: the checks in front of them, the bodies they
take, the answers they give. What only looks can fail, but never internally, so
a call fails internally only where its service does.
-/

namespace TestExchange

open Txn Txn.Session

variable {α β : Type} {P : Prop} {now n : Nat} {db : Db} {c : Conn} {user : CurrentUser}
  {settings : Settings} {R : β → Conn → Prop}

/-! ## Looking -/

/-- The session looks, and fails only with a reason of its own. -/
def Inspects (m : Session α) : Prop := ∀ P now c, EndsWell P m now c fun _ c' => c' = c

section Inspects

variable {m : Session α} {f : α → Session β} {id userId : Uuid}

theorem Inspects.bind (hm : Inspects m) (hf : ∀ a, Inspects (f a)) : Inspects (m >>= f) := by
  intro P now c
  refine (hm P now c).bind ?_
  rintro a _ rfl
  exact hf a P now _

theorem inspects_pure {a : α} : Inspects (pure a : Session α) := fun _ _ _ => ends_pure rfl

theorem inspects_query {q : Db → α} : Inspects (query q) := fun _ _ _ => ends_query_bind (ends_pure rfl)

theorem inspects_orRaise {o : Option α} {e : Failure} (he : ¬e.Internal) : Inspects (orRaise e o) :=
  fun _ _ _ => ends_orRaise (fun _ h => absurd h he) fun _ _ => rfl

theorem inspects_raiseIf {p : Prop} [Decidable p] {e : Failure} (he : ¬e.Internal) :
    Inspects (raiseIf p e) := fun _ _ _ => ends_raiseIf (fun _ h => absurd h he) fun _ => rfl

/-- An error with a status code of its own. -/
theorem domain_external {detail : String} {statusCode : Nat} (h : statusCode ≠ 500) :
    ¬(Failure.domain detail statusCode).Internal := h

theorem inspects_getActiveUser : Inspects (getActiveUser user) :=
  inspects_query.bind fun _ => inspects_raiseIf not_false

theorem inspects_getModerator : Inspects (getModerator settings user) :=
  inspects_getActiveUser.bind fun _ => inspects_raiseIf not_false

/-- A row that is looked up, or an error of its own. -/
theorem inspects_found {q : Db → Option α} {detail : String} {statusCode : Nat}
    (h : statusCode ≠ 500) :
    Inspects (do orRaise (.domain detail statusCode) (← query q)) :=
  inspects_query.bind fun _ => inspects_orRaise (domain_external h)

theorem inspects_getProfile : Inspects (getProfile id) := inspects_found (by decide)

theorem inspects_getCampaign : Inspects (getCampaign id) := inspects_found (by decide)

theorem inspects_getAssignment : Inspects (getAssignment id) := inspects_found (by decide)

theorem inspects_requireAssignmentParticipant {a : Assignment} :
    Inspects (requireAssignmentParticipant a userId) :=
  inspects_getCampaign.bind fun _ => (inspects_raiseIf (domain_external (by decide))).bind
    fun _ => inspects_pure

theorem inspects_getOwnAssignment : Inspects (getOwnAssignment id userId) :=
  inspects_getAssignment.bind fun _ => inspects_requireAssignmentParticipant.bind
    fun _ => inspects_pure

theorem inspects_getContract : Inspects (getContract id) :=
  inspects_query.bind fun _ => (inspects_orRaise (domain_external (by decide))).bind fun _ =>
    inspects_query.bind fun _ => inspects_pure

theorem inspects_getSubmission : Inspects (getSubmission id userId) :=
  inspects_query.bind fun _ => (inspects_orRaise (domain_external (by decide))).bind fun _ =>
    inspects_getAssignment.bind fun _ => inspects_requireAssignmentParticipant.bind fun _ =>
    inspects_query.bind fun _ => inspects_pure

theorem inspects_buildSubmissionQualityCheck {lower : String → String} :
    Inspects (buildSubmissionQualityCheck lower id userId) :=
  inspects_getSubmission.bind fun _ => inspects_getAssignment.bind fun _ =>
    inspects_query.bind fun _ => (inspects_orRaise (domain_external (by decide))).bind fun _ =>
    inspects_query.bind fun _ => inspects_pure

theorem inspects_getModerationCase : Inspects (getModerationCase id) :=
  inspects_query.bind fun _ => (inspects_orRaise (domain_external (by decide))).bind fun _ =>
    inspects_query.bind fun _ => (inspects_orRaise (domain_external (by decide))).bind fun _ =>
    inspects_getCampaign.bind fun _ => inspects_query.bind fun _ =>
    (inspects_orRaise (domain_external (by decide))).bind fun _ => inspects_query.bind fun _ =>
    inspects_query.bind fun _ => inspects_query.bind fun _ => inspects_query.bind fun _ =>
    inspects_query.bind fun _ => inspects_query.bind fun _ => inspects_pure

theorem inspects_campaignResponse {campaign : Uuid × Campaign} :
    Inspects (campaignResponse campaign) := inspects_query.bind fun _ => inspects_pure

theorem inspects_campaignsResponse {campaigns : List (Uuid × Campaign)} :
    Inspects (campaignsResponse campaigns) := inspects_query.bind fun _ => inspects_pure

theorem inspects_assignmentResponse {assignment : Uuid × Assignment} :
    Inspects (assignmentResponse assignment) := inspects_query.bind fun _ => inspects_pure

theorem inspects_contractResponse : Inspects (contractResponse id) :=
  inspects_getContract.bind fun _ => inspects_pure

theorem inspects_submissionResponse : Inspects (submissionResponse id userId) :=
  inspects_getSubmission.bind fun _ => inspects_pure

theorem inspects_submissionResponses {records : List (Uuid × EvidenceSubmission)} :
    Inspects (submissionResponses userId records) := by
  induction records with
  | nil => exact inspects_pure
  | cons record records ih =>
      exact inspects_submissionResponse.bind fun _ => ih.bind fun _ => inspects_pure

theorem inspects_caseResponse {case : ModerationCase} : Inspects (caseResponse id case) :=
  inspects_query.bind fun _ => inspects_query.bind fun _ => inspects_pure

end Inspects

/-- **No route that only reads fails internally.** -/
theorem answerQuery_inspects {settings : AppSettings} (query : Query) :
    Inspects (answerQuery settings user query) := by
  cases query with
  | health => exact inspects_pure
  | ready => exact inspects_query.bind fun _ => inspects_pure
  | betaStatus => exact (inspects_query.bind fun _ => inspects_pure).bind fun _ => inspects_pure
  | publicCampaigns => exact inspects_query.bind fun _ => inspects_campaignsResponse
  | publicCampaign slug =>
      exact (inspects_query.bind fun _ => (inspects_orRaise (domain_external (by decide))).bind
        fun _ => inspects_query.bind fun _ => (inspects_raiseIf (domain_external (by decide))).bind
        fun _ => inspects_pure).bind fun _ => inspects_campaignResponse
  | profile =>
      exact inspects_getActiveUser.bind fun _ => inspects_query.bind fun _ =>
        (inspects_orRaise (domain_external (by decide))).bind fun _ => inspects_pure
  | capabilities => exact inspects_getActiveUser.bind fun _ => inspects_pure
  | mine =>
      exact inspects_getActiveUser.bind fun _ => inspects_query.bind fun _ =>
        inspects_campaignsResponse
  | contract campaignId =>
      exact inspects_getActiveUser.bind fun _ => inspects_getCampaign.bind fun _ =>
        (inspects_raiseIf (domain_external (by decide))).bind fun _ => inspects_contractResponse
  | assignments =>
      exact inspects_getActiveUser.bind fun _ => inspects_query.bind fun _ =>
        inspects_query.bind fun _ => inspects_pure
  | assignment assignmentId =>
      exact inspects_getActiveUser.bind fun _ => inspects_getOwnAssignment.bind fun _ =>
        inspects_assignmentResponse
  | assignmentCampaign assignmentId =>
      exact inspects_getActiveUser.bind fun _ => inspects_getOwnAssignment.bind fun _ =>
        inspects_getCampaign.bind fun _ => inspects_campaignResponse
  | assignmentContract assignmentId =>
      exact inspects_getActiveUser.bind fun _ => inspects_getOwnAssignment.bind fun _ =>
        (inspects_raiseIf (domain_external (by decide))).bind fun _ => inspects_contractResponse
  | testingSessions assignmentId =>
      exact inspects_getActiveUser.bind fun _ => (inspects_getOwnAssignment.bind fun _ =>
        inspects_query).bind fun _ => inspects_pure
  | submission submissionId =>
      exact inspects_getActiveUser.bind fun _ => inspects_submissionResponse.bind fun _ =>
        inspects_pure
  | submissionQualityCheck submissionId =>
      exact inspects_getActiveUser.bind fun _ => inspects_buildSubmissionQualityCheck.bind fun _ =>
        inspects_pure
  | submissions assignmentId =>
      exact inspects_getActiveUser.bind fun _ => (inspects_getOwnAssignment.bind fun _ =>
        inspects_query).bind fun _ => inspects_submissionResponses.bind fun _ => inspects_pure
  | reviews submissionId =>
      exact inspects_getActiveUser.bind fun _ => (inspects_getSubmission.bind fun _ =>
        inspects_query).bind fun _ => inspects_pure
  | messages assignmentId =>
      exact inspects_getActiveUser.bind fun _ => (inspects_getOwnAssignment.bind fun _ =>
        inspects_query).bind fun _ => inspects_pure
  | disputes => exact inspects_getActiveUser.bind fun _ => inspects_query.bind fun _ => inspects_pure
  | audit assignmentId =>
      exact inspects_getActiveUser.bind fun _ => inspects_getOwnAssignment.bind fun _ =>
        inspects_query.bind fun _ => inspects_pure
  | notifications =>
      exact inspects_getActiveUser.bind fun _ => inspects_query.bind fun _ => inspects_pure
  | ledger =>
      exact inspects_getActiveUser.bind fun _ => inspects_getProfile.bind fun _ =>
        inspects_query.bind fun _ => inspects_pure
  | moderationDisputes statusFilter =>
      exact inspects_getModerator.bind fun _ => inspects_query.bind fun _ => inspects_pure
  | disputeCase disputeId =>
      exact inspects_getModerator.bind fun _ => inspects_getModerationCase.bind fun _ =>
        inspects_caseResponse
  | participants => exact inspects_getModerator.bind fun _ => inspects_query.bind fun _ => inspects_pure
  | waitlist => exact inspects_getModerator.bind fun _ => inspects_query.bind fun _ => inspects_pure

/-! ## The checks in front -/

section Checks

variable {g : Unit → Session β} {o : Option β} {L : Conn → Prop}

theorem endsWell_active_bind (h : ¬c.db.Suspended user.id → EndsWell P (g ()) now c R) :
    EndsWell P (getActiveUser user >>= g) now c R := by
  refine Ends.there (p := fun _ => ¬c.db.Suspended user.id) ?_ fun _ hactive => h hactive
  exact ends_query_bind (ends_raiseIf (fun _ he => he.elim) fun hactive => ⟨hactive, rfl⟩)

theorem endsWell_moderator_bind (h : c.db.Moderates settings user.id → EndsWell P (g ()) now c R) :
    EndsWell P (getModerator settings user >>= g) now c R := by
  refine Ends.there (p := fun _ => c.db.Moderates settings user.id) ?_ fun _ hm => h hm
  exact endsWell_active_bind fun hactive => ends_raiseIf (fun _ he => he.elim) fun hlisted =>
    ⟨⟨hactive, not_not.mp hlisted⟩, rfl⟩

/-- The service, run for its effect. -/
theorem endsWell_discard {m : Session α} (h : EndsWell P m now c fun _ => L) :
    EndsWell P (discard m) now c fun _ => L := h.bind fun _ _ hleft => ends_pure hleft

section Routes

variable {m : Session α} {m' : β → Session α}

theorem endsWell_body (h : ∀ q, o = some q → EndsWell P (m' q) now c fun _ => L) :
    EndsWell P (validated o >>= m') now c fun _ => L :=
  ends_orRaise_bind (fun _ he => he.elim) h

theorem endsWell_activeUser (h : EndsWell P m now c fun _ => L) :
    EndsWell P (getActiveUser user >>= fun _ => discard m) now c fun _ => L :=
  endsWell_active_bind fun _ => endsWell_discard h

theorem endsWell_activeInput (h : ¬c.db.Suspended user.id → ∀ q, o = some q →
    EndsWell P (m' q) now c fun _ => L) :
    EndsWell P (getActiveUser user >>= fun _ => validated o >>= m') now c fun _ => L :=
  endsWell_active_bind fun hactive => endsWell_body (h hactive)

theorem endsWell_activeBody (h : ¬c.db.Suspended user.id → ∀ q, o = some q →
    EndsWell P (m' q) now c fun _ => L) :
    EndsWell P (getActiveUser user >>= fun _ => validated o >>= fun q => discard (m' q)) now c
      fun _ => L :=
  endsWell_activeInput fun hactive q hq => endsWell_discard (h hactive q hq)

theorem endsWell_moderator (h : c.db.Moderates settings user.id → EndsWell P m now c fun _ => L) :
    EndsWell P (getModerator settings user >>= fun _ => discard m) now c fun _ => L :=
  endsWell_moderator_bind fun hmoderates => endsWell_discard (h hmoderates)

theorem endsWell_moderatorBody (h : c.db.Moderates settings user.id → ∀ q, o = some q →
    EndsWell P (m' q) now c fun _ => L) :
    EndsWell P (getModerator settings user >>= fun _ => validated o >>= fun q => discard (m' q)) now c
      fun _ => L :=
  endsWell_moderator_bind fun hm => endsWell_body fun q hq => endsWell_discard (h hm q hq)

end Routes

end Checks

/-! ## Requests -/

/-- On the list of moderators, but without a profile. -/
def Db.Stranger (settings : Settings) (db : Db) (userId : Uuid) : Prop :=
  userId ∈ settings.moderatorUserIds ∧ ¬db.Knows userId

/--
The requests that go wrong inside: a patch of a draft that gives `null` for a column
that may not be null, whatever a moderator without a profile would leave in the
records, and a link whose signing ends in an exception that is not caught.
-/
def Request.Slips (settings : Settings) (db : Db) (user : CurrentUser) : Request → Prop
  | .updateCampaign id payload =>
      ¬db.Suspended user.id
        ∧ (∃ x, db.campaigns.get? id = some x ∧ x.ownerId = user.id ∧ x.status = .draft)
        ∧ ∃ q, payload.parse = some q ∧ q.Nulls
  | .claimDispute id =>
      db.Stranger settings user.id ∧ ∃ d, db.disputes.get? id = some d ∧ d.status = .open
  | .evidenceUrl disputeId evidenceId answer =>
      db.Moderates settings user.id ∧ db.Trips settings disputeId evidenceId answer
        ∨ db.Stranger settings user.id ∧ db.Opens settings disputeId evidenceId answer
  | .suspend id payload =>
      db.Stranger settings user.id ∧ db.Knows id ∧ ∃ q, payload.parse = some q
  | .restore id => db.Stranger settings user.id ∧ db.Knows id
  | _ => False

/-- The database as requests leave it. -/
structure Db.Sound (n : Nat) (db : Db) : Prop where
  orderly : db.Orderly n
  /-- No session has been recorded for a test that has not started. -/
  idle : ∀ id a, db.assignments.get? id = some a → a.status = .accepted →
    ∀ k x, db.testingSessions.get? k = some x → x.assignmentId ≠ id
  placed : ∀ k e, db.evidenceSubmissions.get? k = some e →
    ∃ a, db.assignments.get? e.assignmentId = some a
  /-- A pending submission has no review. -/
  pending : ∀ k e, db.evidenceSubmissions.get? k = some e → e.status = .submitted →
    ∀ i r, db.reviews.get? i = some r → r.submissionId ≠ k
  assigned : ∀ i d u, db.disputes.get? i = some d → d.assignedTo = some u → db.Knows u
  tasks : db.TasksPlaced

/-- **A request fails internally only if it slips.** -/
theorem handle_endsWell {request : Request} (h : db.Sound n) :
    EndsWell (request.Slips settings db user) (handle settings user request) now ⟨db, [], n⟩
      fun _ => Arrives := by
  have horderly := h.orderly
  cases request with
  | saveProfile payload => exact endsWell_activeBody fun _ q _ => upsertProfile_endsWell horderly
  | waitlist payload => exact endsWell_body fun q _ => endsWell_discard (joinWaitlist_endsWell horderly)
  | balance => exact endsWell_activeUser (creditBalance_endsWell horderly)
  | createCampaign payload =>
      refine endsWell_activeBody fun _ q hq => ?_
      obtain ⟨htarget, hreward⟩ := CampaignCreate.parse_positive hq
      refine (createCampaign_endsWell horderly htarget hreward).mono ?_ fun _ he => he
      rintro _ _ ⟨_, -, -, hreaches⟩
      exact hreaches.arrives
  | launchCampaign payload =>
      refine endsWell_activeBody fun _ q hq => ?_
      obtain ⟨htarget, hreward⟩ := CampaignLaunch.parse_positive hq
      exact launchCampaign_endsWell horderly htarget hreward h.tasks
  | updateCampaign id payload =>
      refine endsWell_activeBody fun hactive q hq =>
        updateCampaign_endsWell horderly (CampaignUpdate.parse_bounded hq) ?_
      exact fun hdraft hnulls => ⟨hactive, hdraft, q, hq, hnulls⟩
  | saveContract id payload =>
      refine endsWell_activeInput fun _ q _ => ?_
      have hdrafting : Drafting ⟨db, [], n⟩ db := ⟨onCourse_start horderly, rfl, rfl, rfl, h.tasks⟩
      refine (upsertContract_endsWell hdrafting (Or.inr rfl)).bind ?_
      rintro _ ⟨db', pending, n'⟩ ⟨rfl, hsaved, -⟩
      refine endsWell_discard ((inspects_getContract _ now _).mono ?_ fun _ he => he)
      rintro _ _ rfl
      exact arrives_start hsaved
  | publishCampaign id => exact endsWell_activeUser (publishCampaign_endsWell horderly)
  | transitionCampaign id action => exact endsWell_activeUser (transitionCampaign_endsWell horderly)
  | apply id payload => exact endsWell_activeBody fun _ q _ => applyToCampaign_endsWell horderly
  | accept id => exact endsWell_activeUser (acceptAssignment_endsWell horderly)
  | decline id => exact endsWell_activeUser (declineAssignment_endsWell horderly)
  | withdraw id => exact endsWell_activeUser (withdrawAssignment_endsWell horderly)
  | start id => exact endsWell_activeUser (startAssignment_endsWell horderly (h.idle id))
  | recordSession id payload =>
      exact endsWell_activeBody fun _ q _ => recordTestingSession_endsWell horderly
  | submit id payload => exact endsWell_activeBody fun _ q _ => createSubmission_endsWell horderly
  | review id payload =>
      exact endsWell_activeBody fun _ q _ => createReview_endsWell horderly (h.placed id) (h.pending id)
  | message id payload => exact endsWell_activeBody fun _ q _ => addMessage_endsWell horderly
  | openDispute id payload => exact endsWell_activeBody fun _ q _ => openDispute_endsWell horderly
  | claimDispute id =>
      refine endsWell_moderator fun hmoderates => ?_
      exact claimDispute_endsWell horderly fun d hd hopen hu => ⟨⟨hmoderates.2, hu⟩, d, hd, hopen⟩
  | resolveDispute id payload =>
      exact endsWell_moderatorBody fun _ q _ =>
        resolveDispute_endsWell horderly fun d hd => h.assigned id d _ hd
  | evidenceUrl disputeId evidenceId answer =>
      refine endsWell_moderator fun hmoderates => ?_
      exact moderatorEvidenceUrl_endsWell horderly (fun htrips => Or.inl ⟨hmoderates, htrips⟩)
        fun hopens hu => Or.inr ⟨⟨hmoderates.2, hu⟩, hopens⟩
  | suspend id payload =>
      refine endsWell_moderatorBody fun hmoderates q hq => ?_
      exact suspendParticipant_endsWell horderly fun _ hid hu => ⟨⟨hmoderates.2, hu⟩, hid, q, hq⟩
  | restore id =>
      refine endsWell_moderator fun hmoderates => ?_
      exact restoreParticipant_endsWell horderly fun hid hu => ⟨⟨hmoderates.2, hu⟩, hid⟩
  | readNotification id => exact endsWell_activeUser (markNotificationRead_endsWell horderly)
  | readAllNotifications => exact endsWell_activeUser (markAllNotificationsRead_endsWell horderly)

/-! ## Answers -/

/-- Where the second session ends well, so does the first. -/
def EndsLike (m : Session α) (m' : Session β) : Prop :=
  ∀ P now c, EndsWell P m' now c (fun _ => Arrives) → EndsWell P m now c fun _ => Arrives

section EndsLike

variable {γ : Type} {m : Session α} {f : α → Session β} {g : α → Session γ}

theorem endsLike_bind (h : ∀ a, EndsLike (f a) (g a)) : EndsLike (m >>= f) (m >>= g) := by
  intro P now c hends
  unfold EndsWell Ends at hends ⊢
  rw [alone_bind_eq] at hends ⊢
  cases hm : m.alone now c with
  | error e =>
      rw [hm] at hends
      exact hends
  | ok r =>
      rw [hm] at hends
      exact h r.1 P now r.2 hends

/-- An answer only looks at what came of the service. -/
theorem endsLike_answer (hf : ∀ a, Inspects (f a)) : EndsLike (m >>= f) (discard m) := by
  have hsame : ∀ a, EndsLike (f a) (pure () : Session Unit) := by
    refine fun a P now c harrives => (hf a P now c).mono ?_ fun _ he => he
    rintro _ _ rfl
    exact harrives
  exact endsLike_bind hsame

theorem endsLike_active (hf : ∀ a, Inspects (f a)) :
    EndsLike (getActiveUser user >>= fun _ => m >>= f)
      (getActiveUser user >>= fun _ => discard m) := endsLike_bind fun _ => endsLike_answer hf

theorem endsLike_moderator (hf : ∀ a, Inspects (f a)) :
    EndsLike (getModerator settings user >>= fun _ => m >>= f)
      (getModerator settings user >>= fun _ => discard m) := endsLike_bind fun _ => endsLike_answer hf

variable {m' : γ → Session α} {o : Option γ}

theorem endsLike_activeInput {m₁ : γ → Session α} {m₂ : γ → Session β}
    (h : ∀ q, EndsLike (m₁ q) (m₂ q)) :
    EndsLike (getActiveUser user >>= fun _ => validated o >>= m₁)
      (getActiveUser user >>= fun _ => validated o >>= m₂) :=
  endsLike_bind fun _ => endsLike_bind h

theorem endsLike_activeBody (hf : ∀ a, Inspects (f a)) :
    EndsLike (getActiveUser user >>= fun _ => validated o >>= fun q => m' q >>= f)
      (getActiveUser user >>= fun _ => validated o >>= fun q => discard (m' q)) :=
  endsLike_activeInput fun _ => endsLike_answer hf

theorem endsLike_moderatorBody (hf : ∀ a, Inspects (f a)) :
    EndsLike (getModerator settings user >>= fun _ => validated o >>= fun q => m' q >>= f)
      (getModerator settings user >>= fun _ => validated o >>= fun q => discard (m' q)) :=
  endsLike_bind fun _ => endsLike_bind fun _ => endsLike_answer hf

end EndsLike

/-- **A route that answers ends well where its handler does.** -/
theorem answerRequest_endsLike {settings : AppSettings} (request : Request) :
    EndsLike (answerRequest settings user request) (handle settings.toSettings user request) := by
  cases request with
  | saveProfile payload => exact endsLike_activeBody fun _ => inspects_pure
  | waitlist payload => exact endsLike_bind fun _ => endsLike_answer fun _ => inspects_pure
  | balance => exact endsLike_active fun _ => inspects_pure
  | createCampaign payload => exact endsLike_activeBody fun _ => inspects_campaignResponse
  | launchCampaign payload => exact endsLike_activeBody fun _ => inspects_campaignResponse
  | updateCampaign id payload => exact endsLike_activeBody fun _ => inspects_campaignResponse
  | saveContract id payload =>
      exact endsLike_activeInput fun _ => endsLike_bind fun _ => endsLike_answer
        fun _ => inspects_pure
  | publishCampaign id => exact endsLike_active fun _ => inspects_campaignResponse
  | transitionCampaign id action => exact endsLike_active fun _ => inspects_campaignResponse
  | apply id payload => exact endsLike_activeBody fun _ => inspects_assignmentResponse
  | accept id => exact endsLike_active fun _ => inspects_assignmentResponse
  | decline id => exact endsLike_active fun _ => inspects_assignmentResponse
  | withdraw id => exact endsLike_active fun _ => inspects_assignmentResponse
  | start id => exact endsLike_active fun _ => inspects_assignmentResponse
  | recordSession id payload => exact endsLike_activeBody fun _ => inspects_pure
  | submit id payload =>
      exact endsLike_activeBody fun _ => inspects_submissionResponse.bind fun _ => inspects_pure
  | review id payload => exact endsLike_activeBody fun _ => inspects_pure
  | message id payload => exact endsLike_activeBody fun _ => inspects_pure
  | openDispute id payload => exact endsLike_activeBody fun _ => inspects_pure
  | claimDispute id => exact endsLike_moderator fun _ => inspects_pure
  | resolveDispute id payload => exact endsLike_moderatorBody fun _ => inspects_pure
  | evidenceUrl disputeId evidenceId answer => exact endsLike_moderator fun _ => inspects_pure
  | suspend id payload => exact endsLike_moderatorBody fun _ => inspects_pure
  | restore id => exact endsLike_moderator fun _ => inspects_pure
  | readNotification id => exact endsLike_active fun _ => inspects_pure
  | readAllNotifications => exact endsLike_active fun _ => inspects_pure

end TestExchange
