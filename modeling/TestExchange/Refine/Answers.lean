import TestExchange.Model.Responses
import TestExchange.Txn.Looks

/-!
# Answers and effects

The routes are modelled twice: once for what they do to the database, and once
with what they answer. Answering only looks at the result, so a call that is
answered leaves what serving its request leaves, and a route that only reads
leaves everything alone. Whatever holds of all reachable states therefore holds
between any two calls.
-/

namespace TestExchange

open Txn Txn.Session

variable {settings : AppSettings} {user : CurrentUser} {s : Service}

/-! ## Lookups -/

section Lookups

variable {id userId : Uuid}

theorem looks_getActiveUser : Looks (getActiveUser user) :=
  looks_query.bind fun _ => looks_raiseIf

theorem looks_getModerator {settings : Settings} : Looks (getModerator settings user) :=
  looks_getActiveUser.bind fun _ => looks_raiseIf

theorem looks_getProfile : Looks (getProfile id) := looks_query.bind fun _ => looks_orRaise

theorem looks_getCampaign : Looks (getCampaign id) := looks_query.bind fun _ => looks_orRaise

theorem looks_getAssignment : Looks (getAssignment id) := looks_query.bind fun _ => looks_orRaise

theorem looks_requireAssignmentParticipant {a : Assignment} :
    Looks (requireAssignmentParticipant a userId) :=
  looks_getCampaign.bind fun _ => looks_raiseIf.bind fun _ => looks_pure

theorem looks_getOwnAssignment : Looks (getOwnAssignment id userId) :=
  looks_getAssignment.bind fun _ => looks_requireAssignmentParticipant.bind fun _ => looks_pure

theorem looks_getContract : Looks (getContract id) :=
  looks_query.bind fun _ => looks_orRaise.bind fun _ => looks_query.bind fun _ => looks_pure

theorem looks_getSubmission : Looks (getSubmission id userId) :=
  looks_query.bind fun _ => looks_orRaise.bind fun _ => looks_getAssignment.bind fun _ =>
    looks_requireAssignmentParticipant.bind fun _ => looks_query.bind fun _ => looks_pure

theorem looks_buildSubmissionQualityCheck {lower : String → String} :
    Looks (buildSubmissionQualityCheck lower id userId) :=
  looks_getSubmission.bind fun _ => looks_getAssignment.bind fun _ => looks_query.bind fun _ =>
    looks_orRaise.bind fun _ => looks_query.bind fun _ => looks_pure

theorem looks_getModerationCase : Looks (getModerationCase id) :=
  looks_query.bind fun _ => looks_orRaise.bind fun _ => looks_query.bind fun _ =>
    looks_orRaise.bind fun _ => looks_getCampaign.bind fun _ => looks_query.bind fun _ =>
    looks_orRaise.bind fun _ => looks_query.bind fun _ => looks_query.bind fun _ =>
    looks_query.bind fun _ => looks_query.bind fun _ => looks_query.bind fun _ =>
    looks_query.bind fun _ => looks_pure

/-! ## Building an answer -/

theorem looks_campaignResponse {campaign : Uuid × Campaign} : Looks (campaignResponse campaign) :=
  looks_query.bind fun _ => looks_pure

theorem looks_campaignsResponse {campaigns : List (Uuid × Campaign)} :
    Looks (campaignsResponse campaigns) := looks_query.bind fun _ => looks_pure

theorem looks_assignmentResponse {assignment : Uuid × Assignment} :
    Looks (assignmentResponse assignment) := looks_query.bind fun _ => looks_pure

theorem looks_contractResponse : Looks (contractResponse id) :=
  looks_getContract.bind fun _ => looks_pure

theorem looks_submissionResponse : Looks (submissionResponse id userId) :=
  looks_getSubmission.bind fun _ => looks_pure

theorem looks_submissionResponses {records : List (Uuid × EvidenceSubmission)} :
    Looks (submissionResponses userId records) := by
  induction records with
  | nil => exact looks_pure
  | cons record records ih =>
      exact looks_submissionResponse.bind fun _ => ih.bind fun _ => looks_pure

theorem looks_caseResponse {case : ModerationCase} : Looks (caseResponse id case) :=
  looks_query.bind fun _ => looks_query.bind fun _ => looks_pure

end Lookups

/-- **A route that only reads changes nothing.** -/
theorem answerQuery_looks (query : Query) : Looks (answerQuery settings user query) := by
  cases query with
  | health => exact looks_pure
  | ready => exact looks_query.bind fun _ => looks_pure
  | betaStatus => exact (looks_query.bind fun _ => looks_pure).bind fun _ => looks_pure
  | publicCampaigns => exact looks_query.bind fun _ => looks_campaignsResponse
  | publicCampaign slug =>
      have hfound : Looks (publicCampaign slug) :=
        looks_query.bind fun _ => looks_orRaise.bind fun _ => looks_query.bind fun _ =>
          looks_raiseIf.bind fun _ => looks_pure
      exact hfound.bind fun _ => looks_campaignResponse
  | profile =>
      exact looks_getActiveUser.bind fun _ => looks_query.bind fun _ => looks_orRaise.bind
        fun _ => looks_pure
  | capabilities => exact looks_getActiveUser.bind fun _ => looks_pure
  | mine =>
      exact looks_getActiveUser.bind fun _ => looks_query.bind fun _ => looks_campaignsResponse
  | contract id =>
      exact looks_getActiveUser.bind fun _ => looks_getCampaign.bind fun _ =>
        looks_raiseIf.bind fun _ => looks_contractResponse
  | assignments =>
      exact looks_getActiveUser.bind fun _ => looks_query.bind fun _ => looks_query.bind
        fun _ => looks_pure
  | assignment id =>
      exact looks_getActiveUser.bind fun _ => looks_getOwnAssignment.bind fun _ =>
        looks_assignmentResponse
  | assignmentCampaign id =>
      exact looks_getActiveUser.bind fun _ => looks_getOwnAssignment.bind fun _ =>
        looks_getCampaign.bind fun _ => looks_campaignResponse
  | assignmentContract id =>
      exact looks_getActiveUser.bind fun _ => looks_getOwnAssignment.bind fun _ =>
        looks_raiseIf.bind fun _ => looks_contractResponse
  | testingSessions id =>
      have hlisted : Looks (listTestingSessions id user.id) :=
        looks_getOwnAssignment.bind fun _ => looks_query
      exact looks_getActiveUser.bind fun _ => hlisted.bind fun _ => looks_pure
  | submission id =>
      exact looks_getActiveUser.bind fun _ => looks_submissionResponse.bind fun _ => looks_pure
  | submissionQualityCheck id =>
      exact looks_getActiveUser.bind fun _ => looks_buildSubmissionQualityCheck.bind
        fun _ => looks_pure
  | submissions id =>
      have hlisted : Looks (listSubmissions id user.id) :=
        looks_getOwnAssignment.bind fun _ => looks_query
      exact looks_getActiveUser.bind fun _ => hlisted.bind fun _ =>
        looks_submissionResponses.bind fun _ => looks_pure
  | reviews id =>
      have hlisted : Looks (listSubmissionReviews id user.id) :=
        looks_getSubmission.bind fun _ => looks_query
      exact looks_getActiveUser.bind fun _ => hlisted.bind fun _ => looks_pure
  | messages id =>
      have hlisted : Looks (listMessages id user.id) :=
        looks_getOwnAssignment.bind fun _ => looks_query
      exact looks_getActiveUser.bind fun _ => hlisted.bind fun _ => looks_pure
  | disputes => exact looks_getActiveUser.bind fun _ => looks_query.bind fun _ => looks_pure
  | audit id =>
      exact looks_getActiveUser.bind fun _ => looks_getOwnAssignment.bind fun _ =>
        looks_query.bind fun _ => looks_pure
  | notifications => exact looks_getActiveUser.bind fun _ => looks_query.bind fun _ => looks_pure
  | ledger =>
      exact looks_getActiveUser.bind fun _ => looks_getProfile.bind fun _ =>
        looks_query.bind fun _ => looks_pure
  | moderationDisputes status =>
      exact looks_getModerator.bind fun _ => looks_query.bind fun _ => looks_pure
  | disputeCase id =>
      exact looks_getModerator.bind fun _ => looks_getModerationCase.bind fun _ =>
        looks_caseResponse
  | participants => exact looks_getModerator.bind fun _ => looks_query.bind fun _ => looks_pure
  | waitlist => exact looks_getModerator.bind fun _ => looks_query.bind fun _ => looks_pure

/-! ## Answering a request -/

section Matches

variable {α β : Type} {o : Option β}

theorem matches_active {m : Session α} {f : α → Session Response} (hf : ∀ a, Looks (f a)) :
    Matches (getActiveUser user >>= fun _ => m >>= f)
      (getActiveUser user >>= fun _ => discard m) := matches_bind fun _ => matches_looks hf

theorem matches_activeBody {m : β → Session α} {f : α → Session Response}
    (hf : ∀ a, Looks (f a)) :
    Matches (getActiveUser user >>= fun _ => validated o >>= fun q => m q >>= f)
      (getActiveUser user >>= fun _ => validated o >>= fun q => discard (m q)) :=
  matches_bind fun _ => matches_bind fun _ => matches_looks hf

theorem matches_moderator {settings : Settings} {m : Session α} {f : α → Session Response}
    (hf : ∀ a, Looks (f a)) :
    Matches (getModerator settings user >>= fun _ => m >>= f)
      (getModerator settings user >>= fun _ => discard m) := matches_bind fun _ => matches_looks hf

theorem matches_moderatorBody {settings : Settings} {m : β → Session α}
    {f : α → Session Response} (hf : ∀ a, Looks (f a)) :
    Matches (getModerator settings user >>= fun _ => validated o >>= fun q => m q >>= f)
      (getModerator settings user >>= fun _ => validated o >>= fun q => discard (m q)) :=
  matches_bind fun _ => matches_bind fun _ => matches_looks hf

end Matches

/-- **A route that answers does what its handler does.** -/
theorem answerRequest_matches (request : Request) :
    Matches (answerRequest settings user request) (handle settings.toSettings user request) := by
  cases request with
  | saveProfile payload => exact matches_activeBody fun _ => looks_pure
  | waitlist payload => exact matches_bind fun _ => matches_looks fun _ => looks_pure
  | balance => exact matches_active fun _ => looks_pure
  | createCampaign payload => exact matches_activeBody fun _ => looks_campaignResponse
  | launchCampaign payload => exact matches_activeBody fun _ => looks_campaignResponse
  | updateCampaign id payload => exact matches_activeBody fun _ => looks_campaignResponse
  | saveContract id payload =>
      exact matches_bind fun _ => matches_bind fun _ => matches_bind fun _ =>
        matches_looks fun _ => looks_pure
  | publishCampaign id => exact matches_active fun _ => looks_campaignResponse
  | transitionCampaign id action => exact matches_active fun _ => looks_campaignResponse
  | apply id payload => exact matches_activeBody fun _ => looks_assignmentResponse
  | accept id => exact matches_active fun _ => looks_assignmentResponse
  | decline id => exact matches_active fun _ => looks_assignmentResponse
  | withdraw id => exact matches_active fun _ => looks_assignmentResponse
  | start id => exact matches_active fun _ => looks_assignmentResponse
  | recordSession id payload => exact matches_activeBody fun _ => looks_pure
  | submit id payload =>
      exact matches_activeBody fun _ => looks_submissionResponse.bind fun _ => looks_pure
  | review id payload => exact matches_activeBody fun _ => looks_pure
  | message id payload => exact matches_activeBody fun _ => looks_pure
  | openDispute id payload => exact matches_activeBody fun _ => looks_pure
  | claimDispute id => exact matches_moderator fun _ => looks_pure
  | resolveDispute id payload => exact matches_moderatorBody fun _ => looks_pure
  | evidenceUrl disputeId evidenceId answer => exact matches_moderator fun _ => looks_pure
  | suspend id payload => exact matches_moderatorBody fun _ => looks_pure
  | restore id => exact matches_moderator fun _ => looks_pure
  | readNotification id => exact matches_active fun _ => looks_pure
  | readAllNotifications => exact matches_active fun _ => looks_pure

/-- **A call leaves things alone, or leaves what serving its request leaves.** -/
theorem respond_serves (call : Call) :
    (s.respond settings call).2 = s
      ∨ ∃ request, call.endpoint = .write request
        ∧ (s.respond settings call).2 = s.serve settings.toSettings call.now call.user request := by
  unfold Service.respond
  split
  · rename_i response db nextId hok
    cases hend : call.endpoint with
    | read query =>
        rw [hend] at hok
        obtain ⟨rfl, rfl⟩ := (answerQuery_looks query).commit hok
        exact Or.inl rfl
    | write request =>
        rw [hend] at hok
        obtain ⟨u, hserved⟩ := (answerRequest_matches request).commit hok
        refine Or.inr ⟨request, rfl, ?_⟩
        unfold Service.serve
        rw [hserved]
  · exact Or.inl rfl

/-- **Between calls the service is in a reachable state**, whoever calls and whatever for. -/
theorem reachable_after (h : Reachable settings.toSettings s) (calls : List Call) :
    Reachable settings.toSettings (s.after settings calls) := by
  induction calls generalizing s with
  | nil => exact h
  | cons call calls ih =>
      have hnext : Reachable settings.toSettings (s.respond settings call).2 := by
        rcases @respond_serves settings s call with hsame | ⟨request, -, hserved⟩
        · rw [hsame]
          exact h
        · rw [hserved]
          exact h.tail call.now call.user request
      exact ih hnext

end TestExchange
