import TestExchange.Model.Requests
import TestExchange.Txn.Runs

/-!
# The exchange as a state machine

What the services are for, without sessions, queues and flushes: the state a
testing marketplace is in, and the steps it can take. A step says in one place
when it is allowed and everything it changes; sessions, tasks, messages,
notifications, seats and the waitlist are not part of the picture.

The audit trail is kept per entity. A request may write the events of several
entities in any order; the history of each one is what counts.

`TestExchange.Refine.Serve` proves that the model of the code takes only these
steps.
-/

namespace TestExchange

open Txn

/-- The state of the marketplace. -/
structure Exchange where
  profiles : Table Profile
  campaigns : Table Campaign
  assignments : Table Assignment
  evidenceSubmissions : Table EvidenceSubmission
  reviews : Table Review
  disputes : Table Dispute
  creditAccounts : Table CreditAccount
  creditLedgerEntries : List CreditLedgerEntry
  /-- The audit events of each entity, oldest first. -/
  history : String → Uuid → List AuditEvent

/-- The audit events of an entity, in the order they were written. -/
def Db.eventsOf (db : Db) (entityType : String) (id : Uuid) : List AuditEvent :=
  db.auditEvents.filter fun e => e.entityType = entityType ∧ e.entityId = id

/-- The marketplace a database describes. -/
def Db.exchange (db : Db) : Exchange where
  profiles := db.profiles
  campaigns := db.campaigns
  assignments := db.assignments
  evidenceSubmissions := db.evidenceSubmissions
  reviews := db.reviews
  disputes := db.disputes
  creditAccounts := db.creditAccounts
  creditLedgerEntries := db.creditLedgerEntries
  history := db.eventsOf

/-- The status a transition leads to. -/
def TransitionAction.target : TransitionAction → CampaignStatus
  | .pause => .paused
  | .resume => .published
  | .close => .cancelled

/-- The statuses a transition starts from. -/
def TransitionAction.allowedFrom : TransitionAction → CampaignStatus → Prop
  | .pause, status => status = .published
  | .resume, status => status = .paused
  | .close, status => status = .published ∨ status = .paused

/-- The status a decision gives the submission. -/
def ReviewDecision.submissionStatus : ReviewDecision → SubmissionStatus
  | .approved => .approved
  | .changesRequested => .changesRequested
  | .rejected => .rejected

/-- The status a decision gives the assignment. -/
def ReviewDecision.assignmentStatus : ReviewDecision → AssignmentStatus
  | .approved => .approved
  | .changesRequested => .changesRequested
  | .rejected => .rejected

/-- What a decision does to the assignment; only an approval completes it. -/
def ReviewDecision.conclude (decision : ReviewDecision) (now : Time) (a : Assignment) : Assignment :=
  { a with
    status := decision.assignmentStatus
    completedAt := if decision = .approved then some now else a.completedAt }

namespace Exchange

/-- A marketplace nobody has joined. -/
def empty : Exchange := Db.empty.exchange

/-! ## Changes -/

/-- Write one audit event. -/
def record (s : Exchange) (e : AuditEvent) : Exchange :=
  { s with
    history := fun entityType id =>
      s.history entityType id ++ if e.entityType = entityType ∧ e.entityId = id then [e] else [] }

def modifyCampaign (s : Exchange) (id : Uuid) (f : Campaign → Campaign) : Exchange :=
  { s with campaigns := s.campaigns.modify id f }

def modifyAssignment (s : Exchange) (id : Uuid) (f : Assignment → Assignment) : Exchange :=
  { s with assignments := s.assignments.modify id f }

def modifySubmission (s : Exchange) (id : Uuid) (f : EvidenceSubmission → EvidenceSubmission) :
    Exchange :=
  { s with evidenceSubmissions := s.evidenceSubmissions.modify id f }

def modifyDispute (s : Exchange) (id : Uuid) (f : Dispute → Dispute) : Exchange :=
  { s with disputes := s.disputes.modify id f }

/-- Open a credit account, unless the user has one. -/
def openAccount (s : Exchange) (userId : Uuid) : Exchange :=
  { s with creditAccounts := s.creditAccounts.insert userId ⟨0⟩ }

/-- A user's balance; without an account it is zero. -/
def balance (s : Exchange) (userId : Uuid) : Int :=
  (s.creditAccounts.get? userId).elim 0 (·.balance)

/-- A credit change that goes through: the balance and the ledger move together. -/
def enter (s : Exchange) (change : CreditChange) (transactionId : Uuid) : Exchange :=
  { s with
    creditAccounts := (s.creditAccounts.insert change.userId ⟨0⟩).modify change.userId
      fun _ => ⟨s.balance change.userId + change.delta⟩
    creditLedgerEntries := s.creditLedgerEntries ++ [change.entry transactionId] }

/-- What recording a credit change does: nothing if its key is known, else one entry. -/
inductive Credited (change : CreditChange) (s : Exchange) : Exchange → Prop where
  | known {e : CreditLedgerEntry} (he : e ∈ s.creditLedgerEntries)
      (hkey : e.idempotencyKey = change.idempotencyKey) : Credited change s s
  | entered (transactionId : Uuid)
      (hnew : ∀ e ∈ s.creditLedgerEntries, e.idempotencyKey ≠ change.idempotencyKey)
      (hdelta : change.delta ≠ 0) (hfunds : 0 ≤ s.balance change.userId + change.delta) :
      Credited change s (s.enter change transactionId)

/-! ## Counts -/

/-- The assignments of a campaign that use up one of its slots. -/
def occupiedSlots (s : Exchange) (campaignId : Uuid) : Nat :=
  s.assignments.count fun a =>
    a.campaignId = campaignId && a.status ∈ occupiedAssignmentStatuses

/-- The submissions of an assignment. -/
def submissionsOf (s : Exchange) (assignmentId : Uuid) : List (Uuid × EvidenceSubmission) :=
  s.evidenceSubmissions.where' fun _ e => e.assignmentId = assignmentId

/-- The highest version submitted for an assignment, or zero. -/
def latestVersion (s : Exchange) (assignmentId : Uuid) : Nat :=
  (s.submissionsOf assignmentId).foldl (fun v e => max v e.2.version) 0

/-! ## Steps -/

/-- The kinds of steps, with the entity each is about. -/
inductive Action where
  | addProfile (userId : Uuid)
  | editProfile (userId : Uuid)
  | note
  | openAccount (userId : Uuid)
  | createCampaign (campaignId : Uuid)
  | editCampaign (campaignId : Uuid)
  | publish (campaignId : Uuid)
  | transition (campaignId : Uuid) (action : TransitionAction)
  | complete (campaignId : Uuid)
  | apply (assignmentId : Uuid)
  | accept (assignmentId : Uuid)
  | decline (assignmentId : Uuid)
  | withdraw (assignmentId : Uuid)
  | start (assignmentId : Uuid)
  | submit (submissionId : Uuid)
  | review (submissionId : Uuid)
  | openDispute (disputeId : Uuid)
  | claim (disputeId : Uuid)
  | resolve (disputeId : Uuid)

/-- Actions of audit events that stand for no change of status. -/
def neutralActions : List String :=
  ["profile.created", "profile.updated", "profile.suspended", "profile.restored",
   "campaign.updated", "contract.saved", "testing_session.recorded", "message.created",
   "dispute.opened", "dispute.claimed", "moderation.evidence_opened"]

/-- An event about an assignment. -/
def assignmentEvent (actorId : Uuid) (action : String) (assignmentId : Uuid)
    (details : List (String × Json)) : AuditEvent :=
  ⟨some actorId, action, "assignment", assignmentId, details⟩

/-- An event about a campaign. -/
def campaignEvent (actorId : Uuid) (action : String) (campaignId : Uuid)
    (details : List (String × Json)) : AuditEvent :=
  ⟨some actorId, action, "campaign", campaignId, details⟩

/-- What a review does to the submission and its assignment, before any payment. -/
def reviewed (s : Exchange) (submissionId assignmentId : Uuid) (now : Time)
    (decision : ReviewDecision) : Exchange :=
  (s.modifySubmission submissionId fun e =>
    { e with status := decision.submissionStatus }).modifyAssignment assignmentId
    (decision.conclude now)

/-- The decision of a dispute. -/
def settle (s : Exchange) (disputeId moderatorId : Uuid) (payload : DisputeResolve) (now : Time) :
    Exchange :=
  s.modifyDispute disputeId fun d =>
    { d with
      status := payload.outcome.status, resolution := some payload.resolution,
      remedy := some payload.remedy, resolvedBy := some moderatorId, resolvedAt := some now }

/-- The event of a decision. -/
def resolutionEvent (disputeId moderatorId assignmentId : Uuid) (payload : DisputeResolve) :
    AuditEvent :=
  assignmentEvent moderatorId payload.outcome.auditAction assignmentId
    [("dispute_id", .str (Uuid.str disputeId)), ("outcome", .str payload.outcome.value),
     ("remedy", .str payload.remedy.value)]

/-- A dispute under review by a moderator, with the assignment it is about. -/
structure UnderReviewBy (s : Exchange) (disputeId moderatorId : Uuid) (dispute : Dispute)
    (assignment : Assignment) : Prop where
  hd : s.disputes.get? disputeId = some dispute
  underReview : dispute.status = .underReview
  assigned : dispute.assignedTo = some moderatorId
  ha : s.assignments.get? dispute.assignmentId = some assignment

/-- **The steps of the marketplace**, for a given signup grant. -/
inductive Step (grant : Nat) : Exchange → Action → Exchange → Prop where
  /-- A user joins, with an account and the starting credits. -/
  | addProfile {s s' : Exchange} {u : Uuid} {p : Profile} (hnew : s.profiles.get? u = none)
      (hgrant :
        if 0 < grant then
          Credited (signupGrantEntry grant u)
            ({ s with profiles := s.profiles.insert u p }.openAccount u) s'
        else s' = { s with profiles := s.profiles.insert u p }.openAccount u) :
      Step grant s (.addProfile u) (s'.record ⟨some u, "profile.created", "profile", u, []⟩)
  /-- A profile is saved again, suspended or restored. -/
  | editProfile {s : Exchange} {u : Uuid} {f : Profile → Profile} {e : AuditEvent}
      (he : e.action ∈ neutralActions) :
      Step grant s (.editProfile u) ({ s with profiles := s.profiles.modify u f }.record e)
  /-- Something happens that changes no status. -/
  | note {s : Exchange} {e : AuditEvent} (he : e.action ∈ neutralActions) :
      Step grant s .note (s.record e)
  /-- A user without an account looks at the balance. -/
  | openAccount {s : Exchange} {u : Uuid} : Step grant s (.openAccount u) (s.openAccount u)
  /-- A draft is created. -/
  | createCampaign {s : Exchange} {id : Uuid} {c : Campaign} {actor : Uuid}
      (hnew : s.campaigns.get? id = none) (hdraft : c.status = .draft) :
      Step grant s (.createCampaign id)
        ({ s with campaigns := s.campaigns.insert id c }.record
          (campaignEvent actor "campaign.created" id []))
  /-- A draft is edited. -/
  | editCampaign {s : Exchange} {id : Uuid} {c : Campaign} {payload : CampaignUpdate} {actor : Uuid}
      (hc : s.campaigns.get? id = some c) (hdraft : c.status = .draft) :
      Step grant s (.editCampaign id)
        ((s.modifyCampaign id (payload.set c)).record
          (campaignEvent actor "campaign.updated" id []))
  /-- A draft is paid for and opened to testers. -/
  | publish {s s' : Exchange} {id : Uuid} {c : Campaign} {now : Time}
      (hc : s.campaigns.get? id = some c) (hdraft : c.status = .draft)
      (hspend : Credited (postingEntry id c c.ownerId) s s') :
      Step grant s (.publish id)
        ((s'.modifyCampaign id fun c =>
            { c with status := .published, publishedAt := some now }).record
          (campaignEvent c.ownerId "campaign.published" id
            [("spent_credits", .int c.requiredCredits), ("refundable", .bool false)]))
  /-- The owner pauses, resumes or closes recruitment. -/
  | transition {s : Exchange} {id : Uuid} {c : Campaign} {action : TransitionAction} {actor : Uuid}
      {details : List (String × Json)} (hc : s.campaigns.get? id = some c)
      (hfrom : action.allowedFrom c.status)
      (hroom : action = .resume → s.occupiedSlots id < c.targetTesters) :
      Step grant s (.transition id action)
        ((s.modifyCampaign id fun c => { c with status := action.target }).record
          (campaignEvent actor action.auditAction id details))
  /-- The work of a campaign is done. -/
  | complete {s : Exchange} {id : Uuid} {c : Campaign} {actor : Uuid}
      {details : List (String × Json)} (hc : s.campaigns.get? id = some c)
      (hstatus : c.status = .published ∨ c.status = .paused ∨ c.status = .cancelled) :
      Step grant s (.complete id)
        ((s.modifyCampaign id fun c => { c with status := .completed }).record
          (campaignEvent actor "campaign.completed" id details))
  /-- A tester applies to a campaign that still has room. -/
  | apply {s : Exchange} {id campaignId testerId : Uuid} {c : Campaign} {note : Option String}
      (hnew : s.assignments.get? id = none)
      (hc : s.campaigns.get? campaignId = some c) (hpublished : c.status = .published)
      (howner : c.ownerId ≠ testerId)
      (hfirst : ∀ i a, s.assignments.get? i = some a →
        ¬(a.campaignId = campaignId ∧ a.testerId = testerId))
      (hroom : s.occupiedSlots campaignId < c.targetTesters) :
      Step grant s (.apply id)
        ({ s with
            assignments := s.assignments.insert id
              { campaignId, testerId, applicationNote := note } }.record
          (assignmentEvent testerId "assignment.applied" id []))
  /-- The owner accepts an application while there is room. -/
  | accept {s : Exchange} {id : Uuid} {a : Assignment} {c : Campaign} {now : Time}
      (ha : s.assignments.get? id = some a) (happlied : a.status = .applied)
      (hc : s.campaigns.get? a.campaignId = some c) (hpublished : c.status = .published)
      (hroom : s.occupiedSlots a.campaignId < c.targetTesters) :
      Step grant s (.accept id)
        ((s.modifyAssignment id fun a =>
            { a with status := .accepted, acceptedAt := some now }).record
          (assignmentEvent c.ownerId "assignment.accepted" id []))
  /-- An application is declined, by itself or because recruitment closes. -/
  | decline {s : Exchange} {id : Uuid} {a : Assignment} {actor : Uuid} {now : Time}
      {details : List (String × Json)} (ha : s.assignments.get? id = some a)
      (happlied : a.status = .applied) :
      Step grant s (.decline id)
        ((s.modifyAssignment id fun a =>
            { a with status := .cancelled, completedAt := some now }).record
          (assignmentEvent actor "assignment.declined" id details))
  /-- The tester leaves before submitting, or instead of reworking a submission. -/
  | withdraw {s : Exchange} {id : Uuid} {a : Assignment} {now : Time}
      {details : List (String × Json)} (ha : s.assignments.get? id = some a)
      (hstatus : a.status ∈ [AssignmentStatus.applied, .accepted, .inProgress, .changesRequested]) :
      Step grant s (.withdraw id)
        ((s.modifyAssignment id fun a =>
            { a with status := .cancelled, completedAt := some now }).record
          (assignmentEvent a.testerId "assignment.withdrawn" id details))
  /-- The tester starts the work. -/
  | start {s : Exchange} {id : Uuid} {a : Assignment} {now : Time}
      (ha : s.assignments.get? id = some a) (haccepted : a.status = .accepted) :
      Step grant s (.start id)
        ((s.modifyAssignment id fun a =>
            { a with status := .inProgress, startedAt := some now }).record
          (assignmentEvent a.testerId "assignment.started" id []))
  /-- The tester submits the next version. -/
  | submit {s : Exchange} {id submissionId : Uuid} {a : Assignment} {e : EvidenceSubmission}
      {now : Time} {details : List (String × Json)} (ha : s.assignments.get? id = some a)
      (hstatus : a.status ∈ [AssignmentStatus.inProgress, .changesRequested])
      (hnew : s.evidenceSubmissions.get? submissionId = none)
      (hof : e.assignmentId = id) (hversion : e.version = s.latestVersion id + 1)
      (hsubmitted : e.status = .submitted) :
      Step grant s (.submit submissionId)
        (({ s with
              evidenceSubmissions := s.evidenceSubmissions.insert submissionId e }.modifyAssignment
            id fun a => { a with status := .submitted, submittedAt := some now }).record
          (assignmentEvent a.testerId "submission.created" id details))
  /-- The owner decides about a submission nobody has escalated, and pays if it is approved. -/
  | review {s s' : Exchange} {reviewId submissionId id : Uuid} {a : Assignment}
      {e : EvidenceSubmission} {c : Campaign} {r : Review} {note : String} {now : Time}
      {details : List (String × Json)}
      (he : s.evidenceSubmissions.get? submissionId = some e) (hof : e.assignmentId = id)
      (ha : s.assignments.get? id = some a) (hc : s.campaigns.get? a.campaignId = some c)
      (hcalm : ∀ i d, s.disputes.get? i = some d → d.assignmentId = id →
        d.status ∉ activeDisputeStatuses)
      (hpending : e.status = .submitted) (hawaiting : a.status = .submitted)
      (hnew : s.reviews.get? reviewId = none)
      (hfirst : ∀ i q, s.reviews.get? i = some q → q.submissionId ≠ submissionId)
      (hsub : r.submissionId = submissionId) (hby : r.reviewerId = c.ownerId)
      (hpay :
        if r.decision = .approved then
          Credited (rewardEntry id a c note c.ownerId)
            ({ s with reviews := s.reviews.insert reviewId r }.reviewed submissionId id now
              r.decision) s'
        else
          s' = { s with reviews := s.reviews.insert reviewId r }.reviewed submissionId id now
            r.decision) :
      Step grant s (.review submissionId)
        (s'.record (assignmentEvent c.ownerId r.decision.auditAction id details))
  /-- The tester escalates a rejected or overdue submission, once. -/
  | openDispute {s : Exchange} {disputeId submissionId : Uuid} {a : Assignment}
      {e : EvidenceSubmission} {d : Dispute}
      (hnew : s.disputes.get? disputeId = none)
      (ha : s.assignments.get? d.assignmentId = some a) (hby : d.openedBy = a.testerId)
      (he : s.evidenceSubmissions.get? submissionId = some e)
      (hsub : d.submissionId = some submissionId) (hof : e.assignmentId = d.assignmentId)
      (hstatus : (a.status = .submitted ∧ e.status = .submitted)
        ∨ (a.status = .rejected ∧ e.status = .rejected))
      (honce : ∀ i d', s.disputes.get? i = some d' → d'.assignmentId ≠ d.assignmentId)
      (hopen : d.status = .open) (hfresh : d.assignedTo = none ∧ d.remedy = none ∧ d.resolvedBy = none) :
      Step grant s (.openDispute disputeId)
        ({ s with disputes := s.disputes.insert disputeId d }.record
          (assignmentEvent a.testerId "dispute.opened" d.assignmentId
            [("dispute_id", .str (Uuid.str disputeId))]))
  /-- A moderator takes an open dispute. -/
  | claim {s : Exchange} {disputeId moderatorId : Uuid} {d : Dispute} {now : Time}
      (hd : s.disputes.get? disputeId = some d) (hopen : d.status = .open) :
      Step grant s (.claim disputeId)
        ((s.modifyDispute disputeId fun d =>
            { d with
              status := .underReview, assignedTo := some moderatorId,
              assignedAt := some now }).record
          (assignmentEvent moderatorId "dispute.claimed" d.assignmentId
            [("dispute_id", .str (Uuid.str disputeId))]))
  /-- The assigned moderator awards the tester: the disputed work is approved and paid. -/
  | award {s s' : Exchange} {disputeId moderatorId submissionId : Uuid} {d : Dispute}
      {a : Assignment} {e : EvidenceSubmission} {c : Campaign} {payload : DisputeResolve}
      {note : String} {now settledAt : Time}
      (hcase : UnderReviewBy s disputeId moderatorId d a)
      (hremedy : payload.remedy = .awardTester) (houtcome : payload.outcome = .resolved)
      (hstatus : a.status ∈ [AssignmentStatus.rejected, .submitted])
      (hsub : d.submissionId = some submissionId)
      (he : s.evidenceSubmissions.get? submissionId = some e)
      (hof : e.assignmentId = d.assignmentId) (hc : s.campaigns.get? a.campaignId = some c)
      (hpay : Credited (rewardEntry d.assignmentId a c note moderatorId)
        (s.reviewed submissionId d.assignmentId now .approved) s') :
      Step grant s (.resolve disputeId)
        ((s'.settle disputeId moderatorId payload settledAt).record
          (resolutionEvent disputeId moderatorId d.assignmentId payload))
  /-- The assigned moderator rejects an overdue submission. -/
  | rejectOverdue {s : Exchange} {disputeId moderatorId submissionId : Uuid} {d : Dispute}
      {a : Assignment} {e : EvidenceSubmission} {payload : DisputeResolve}
      {now settledAt : Time}
      (hcase : UnderReviewBy s disputeId moderatorId d a)
      (hremedy : payload.remedy ≠ .awardTester) (houtcome : payload.outcome = .rejected)
      (hstatus : a.status = .submitted) (hsub : d.submissionId = some submissionId)
      (he : s.evidenceSubmissions.get? submissionId = some e)
      (hof : e.assignmentId = d.assignmentId) :
      Step grant s (.resolve disputeId)
        ((((s.modifySubmission submissionId fun e =>
              { e with status := .rejected }).modifyAssignment d.assignmentId fun a =>
                { a with status := .rejected, completedAt := some now }).settle disputeId
            moderatorId payload settledAt).record
          (resolutionEvent disputeId moderatorId d.assignmentId payload))
  /-- The assigned moderator lets a decision stand. -/
  | uphold {s : Exchange} {disputeId moderatorId : Uuid} {d : Dispute} {a : Assignment}
      {payload : DisputeResolve} {settledAt : Time}
      (hcase : UnderReviewBy s disputeId moderatorId d a)
      (hremedy : payload.remedy ≠ .awardTester) (hstatus : a.status ≠ .submitted) :
      Step grant s (.resolve disputeId)
        ((s.settle disputeId moderatorId payload settledAt).record
          (resolutionEvent disputeId moderatorId d.assignmentId payload))

/-- What an entry in the ledger leaves alone. -/
theorem Credited.frame {s s' : Exchange} {change : CreditChange} (h : Credited change s s') :
    s'.profiles = s.profiles ∧ s'.campaigns = s.campaigns ∧ s'.assignments = s.assignments
      ∧ s'.evidenceSubmissions = s.evidenceSubmissions ∧ s'.reviews = s.reviews
      ∧ s'.disputes = s.disputes ∧ s'.history = s.history := by
  cases h with
  | known => exact ⟨rfl, rfl, rfl, rfl, rfl, rfl, rfl⟩
  | entered => exact ⟨rfl, rfl, rfl, rfl, rfl, rfl, rfl⟩

/-- What the payment of a review leaves alone. -/
theorem paid_frame {p : Prop} [Decidable p] {change : CreditChange} {s₁ s' : Exchange}
    (h : if p then Credited change s₁ s' else s' = s₁) :
    s'.profiles = s₁.profiles ∧ s'.campaigns = s₁.campaigns ∧ s'.assignments = s₁.assignments
      ∧ s'.evidenceSubmissions = s₁.evidenceSubmissions ∧ s'.reviews = s₁.reviews
      ∧ s'.disputes = s₁.disputes ∧ s'.history = s₁.history := by
  split at h
  · exact h.frame
  · rw [h]
    exact ⟨rfl, rfl, rfl, rfl, rfl, rfl, rfl⟩

/-- The states the marketplace can be in. -/
def Possible (grant : Nat) (s : Exchange) : Prop := ∃ actions, Runs (Step grant) empty actions s

/-- **An invariant of the steps that holds of the empty marketplace holds of every possible one.** -/
theorem Possible.invariant {grant : Nat} {Inv : Exchange → Prop} {s : Exchange}
    (h : Possible grant s) (hempty : Inv empty)
    (hstep : ∀ s a s', Inv s → Step grant s a s' → Inv s') : Inv s := by
  obtain ⟨actions, hrun⟩ := h
  exact hrun.invariant hempty hstep

end Exchange

end TestExchange
