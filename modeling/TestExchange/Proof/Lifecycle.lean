import TestExchange.Proof.Frozen
import TestExchange.Refine.Serve

/-!
# The lifecycle of disputes and the history of submissions

What casework and reviews come to, for the database of every service a run of
requests can reach.
-/

namespace TestExchange

open Txn Exchange

/-! ## Disputes -/

/-- A dispute is about `a` and about its latest submission `e`, and all three are in phase. -/
structure DisputeInOrder (db : Db) (d : Dispute) (a : Assignment) (k : Uuid)
    (e : EvidenceSubmission) : Prop where
  assignment : db.assignments.get? d.assignmentId = some a
  openedByTester : d.openedBy = a.testerId
  submission : d.submissionId = some k ∧ db.evidenceSubmissions.get? k = some e
    ∧ e.assignmentId = d.assignmentId
  highestVersion : ∀ j f, db.evidenceSubmissions.get? j = some f →
    f.assignmentId = d.assignmentId → j ≠ k → f.version < e.version
  open_ : d.status = .open → d.assignedTo = none ∧ d.remedy = none ∧ d.resolvedBy = none
  underReview : d.status = .underReview → d.assignedTo ≠ none ∧ d.resolvedBy = none
  active : d.status = .open ∨ d.status = .underReview →
    (a.status = .submitted ∧ e.status = .submitted) ∨ (a.status = .rejected ∧ e.status = .rejected)
  decided : d.status = .resolved ∨ d.status = .rejected →
    d.resolvedBy ≠ none ∧ d.resolvedBy = d.assignedTo
      ∧ if d.remedy = some .awardTester then a.status = .approved ∧ e.status = .approved
        else a.status = .rejected ∧ e.status = .rejected

/-- The disputes of a database, and what one more request may do to them. -/
structure DisputeLifecycle (settings : Settings) (s : Service) : Prop where
  once : ∀ i j d d', s.db.disputes.get? i = some d → s.db.disputes.get? j = some d' →
    d.assignmentId = d'.assignmentId → i = j
  kept : ∀ now user request i d, s.db.disputes.get? i = some d →
    ∃ d', (s.serve settings now user request).db.disputes.get? i = some d'
      ∧ d'.assignmentId = d.assignmentId
  inOrder : ∀ i d, s.db.disputes.get? i = some d → ∃ a k e, DisputeInOrder s.db d a k e
  activeFrozen : ∀ now user request i d, s.db.disputes.get? i = some d →
    d.status = .open ∨ d.status = .underReview →
    (∀ payload, request ≠ .resolveDispute i payload) →
    SameStatuses s.db.exchange (s.serve settings now user request).db.exchange d
  decidedFrozen : ∀ now user request i d, s.db.disputes.get? i = some d →
    d.status = .resolved ∨ d.status = .rejected →
    (s.serve settings now user request).db.disputes.get? i = some d
      ∧ SameStatuses s.db.exchange (s.serve settings now user request).db.exchange d

theorem Disputed.inOrder {db : Db} {d : Dispute} {a : Assignment} {k : Uuid}
    {e : EvidenceSubmission} (h : CaseInv db.exchange) (hc : Disputed db.exchange d a k e) :
    DisputeInOrder db d a k e where
  assignment := hc.ha
  openedByTester := hc.openedBy
  submission := ⟨hc.submission, hc.he, hc.hof⟩
  highestVersion := by
    intro j f hf hof hne
    have hin := h.inStep _ a hc.ha
    have hle := (hin.version_bounds hf hof).2
    have hlatest := hc.latest
    by_cases hv : f.version = e.version
    · exact absurd (hin.unique hf hof hc.he hc.hof hv) hne
    · omega
  open_ := by
    intro hs
    have hp := hc.phase
    unfold Dispute.Phase at hp
    rw [hs] at hp
    exact ⟨hp.1, hp.2.1, hp.2.2.1⟩
  underReview := by
    intro hs
    have hp := hc.phase
    unfold Dispute.Phase at hp
    rw [hs] at hp
    exact ⟨hp.1, hp.2.2.1⟩
  active := fun hs => hc.phase.escalated (by rcases hs with hs | hs <;> simp [hs, activeDisputeStatuses])
  decided := by
    intro hs
    have hp := hc.phase
    unfold Dispute.Phase at hp
    have hdone : d.assignedTo ≠ none ∧ d.resolvedBy = d.assignedTo
        ∧ if d.remedy = some .awardTester then a.status = .approved ∧ e.status = .approved
          else a.status = .rejected ∧ e.status = .rejected := by
      rcases hs with hs | hs
      · rw [hs] at hp; exact hp
      · rw [hs] at hp; exact hp
    exact ⟨by rw [hdone.2.1]; exact hdone.1, hdone.2⟩

/-- The steps of a request resolve no other dispute than the one it names. -/
theorem performs_ne_resolve {request : Request} {i : Uuid}
    (h : ∀ payload, request ≠ .resolveDispute i payload) {x : Action} (hx : request.performs x) :
    x ≠ .resolve i := by
  cases request with
  | resolveDispute j payload =>
      rcases hx with rfl | ⟨c, rfl⟩
      · intro hji
        obtain rfl := Action.resolve.inj hji
        exact h payload rfl
      · simp
  | _ => exact hx i

/--
**The dispute lifecycle.** In every reachable database every assignment has at
most one dispute, about its tester and its highest version, in phase with both
statuses; only its own resolution changes these, and nothing does afterwards.
-/
theorem dispute_lifecycle (settings : Settings) (s : Service) (h : Reachable settings s) :
    DisputeLifecycle settings s := by
  have hinv := caseInv_possible (reachable_possible h)
  refine ⟨hinv.once, ?_, ?_, ?_, ?_⟩
  · intro now user request
    obtain ⟨actions, _, hrun⟩ := @serve_refines settings user s now request
    intro i d hd
    obtain ⟨d', hd', ha, _⟩ := disputesKept_runs hinv hrun i d hd
    exact ⟨d', hd', ha⟩
  · intro i d hd
    obtain ⟨a, k, e, hc⟩ := hinv.disputed i d hd
    exact ⟨a, k, e, hc.inOrder hinv⟩
  · intro now user request i d hd hactive hother
    obtain ⟨actions, hperforms, hrun⟩ := @serve_refines settings user s now request
    have hfrozen := activeFrozen_runs hinv hrun
      fun x hx => performs_ne_resolve hother (hperforms x hx)
    have hstatus : d.status ∈ activeDisputeStatuses := by
      rcases hactive with hs | hs <;> simp [hs, activeDisputeStatuses]
    obtain ⟨_, _, _, _, _, hsame⟩ := hfrozen d hd hstatus
    exact hsame
  · intro now user request i d hd hdecided
    obtain ⟨actions, _, hrun⟩ := @serve_refines settings user s now request
    refine closedFrozen_runs hinv hrun i d hd ?_
    rcases hdecided with hs | hs <;> simp [hs, activeDisputeStatuses]

/-! ### A campaign with one slot

The owner (user 1) pays for one tester. The first tester's work is rejected, the
second tester gets the slot and is approved, and then the moderator (user 9)
finds for the first.
-/

def benchSettings : Settings := { moderatorUserIds := [9] }

def benchCampaign : CampaignLaunch where
  campaign :=
    { name := "Benches", slug := "benches", platform := .web, category := "Maps",
      publicSummary := "A map of every bench in town", publicTesterRequirements := "Any browser",
      targetTesters := 1, rewardCredits := 2 }
  contract :=
    { testerInstructions := "Find a bench and sit on it", evidenceRequirements := "A picture of it",
      tasks := [{ title := "Find", instructions := "Find a bench" }] }

/-- Evidence for the only task of the contract, which is number 6. -/
def benchEvidence : SubmissionCreate where
  summary := "I found a bench and sat on it"
  items := [{ taskId := some 6, kind := .note, note := some "It is green" }]

/-- Joining, and launching the campaign, which is number 4. -/
def benchLaunch : List (Time × CurrentUser × Request) :=
  [(0, ⟨1, none⟩, .saveProfile { username := "owner", displayName := "Owner" }),
   (0, ⟨2, none⟩, .saveProfile { username := "first", displayName := "First" }),
   (0, ⟨3, none⟩, .saveProfile { username := "second", displayName := "Second" }),
   (0, ⟨9, none⟩, .saveProfile { username := "moderator", displayName := "Moderator" }),
   (0, ⟨1, none⟩, .launchCampaign benchCampaign)]

/-- Both testers in turn: assignments 8 and 17, submissions 12 and 21. -/
def benchTests : List (Time × CurrentUser × Request) :=
  [(0, ⟨2, none⟩, .apply 4 {}),
   (0, ⟨1, none⟩, .accept 8),
   (0, ⟨2, none⟩, .start 8),
   (0, ⟨2, none⟩, .submit 8 benchEvidence),
   (0, ⟨1, none⟩, .review 12 ⟨.rejected, "No bench here"⟩),
   (0, ⟨3, none⟩, .apply 4 {}),
   (0, ⟨1, none⟩, .accept 17),
   (0, ⟨3, none⟩, .start 17),
   (0, ⟨3, none⟩, .submit 17 benchEvidence),
   (0, ⟨1, none⟩, .review 21 ⟨.approved, "A fine bench"⟩)]

/-- The first tester's dispute, which is number 27, and the award. -/
def benchDispute : List (Time × CurrentUser × Request) :=
  [(0, ⟨2, none⟩, .openDispute 8 ⟨some 12, "There is a bench in the picture"⟩),
   (0, ⟨9, none⟩, .claimDispute 27),
   (0, ⟨9, none⟩, .resolveDispute 27 ⟨.resolved, .awardTester, "The bench is there indeed"⟩)]

/-- The first tester has applied, which is assignment 8. -/
def appliedService : Service := Service.init.run benchSettings (benchLaunch ++ benchTests.take 1)

/-- The first tester's submission, number 12, waits for its review. -/
def waitingService : Service := Service.init.run benchSettings (benchLaunch ++ benchTests.take 4)

def benchService : Service :=
  Service.init.run benchSettings (benchLaunch ++ benchTests ++ benchDispute)

theorem benchService_reachable : Reachable benchSettings benchService :=
  reachable_run .init _

set_option maxRecDepth 4000 in
theorem dispute_lifecycle_bench :
    (benchService.db.disputes.get? 27).map (·.status) = some .resolved
      ∧ DisputeLifecycle benchSettings benchService :=
  ⟨by decide +kernel, dispute_lifecycle benchSettings benchService benchService_reachable⟩

/-! ## Submissions and reviews -/

/-- The assignment status that says the same as the status of a submission. -/
def SubmissionStatus.ofAssignment : SubmissionStatus → AssignmentStatus
  | .submitted => .submitted
  | .changesRequested => .changesRequested
  | .approved => .approved
  | .rejected => .rejected

/-- The submissions of an assignment, of which there are `n`, go with its status. -/
structure HistoryInStep (db : Db) (id : Uuid) (a : Assignment) (n : Nat) : Prop where
  versions : (db.submissionsOf id).map (·.2.version) = List.range' 1 n
  earlier : ∀ k e, db.evidenceSubmissions.get? k = some e → e.assignmentId = id → e.version < n →
    e.status = .changesRequested
  none : a.status = .applied ∨ a.status = .accepted ∨ a.status = .inProgress → n = 0
  latest : a.status = .submitted ∨ a.status = .changesRequested ∨ a.status = .approved
      ∨ a.status = .rejected →
    1 ≤ n ∧ ∃ k e, db.evidenceSubmissions.get? k = some e ∧ e.assignmentId = id ∧ e.version = n
      ∧ e.status.ofAssignment = a.status
  cancelled : a.status = .cancelled → n = 0 ∨ ∃ k e, db.evidenceSubmissions.get? k = some e
    ∧ e.assignmentId = id ∧ e.version = n ∧ e.status = .changesRequested

/-- A resolved dispute that awarded the tester names the submission. -/
def Db.awarded (db : Db) (submissionId : Uuid) : Prop :=
  ∃ i d, db.disputes.get? i = some d ∧ d.submissionId = some submissionId
    ∧ d.status = .resolved ∧ d.remedy = some .awardTester

/-- The submissions and reviews of a database. -/
structure SubmissionHistory (db : Db) : Prop where
  inStep : ∀ id a, db.assignments.get? id = some a → ∃ n, HistoryInStep db id a n
  reviewedOnce : ∀ i j r r', db.reviews.get? i = some r → db.reviews.get? j = some r' →
    r.submissionId = r'.submissionId → i = j
  reviewed : ∀ i r, db.reviews.get? i = some r → ∃ e, db.evidenceSubmissions.get? r.submissionId = some e
    ∧ e.status ≠ .submitted
    ∧ (r.decision.submissionStatus = e.status ∨ db.awarded r.submissionId)

theorem latest_ofAssignment {status : AssignmentStatus} {v : SubmissionStatus}
    (hs : status ∈ submittedStatuses) (hl : status.latest = some v) : v.ofAssignment = status := by
  cases status with
  | applied => exact absurd hs (by simp [submittedStatuses])
  | accepted => exact absurd hs (by simp [submittedStatuses])
  | inProgress => exact absurd hs (by simp [submittedStatuses])
  | cancelled => exact absurd hs (by simp [submittedStatuses])
  | submitted => obtain rfl := Option.some.inj hl; rfl
  | changesRequested => obtain rfl := Option.some.inj hl; rfl
  | approved => obtain rfl := Option.some.inj hl; rfl
  | rejected => obtain rfl := Option.some.inj hl; rfl

theorem InStep.history {db : Db} {id : Uuid} {a : Assignment}
    (h : InStep db.evidenceSubmissions id a.status) :
    HistoryInStep db id a (latestIn db.evidenceSubmissions id) where
  versions := h.versions
  earlier := h.earlier
  none := by
    intro hs
    by_cases hn : latestIn db.evidenceSubmissions id = 0
    · exact hn
    · obtain ⟨k, e, he, hof, hv⟩ :=
        h.exists_version (v := latestIn db.evidenceSubmissions id) ⟨by omega, Nat.le_refl _⟩
      have hl := h.latest k e he hof hv
      rcases hs with hs | hs | hs <;> (rw [hs] at hl; simp [AssignmentStatus.latest] at hl)
  latest := by
    intro hs
    have hm : a.status ∈ submittedStatuses := by
      rcases hs with hs | hs | hs | hs <;> simp [hs, submittedStatuses]
    have hn := h.submitted hm
    obtain ⟨k, e, he, hof, hv⟩ := h.exists_version ⟨hn, Nat.le_refl _⟩
    exact ⟨hn, k, e, he, hof, hv, latest_ofAssignment hm (h.latest k e he hof hv)⟩
  cancelled := by
    intro hs
    by_cases hn : latestIn db.evidenceSubmissions id = 0
    · exact Or.inl hn
    · obtain ⟨k, e, he, hof, hv⟩ :=
        h.exists_version (v := latestIn db.evidenceSubmissions id) ⟨by omega, Nat.le_refl _⟩
      have hl := h.latest k e he hof hv
      rw [hs] at hl
      exact Or.inr ⟨k, e, he, hof, hv, (Option.some.inj hl).symm⟩

/--
**Assignments and submissions stay in step.** In every reachable database the
versions of an assignment count up from one, all but the last were sent back,
the last agrees with the assignment, and a review agrees with the submission it
decided unless a moderator awarded the tester.
-/
theorem submission_history (settings : Settings) (s : Service) (h : Reachable settings s) :
    SubmissionHistory s.db := by
  have hpossible := reachable_possible h
  have hreviews := reviewInv_possible hpossible
  exact ⟨fun id a ha => ⟨_, ((caseInv_possible hpossible).inStep id a ha).history⟩, hreviews.once,
    hreviews.reviewed⟩

set_option maxRecDepth 4000 in
theorem submission_history_bench :
    (benchService.db.evidenceSubmissions.rows.map fun r => r.2.status) = [.approved, .approved]
      ∧ SubmissionHistory benchService.db :=
  ⟨by decide +kernel, submission_history benchSettings benchService benchService_reachable⟩

end TestExchange
