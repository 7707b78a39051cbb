import TestExchange.Proof.Submissions

/-!
# Assignments, submissions and disputes

One invariant ties the three together, since each part of it needs the others: a
verdict keeps an assignment in step with its submissions only because it is about
the latest one, and that is known from the dispute; a dispute is about the latest
submission only because the assignment was in step when it was opened.
-/

namespace TestExchange

open Txn Exchange

/-- The statuses of an assignment and its disputed submission while a moderator is needed. -/
def Escalated (a : AssignmentStatus) (e : SubmissionStatus) : Prop :=
  (a = .submitted ∧ e = .submitted) ∨ (a = .rejected ∧ e = .rejected)

/-- What the status of a dispute says about it, the assignment and the disputed submission. -/
def Dispute.Phase (d : Dispute) (a : AssignmentStatus) (e : SubmissionStatus) : Prop :=
  match d.status with
  | .open => d.assignedTo = none ∧ d.remedy = none ∧ d.resolvedBy = none ∧ Escalated a e
  | .underReview => d.assignedTo ≠ none ∧ d.remedy = none ∧ d.resolvedBy = none ∧ Escalated a e
  | .resolved | .rejected =>
      d.assignedTo ≠ none ∧ d.resolvedBy = d.assignedTo ∧
        if d.remedy = some .awardTester then a = .approved ∧ e = .approved
        else a = .rejected ∧ e = .rejected

/-- A dispute with the assignment `a` and the submission `e`, under `k`, that it is about. -/
structure Disputed (s : Exchange) (d : Dispute) (a : Assignment) (k : Uuid)
    (e : EvidenceSubmission) : Prop where
  ha : s.assignments.get? d.assignmentId = some a
  openedBy : d.openedBy = a.testerId
  submission : d.submissionId = some k
  he : s.evidenceSubmissions.get? k = some e
  hof : e.assignmentId = d.assignmentId
  latest : e.version = latestIn s.evidenceSubmissions d.assignmentId
  phase : d.Phase a.status e.status

/-- **The invariant of casework.** -/
structure CaseInv (s : Exchange) : Prop where
  /-- Every assignment is in step with its submissions. -/
  inStep : ∀ id a, s.assignments.get? id = some a → InStep s.evidenceSubmissions id a.status
  /-- Every submission belongs to an assignment. -/
  owned : ∀ k e, s.evidenceSubmissions.get? k = some e →
    ∃ a, s.assignments.get? e.assignmentId = some a
  /-- Every dispute is about the latest submission of its assignment. -/
  disputed : ∀ i d, s.disputes.get? i = some d → ∃ a k e, Disputed s d a k e
  /-- No assignment has two disputes. -/
  once : ∀ i j d d', s.disputes.get? i = some d → s.disputes.get? j = some d' →
    d.assignmentId = d'.assignmentId → i = j

theorem caseInv_empty : CaseInv Exchange.empty where
  inStep := fun id a h => absurd h (by simp [Exchange.empty, Db.exchange, Db.empty])
  owned := fun k e h => absurd h (by simp [Exchange.empty, Db.exchange, Db.empty])
  disputed := fun i d h => absurd h (by simp [Exchange.empty, Db.exchange, Db.empty])
  once := fun i j d d' h => absurd h (by simp [Exchange.empty, Db.exchange, Db.empty])

variable {s s' : Exchange} {id k : Uuid} {a : Assignment} {e : EvidenceSubmission}

/-- A change elsewhere. -/
theorem CaseInv.congr (h : CaseInv s) (ha : s'.assignments = s.assignments)
    (he : s'.evidenceSubmissions = s.evidenceSubmissions) (hd : s'.disputes = s.disputes) :
    CaseInv s' where
  inStep := by rw [ha, he]; exact h.inStep
  owned := by rw [ha, he]; exact h.owned
  disputed := by
    intro i d hi
    rw [hd] at hi
    obtain ⟨a, k, e, hc⟩ := h.disputed i d hi
    exact ⟨a, k, e, ha ▸ hc.ha, hc.openedBy, hc.submission, he ▸ hc.he, hc.hof, he ▸ hc.latest,
      hc.phase⟩
  once := by rw [hd]; exact h.once

theorem CaseInv.record (h : CaseInv s) (ev : AuditEvent) : CaseInv (s.record ev) :=
  h.congr rfl rfl rfl

/-! ## What a dispute says about statuses -/

theorem Dispute.Phase.status {d : Dispute} {x : AssignmentStatus} {y : SubmissionStatus}
    (h : d.Phase x y) :
    (x = .submitted ∧ y = .submitted) ∨ (x = .rejected ∧ y = .rejected)
      ∨ (x = .approved ∧ y = .approved) := by
  unfold Dispute.Phase at h
  split at h
  · rcases h.2.2.2 with h | h
    · exact Or.inl h
    · exact Or.inr (Or.inl h)
  · rcases h.2.2.2 with h | h
    · exact Or.inl h
    · exact Or.inr (Or.inl h)
  all_goals
    have h := h.2.2
    split at h
    · exact Or.inr (Or.inr h)
    · exact Or.inr (Or.inl h)

/-- An active dispute leaves the work submitted or rejected. -/
theorem Dispute.Phase.escalated {d : Dispute} {x : AssignmentStatus} {y : SubmissionStatus}
    (h : d.Phase x y) (hd : d.status ∈ activeDisputeStatuses) : Escalated x y := by
  unfold Dispute.Phase at h
  split at h
  · exact h.2.2.2
  · exact h.2.2.2
  all_goals
    rename_i hs
    rw [hs] at hd
    exact absurd hd (by simp [activeDisputeStatuses])

/-- Submitted work that is disputed has an active dispute. -/
theorem Dispute.Phase.active {d : Dispute} {y : SubmissionStatus} (h : d.Phase .submitted y) :
    d.status ∈ activeDisputeStatuses := by
  unfold Dispute.Phase at h
  split at h
  · rename_i hs
    simp [hs, activeDisputeStatuses]
  · rename_i hs
    simp [hs, activeDisputeStatuses]
  all_goals
    have h := h.2.2
    split at h
    · exact absurd h.1 (by simp)
    · exact absurd h.1 (by simp)

/-- A disputed submission without a verdict has an active dispute. -/
theorem Dispute.Phase.active_of {d : Dispute} {x : AssignmentStatus} {y : SubmissionStatus}
    (h : d.Phase x y) (hy : y = .submitted) : d.status ∈ activeDisputeStatuses := by
  rcases h.status with ⟨rfl, _⟩ | ⟨_, hy'⟩ | ⟨_, hy'⟩
  · exact h.active
  · exact absurd (hy.symm.trans hy') (by simp)
  · exact absurd (hy.symm.trans hy') (by simp)

/-! ## Steps of an assignment that touch no submission -/

/-- Statuses in which nothing is in dispute and nothing waits for a verdict. -/
def quietStatuses : List AssignmentStatus := [.applied, .accepted, .inProgress, .changesRequested]

/-- An assignment in a quiet status has no dispute. -/
theorem CaseInv.no_dispute (h : CaseInv s) (ha : s.assignments.get? id = some a)
    (hq : a.status ∈ quietStatuses) {i : Uuid} {d : Dispute} (hd : s.disputes.get? i = some d) :
    d.assignmentId ≠ id := by
  rintro rfl
  obtain ⟨a', k, e, hc⟩ := h.disputed i d hd
  obtain rfl := Option.some.inj (ha.symm.trans hc.ha)
  rcases hc.phase.status with hs | hs | hs <;> (rw [hs.1] at hq; simp [quietStatuses] at hq)

/-- A dispute about another assignment does not see what happens to this one. -/
theorem Disputed.frame {d : Dispute} {x : Assignment} {j : Uuid} {y : EvidenceSubmission}
    (h : Disputed s d x j y) (ha : s'.assignments.get? d.assignmentId = some x)
    (he : s'.evidenceSubmissions.get? j = some y)
    (hl : latestIn s'.evidenceSubmissions d.assignmentId = latestIn s.evidenceSubmissions d.assignmentId) :
    Disputed s' d x j y :=
  ⟨ha, h.openedBy, h.submission, he, h.hof, by rw [hl]; exact h.latest, h.phase⟩

theorem CaseInv.move (h : CaseInv s) (ha : s.assignments.get? id = some a)
    (hq : a.status ∈ quietStatuses) {f : Assignment → Assignment}
    (hl : ∀ v, a.status.latest = some v → (f a).status.latest = some v)
    (hs : (f a).status ∈ submittedStatuses → a.status ∈ submittedStatuses) :
    CaseInv (s.modifyAssignment id f) where
  inStep := by
    intro i b hb
    rcases Table.get?_modify_cases hb with ⟨rfl, a', ha', rfl⟩ | ⟨_, hb⟩
    · obtain rfl := Option.some.inj (ha.symm.trans ha')
      exact (h.inStep _ a ha).move hl hs
    · exact h.inStep i b hb
  owned := by
    intro k e he
    obtain ⟨b, hb⟩ := h.owned k e he
    exact Table.exists_get?_modify hb
  disputed := by
    intro i d hd
    obtain ⟨b, k, e, hc⟩ := h.disputed i d hd
    have hne := h.no_dispute ha hq hd
    exact ⟨b, k, e, hc.frame ((Table.get?_modify_ne hne).trans hc.ha) hc.he rfl⟩
  once := h.once

theorem CaseInv.apply (h : CaseInv s) (hnew : s.assignments.get? id = none)
    (happlied : a.status = .applied) :
    CaseInv { s with assignments := s.assignments.insert id a } where
  inStep := by
    intro i b hb
    rcases Table.get?_insert_cases hb with hb | ⟨rfl, rfl, _⟩
    · exact h.inStep i b hb
    · refine inStep_none ?_ (by simp [happlied, submittedStatuses])
      intro k e he hof
      obtain ⟨c, hc⟩ := h.owned k e he
      rw [hof, hnew] at hc
      exact absurd hc (by simp)
  owned := by
    intro k e he
    obtain ⟨b, hb⟩ := h.owned k e he
    exact ⟨b, Table.get?_insert_of_some hb⟩
  disputed := by
    intro i d hd
    obtain ⟨b, k, e, hc⟩ := h.disputed i d hd
    exact ⟨b, k, e, hc.frame (Table.get?_insert_of_some hc.ha) hc.he rfl⟩
  once := h.once

/-! ## Submitting -/

theorem CaseInv.submit (h : CaseInv s) (ha : s.assignments.get? id = some a)
    (hstatus : a.status ∈ [AssignmentStatus.inProgress, .changesRequested])
    (hnew : s.evidenceSubmissions.get? k = none) (hof : e.assignmentId = id)
    (hversion : e.version = latestIn s.evidenceSubmissions id + 1) (hsub : e.status = .submitted)
    {f : Assignment → Assignment} (hf : (f a).status = .submitted) :
    CaseInv ({ s with evidenceSubmissions := s.evidenceSubmissions.insert k e }.modifyAssignment
      id f) := by
  have hq : a.status ∈ quietStatuses := by
    simp only [List.mem_cons, List.not_mem_nil, or_false] at hstatus
    rcases hstatus with hs | hs <;> simp [hs, quietStatuses]
  have hlatest : ∀ v, a.status.latest = some v → v = .changesRequested := by
    intro v hv
    simp only [List.mem_cons, List.not_mem_nil, or_false] at hstatus
    rcases hstatus with hs | hs
    · rw [hs] at hv; exact absurd hv (by simp [AssignmentStatus.latest])
    · rw [hs] at hv; exact (Option.some.inj hv).symm
  refine ⟨?_, ?_, ?_, h.once⟩
  · intro i b hb
    rcases Table.get?_modify_cases hb with ⟨rfl, a', ha', rfl⟩ | ⟨hne, hb⟩
    · obtain rfl := Option.some.inj (ha.symm.trans ha')
      rw [hf]
      exact (h.inStep _ a ha).submit hnew hof hversion hsub hlatest
    · exact (h.inStep i b hb).insert_ne hnew (fun heq => hne (heq.symm.trans hof))
  · intro j g hg
    have hex : ∃ b, s.assignments.get? g.assignmentId = some b := by
      rcases Table.get?_insert_cases hg with hg | ⟨_, rfl, _⟩
      · exact h.owned j g hg
      · exact ⟨a, hof ▸ ha⟩
    obtain ⟨b, hb⟩ := hex
    exact Table.exists_get?_modify hb
  · intro i d hd
    obtain ⟨b, j, g, hc⟩ := h.disputed i d hd
    have hne := h.no_dispute ha hq hd
    exact ⟨b, j, g, hc.frame ((Table.get?_modify_ne hne).trans hc.ha)
      (Table.get?_insert_of_some hc.he)
      (latestIn_insert_ne hnew fun heq => hne (heq.symm.trans hof))⟩

/-! ## Verdicts -/

/-- A verdict on the latest submission `e` of the assignment `a`, and nothing else in casework. -/
structure Verdict (s s' : Exchange) (id : Uuid) (a : Assignment) (k : Uuid) (e : EvidenceSubmission)
    (fa : Assignment → Assignment) (fe : EvidenceSubmission → EvidenceSubmission) : Prop where
  ha : s.assignments.get? id = some a
  he : s.evidenceSubmissions.get? k = some e
  hof : e.assignmentId = id
  latest : e.version = latestIn s.evidenceSubmissions id
  assignments : s'.assignments = s.assignments.modify id fa
  submissions : s'.evidenceSubmissions = s.evidenceSubmissions.modify k fe
  keeps : ∀ e, (fe e).assignmentId = e.assignmentId ∧ (fe e).version = e.version
  tester : ∀ a, (fa a).testerId = a.testerId
  agrees : (fa a).status.latest = some (fe e).status

variable {fa : Assignment → Assignment} {fe : EvidenceSubmission → EvidenceSubmission}

theorem Verdict.get_assignment (v : Verdict s s' id a k e fa fe) :
    s'.assignments.get? id = some (fa a) := by
  rw [v.assignments, Table.get?_modify_self, v.ha]
  rfl

theorem Verdict.get_submission (v : Verdict s s' id a k e fa fe) :
    s'.evidenceSubmissions.get? k = some (fe e) := by
  rw [v.submissions, Table.get?_modify_self, v.he]
  rfl

theorem Verdict.latestIn_eq (v : Verdict s s' id a k e fa fe) (i : Uuid) :
    latestIn s'.evidenceSubmissions i = latestIn s.evidenceSubmissions i := by
  rw [v.submissions, latestIn_modify v.keeps]

/-- What is recorded besides a verdict does not matter. -/
theorem Verdict.congr {s'' : Exchange} (v : Verdict s s' id a k e fa fe)
    (ha : s''.assignments = s'.assignments)
    (hs : s''.evidenceSubmissions = s'.evidenceSubmissions) : Verdict s s'' id a k e fa fe :=
  ⟨v.ha, v.he, v.hof, v.latest, ha.trans v.assignments, hs.trans v.submissions, v.keeps, v.tester,
    v.agrees⟩

/-- Disputes about other assignments are as before. -/
theorem Verdict.disputed_ne (v : Verdict s s' id a k e fa fe) {d : Dispute} {x : Assignment}
    {j : Uuid} {y : EvidenceSubmission} (hc : Disputed s d x j y) (hne : d.assignmentId ≠ id) :
    Disputed s' d x j y := by
  refine hc.frame ?_ ?_ (v.latestIn_eq _)
  · rw [v.assignments, Table.get?_modify_ne hne]
    exact hc.ha
  · have hjk : j ≠ k := by
      rintro rfl
      obtain rfl := Option.some.inj (v.he.symm.trans hc.he)
      exact hne (hc.hof.symm.trans v.hof)
    rw [v.submissions, Table.get?_modify_ne hjk]
    exact hc.he

/-- **A verdict keeps the invariant, if the disputes it concerns are in their new phase.** -/
theorem CaseInv.verdict (h : CaseInv s) (v : Verdict s s' id a k e fa fe)
    (hdisputed : ∀ i d, s'.disputes.get? i = some d → ∃ x j y, Disputed s' d x j y)
    (honce : ∀ i j d d', s'.disputes.get? i = some d → s'.disputes.get? j = some d' →
      d.assignmentId = d'.assignmentId → i = j) : CaseInv s' where
  inStep := by
    intro i b hb
    rw [v.assignments] at hb
    rw [v.submissions]
    rcases Table.get?_modify_cases hb with ⟨rfl, a', ha', rfl⟩ | ⟨hne, hb⟩
    · obtain rfl := Option.some.inj (v.ha.symm.trans ha')
      exact (h.inStep _ a v.ha).verdict v.keeps v.he v.hof v.latest v.agrees
    · exact (h.inStep i b hb).modify_ne v.keeps v.he (fun heq => hne (heq.symm.trans v.hof))
  owned := by
    intro j g hg
    rw [v.submissions] at hg
    have hex : ∃ b, s.assignments.get? g.assignmentId = some b := by
      rcases Table.get?_modify_cases hg with ⟨rfl, g', hg', rfl⟩ | ⟨_, hg⟩
      · rw [(v.keeps g').1]
        exact h.owned _ g' hg'
      · exact h.owned j g hg
    obtain ⟨b, hb⟩ := hex
    rw [v.assignments]
    exact Table.exists_get?_modify hb
  disputed := hdisputed
  once := honce

/-! ## Disputes -/

theorem once_modify {t : Table Dispute} {i₀ : Uuid} {f : Dispute → Dispute}
    (hf : ∀ d, (f d).assignmentId = d.assignmentId)
    (h : ∀ i j d d', t.get? i = some d → t.get? j = some d' →
      d.assignmentId = d'.assignmentId → i = j) :
    ∀ i j d d', (t.modify i₀ f).get? i = some d → (t.modify i₀ f).get? j = some d' →
      d.assignmentId = d'.assignmentId → i = j := by
  have hold : ∀ i d, (t.modify i₀ f).get? i = some d →
      ∃ d₀, t.get? i = some d₀ ∧ d.assignmentId = d₀.assignmentId := by
    intro i d hd
    rcases Table.get?_modify_cases hd with ⟨rfl, d₀, hd₀, rfl⟩ | ⟨_, hd⟩
    · exact ⟨d₀, hd₀, hf d₀⟩
    · exact ⟨d, hd, rfl⟩
  intro i j d d' hd hd' hsame
  obtain ⟨d₀, hd₀, h₀⟩ := hold i d hd
  obtain ⟨d₁, hd₁, h₁⟩ := hold j d' hd'
  exact h i j d₀ d₁ hd₀ hd₁ (h₀.symm.trans (hsame.trans h₁))

/-- A dispute changes phase while its assignment and submission stay as they are. -/
theorem CaseInv.modifyDispute (h : CaseInv s) {i₀ : Uuid} {d₀ : Dispute} {f : Dispute → Dispute}
    (hd₀ : s.disputes.get? i₀ = some d₀)
    (hf : ∀ d, (f d).assignmentId = d.assignmentId ∧ (f d).openedBy = d.openedBy
      ∧ (f d).submissionId = d.submissionId)
    (hphase : ∀ x y, d₀.Phase x y → (∃ k e, Disputed s d₀ a k e ∧ x = a.status ∧ y = e.status) →
      (f d₀).Phase x y)
    (ha : s.assignments.get? d₀.assignmentId = some a) : CaseInv (s.modifyDispute i₀ f) where
  inStep := h.inStep
  owned := h.owned
  disputed := by
    intro i d hd
    rcases Table.get?_modify_cases hd with ⟨rfl, d', hd', rfl⟩ | ⟨_, hd⟩
    · obtain rfl := Option.some.inj (hd₀.symm.trans hd')
      obtain ⟨b, k, e, hc⟩ := h.disputed _ d₀ hd₀
      obtain rfl := Option.some.inj (ha.symm.trans hc.ha)
      obtain ⟨h₁, h₂, h₃⟩ := hf d₀
      refine ⟨a, k, e, ?_, ?_, ?_, hc.he, ?_, ?_, hphase _ _ hc.phase ⟨k, e, hc, rfl, rfl⟩⟩
      · rw [h₁]; exact hc.ha
      · rw [h₂]; exact hc.openedBy
      · rw [h₃]; exact hc.submission
      · rw [h₁]; exact hc.hof
      · rw [h₁]; exact hc.latest
    · obtain ⟨b, k, e, hc⟩ := h.disputed i d hd
      exact ⟨b, k, e, hc.ha, hc.openedBy, hc.submission, hc.he, hc.hof, hc.latest, hc.phase⟩
  once := once_modify (fun d => (hf d).1) h.once

/-- **The decision of a dispute, together with its verdict.** -/
theorem CaseInv.decided (h : CaseInv s) {i₀ : Uuid} {d₀ : Dispute} {f : Dispute → Dispute}
    (v : Verdict s s' d₀.assignmentId a k e fa fe) (hd₀ : s.disputes.get? i₀ = some d₀)
    (hdisputes : s'.disputes = s.disputes.modify i₀ f)
    (hf : ∀ d, (f d).assignmentId = d.assignmentId ∧ (f d).openedBy = d.openedBy
      ∧ (f d).submissionId = d.submissionId)
    (hsub : d₀.submissionId = some k) (hopened : d₀.openedBy = a.testerId)
    (hphase : (f d₀).Phase (fa a).status (fe e).status) : CaseInv s' := by
  refine h.verdict v ?_ ?_
  · intro i d hd
    rw [hdisputes] at hd
    rcases Table.get?_modify_cases hd with ⟨rfl, d', hd', rfl⟩ | ⟨hne, hd⟩
    · obtain rfl := Option.some.inj (hd₀.symm.trans hd')
      obtain ⟨h₁, h₂, h₃⟩ := hf d₀
      refine ⟨fa a, k, fe e, ?_, ?_, ?_, v.get_submission, ?_, ?_, hphase⟩
      · rw [h₁]; exact v.get_assignment
      · rw [h₂, v.tester]; exact hopened
      · rw [h₃]; exact hsub
      · rw [h₁, (v.keeps e).1]; exact v.hof
      · rw [h₁, (v.keeps e).2, v.latestIn_eq]; exact v.latest
    · obtain ⟨x, j, y, hc⟩ := h.disputed i d hd
      refine ⟨x, j, y, v.disputed_ne hc fun hsame => hne (h.once i i₀ d d₀ hd hd₀ hsame)⟩
  · rw [hdisputes]
    exact once_modify (fun d => (hf d).1) h.once

/-- Work that waits for a review has no dispute, if it has no active one. -/
theorem CaseInv.undisputed (h : CaseInv s) (ha : s.assignments.get? id = some a)
    (hsubmitted : a.status = .submitted)
    (hcalm : ∀ i d, s.disputes.get? i = some d → d.assignmentId = id →
      d.status ∉ activeDisputeStatuses) {i : Uuid} {d : Dispute}
    (hd : s.disputes.get? i = some d) : d.assignmentId ≠ id := by
  rintro rfl
  obtain ⟨a', k, e, hc⟩ := h.disputed i d hd
  obtain rfl := Option.some.inj (ha.symm.trans hc.ha)
  have hphase := hc.phase
  rw [hsubmitted] at hphase
  exact hcalm i d hd rfl hphase.active

theorem Exchange.UnderReviewBy.active {i m : Uuid} {d : Dispute} (h : UnderReviewBy s i m d a) :
    d.status ∈ activeDisputeStatuses := by
  simp [h.underReview, activeDisputeStatuses]

/-- A case under review: its parts, and that a moderator is needed. -/
theorem CaseInv.underReview (h : CaseInv s) {i m : Uuid} {d : Dispute}
    (hcase : UnderReviewBy s i m d a) :
    ∃ k e, Disputed s d a k e ∧ Escalated a.status e.status := by
  obtain ⟨a', k, e, hc⟩ := h.disputed i d hcase.hd
  obtain rfl := Option.some.inj (hcase.ha.symm.trans hc.ha)
  exact ⟨k, e, hc, hc.phase.escalated hcase.active⟩

/-- A review, paid or not, is a verdict. -/
theorem review_verdict (h : CaseInv s) {now : Time} {decision : ReviewDecision} {s₁ : Exchange}
    {rs : Table Review}
    (ha : s.assignments.get? id = some a) (he : s.evidenceSubmissions.get? k = some e)
    (hof : e.assignmentId = id) (hpending : e.status ≠ .changesRequested)
    (hs₁ : s₁ = { s with reviews := rs }.reviewed k id now decision)
    (hassignments : s'.assignments = s₁.assignments)
    (hsubmissions : s'.evidenceSubmissions = s₁.evidenceSubmissions) :
    Verdict s s' id a k e (decision.conclude now)
      fun e => { e with status := decision.submissionStatus } where
  ha := ha
  he := he
  hof := hof
  latest := (h.inStep id a ha).is_latest he hof hpending
  assignments := by rw [hassignments, hs₁]; rfl
  submissions := by rw [hsubmissions, hs₁]; rfl
  keeps := fun e => ⟨rfl, rfl⟩
  tester := fun a => rfl
  agrees := by cases decision <;> rfl

/-- A case under review, with the submission the decision is about. -/
theorem CaseInv.underReview_of (h : CaseInv s) {i m : Uuid} {d : Dispute}
    (hcase : UnderReviewBy s i m d a) (hsub : d.submissionId = some k)
    (he : s.evidenceSubmissions.get? k = some e) :
    Disputed s d a k e ∧ Escalated a.status e.status := by
  obtain ⟨k', e', hdis, hescalated⟩ := h.underReview hcase
  obtain rfl : k = k' := Option.some.inj (hsub.symm.trans hdis.submission)
  obtain rfl := Option.some.inj (he.symm.trans hdis.he)
  exact ⟨hdis, hescalated⟩

/-- An award is a verdict. -/
theorem award_verdict (h : CaseInv s) {i m : Uuid} {d : Dispute} {now : Time}
    {change : CreditChange} (hcase : UnderReviewBy s i m d a) (hsub : d.submissionId = some k)
    (he : s.evidenceSubmissions.get? k = some e) (hof : e.assignmentId = d.assignmentId)
    (hpay : Credited change (s.reviewed k d.assignmentId now .approved) s') :
    Verdict s s' d.assignmentId a k e (ReviewDecision.conclude .approved now)
      fun e => { e with status := .approved } := by
  obtain ⟨_, hescalated⟩ := h.underReview_of hcase hsub he
  obtain ⟨_, _, has, hes, _⟩ := hpay.frame
  have hpending : e.status ≠ .changesRequested := by
    rcases hescalated with hs | hs <;> simp [hs.2]
  exact @review_verdict s s' _ k a e h now .approved _ s.reviews hcase.ha he hof hpending rfl has hes

/-- The rejection of an overdue submission is a verdict. -/
theorem overdue_verdict (h : CaseInv s) (now : Time) {i m : Uuid} {d : Dispute}
    (hcase : UnderReviewBy s i m d a) (hsub : d.submissionId = some k)
    (he : s.evidenceSubmissions.get? k = some e) (hof : e.assignmentId = d.assignmentId) :
    Verdict s
      ((s.modifySubmission k fun e => { e with status := .rejected }).modifyAssignment d.assignmentId
        fun a => { a with status := .rejected, completedAt := some now })
      d.assignmentId a k e (fun a => { a with status := .rejected, completedAt := some now })
      fun e => { e with status := .rejected } :=
  ⟨hcase.ha, he, hof, (h.underReview_of hcase hsub he).1.latest, rfl, rfl, fun _ => ⟨rfl, rfl⟩,
    fun _ => rfl, rfl⟩

/-- What a decision makes of a dispute under review. -/
def settled (payload : DisputeResolve) (moderatorId : Uuid) (at' : Time) (d : Dispute) : Dispute :=
  { d with
    status := payload.outcome.status, resolution := some payload.resolution,
    remedy := some payload.remedy, resolvedBy := some moderatorId, resolvedAt := some at' }

theorem settled_phase {payload : DisputeResolve} {m : Uuid} {at' : Time} {d : Dispute}
    {x : AssignmentStatus} {y : SubmissionStatus} (hassigned : d.assignedTo = some m)
    (hxy : if payload.remedy = .awardTester then x = .approved ∧ y = .approved
      else x = .rejected ∧ y = .rejected) : (settled payload m at' d).Phase x y := by
  have hmain : (settled payload m at' d).assignedTo ≠ none
      ∧ (settled payload m at' d).resolvedBy = (settled payload m at' d).assignedTo
      ∧ if (settled payload m at' d).remedy = some .awardTester then x = .approved ∧ y = .approved
        else x = .rejected ∧ y = .rejected := by
    refine ⟨by simp [settled, hassigned], by simp [settled, hassigned], ?_⟩
    simpa [settled] using hxy
  unfold Dispute.Phase
  cases ho : payload.outcome with
  | resolved => simpa [settled, ho, DisputeOutcome.status] using hmain
  | rejected => simpa [settled, ho, DisputeOutcome.status] using hmain

/-- **The invariant of casework is preserved by every step.** -/
theorem caseInv_step (g : Nat) (s : Exchange) (x : Action) (s' : Exchange) (h : CaseInv s)
    (hs : Step g s x s') : CaseInv s' := by
  cases hs with
  | addProfile hnew hgrant =>
      obtain ⟨_, _, ha, he, _, hd, _⟩ := paid_frame hgrant
      exact h.congr ha he hd
  | editProfile he => exact h.congr rfl rfl rfl
  | note he => exact h.congr rfl rfl rfl
  | openAccount => exact h.congr rfl rfl rfl
  | createCampaign hnew hdraft => exact h.congr rfl rfl rfl
  | editCampaign hc hdraft => exact h.congr rfl rfl rfl
  | publish hc hdraft hspend =>
      obtain ⟨_, _, ha, he, _, hd, _⟩ := hspend.frame
      exact h.congr ha he hd
  | transition hc hfrom hroom => exact h.congr rfl rfl rfl
  | complete hc hstatus => exact h.congr rfl rfl rfl
  | apply hnew hc hpublished howner hfirst hroom => exact (h.apply hnew rfl).record _
  | accept ha happlied hc hpublished hroom =>
      refine CaseInv.record (h.move ha ?_ ?_ ?_) _
      · simp [happlied, quietStatuses]
      · simp [happlied, AssignmentStatus.latest]
      · simp [submittedStatuses]
  | decline ha happlied =>
      refine CaseInv.record (h.move ha ?_ ?_ ?_) _
      · simp [happlied, quietStatuses]
      · simp [happlied, AssignmentStatus.latest]
      · simp [submittedStatuses]
  | withdraw ha hstatus =>
      refine CaseInv.record (h.move ha hstatus ?_ ?_) _
      · intro v hv
        simp only [List.mem_cons, List.not_mem_nil, or_false] at hstatus
        rcases hstatus with hs | hs | hs | hs <;> (rw [hs] at hv; simp_all [AssignmentStatus.latest])
      · simp [submittedStatuses]
  | start ha haccepted =>
      refine CaseInv.record (h.move ha ?_ ?_ ?_) _
      · simp [haccepted, quietStatuses]
      · simp [haccepted, AssignmentStatus.latest]
      · simp [submittedStatuses]
  | submit ha hstatus hnew hof hversion hsubmitted =>
      rw [latestVersion_eq] at hversion
      exact CaseInv.record (h.submit ha hstatus hnew hof hversion hsubmitted rfl) _
  | review he hof ha hc hcalm hpending hawaiting hnew hfirst hsub hby hpay =>
      obtain ⟨_, _, has, hes, _, hds, _⟩ := paid_frame hpay
      -- a calm case: the disputes there are concern other assignments
      have v := review_verdict h ha he hof (by simp [hpending]) rfl has hes
      refine CaseInv.record (h.verdict v ?_ ?_) _
      · intro i d hd
        rw [hds] at hd
        obtain ⟨x, j, y, hdis⟩ := h.disputed i d hd
        exact ⟨x, j, y, v.disputed_ne hdis (h.undisputed ha hawaiting hcalm hd)⟩
      · rw [hds]
        exact h.once
  | @openDispute i k a e d hnew ha hby he hsub hof hstatus honce hopen hfresh =>
      have hpending : e.status ≠ .changesRequested := by
        rcases hstatus with hs | hs <;> simp [hs.2]
      -- the disputed submission is the latest, so the assignment stays with it
      have hlatest := (h.inStep _ a ha).is_latest he hof hpending
      have hphase : d.Phase a.status e.status := by
        unfold Dispute.Phase
        rw [hopen]
        exact ⟨hfresh.1, hfresh.2.1, hfresh.2.2, hstatus⟩
      -- at most one dispute for each assignment, since there was none for this one
      refine ⟨h.inStep, h.owned, ?_, ?_⟩
      · intro j d' hd'
        rcases Table.get?_insert_cases hd' with hd' | ⟨_, rfl, _⟩
        · obtain ⟨x, k', y, hc⟩ := h.disputed j d' hd'
          exact ⟨x, k', y, hc.frame hc.ha hc.he rfl⟩
        · exact ⟨a, k, e, ha, hby, hsub, he, hof, hlatest, hphase⟩
      · intro j j' d₁ d₂ h₁ h₂ hsame
        rcases Table.get?_insert_cases h₁ with hold₁ | ⟨rfl, rfl, _⟩
        · rcases Table.get?_insert_cases h₂ with hold₂ | ⟨_, rfl, _⟩
          · exact h.once j j' d₁ d₂ hold₁ hold₂ hsame
          · exact absurd hsame (honce j d₁ hold₁)
        · rcases Table.get?_insert_cases h₂ with hold₂ | ⟨rfl, _, _⟩
          · exact absurd hsame.symm (honce j' d₂ hold₂)
          · rfl
  | @claim i m d now hd hopen =>
      obtain ⟨a, k, e, hc⟩ := h.disputed i d hd
      refine (h.modifyDispute (f := fun d => { d with
        status := .underReview, assignedTo := some m, assignedAt := some now }) hd
        (fun d => ⟨rfl, rfl, rfl⟩) ?_ hc.ha).record _
      intro x y hphase _
      -- claiming leaves the escalated work as it is
      unfold Dispute.Phase at hphase ⊢
      rw [hopen] at hphase
      exact ⟨by simp, hphase.2.1, hphase.2.2.1, hphase.2.2.2⟩
  | @award s₁ i m k d a e c payload note now at' hcase hremedy houtcome hstatus hsub he hof hc
      hpay =>
      obtain ⟨hdis, _⟩ := h.underReview_of hcase hsub he
      obtain ⟨_, _, _, _, _, hds, _⟩ := hpay.frame
      -- the award decides the disputed submission together with its assignment
      have v := award_verdict h hcase hsub he hof hpay
      have hphase : (settled payload m at' d).Phase .approved .approved :=
        settled_phase hcase.assigned (by simp [hremedy])
      exact h.decided (f := settled payload m at') (v.congr rfl rfl) hcase.hd
        (congrArg (Table.modify · i (settled payload m at')) hds) (fun d => ⟨rfl, rfl, rfl⟩) hsub
        hdis.openedBy hphase
  | @rejectOverdue i m k d a e payload now at' hcase hremedy houtcome hstatus hsub he hof =>
      obtain ⟨hdis, _⟩ := h.underReview_of hcase hsub he
      have hphase : (settled payload m at' d).Phase .rejected .rejected :=
        settled_phase hcase.assigned (by simp [hremedy])
      have v := overdue_verdict h now hcase hsub he hof
      exact h.decided (f := settled payload m at') (v.congr rfl rfl) hcase.hd rfl
        (fun d => ⟨rfl, rfl, rfl⟩) hsub hdis.openedBy hphase
  | @uphold i m d a payload at' hcase hremedy hstatus =>
      obtain ⟨k, e, hdis, hescalated⟩ := h.underReview hcase
      refine (h.modifyDispute (f := settled payload m at') hcase.hd (fun d => ⟨rfl, rfl, rfl⟩) ?_
        hcase.ha).record _
      intro x y hphase hxy
      -- an upheld dispute is about rejected work, which stays rejected
      rcases hphase.escalated hcase.active with hs | hs
      · obtain ⟨_, _, _, rfl, _⟩ := hxy
        exact absurd hs.1 hstatus
      · exact settled_phase hcase.assigned (by rw [if_neg hremedy]; exact hs)

/-- **Casework is in order in every possible marketplace.** -/
theorem caseInv_possible {g : Nat} {s : Exchange} (h : Possible g s) : CaseInv s :=
  h.invariant caseInv_empty (caseInv_step g)

end TestExchange
