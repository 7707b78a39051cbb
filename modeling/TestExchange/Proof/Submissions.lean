import TestExchange.Spec.Exchange

/-!
# The submissions of an assignment

An assignment keeps its status and its submissions keep theirs, in different
rows that no constraint ties together. `InStep` says how they belong together:
the versions count up from one, all but the last were sent back for changes, and
the last agrees with the assignment.

Everything here is about the table of submissions alone, so a step that does not
touch it keeps `InStep` for free.
-/

namespace TestExchange

open Txn

/-- The versions submitted for an assignment, in the order they came in. -/
def versionsIn (t : Table EvidenceSubmission) (id : Uuid) : List Nat :=
  (t.where' fun _ e => e.assignmentId = id).map fun r => r.2.version

/-- The highest version submitted for an assignment, or zero. -/
def latestIn (t : Table EvidenceSubmission) (id : Uuid) : Nat := (versionsIn t id).foldl max 0

theorem latestVersion_eq {s : Exchange} {id : Uuid} :
    s.latestVersion id = latestIn s.evidenceSubmissions id := by
  rw [latestIn, versionsIn, List.foldl_map]
  rfl

/-- The status of the latest submission that goes with the status of an assignment. -/
def AssignmentStatus.latest : AssignmentStatus → Option SubmissionStatus
  | .applied | .accepted | .inProgress => none
  | .submitted => some .submitted
  | .changesRequested | .cancelled => some .changesRequested
  | .approved => some .approved
  | .rejected => some .rejected

/-- Assignments for which something has been submitted. -/
def submittedStatuses : List AssignmentStatus :=
  [.submitted, .changesRequested, .approved, .rejected]

/-- **The submissions of an assignment are in step with its status.** -/
structure InStep (t : Table EvidenceSubmission) (id : Uuid) (status : AssignmentStatus) : Prop where
  /-- The versions are one, two, and so on. -/
  versions : versionsIn t id = List.range' 1 (latestIn t id)
  /-- All but the latest were sent back. -/
  earlier : ∀ k e, t.get? k = some e → e.assignmentId = id → e.version < latestIn t id →
    e.status = .changesRequested
  /-- The latest agrees with the assignment. -/
  latest : ∀ k e, t.get? k = some e → e.assignmentId = id → e.version = latestIn t id →
    status.latest = some e.status
  /-- There is one if the assignment says so. -/
  submitted : status ∈ submittedStatuses → 1 ≤ latestIn t id

variable {t : Table EvidenceSubmission} {id k : Uuid} {e : EvidenceSubmission}
  {status : AssignmentStatus}

theorem mem_versionsIn {v : Nat} :
    v ∈ versionsIn t id ↔ ∃ k e, t.get? k = some e ∧ e.assignmentId = id ∧ e.version = v := by
  unfold versionsIn
  simp only [List.mem_map, Prod.exists, Table.mem_where', decide_eq_true_eq, and_assoc]

theorem foldl_max_range' (n : Nat) : (List.range' 1 n).foldl max 0 = n := by
  induction n with
  | zero => rfl
  | succ n ih => rw [List.range'_concat, List.foldl_append, ih, List.foldl_cons, List.foldl_nil]; omega

theorem latestIn_of_versions {n : Nat} (h : versionsIn t id = List.range' 1 n) :
    latestIn t id = n := by
  rw [latestIn, h, foldl_max_range']

/-- An assignment nobody has submitted anything for. -/
theorem inStep_none (hnone : ∀ k e, t.get? k = some e → e.assignmentId ≠ id)
    (hstatus : status ∉ submittedStatuses) : InStep t id status := by
  have hv : versionsIn t id = List.range' 1 0 := by
    rw [List.range'_zero, List.eq_nil_iff_forall_not_mem]
    intro v hv
    obtain ⟨k, e, he, hof, _⟩ := mem_versionsIn.mp hv
    exact hnone k e he hof
  refine ⟨by rw [latestIn_of_versions hv]; exact hv, ?_, ?_, fun hs => absurd hs hstatus⟩
  · intro k e he hof
    exact absurd hof (hnone k e he)
  · intro k e he hof
    exact absurd hof (hnone k e he)

namespace InStep

theorem version_bounds (h : InStep t id status) (he : t.get? k = some e) (hof : e.assignmentId = id) :
    1 ≤ e.version ∧ e.version ≤ latestIn t id := by
  have hm : e.version ∈ versionsIn t id := mem_versionsIn.mpr ⟨k, e, he, hof, rfl⟩
  rw [h.versions, List.mem_range'_1] at hm
  omega

/-- Every version up to the latest is there. -/
theorem exists_version (h : InStep t id status) {v : Nat} (hv : 1 ≤ v ∧ v ≤ latestIn t id) :
    ∃ k e, t.get? k = some e ∧ e.assignmentId = id ∧ e.version = v := by
  rw [← mem_versionsIn, h.versions, List.mem_range'_1]
  omega

/-- No version is there twice. -/
theorem unique (h : InStep t id status) {j : Uuid} {f : EvidenceSubmission}
    (he : t.get? k = some e) (hof : e.assignmentId = id) (hf : t.get? j = some f)
    (hof' : f.assignmentId = id) (hv : e.version = f.version) : k = j := by
  have hnd : (versionsIn t id).Nodup := by
    rw [h.versions]
    exact List.nodup_range'
  have hke : (k, e) ∈ t.where' fun _ e => e.assignmentId = id :=
    Table.mem_where'.mpr ⟨he, by simpa using hof⟩
  have hjf : (j, f) ∈ t.where' fun _ e => e.assignmentId = id :=
    Table.mem_where'.mpr ⟨hf, by simpa using hof'⟩
  exact congrArg Prod.fst (List.inj_on_of_nodup_map hnd hke hjf hv)

/-- Whatever was not sent back is the latest. -/
theorem is_latest (h : InStep t id status) (he : t.get? k = some e) (hof : e.assignmentId = id)
    (hs : e.status ≠ .changesRequested) : e.version = latestIn t id := by
  have hb := h.version_bounds he hof
  by_cases hlt : e.version < latestIn t id
  · exact absurd (h.earlier k e he hof hlt) hs
  · omega

/-- The status of an assignment may move as long as the latest submission still agrees. -/
theorem move (h : InStep t id status) {status' : AssignmentStatus}
    (hl : ∀ v, status.latest = some v → status'.latest = some v)
    (hs : status' ∈ submittedStatuses → status ∈ submittedStatuses) : InStep t id status' where
  versions := h.versions
  earlier := h.earlier
  latest := fun k e he hof hv => hl _ (h.latest k e he hof hv)
  submitted := fun hm => h.submitted (hs hm)

end InStep

/-! ## Changes of the table -/

theorem versionsIn_modify {f : EvidenceSubmission → EvidenceSubmission}
    (hf : ∀ e, (f e).assignmentId = e.assignmentId ∧ (f e).version = e.version) :
    versionsIn (t.modify k f) id = versionsIn t id :=
  Table.map_where'_modify fun e _ => ⟨by rw [(hf e).1], (hf e).2⟩

theorem versionsIn_insert (h : t.get? k = none) :
    versionsIn (t.insert k e) id
      = versionsIn t id ++ if e.assignmentId = id then [e.version] else [] := by
  unfold versionsIn
  rw [Table.where'_insert h, List.map_append]
  by_cases he : e.assignmentId = id
  · simp [he]
  · simp [he]

theorem latestIn_modify {f : EvidenceSubmission → EvidenceSubmission}
    (hf : ∀ e, (f e).assignmentId = e.assignmentId ∧ (f e).version = e.version) :
    latestIn (t.modify k f) id = latestIn t id := by
  rw [latestIn, versionsIn_modify hf, latestIn]

theorem latestIn_insert_ne (h : t.get? k = none) (he : e.assignmentId ≠ id) :
    latestIn (t.insert k e) id = latestIn t id := by
  rw [latestIn, versionsIn_insert h, if_neg he, List.append_nil, latestIn]

namespace InStep

/-- A submission for another assignment does not matter. -/
theorem insert_ne (h : InStep t id status) (hk : t.get? k = none) (he : e.assignmentId ≠ id) :
    InStep (t.insert k e) id status := by
  have hl := latestIn_insert_ne hk he
  have hold : ∀ j f, (t.insert k e).get? j = some f → f.assignmentId = id → t.get? j = some f := by
    intro j f hf hof
    rcases Table.get?_insert_cases hf with hf | ⟨_, rfl, _⟩
    · exact hf
    · exact absurd hof he
  refine ⟨?_, ?_, ?_, ?_⟩
  · rw [versionsIn_insert hk, if_neg he, List.append_nil, hl]
    exact h.versions
  · intro j f hf hof hv
    rw [hl] at hv
    exact h.earlier j f (hold j f hf hof) hof hv
  · intro j f hf hof hv
    rw [hl] at hv
    exact h.latest j f (hold j f hf hof) hof hv
  · rw [hl]
    exact h.submitted

/-- **The next version may follow when nothing before it is left undecided.** -/
theorem submit (h : InStep t id status) (hk : t.get? k = none) (hof : e.assignmentId = id)
    (hv : e.version = latestIn t id + 1) (hs : e.status = .submitted)
    (hstatus : ∀ v, status.latest = some v → v = .changesRequested) :
    InStep (t.insert k e) id .submitted := by
  have hversions : versionsIn (t.insert k e) id = List.range' 1 (latestIn t id + 1) := by
    rw [versionsIn_insert hk, if_pos hof, h.versions, hv, List.range'_concat]
    congr 2
    omega
  have hl := latestIn_of_versions hversions
  refine ⟨by rw [hl]; exact hversions, ?_, ?_, fun _ => by omega⟩
  · intro j f hf hoff hlt
    rw [hl] at hlt
    rcases Table.get?_insert_cases hf with hf | ⟨_, rfl, _⟩
    · by_cases hlast : f.version = latestIn t id
      · exact hstatus _ (h.latest j f hf hoff hlast)
      · exact h.earlier j f hf hoff (by omega)
    · omega
  · intro j f hf hoff hlast
    rw [hl] at hlast
    rcases Table.get?_insert_cases hf with hf | ⟨_, rfl, _⟩
    · have := (h.version_bounds hf hoff).2
      omega
    · rw [hs]
      rfl

/-- A verdict on a submission of another assignment does not matter. -/
theorem modify_ne (h : InStep t id status) {f : EvidenceSubmission → EvidenceSubmission}
    (hf : ∀ e, (f e).assignmentId = e.assignmentId ∧ (f e).version = e.version)
    (he : t.get? k = some e) (hof : e.assignmentId ≠ id) : InStep (t.modify k f) id status := by
  have hl : latestIn (t.modify k f) id = latestIn t id := latestIn_modify hf
  have hold : ∀ j g, (t.modify k f).get? j = some g → g.assignmentId = id → t.get? j = some g := by
    intro j g hg hofg
    rcases Table.get?_modify_cases hg with ⟨rfl, e', he', rfl⟩ | ⟨_, hg⟩
    · rw [he] at he'
      obtain rfl := Option.some.inj he'
      exact absurd ((hf e).1.symm.trans hofg) hof
    · exact hg
  refine ⟨?_, ?_, ?_, ?_⟩
  · rw [versionsIn_modify hf, hl]
    exact h.versions
  · intro j g hg hofg hv
    rw [hl] at hv
    exact h.earlier j g (hold j g hg hofg) hofg hv
  · intro j g hg hofg hv
    rw [hl] at hv
    exact h.latest j g (hold j g hg hofg) hofg hv
  · rw [hl]
    exact h.submitted

/-- **A verdict on the latest submission, with the same verdict on the assignment.** -/
theorem verdict (h : InStep t id status) {f : EvidenceSubmission → EvidenceSubmission}
    {status' : AssignmentStatus}
    (hf : ∀ e, (f e).assignmentId = e.assignmentId ∧ (f e).version = e.version)
    (he : t.get? k = some e) (hof : e.assignmentId = id) (hv : e.version = latestIn t id)
    (hs : status'.latest = some (f e).status) : InStep (t.modify k f) id status' := by
  have hl : latestIn (t.modify k f) id = latestIn t id := latestIn_modify hf
  refine ⟨?_, ?_, ?_, fun _ => ?_⟩
  · rw [versionsIn_modify hf, hl]
    exact h.versions
  · intro j g hg hofg hlt
    rw [hl] at hlt
    rcases Table.get?_modify_cases hg with ⟨rfl, e', he', rfl⟩ | ⟨_, hg⟩
    · rw [he] at he'
      obtain rfl := Option.some.inj he'
      rw [(hf e).2] at hlt
      omega
    · exact h.earlier j g hg hofg hlt
  · intro j g hg hofg hlast
    rw [hl] at hlast
    rcases Table.get?_modify_cases hg with ⟨rfl, e', he', rfl⟩ | ⟨hne, hg⟩
    · rw [he] at he'
      obtain rfl := Option.some.inj he'
      exact hs
    · exact absurd (h.unique hg hofg he hof (hlast.trans hv.symm)) hne
  · rw [hl]
    have := (h.version_bounds he hof).1
    omega

end InStep

end TestExchange
