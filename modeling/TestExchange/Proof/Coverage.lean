import TestExchange.Proof.Lifecycle
import TestExchange.Spec.Paths
import TestExchange.Spec.Accepted

/-!
# What a submission has to show

The gate of `create_submission` looks at the items twice: once at the tasks they
are linked to, and once at what is in them. Together the two passes should
ensure that every required task has evidence with something in it. They do,
except that the second pass takes an empty note for a note.
-/

namespace TestExchange

open Txn Txn.Session

/-- The item carries a file, a link or a note, and not an empty one. -/
def EvidenceItemCreate.HasContent (item : EvidenceItemCreate) : Prop :=
  (∃ key ∈ item.storageKey, key ≠ "") ∨ (∃ url ∈ item.externalUrl, url.str ≠ "")
    ∨ ∃ note ∈ item.note, note ≠ ""

/-- All there is to the item is a note with nothing in it. -/
def EvidenceItemCreate.Blank (item : EvidenceItemCreate) : Prop :=
  item.storageKey = none ∧ item.externalUrl = none ∧ item.note = some ""

/-- Every required task of the contract really has evidence, and nothing is beside the contract. -/
structure Evidenced (tasks : List (Uuid × ContractTask)) (items : List EvidenceItemCreate) :
    Prop where
  linked : ∀ item ∈ items, ∀ taskId ∈ item.taskId, taskId ∈ tasks.map Prod.fst
  content : ∀ item ∈ items, item.HasContent
  required : ∀ task ∈ tasks, task.2.evidenceRequired = true →
    ∃ item ∈ items, item.taskId = some task.1 ∧ item.HasContent

/-! ## The gate -/

/-- What `create_submission` has checked of the items against the tasks of the contract. -/
structure Gated (assignmentId : Uuid) (tasks : List (Uuid × ContractTask))
    (items : List EvidenceItemCreate) : Prop where
  linked : ∀ item ∈ items, ∀ taskId ∈ item.taskId, taskId ∈ tasks.map Prod.fst
  required : ∀ task ∈ tasks, task.2.evidenceRequired = true →
    ∃ item ∈ items, item.taskId = some task.1
  given : ∀ item ∈ items, ¬(item.storageKey = none ∧ item.externalUrl = none ∧ item.note = none)
  keys : ∀ item ∈ items, ∀ key ∈ item.storageKey, KeyAccepted assignmentId key

variable {assignmentId testerId : Uuid} {now : Nat} {c c' : Conn}
  {items : List EvidenceItemCreate} {tasks : List (Uuid × ContractTask)}

theorem checkItems_checked {u : Unit}
    (h : (checkItems assignmentId items).alone now c = .ok (u, c')) : ∀ item ∈ items,
      ¬(item.storageKey = none ∧ item.externalUrl = none ∧ item.note = none)
        ∧ ∀ key ∈ item.storageKey, KeyAccepted assignmentId key := by
  induction items generalizing c with
  | nil => exact fun item hitem => absurd hitem List.not_mem_nil
  | cons item items ih =>
      intro other hother
      cases hkey : item.storageKey with
      | none =>
          simp only [checkItems, hkey, alone_bind, alone_raiseIf] at h
          obtain ⟨_, c₁, ⟨hgiven, _⟩, hrest⟩ := h
          rcases List.mem_cons.mp hother with rfl | hother
          · refine ⟨by simpa [hkey] using hgiven, fun key hmem => ?_⟩
            rw [hkey] at hmem
            cases hmem
          · exact ih hrest other hother
      | some key =>
          simp only [checkItems, hkey, alone_bind, alone_raiseIf] at h
          obtain ⟨_, c₁, ⟨hgiven, _⟩, _, c₂, hvalid, hrest⟩ := h
          rcases List.mem_cons.mp hother with rfl | hother
          · refine ⟨by simp [hkey], fun key' hmem => ?_⟩
            rw [hkey] at hmem
            obtain rfl := Option.some.inj hmem
            rcases validateStorageKey_cases assignmentId key with ⟨hok, -⟩ | ⟨-, hfail⟩
            · exact hok
            · rw [hfail] at hvalid
              exact (alone_raise.mp hvalid).elim
          · exact ih hrest other hother

/-- **What the gate lets through** has passed both loops. -/
theorem createSubmission_gated {payload : SubmissionCreate} {r : Uuid × EvidenceSubmission}
    (hok : (createSubmission assignmentId testerId payload).alone now c = .ok (r, c')) :
    ∃ a k, c.db.assignments.get? assignmentId = some a ∧ c.db.contractOf a.campaignId = some k
      ∧ Gated assignmentId (c.db.tasksOf k.1) payload.items := by
  simp only [createSubmission, alone_bind, alone_query, selectForUpdate_ok, alone_orRaise,
    alone_raiseIf, contractForAssignment_ok, alone_utcnow, and_assoc, exists_and_left,
    exists_eq_left, not_not] at hok
  obtain ⟨a, ha, -, -, _, _, k, hk, htasks, _, -, -, -, hlinked, hrequired, _, _, _, _, _, _,
    hchecked, -⟩ := hok
  have hitems := checkItems_checked hchecked
  refine ⟨a, k.1, ha, hk, ?_, ?_, fun item hitem => (hitems item hitem).1,
    fun item hitem => (hitems item hitem).2⟩
  · intro item hitem taskId htask
    rw [htasks] at hlinked
    by_contra hnot
    exact hlinked ⟨taskId, List.mem_filterMap.mpr ⟨item, hitem, htask⟩, hnot⟩
  · intro task htask hreq
    rw [htasks] at hrequired
    by_contra hnot
    refine hrequired ⟨task.1, List.mem_map.mpr ⟨task, List.mem_filter.mpr ⟨htask, hreq⟩, rfl⟩, ?_⟩
    intro hmem
    obtain ⟨item, hitem, hof⟩ := List.mem_filterMap.mp hmem
    exact hnot ⟨item, hitem, hof⟩

/-! ## What is in the items -/

/-- An accepted key names a file. -/
theorem KeyAccepted.ne_empty {assignmentId : Uuid} {key : String}
    (h : KeyAccepted assignmentId key) : key ≠ "" := by
  intro hempty
  have htwo := h.two
  rw [hempty] at htwo
  exact absurd htwo (by decide)

/-- A URL is not empty: it has a scheme. -/
theorem HttpUrl.str_ne_empty (url : HttpUrl) : url.str ≠ "" := by
  intro hempty
  have hscheme := url.scheme
  rw [hempty] at hscheme
  exact absurd hscheme (by decide)

/-- An item that got through has content, unless its note is all it has and is blank. -/
theorem hasContent_iff {item : EvidenceItemCreate}
    (hgiven : ¬(item.storageKey = none ∧ item.externalUrl = none ∧ item.note = none))
    (hkeys : ∀ key ∈ item.storageKey, KeyAccepted assignmentId key) :
    item.HasContent ↔ ¬item.Blank := by
  unfold EvidenceItemCreate.HasContent EvidenceItemCreate.Blank
  cases hkey : item.storageKey with
  | some key => simpa using Or.inl (hkeys key hkey).ne_empty
  | none =>
      cases hurl : item.externalUrl with
      | some url => simpa using Or.inl url.str_ne_empty
      | none =>
          cases hnote : item.note with
          | some note => simp
          | none => exact absurd ⟨hkey, hurl, hnote⟩ hgiven

/--
**Required tasks are evidenced** by every submission that is accepted, exactly
when no item of it is blank.
-/
theorem submission_evidenced (p q : SubmissionCreate) (_hparse : p.parse = some q)
    (assignmentId testerId : Uuid) (now : Time) (c c' : Conn) (r : Uuid × EvidenceSubmission)
    (hok : (createSubmission assignmentId testerId q).alone now c = .ok (r, c')) :
    ∃ a k, c.db.assignments.get? assignmentId = some a ∧ c.db.contractOf a.campaignId = some k
      ∧ (Evidenced (c.db.tasksOf k.1) q.items ↔ ∀ item ∈ q.items, ¬item.Blank) := by
  obtain ⟨a, k, ha, hk, hgate⟩ := createSubmission_gated hok
  have hcontent : ∀ item ∈ q.items, (item.HasContent ↔ ¬item.Blank) := fun item hitem =>
    hasContent_iff (hgate.given item hitem) (hgate.keys item hitem)
  refine ⟨a, k, ha, hk, fun h item hitem => (hcontent item hitem).mp (h.content item hitem),
    fun h => ⟨hgate.linked, fun item hitem => (hcontent item hitem).mpr (h item hitem), ?_⟩⟩
  intro task htask hreq
  obtain ⟨item, hitem, hof⟩ := hgate.required task htask hreq
  exact ⟨item, hitem, hof, (hcontent item hitem).mpr (h item hitem)⟩

/-! ## The bench again -/

deriving instance DecidableEq for EvidenceItemCreate, SubmissionCreate

/-- The first tester has started. -/
def startedService : Service := Service.init.run benchSettings (benchLaunch ++ benchTests.take 3)

/-- A note of three spaces for the only task. -/
def blankEvidence : SubmissionCreate where
  summary := "I found a bench and sat on it"
  items := [{ taskId := some 6, kind := .note, note := some "   " }]

/-- What is left of it without the spaces. -/
def strippedEvidence : SubmissionCreate where
  summary := "I found a bench and sat on it"
  items := [{ taskId := some 6, kind := .note, note := some "" }]

theorem blank_note_accepted : blankEvidence.parse = some strippedEvidence
    ∧ (∃ r c', (createSubmission 8 2 strippedEvidence).alone 0
      ⟨startedService.db, [], startedService.nextId⟩ = .ok (r, c'))
    ∧ ∀ tasks, ¬Evidenced tasks strippedEvidence.items := by
  have hok : ((createSubmission 8 2 strippedEvidence).alone 0
      ⟨startedService.db, [], startedService.nextId⟩).toOption.isSome = true := by decide +kernel
  refine ⟨by decide +kernel, ?_, fun tasks h => ?_⟩
  · cases hrun : (createSubmission 8 2 strippedEvidence).alone 0
        ⟨startedService.db, [], startedService.nextId⟩ with
    | error e =>
        rw [hrun] at hok
        cases hok
    | ok x => exact ⟨x.1, x.2, rfl⟩
  · have hcontent := h.content _ List.mem_cons_self
    simp [EvidenceItemCreate.HasContent] at hcontent

theorem submission_evidenced_bench : ∃ r c' k, (createSubmission 8 2 benchEvidence).alone 0
      ⟨startedService.db, [], startedService.nextId⟩ = .ok (r, c')
    ∧ Evidenced (startedService.db.tasksOf k) benchEvidence.items := by
  have hok : ((createSubmission 8 2 benchEvidence).alone 0
      ⟨startedService.db, [], startedService.nextId⟩).toOption.isSome = true := by decide +kernel
  cases hrun : (createSubmission 8 2 benchEvidence).alone 0
      ⟨startedService.db, [], startedService.nextId⟩ with
  | error e =>
      rw [hrun] at hok
      cases hok
  | ok x =>
      obtain ⟨a, k, -, -, hiff⟩ := submission_evidenced benchEvidence benchEvidence
        (by decide +kernel) 8 2 0 _ _ _ hrun
      refine ⟨x.1, x.2, k.1, rfl, hiff.mpr fun item hitem => ?_⟩
      rw [List.mem_singleton.mp hitem]
      simp [EvidenceItemCreate.Blank]

end TestExchange
