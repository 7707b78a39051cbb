import TestExchange.Model.Writes

/-!
# Submissions that cover a contract

A submission covers a campaign if every required task of the campaign's contract
has an item of it. The items are never changed for their own sake, but a task
that is deleted takes its links with it, and a task that is added asks for one
more; so what matters is which contract a write to the tasks is about.
-/

namespace TestExchange

open Txn

/-- The item has a file, a link or a note, as the table demands. -/
def EvidenceItem.hasContent (item : EvidenceItem) : Bool :=
  item.storageKey.isSome || item.externalUrl.isSome || item.note.isSome

/-- Some item of the submission is linked to the task. -/
def Db.Links (db : Db) (submissionId taskId : Uuid) : Prop :=
  ∃ m item, db.evidenceItems.get? m = some item ∧ item.submissionId = submissionId
    ∧ item.taskId = some taskId

/-- The campaign has a contract, and the submission has an item for each of its required tasks. -/
def Db.Covers (db : Db) (submissionId campaignId : Uuid) : Prop :=
  ∃ i contract, db.testingContracts.get? i = some contract ∧ contract.campaignId = campaignId
    ∧ ∀ j task, db.contractTasks.get? j = some task → task.contractId = i →
      task.evidenceRequired = true → db.Links submissionId j

/-- The contract, if there is one under this id, is about another campaign. -/
def Db.Elsewhere (db : Db) (contractId campaignId : Uuid) : Prop :=
  ∀ contract, db.testingContracts.get? contractId = some contract →
    contract.campaignId ≠ campaignId

section

variable {db db' : Db} {k campaignId : Uuid}

theorem Db.Links.mono {j : Uuid} (h : db.Links k j)
    (hitems : ∀ m item, db.evidenceItems.get? m = some item →
      ∃ item', db'.evidenceItems.get? m = some item' ∧ item'.submissionId = item.submissionId
        ∧ (item.taskId = some j → item'.taskId = some j)) : db'.Links k j := by
  obtain ⟨m, item, hitem, hof, htask⟩ := h
  obtain ⟨item', hitem', hsame, hlink⟩ := hitems m item hitem
  exact ⟨m, item', hitem', hsame.trans hof, hlink htask⟩

/-- The contracts are still about the same campaigns, there are no new tasks, and links stay. -/
theorem Db.Covers.mono (h : db.Covers k campaignId)
    (hcontracts : ∀ i contract, db.testingContracts.get? i = some contract →
      ∃ contract', db'.testingContracts.get? i = some contract'
        ∧ contract'.campaignId = contract.campaignId)
    (htasks : ∀ i contract j task, db.testingContracts.get? i = some contract →
      contract.campaignId = campaignId → db'.contractTasks.get? j = some task →
      task.contractId = i → db.contractTasks.get? j = some task)
    (hlinks : ∀ i contract j task, db.testingContracts.get? i = some contract →
      contract.campaignId = campaignId → db.contractTasks.get? j = some task →
      task.contractId = i → db'.contractTasks.get? j = some task → db.Links k j → db'.Links k j) :
    db'.Covers k campaignId := by
  obtain ⟨i, contract, hi, hof, hall⟩ := h
  obtain ⟨contract', hi', hsame⟩ := hcontracts i contract hi
  refine ⟨i, contract', hi', hsame.trans hof, fun j task hj hin hreq => ?_⟩
  have hold := htasks i contract j task hi hof hj hin
  exact hlinks i contract j task hi hof hold hin hj (hall j task hold hin hreq)

theorem Db.Covers.congr (h : db.Covers k campaignId)
    (hcontracts : db'.testingContracts = db.testingContracts)
    (htasks : db'.contractTasks = db.contractTasks)
    (hitems : db'.evidenceItems = db.evidenceItems) : db'.Covers k campaignId := by
  unfold Db.Covers Db.Links at h ⊢
  rw [hcontracts, htasks, hitems]
  exact h

theorem covers_insertTestingContract {i : Uuid} {contract : TestingContract}
    (h : db.Covers k campaignId) :
    ((insertTestingContract i contract).effect db).Covers k campaignId := by
  refine h.mono (fun j x hx => ⟨x, Table.get?_insert_of_some hx, rfl⟩) ?_ ?_
  · exact fun _ _ _ _ _ _ hj _ => hj
  · exact fun _ _ _ _ _ _ _ _ _ hlink => hlink

theorem covers_writeTestingContract {i : Uuid} {f : TestingContract → TestingContract}
    (hf : ∀ x, (f x).campaignId = x.campaignId) (h : db.Covers k campaignId) :
    ((writeTestingContract i f).effect db).Covers k campaignId := by
  refine h.mono (fun j x hx => ?_) ?_ ?_
  · by_cases hj : j = i
    · subst hj
      exact ⟨f x, Table.get?_modify_self.trans (congrArg (Option.map f) hx), hf x⟩
    · exact ⟨x, (Table.get?_modify_ne hj).trans hx, rfl⟩
  · exact fun _ _ _ _ _ _ hj _ => hj
  · exact fun _ _ _ _ _ _ _ _ _ hlink => hlink

/-- A task of another campaign's contract asks nothing of this one. -/
theorem covers_insertContractTask {j : Uuid} {task : ContractTask}
    (helsewhere : db.Elsewhere task.contractId campaignId) (h : db.Covers k campaignId) :
    ((insertContractTask j task).effect db).Covers k campaignId := by
  refine h.mono (fun i x hx => ⟨x, hx, rfl⟩) ?_ ?_
  · intro i contract j' task' hi hof hj' hin
    rcases Table.get?_insert_cases hj' with hold | ⟨-, rfl, -⟩
    · exact hold
    · rw [hin] at helsewhere
      exact absurd hof (helsewhere contract hi)
  · exact fun _ _ _ _ _ _ _ _ _ hlink => hlink

/-- Deleting the tasks of another campaign's contract takes no link from this one's. -/
theorem covers_deleteContractTasks {ids : List Uuid}
    (helsewhere : ∀ j ∈ ids, ∀ task, db.contractTasks.get? j = some task →
      db.Elsewhere task.contractId campaignId) (h : db.Covers k campaignId) :
    ((deleteContractTasks ids).effect db).Covers k campaignId := by
  refine h.mono (fun i x hx => ⟨x, hx, rfl⟩) ?_ ?_
  · exact fun _ _ _ _ _ _ hj _ => (Table.get?_of_erase hj).2
  · intro i contract j task hi hof hj hin _ hlink
    have hkept : j ∉ ids := by
      intro hmem
      have hother := helsewhere j hmem task hj
      rw [hin] at hother
      exact hother contract hi hof
    refine hlink.mono fun m item hitem => ⟨_, Table.get?_map.trans (congrArg _ hitem), rfl, ?_⟩
    intro htask
    show item.taskId.filter _ = _
    rw [htask]
    simp [hkept]

theorem covers_insertEvidenceItem {m : Uuid} {item : EvidenceItem} (h : db.Covers k campaignId) :
    ((insertEvidenceItem m item).effect db).Covers k campaignId := by
  refine h.mono (fun i x hx => ⟨x, hx, rfl⟩) ?_ ?_
  · exact fun _ _ _ _ _ _ hj _ => hj
  · intro i contract j task _ _ _ _ _ hlink
    exact hlink.mono fun m' item' hitem' =>
      ⟨item', Table.get?_insert_of_some hitem', rfl, fun htask => htask⟩

end

end TestExchange
