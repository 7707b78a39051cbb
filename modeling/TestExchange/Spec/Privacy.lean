import TestExchange.Model.Campaigns
import TestExchange.Txn.Noninterference

/-!
# The private text of a contract

What a campaign keeps from everybody but its owner, its accepted testers and the
moderators: four texts of its contract, and the titles and instructions of the
contract's tasks. `Db.withoutText` is the database with that text blanked out,
so two databases differ in nothing else when they are equal without it.

`Hidden` is the relation between the two databases of a comparison at any time.
It also pins down which contracts are the campaign's, and for that it needs to
know that the campaign gets no other contract meanwhile.
-/

namespace TestExchange

open Txn Txn.Session

def TestingContract.withoutText (contract : TestingContract) : TestingContract :=
  { contract with
    testerInstructions := "", accessInstructions := none, deviceRequirements := none,
    evidenceRequirements := "" }

def ContractTask.withoutText (task : ContractTask) : ContractTask :=
  { task with title := "", instructions := "" }

/-- The contract is the campaign's. -/
def Db.ownsContract (db : Db) (campaignId contractId : Uuid) : Bool :=
  (db.testingContracts.get? contractId).any fun contract => contract.campaignId = campaignId

/-- A contract as everybody may know it. -/
def maskContract (campaignId : Uuid) (_ : Uuid) (contract : TestingContract) : TestingContract :=
  if contract.campaignId = campaignId then contract.withoutText else contract

/-- A task as everybody may know it. -/
def maskTask (owned : Uuid → Bool) (_ : Uuid) (task : ContractTask) : ContractTask :=
  if owned task.contractId then task.withoutText else task

/-- The database without the private text of one campaign. -/
def Db.withoutText (db : Db) (campaignId : Uuid) : Db :=
  { db with
    testingContracts := db.testingContracts.map (maskContract campaignId)
    contractTasks := db.contractTasks.map (maskTask (db.ownsContract campaignId)) }

/-- The databases differ at most in the private text of the campaign; `p` are its contracts. -/
structure Hidden (campaignId : Uuid) (p : Uuid → Prop) (db db' : Db) : Prop where
  /-- Nothing else differs. -/
  same : db.withoutText campaignId = db'.withoutText campaignId
  /-- The campaign's contracts are known. -/
  owns : ∀ contractId, db.ownsContract campaignId contractId = true ↔ p contractId

/-- An identifier that is new: neither the campaign nor one of its contracts has it. -/
def Fresh (campaignId : Uuid) (p : Uuid → Prop) (n : Nat) : Prop := n ≠ campaignId ∧ ¬p n

section Masks

variable {c k : Uuid} {contract : TestingContract} {task : ContractTask} {owned : Uuid → Bool}

theorem maskContract_of_ne (h : contract.campaignId ≠ c) : maskContract c k contract = contract :=
  if_neg h

@[simp] theorem campaignId_maskContract :
    (maskContract c k contract).campaignId = contract.campaignId := by
  unfold maskContract
  split <;> rfl

@[simp] theorem withoutText_maskContract :
    (maskContract c k contract).withoutText = contract.withoutText := by
  unfold maskContract
  split <;> rfl

theorem maskTask_of_not (h : owned task.contractId = false) : maskTask owned k task = task := by
  unfold maskTask
  rw [h]
  rfl

@[simp] theorem contractId_maskTask : (maskTask owned k task).contractId = task.contractId := by
  unfold maskTask
  split <;> rfl

@[simp] theorem position_maskTask : (maskTask owned k task).position = task.position := by
  unfold maskTask
  split <;> rfl

@[simp] theorem withoutText_maskTask : (maskTask owned k task).withoutText = task.withoutText := by
  unfold maskTask
  split <;> rfl

end Masks

section Reads

variable {c : Uuid} {p : Uuid → Prop} {db db' : Db} {k d : Uuid}

@[simp] theorem ownsContract_withoutText :
    (db.withoutText c).ownsContract d k = db.ownsContract d k := by
  unfold Db.ownsContract Db.withoutText
  simp only [Table.get?_map]
  cases db.testingContracts.get? k with
  | none => rfl
  | some contract => simp

theorem Hidden.not_owns (h : Hidden c p db db') (hk : ¬p k) : db.ownsContract c k = false :=
  Bool.eq_false_iff.mpr fun howns => hk ((h.owns k).mp howns)

/-- The other database knows the same contracts to be the campaign's. -/
theorem Hidden.owns' (h : Hidden c p db db') (k : Uuid) : db'.ownsContract c k = true ↔ p k := by
  rw [← h.owns k, ← @ownsContract_withoutText c db, h.same, ownsContract_withoutText]

theorem Hidden.symm (h : Hidden c p db db') : Hidden c p db' db := ⟨h.same.symm, h.owns'⟩

/-- What can be read without the private text is the same in both databases. -/
theorem Hidden.eq_of_public {α : Type} {q : Db → α} (hq : ∀ db, q (db.withoutText c) = q db)
    (h : Hidden c p db db') : q db = q db' := by
  rw [← hq db, h.same, hq db']

theorem contractOf_withoutText :
    (db.withoutText c).contractOf d = (db.contractOf d).map fun r => (r.1, maskContract c r.1 r.2) := by
  unfold Db.contractOf Db.withoutText
  exact Table.find?_map fun k contract => by rw [campaignId_maskContract]

theorem tasksOf_withoutText : (db.withoutText c).tasksOf k
    = (db.tasksOf k).map fun r => (r.1, maskTask (db.ownsContract c) r.1 r.2) := by
  unfold Db.tasksOf Db.withoutText
  exact Table.where'_map fun k task => by rw [contractId_maskTask]

/-- The contract of any other campaign is all public. -/
theorem contractOf_public (hd : d ≠ c) : (db.withoutText c).contractOf d = db.contractOf d := by
  rw [contractOf_withoutText]
  cases hfound : db.contractOf d with
  | none => rfl
  | some r =>
      have hr : r.2.campaignId = d := by simpa using (Table.find?_eq_some hfound).2
      have hne : r.2.campaignId ≠ c := by rw [hr]; exact hd
      rw [Option.map_some, maskContract_of_ne hne]

/-- It is not one of the hidden ones. -/
theorem not_hidden_of_contractOf (hd : d ≠ c) (h : Hidden c p db db') {r : Uuid × TestingContract}
    (hr : db.contractOf d = some r) : ¬p r.1 := by
  intro hp
  obtain ⟨hget, hcampaign⟩ := Table.find?_eq_some hr
  have howns := (h.owns r.1).mpr hp
  unfold Db.ownsContract at howns
  rw [hget] at howns
  simp only [Option.any_some, decide_eq_true_eq] at howns hcampaign
  exact hd (hcampaign.symm.trans howns)

/-- And so are its tasks. -/
theorem tasksOf_public (hk : db.ownsContract c k = false) :
    (db.withoutText c).tasksOf k = db.tasksOf k := by
  rw [tasksOf_withoutText]
  conv_rhs => rw [← List.map_id (db.tasksOf k)]
  refine List.map_congr_left fun r hr => ?_
  have hr : r.2.contractId = k := by simpa using (Table.mem_where'.mp hr).2
  rw [maskTask_of_not (by rw [hr]; exact hk)]
  rfl

/-- A contract and its tasks as everybody may know them. -/
def bareContract (r : Uuid × TestingContract) : Uuid × TestingContract := (r.1, r.2.withoutText)

def bareTask (r : Uuid × ContractTask) : Uuid × ContractTask := (r.1, r.2.withoutText)

theorem contractOf_bare :
    ((db.withoutText c).contractOf d).map bareContract = (db.contractOf d).map bareContract := by
  rw [contractOf_withoutText, Option.map_map]
  refine congrArg (fun f => Option.map f _) (funext fun r => ?_)
  simp only [bareContract, Function.comp, withoutText_maskContract]

theorem tasksOf_bare :
    ((db.withoutText c).tasksOf k).map bareTask = (db.tasksOf k).map bareTask := by
  rw [tasksOf_withoutText, List.map_map]
  refine congrArg (fun f => List.map f _) (funext fun r => ?_)
  simp only [bareTask, Function.comp, withoutText_maskTask]

end Reads

end TestExchange
