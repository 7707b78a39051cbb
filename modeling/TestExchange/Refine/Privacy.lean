import TestExchange.Spec.Privacy
import TestExchange.Model.Responses
import Mathlib.Data.List.Sort

/-!
# What the services make of private text

No service branches on it, and none copies it into another row. A write to any
other table commutes with blanking the text out, by definition; the writes to
contracts and tasks do so as long as they leave the hidden campaign alone, or
change nothing but the status of its contract. From there the services follow
statement by statement.
-/

namespace TestExchange

open Txn Txn.Session

variable {c d : Uuid} {p : Uuid → Prop} {F : Nat → Prop}

/-! ## Writes -/

/-- A write to other tables. -/
theorem blind_of_public {w : Write} (hv : ∀ db, w.violates (db.withoutText c) = w.violates db)
    (he : ∀ db, w.effect (db.withoutText c) = (w.effect db).withoutText c)
    (hc : ∀ db, (w.effect db).testingContracts = db.testingContracts) :
    w.Blind (Hidden c p) where
  violates := fun db db' h => h.eq_of_public hv
  effect := by
    intro db db' h
    refine ⟨?_, fun k => ?_⟩
    · rw [← he, h.same, he]
    · rw [← h.owns k]
      unfold Db.ownsContract
      rw [hc]

theorem blind_insertEvidenceItem {id : Uuid} {item : EvidenceItem} :
    (insertEvidenceItem id item).Blind (Hidden c p) := by
  refine blind_of_public (fun db => ?_) (fun _ => rfl) fun _ => rfl
  simp only [insertEvidenceItem, Db.withoutText, Table.contains_map]

theorem blind_deleteContractTasks {ids : List Uuid} :
    (deleteContractTasks ids).Blind (Hidden c p) := by
  refine blind_of_public (fun _ => rfl) (fun db => ?_) fun _ => rfl
  simp only [deleteContractTasks, Db.withoutText, Table.map_erase]
  rfl

theorem ownsContract_insert {db : Db} {id k : Uuid} {contract : TestingContract}
    (hd : contract.campaignId ≠ c) :
    ({ db with testingContracts := db.testingContracts.insert id contract } : Db).ownsContract c k
      = db.ownsContract c k := by
  unfold Db.ownsContract
  simp only
  cases hid : db.testingContracts.get? id with
  | some old => rw [Table.insert_of_mem hid]
  | none =>
      rw [Table.get?_insert hid]
      by_cases hk : k = id
      · subst hk
        rw [if_pos rfl, hid]
        simpa using hd
      · rw [if_neg hk]

/-- The first contract of another campaign. -/
theorem blind_insertTestingContract {id : Uuid} {contract : TestingContract}
    (hd : contract.campaignId ≠ c) : (insertTestingContract id contract).Blind (Hidden c p) where
  violates := by
    intro db db' h
    refine h.eq_of_public fun db => ?_
    have hany : (db.testingContracts.map (maskContract c)).any
          (fun _ e => e.campaignId = contract.campaignId)
        = db.testingContracts.any fun _ e => e.campaignId = contract.campaignId :=
      Table.any_map fun k e => by rw [campaignId_maskContract]
    simp only [insertTestingContract, Db.withoutText, Table.contains_map, hany]
  effect := by
    intro db db' h
    have he : ∀ db : Db, ((insertTestingContract id contract).effect db).withoutText c
        = (insertTestingContract id contract).effect (db.withoutText c) := by
      intro db
      have howns : ((insertTestingContract id contract).effect db).ownsContract c
          = db.ownsContract c := funext fun k => ownsContract_insert hd
      unfold Db.withoutText
      rw [howns]
      simp only [insertTestingContract, Table.map_insert, maskContract_of_ne hd]
    refine ⟨?_, fun k => ?_⟩
    · rw [he, h.same, ← he]
    · rw [← h.owns k]
      exact iff_of_eq (congrArg (· = true) (ownsContract_insert hd))

theorem ownsContract_modify {db : Db} {id k : Uuid} {f : TestingContract → TestingContract}
    (hf : ∀ contract, (f contract).campaignId = contract.campaignId) :
    ({ db with testingContracts := db.testingContracts.modify id f } : Db).ownsContract c k
      = db.ownsContract c k := by
  unfold Db.ownsContract
  simp only [Table.get?_modify]
  by_cases hk : k = id
  · subst hk
    rw [if_pos rfl]
    cases db.testingContracts.get? k with
    | none => rfl
    | some contract => simp [hf]
  · rw [if_neg hk]

/-- An update of a contract: of another campaign, or one that leaves the text as it is. -/
theorem blind_writeTestingContract {id : Uuid} {f : TestingContract → TestingContract}
    (hf : ∀ contract, (f contract).campaignId = contract.campaignId)
    (htext : ¬p id ∨ ∀ contract, (f contract).withoutText = f contract.withoutText) :
    (writeTestingContract id f).Blind (Hidden c p) where
  violates := fun _ _ _ => rfl
  effect := by
    intro db db' h
    have he : ∀ db db' : Db, Hidden c p db db' → ((writeTestingContract id f).effect db).withoutText c
        = (writeTestingContract id f).effect (db.withoutText c) := by
      intro db db' h
      have howns : ((writeTestingContract id f).effect db).ownsContract c = db.ownsContract c :=
        funext fun k => ownsContract_modify hf
      have hmask : ∀ contract, db.testingContracts.get? id = some contract →
          maskContract c id (f contract) = f (maskContract c id contract) := by
        intro contract hcontract
        unfold maskContract
        rw [hf]
        by_cases hc : contract.campaignId = c
        · rw [if_pos hc, if_pos hc]
          rcases htext with hp | htext
          · have hnot := h.not_owns hp
            unfold Db.ownsContract at hnot
            rw [hcontract] at hnot
            exact absurd hc (by simpa using hnot)
          · exact htext contract
        · rw [if_neg hc, if_neg hc]
      unfold Db.withoutText
      rw [howns]
      simp only [writeTestingContract]
      rw [Table.map_modify hmask]
    refine ⟨?_, fun k => ?_⟩
    · rw [he db db' h, h.same, ← he db' db h.symm]
    · rw [← h.owns k]
      exact iff_of_eq (congrArg (· = true) (ownsContract_modify hf))

/-- A task of another contract. -/
theorem blind_insertContractTask {id : Uuid} {task : ContractTask} (hk : ¬p task.contractId) :
    (insertContractTask id task).Blind (Hidden c p) where
  violates := by
    intro db db' h
    refine h.eq_of_public fun db => ?_
    have hany : (db.contractTasks.map (maskTask (db.ownsContract c))).any
          (fun _ u => u.contractId = task.contractId && u.position = task.position)
        = db.contractTasks.any fun _ u =>
          u.contractId = task.contractId && u.position = task.position :=
      Table.any_map fun k u => by rw [contractId_maskTask, position_maskTask]
    simp only [insertContractTask, Db.withoutText, Table.contains_map, hany]
  effect := by
    intro db db' h
    have he : ∀ db db' : Db, Hidden c p db db' → ((insertContractTask id task).effect db).withoutText c
        = (insertContractTask id task).effect (db.withoutText c) := by
      intro db db' h
      have hnot := h.not_owns hk
      have howns : ((insertContractTask id task).effect db).ownsContract c = db.ownsContract c := rfl
      unfold Db.withoutText
      rw [howns]
      simp only [insertContractTask, Table.map_insert, maskTask_of_not hnot]
    refine ⟨?_, h.owns⟩
    rw [he db db' h, h.same, ← he db' db h.symm]

/-! ## Reads -/

/-- A read of other tables. -/
theorem blind_read {α : Type} {q : Db → α} (hq : ∀ db, q (db.withoutText c) = q db) :
    Blind (Hidden c p) F (query q : Session α) := blind_query fun _ _ h => h.eq_of_public hq

theorem blind_lockingRead {α : Type} {rows : Db → List Lock} {q : Db → α}
    (hq : ∀ db, q (db.withoutText c) = q db) :
    Blind (Hidden c p) F (queryForUpdate rows q : Session α) :=
  blind_queryForUpdate fun _ _ h => h.eq_of_public hq

theorem blind_selectForUpdate {α : Type} {table : Db → Table α} {lock : Uuid → Lock} {id : Uuid}
    (h : ∀ db, table (db.withoutText c) = table db) :
    Blind (Hidden c p) F (selectForUpdate table lock id) :=
  blind_lockingRead fun db => by rw [h]

theorem rel_of_map_eq {α β : Type} {f : α → β} {o o' : Option α} (h : o.map f = o'.map f) :
    Option.Rel (fun a b => f a = f b) o o' := by
  cases o with
  | none =>
      cases o' with
      | none => exact .none
      | some b => exact absurd h (by simp)
  | some a =>
      cases o' with
      | none => exact absurd h (by simp)
      | some b => exact .some (by simpa using h)

/-- The contract of any campaign, up to its text. -/
theorem coupled_contractOf : Coupled (Hidden c p) F
    (Option.Rel fun r r' => bareContract r = bareContract r')
    (query fun db => db.contractOf d : Session (Option (Uuid × TestingContract)))
    (query fun db => db.contractOf d) := by
  refine coupled_query fun db db' h => rel_of_map_eq (f := bareContract) ?_
  exact h.eq_of_public (q := fun db => (db.contractOf d).map bareContract) fun _ => contractOf_bare

/-- The tasks of any contract, up to their text. -/
theorem coupled_tasksOf {k : Uuid} : Coupled (Hidden c p) F
    (fun tasks tasks' => tasks.map bareTask = tasks'.map bareTask)
    (query fun db => db.tasksOf k : Session (List (Uuid × ContractTask)))
    (query fun db => db.tasksOf k) :=
  coupled_query fun _ _ h =>
    h.eq_of_public (q := fun db => (db.tasksOf k).map bareTask) fun _ => tasksOf_bare

theorem sortTasks_bare (tasks : List (Uuid × ContractTask)) :
    (sortTasks tasks).map bareTask = sortTasks (tasks.map bareTask) := by
  unfold sortTasks
  exact List.map_insertionSort _ _ _ _ fun _ _ _ _ => Iff.rfl

theorem coupled_sortedTasks {k : Uuid} : Coupled (Hidden c p) F
    (fun tasks tasks' => tasks.map bareTask = tasks'.map bareTask)
    (query fun db => sortTasks (db.tasksOf k) : Session (List (Uuid × ContractTask)))
    (query fun db => sortTasks (db.tasksOf k)) := by
  refine coupled_query fun db db' h => ?_
  have htasks : (db.tasksOf k).map bareTask = (db'.tasksOf k).map bareTask :=
    h.eq_of_public (q := fun db => (db.tasksOf k).map bareTask) fun _ => tasksOf_bare
  rw [sortTasks_bare, sortTasks_bare, htasks]

/-- A contract and its tasks, up to their text. -/
def SameTerms (x y : (Uuid × TestingContract) × List (Uuid × ContractTask)) : Prop :=
  bareContract x.1 = bareContract y.1 ∧ x.2.map bareTask = y.2.map bareTask

theorem coupled_getContract : Coupled (Hidden c p) F SameTerms (getContract d) (getContract d) := by
  refine coupled_contractOf.bind fun _ _ hfound => (coupled_orRaise hfound).bind fun r r' hr => ?_
  have hid : r.1 = r'.1 := (congrArg Prod.fst hr : (bareContract r).1 = (bareContract r').1)
  rw [← hid]
  exact coupled_sortedTasks.bind fun _ _ htasks => coupled_pure ⟨hr, htasks⟩

theorem coupled_contractForAssignment {assignment : Assignment} :
    Coupled (Hidden c p) F SameTerms (contractForAssignment assignment)
      (contractForAssignment assignment) := by
  refine coupled_contractOf.bind fun _ _ hfound => (coupled_orRaise hfound).bind fun r r' hr => ?_
  have hid : r.1 = r'.1 := (congrArg Prod.fst hr : (bareContract r).1 = (bareContract r').1)
  rw [← hid]
  exact coupled_tasksOf.bind fun _ _ htasks => coupled_pure ⟨hr, htasks⟩

section Others

variable {E : Db → Db → Prop}

/-- The contract of another campaign, text included, and that it is not a hidden one. -/
theorem coupled_otherContract (hE : ∀ db db', E db db' → Hidden c p db db') (hd : d ≠ c) :
    Coupled E F (fun o o' => o = o' ∧ ∀ r, o = some r → ¬p r.1)
      (query fun db => db.contractOf d : Session (Option (Uuid × TestingContract)))
      (query fun db => db.contractOf d) := by
  refine coupled_query fun db db' h => ⟨?_, fun r hr => not_hidden_of_contractOf hd (hE db db' h) hr⟩
  exact (hE db db' h).eq_of_public (q := fun db => db.contractOf d) fun _ => contractOf_public hd

theorem Hidden.tasksOf_eq {db db' : Db} {k : Uuid} (h : Hidden c p db db') (hk : ¬p k) :
    db.tasksOf k = db'.tasksOf k := by
  rw [← tasksOf_public (h.not_owns hk), h.same, tasksOf_public (h.symm.not_owns hk)]

theorem blind_getContract (hE : ∀ db db', E db db' → Hidden c p db db') (hd : d ≠ c) :
    Blind E F (getContract d) := by
  refine (coupled_otherContract hE hd).bind fun o o' ho => ?_
  obtain ⟨rfl, hnot⟩ := ho
  cases o with
  | none => exact blind_raise
  | some r =>
      show Blind E F (do
        let tasks ← query fun db => sortTasks (db.tasksOf r.1)
        pure (r, tasks) : Session _)
      refine (blind_query fun db db' h => ?_).bind fun _ => blind_pure
      rw [(hE db db' h).tasksOf_eq (hnot r rfl)]

end Others

end TestExchange
