import TestExchange.Concurrent.Contract
import TestExchange.Proof.Contents
import TestExchange.Proof.Completion

/-!
# Saving a contract replaces it

What one save leaves: the contract row of the campaign, new or with the next
version and the terms of the payload, and of its tasks exactly those of the
payload, in their order, under identifiers drawn for them. Deleting the old
tasks at once and queueing the rest does not matter for that: the old tasks are
gone before the new ones are sent, so a position is never taken twice.
-/

namespace TestExchange

open Txn Txn.Session Exchange

variable {settings : Settings} {user : CurrentUser} {request : Request} {now n n' : Nat}
  {db db' d : Db} {c : Conn} {s : Service} {id ownerId k : Uuid} {payload : ContractUpsert}
  {tasks : List ContractTaskInput} {position : Nat}

/-! ## The new tasks -/

/-- The rows of a task list: identifiers and positions count up. -/
def taskRows (contractId : Uuid) : Nat → Nat → List ContractTaskInput → List (Uuid × ContractTask)
  | _, _, [] => []
  | taskId, position, task :: tasks =>
      (taskId, task.task contractId position) :: taskRows contractId (taskId + 1) (position + 1) tasks

theorem mem_taskRows {r : Uuid × ContractTask} (h : r ∈ taskRows k n position tasks) :
    r.2.contractId = k ∧ n ≤ r.1 ∧ position ≤ r.2.position := by
  induction tasks generalizing n position with
  | nil => exact absurd h List.not_mem_nil
  | cons task tasks ih =>
      rcases List.mem_cons.mp h with rfl | h
      · exact ⟨rfl, Nat.le_refl _, Nat.le_refl _⟩
      · obtain ⟨hk, hn, hpos⟩ := ih h
        exact ⟨hk, by omega, by omega⟩

/-- The tasks of the rows are those of the list, each at its index. -/
theorem taskRows_tasks : (taskRows k n position tasks).map Prod.snd
    = tasks.mapIdx fun i task => task.task k (position + i) := by
  induction tasks generalizing n position with
  | nil => rfl
  | cons task tasks ih =>
      rw [taskRows, List.map_cons, ih, List.mapIdx_cons, Nat.add_zero]
      refine congrArg (_ :: ·) (congrArg (List.mapIdx · tasks) ?_)
      funext i task
      rw [Nat.add_assoc, Nat.add_comm 1 i]

/-- The rows are listed in the order of their positions. -/
theorem sortTasks_taskRows : sortTasks (taskRows k n position tasks) = taskRows k n position tasks := by
  refine List.Pairwise.insertionSort_eq ?_
  induction tasks generalizing n position with
  | nil => exact List.Pairwise.nil
  | cons task tasks ih =>
      refine List.Pairwise.cons (fun r hr => ?_) ih
      obtain ⟨-, -, hpos⟩ := mem_taskRows hr
      exact Nat.le_of_succ_le hpos

/-- The inserts of a task list. -/
def taskInserts (contractId : Uuid) (taskId position : Nat) (tasks : List ContractTaskInput) :
    List Write :=
  (taskRows contractId taskId position tasks).map fun r => insertContractTask r.1 r.2

theorem addTasks_alone : (addTasks k position tasks).alone now c
    = .ok ((), { c with
        pending := c.pending ++ taskInserts k c.next position tasks, next := c.next + tasks.length }) := by
  induction tasks generalizing c position with
  | nil =>
      show Except.ok ((), c) = _
      rw [taskInserts, taskRows, List.map_nil, List.append_nil, List.length_nil, Nat.add_zero]
  | cons task tasks ih =>
      rw [addTasks, alone_uuid4_bind, alone_add_bind, ih]
      simp only [taskInserts, taskRows, List.map_cons, List.length_cons, List.append_assoc,
        List.cons_append, List.nil_append, Nat.add_assoc, Nat.add_comm 1]

/--
**New tasks are stored as they are**, if the contract is there, the identifiers
are free and its positions from the first one on are.
-/
theorem applyAll_taskInserts (hcontract : ∃ x, db.testingContracts.get? k = some x)
    (hfree : ∀ i, n ≤ i → db.contractTasks.get? i = none)
    (hroom : ∀ i t, db.contractTasks.get? i = some t → t.contractId = k → t.position < position) :
    ∃ t, applyAll (taskInserts k n position tasks) db = some { db with contractTasks := t }
      ∧ t.rows = db.contractTasks.rows ++ taskRows k n position tasks := by
  induction tasks generalizing db n position with
  | nil => exact ⟨db.contractTasks, rfl, (List.append_nil _).symm⟩
  | cons task tasks ih =>
      have hnew := hfree n (Nat.le_refl n)
      have hv : (insertContractTask n (task.task k position)).violates db = none := by
        simp only [insertContractTask, firstViolated_cons, firstViolated_nil, Table.any_eq_false,
          Table.contains_eq_false, Bool.not_eq_false', Table.contains_eq_true, and_true]
        refine ⟨hnew, fun i t hi => ?_, hcontract⟩
        by_cases ht : t.contractId = k
        · have hlt := hroom i t hi ht
          have hpos : t.position ≠ position := Nat.ne_of_lt hlt
          simp [ContractTaskInput.task, hpos]
        · simp [ContractTaskInput.task, ht]
      obtain ⟨d, hd⟩ : ∃ d, d = (insertContractTask n (task.task k position)).effect db := ⟨_, rfl⟩
      have hcontract' : ∃ x, d.testingContracts.get? k = some x := by
        rw [hd]
        exact hcontract
      have hfree' : ∀ i, n + 1 ≤ i → d.contractTasks.get? i = none := by
        intro i hi
        rw [hd]
        exact (Table.get?_insert_ne (Nat.ne_of_gt hi)).trans (hfree i (Nat.le_of_succ_le hi))
      have hroom' : ∀ i t, d.contractTasks.get? i = some t → t.contractId = k →
          t.position < position + 1 := by
        intro i t hi ht
        rw [hd] at hi
        rcases Table.get?_insert_cases hi with hold | ⟨-, rfl, -⟩
        · exact Nat.lt_succ_of_lt (hroom i t hold ht)
        · exact Nat.lt_succ_self _
      obtain ⟨t, happly, hrows⟩ := ih hcontract' hfree' hroom'
      subst hd
      refine ⟨t, applyAll_cons.mpr ⟨hv, happly⟩, hrows.trans ?_⟩
      rw [taskRows]
      show (db.contractTasks.insert n _).rows ++ _ = _
      rw [Table.rows_insert hnew, List.append_assoc, List.cons_append, List.nil_append]

/-- The tasks of a contract after its new ones are stored. -/
theorem tasksOf_append {t : Table ContractTask}
    (h : t.rows = db.contractTasks.rows ++ taskRows k n position tasks) (i : Uuid) :
    Db.tasksOf { db with contractTasks := t } i
      = db.tasksOf i ++ if i = k then taskRows k n position tasks else [] := by
  suffices hnew : (taskRows k n position tasks).filter (fun r => decide (r.2.contractId = i))
      = if i = k then taskRows k n position tasks else [] by
    show t.rows.filter _ = _
    rw [h, List.filter_append, hnew]
    rfl
  split
  · rename_i hi
    refine List.filter_eq_self.mpr fun r hr => ?_
    simp [(mem_taskRows hr).1, hi]
  · rename_i hi
    refine List.filter_eq_nil_iff.mpr fun r hr => ?_
    simp [(mem_taskRows hr).1, Ne.symm hi]

/-- The old tasks are gone at once. -/
theorem tasksOf_deleted :
    Db.tasksOf ((deleteContractTasks ((db.tasksOf k).map Prod.fst)).effect db) k = [] := by
  refine List.filter_eq_nil_iff.mpr fun r hr => ?_
  obtain ⟨hrow, hkept⟩ := List.mem_filter.mp hr
  intro hk
  have hmem : r ∈ db.tasksOf k := List.mem_filter.mpr ⟨hrow, hk⟩
  have hgone : r.1 ∈ (db.tasksOf k).map Prod.fst := List.mem_map_of_mem hmem
  exact absurd hkept (by simpa using hgone)

/-! ## One save -/

/-- The owner's draft, in a database in which a save goes through. -/
structure Savable (db : Db) (n : Nat) (id ownerId : Uuid) : Prop where
  draft : ∃ c, db.campaigns.get? id = some c ∧ c.ownerId = ownerId ∧ c.status = .draft
  known : db.Knows ownerId
  placed : db.TasksPlaced
  fresh : db.Fresh n
  unlocked : ∀ k x, db.contractOf id = some (k, x) → x.status ≠ .locked

/-- The contract row a save leaves, in the place of the one it found. -/
def ContractUpsert.saved (payload : ContractUpsert) (campaignId : Uuid) :
    Option (Uuid × TestingContract) → TestingContract
  | none => payload.contract campaignId
  | some (_, x) => payload.set x { x with version := x.version + 1 }

/-- What a save does to contracts and tasks. -/
structure Replaces (db : Db) (n : Nat) (id k : Uuid) (payload : ContractUpsert) (db' : Db) :
    Prop where
  place : db.testingContracts.get? k = none ∧ db.contractOf id = none
    ∨ ∃ x, db.contractOf id = some (k, x)
  contract : db'.testingContracts.get? k = some (payload.saved id (db.contractOf id))
  tasks : ∃ m, n ≤ m ∧ db'.tasksOf k = taskRows k m 0 payload.tasks
  others : ∀ i, i ≠ k → db'.testingContracts.get? i = db.testingContracts.get? i
    ∧ db'.tasksOf i = db.tasksOf i

/-- Events of somebody known can be written. -/
theorem applyAll_events {es : List AuditEvent} (hes : ∀ e ∈ es, e.actorId = some ownerId)
    (hknown : db.Knows ownerId) :
    applyAll (es.map insertAuditEvent) db = some { db with auditEvents := db.auditEvents ++ es } := by
  induction es generalizing db with
  | nil =>
      rw [List.append_nil]
      rfl
  | cons e es ih =>
      have hv := insertAuditEvent_accepted (hes e List.mem_cons_self) hknown
      have hrest := ih (fun e he => hes e (List.mem_cons_of_mem _ he))
        (show ((insertAuditEvent e).effect db).Knows ownerId from hknown)
      refine applyAll_cons.mpr ⟨hv, hrest.trans ?_⟩
      simp only [insertAuditEvent, List.append_assoc, List.cons_append, List.nil_append]

/-- The tasks and the event of a save are stored, once the contract is there without tasks. -/
theorem applyAll_saved (n : Nat) (tasks : List ContractTaskInput) (e : AuditEvent)
    (he : e.actorId = some ownerId) (hknown : db.Knows ownerId)
    (hcontract : ∃ x, db.testingContracts.get? k = some x)
    (hfree : ∀ i, n ≤ i → db.contractTasks.get? i = none) (hnone : db.tasksOf k = []) :
    ∃ db', applyAll (taskInserts k n 0 tasks ++ [insertAuditEvent e]) db = some db'
      ∧ db'.testingContracts = db.testingContracts ∧ db'.tasksOf k = taskRows k n 0 tasks
      ∧ ∀ i, i ≠ k → db'.tasksOf i = db.tasksOf i := by
  obtain ⟨t, happly, hrows⟩ : ∃ t, applyAll (taskInserts k n 0 tasks) db
      = some { db with contractTasks := t }
        ∧ t.rows = db.contractTasks.rows ++ taskRows k n 0 tasks := by
    refine applyAll_taskInserts hcontract hfree fun i task hi hk => ?_
    have hmem : (i, task) ∈ db.tasksOf k := Table.mem_where'.mpr ⟨hi, by simpa using hk⟩
    rw [hnone] at hmem
    exact absurd hmem List.not_mem_nil
  have hevent : applyAll ([e].map insertAuditEvent) { db with contractTasks := t }
      = some { db with contractTasks := t, auditEvents := db.auditEvents ++ [e] } :=
    applyAll_events (fun f hf => by rw [List.mem_singleton.mp hf, he]) hknown
  refine ⟨_, applyAll_append.mpr ⟨_, happly, hevent⟩, rfl, ?_, fun i hi => ?_⟩
  · refine (tasksOf_append hrows k).trans ?_
    rw [hnone, if_pos rfl, List.nil_append]
  · refine (tasksOf_append hrows i).trans ?_
    rw [if_neg hi, List.append_nil]

/-- In the middle of a save the contract is there as it is going to be, without tasks. -/
structure Cleared (db d : Db) (n : Nat) (ownerId k : Uuid) (x : TestingContract) : Prop where
  known : d.Knows ownerId
  row : d.testingContracts.get? k = some x
  empty : d.tasksOf k = []
  free : ∀ i, n ≤ i → d.contractTasks.get? i = none
  others : ∀ i, i ≠ k → d.testingContracts.get? i = db.testingContracts.get? i
    ∧ d.tasksOf i = db.tasksOf i

/-- The new tasks can be written then, and the contract is replaced. -/
theorem Cleared.replaces {m : Nat} {e : AuditEvent}
    (h : Cleared db d m ownerId k (payload.saved id (db.contractOf id))) (hle : n ≤ m)
    (hplace : db.testingContracts.get? k = none ∧ db.contractOf id = none
      ∨ ∃ x, db.contractOf id = some (k, x)) (he : e.actorId = some ownerId) :
    ∃ db', applyAll (taskInserts k m 0 payload.tasks ++ [insertAuditEvent e]) d = some db'
      ∧ Replaces db n id k payload db' := by
  obtain ⟨db', happly, hcontracts, htasks, hothers⟩ :=
    applyAll_saved m payload.tasks e he h.known ⟨_, h.row⟩ h.free h.empty
  refine ⟨db', happly, hplace, ?_, ⟨m, hle, htasks⟩, fun i hi => ⟨?_, ?_⟩⟩
  · rw [hcontracts]
    exact h.row
  · rw [hcontracts]
    exact (h.others i hi).1
  · rw [hothers i hi]
    exact (h.others i hi).2

/-- A new contract has no tasks. -/
theorem cleared_first (payload : ContractUpsert) (es : List AuditEvent)
    (h : Savable db n id ownerId) (hnone : db.contractOf id = none) :
    Cleared db ((insertTestingContract n (payload.contract id)).effect
        { db with auditEvents := db.auditEvents ++ es }) (n + 1) ownerId n
      (payload.saved id (db.contractOf id)) := by
  have hnew := h.fresh.contracts.free (Nat.le_refl n)
  refine ⟨h.known, ?_, ?_, fun i hi => h.fresh.tasks.free (Nat.le_of_succ_le hi),
    fun i hi => ⟨?_, rfl⟩⟩
  · rw [hnone]
    exact Table.get?_insert_self hnew
  · refine List.eq_nil_iff_forall_not_mem.mpr fun r hr => ?_
    obtain ⟨hi, hk⟩ := Table.mem_where'.mp hr
    obtain ⟨y, hy⟩ := h.placed.belong r.1 r.2 hi
    rw [show r.2.contractId = n by simpa using hk, hnew] at hy
    exact absurd hy (by simp)
  · exact Table.get?_insert_ne hi

/-- An old contract gets its next version, and loses its tasks. -/
theorem cleared_again (payload : ContractUpsert) (es : List AuditEvent)
    (h : Savable db n id ownerId) {y : TestingContract}
    (hfound : db.contractOf id = some (k, y)) :
    Cleared db ((writeTestingContract k fun z =>
        payload.set y { z with version := y.version + 1 }).effect
        { (deleteContractTasks ((db.tasksOf k).map Prod.fst)).effect db with
          auditEvents := db.auditEvents ++ es }) n ownerId k
      (payload.saved id (db.contractOf id)) := by
  obtain ⟨hy, -⟩ := Table.find?_eq_some hfound
  refine ⟨h.known, ?_, tasksOf_deleted, fun i hi => ?_, fun i hi => ⟨Table.get?_modify_ne hi, ?_⟩⟩
  · rw [hfound]
    exact Table.get?_modify_self.trans (congrArg (Option.map _) hy)
  · show (db.contractTasks.erase _).get? i = none
    rw [Table.get?_erase]
    split
    · rfl
    · exact h.fresh.tasks.free hi
  · refine tasksOf_delete (k := k) (fun j hj t ht => ?_) hi
    obtain ⟨r, hr, rfl⟩ := List.mem_map.mp hj
    obtain ⟨hrow, hk⟩ := Table.mem_where'.mp hr
    rw [← Option.some.inj (hrow.symm.trans ht)]
    simpa using hk

/-- The first save of a contract. -/
theorem upsertContract_first {es : List AuditEvent} (h : Savable db n id ownerId)
    (hes : ∀ e ∈ es, e.actorId = some ownerId) (hnone : db.contractOf id = none) :
    ∃ k c', (upsertContract id ownerId payload).alone now ⟨db, es.map insertAuditEvent, n⟩
        = .ok ((k, payload.saved id (db.contractOf id)), c')
      ∧ c'.pending = [] ∧ Replaces db n id k payload c'.db := by
  obtain ⟨x, hx, howner, hdraft⟩ := h.draft
  have hnew := h.fresh.contracts.free (Nat.le_refl n)
  have hv : (insertTestingContract n (payload.contract id)).violates
      { db with auditEvents := db.auditEvents ++ es } = none := by
    simp only [insertTestingContract, firstViolated_cons, firstViolated_nil, Table.any_eq_false,
      Table.contains_eq_false, Bool.not_eq_false', Table.contains_eq_true, and_true]
    exact ⟨hnew, Table.find?_eq_none.mp hnone, x, hx⟩
  have hcleared := cleared_first payload es h hnone
  have hflush : applyAll (es.map insertAuditEvent ++ [insertTestingContract n (payload.contract id)])
      db = some _ :=
    applyAll_append.mpr ⟨_, applyAll_events hes h.known, applyAll_cons.mpr ⟨hv, rfl⟩⟩
  obtain ⟨db', happly, hreplaces⟩ := hcleared.replaces (Nat.le_succ n) (Or.inl ⟨hnew, hnone⟩)
    (e := ⟨some ownerId, "contract.saved", "campaign", id,
      [("contract_id", .str (Uuid.str n)), ("version", .int (payload.contract id).version)]⟩) rfl
  refine ⟨n, ⟨db', [], n + 1 + payload.tasks.length⟩, ?_, rfl, hreplaces⟩
  simp only [upsertContract, alone_bind, getCampaign_ok, requireCampaignOwner_ok, alone_raiseIf,
    alone_query, hnone, saveContract, alone_uuid4, alone_add, alone_flush, addTasks_alone,
    addAuditEvent_ok, alone_pure, and_assoc, exists_and_left, exists_eq_left, exists_const]
  exact ⟨x, hx, howner, not_not.mpr hdraft, _, _, ⟨_, ⟨_, hflush, rfl⟩, rfl, rfl⟩, _, _, rfl, _,
    ⟨db', happly, rfl⟩, rfl, rfl⟩

/-- A later save: the contract is open, and gets its next version. -/
theorem upsertContract_again {es : List AuditEvent} (h : Savable db n id ownerId)
    (hes : ∀ e ∈ es, e.actorId = some ownerId) {y : TestingContract}
    (hfound : db.contractOf id = some (k, y)) :
    ∃ c', (upsertContract id ownerId payload).alone now ⟨db, es.map insertAuditEvent, n⟩
        = .ok ((k, payload.saved id (db.contractOf id)), c')
      ∧ c'.pending = [] ∧ Replaces db n id k payload c'.db := by
  obtain ⟨x, hx, howner, hdraft⟩ := h.draft
  have hopen := h.unlocked k y hfound
  have hcleared := cleared_again payload es h hfound
  -- the tasks are deleted at once, the events before them are sent with the contract
  have hknown : ((deleteContractTasks ((db.tasksOf k).map Prod.fst)).effect db).Knows ownerId :=
    h.known
  have hflush : applyAll (es.map insertAuditEvent ++ [writeTestingContract k fun z =>
      payload.set y { z with version := y.version + 1 }])
      ((deleteContractTasks ((db.tasksOf k).map Prod.fst)).effect db) = some _ :=
    applyAll_append.mpr ⟨_, applyAll_events hes hknown, applyAll_cons.mpr ⟨rfl, rfl⟩⟩
  obtain ⟨db', happly, hreplaces⟩ := hcleared.replaces (Nat.le_refl n) (Or.inr ⟨y, hfound⟩)
    (e := ⟨some ownerId, "contract.saved", "campaign", id,
      [("contract_id", .str (Uuid.str k)),
        ("version", .int (payload.set y { y with version := y.version + 1 }).version)]⟩) rfl
  refine ⟨⟨db', [], n + payload.tasks.length⟩, ?_, rfl, hreplaces⟩
  simp only [upsertContract, alone_bind, getCampaign_ok, requireCampaignOwner_ok, alone_raiseIf,
    alone_query, hfound, saveContract, alone_add, alone_queryForUpdate, alone_execute,
    alone_flush, addTasks_alone, addAuditEvent_ok, alone_pure, and_assoc, exists_and_left,
    exists_eq_left, exists_const]
  refine ⟨x, hx, howner, not_not.mpr hdraft, hopen, rfl, _, _, rfl, _, ⟨db', ?_, rfl⟩, rfl, rfl⟩
  rw [List.append_assoc]
  exact applyAll_append.mpr ⟨_, hflush, happly⟩

/-- **A save succeeds**, and leaves the contract of the payload with its tasks. -/
theorem upsertContract_replaces (now : Nat) (payload : ContractUpsert) (es : List AuditEvent)
    (h : Savable db n id ownerId)
    (hes : ∀ e ∈ es, e.actorId = some ownerId) :
    ∃ k c', (upsertContract id ownerId payload).alone now ⟨db, es.map insertAuditEvent, n⟩
        = .ok ((k, payload.saved id (db.contractOf id)), c')
      ∧ c'.pending = [] ∧ Replaces db n id k payload c'.db := by
  cases hfound : db.contractOf id with
  | none =>
      rw [← hfound]
      exact upsertContract_first h hes hfound
  | some found =>
      obtain ⟨k, y⟩ := found
      rw [← hfound]
      exact ⟨k, upsertContract_again h hes hfound⟩

/-- A save that went through has found an open contract, or none. -/
theorem upsertContract_savable (es : List AuditEvent) {r : Uuid × TestingContract}
    (hok : (upsertContract id ownerId payload).alone now ⟨db, es.map insertAuditEvent, n⟩
      = .ok (r, c)) (hknown : db.Knows ownerId) (hplaced : db.TasksPlaced) (hfresh : db.Fresh n) :
    Savable db n id ownerId := by
  simp only [upsertContract, alone_bind, getCampaign_ok, requireCampaignOwner_ok, alone_raiseIf,
    alone_query, and_assoc, exists_and_left, exists_eq_left, exists_const] at hok
  obtain ⟨x, hx, howner, hdraft, r', c₁, hsave, -⟩ := hok
  refine ⟨⟨x, hx, howner, not_not.mp hdraft⟩, hknown, hplaced, hfresh, fun k y hfound => ?_⟩
  rw [hfound] at hsave
  obtain ⟨_, _, hopen, -⟩ := alone_bind.mp hsave
  exact (alone_raiseIf.mp hopen).1

/-! ## Other contracts -/

/-- The contract of the campaign and its tasks are the same. -/
structure SameContract (campaignId : Uuid) (db db' : Db) : Prop where
  rows : ∀ i x, x.campaignId = campaignId →
    (db'.testingContracts.get? i = some x ↔ db.testingContracts.get? i = some x)
  tasks : ∀ i x, x.campaignId = campaignId → db.testingContracts.get? i = some x →
    db'.tasksOf i = db.tasksOf i

theorem SameContract.of_eq (hcontracts : db'.testingContracts = db.testingContracts)
    (htasks : db'.contractTasks = db.contractTasks) : SameContract id db db' where
  rows := fun i x _ => by rw [hcontracts]
  tasks := fun i x _ _ => by rw [Db.tasksOf, htasks]; rfl

theorem SameContract.trans (h : SameContract id db d) (h' : SameContract id d db') :
    SameContract id db db' where
  rows := fun i x hx => (h'.rows i x hx).trans (h.rows i x hx)
  tasks := fun i x hx hi => (h'.tasks i x hx ((h.rows i x hx).mpr hi)).trans (h.tasks i x hx hi)

/-- A campaign has one contract, so that is the one found. -/
theorem contractOf_eq_some (h : ContractInv db) {x : TestingContract} :
    db.contractOf id = some (k, x) ↔ db.testingContracts.get? k = some x ∧ x.campaignId = id := by
  constructor
  · intro hfound
    obtain ⟨hk, hx⟩ := Table.find?_eq_some hfound
    exact ⟨hk, by simpa using hx⟩
  · intro ⟨hk, hx⟩
    cases hfound : db.contractOf id with
    | none =>
        have hnone := Table.find?_eq_none.mp hfound k x hk
        exact absurd hx (by simpa using hnone)
    | some found =>
        obtain ⟨hrow, hid⟩ := Table.find?_eq_some hfound
        have hfor : found.2.campaignId = id := by simpa using hid
        have hsame := h.once k found.1 x found.2 hk hrow (hx.trans hfor.symm)
        subst hsame
        rw [← Option.some.inj (hrow.symm.trans hk)]

theorem SameContract.contractOf (h : SameContract id db db') (hdb : ContractInv db)
    (hdb' : ContractInv db') : db'.contractOf id = db.contractOf id := by
  refine Option.ext fun r => ?_
  rw [contractOf_eq_some hdb', contractOf_eq_some hdb]
  exact ⟨fun ⟨hi, hx⟩ => ⟨(h.rows _ _ hx).mp hi, hx⟩, fun ⟨hi, hx⟩ => ⟨(h.rows _ _ hx).mpr hi, hx⟩⟩

theorem saved_campaignId : (payload.saved id (db.contractOf id)).campaignId = id := by
  cases hfound : db.contractOf id with
  | none => rfl
  | some found =>
      obtain ⟨-, hid⟩ := Table.find?_eq_some hfound
      show found.2.campaignId = id
      simpa using hid

/-- **A save leaves the contracts of other campaigns alone.** -/
theorem Replaces.same {j : Uuid} (h : Replaces db n j k payload db') (hne : id ≠ j) :
    SameContract id db db' := by
  have hold : ∀ x, db.testingContracts.get? k = some x → x.campaignId = j := by
    intro x hx
    rcases h.place with ⟨hnone, -⟩ | ⟨y, hfound⟩
    · rw [hnone] at hx
      exact absurd hx (by simp)
    · obtain ⟨hy, hid⟩ := Table.find?_eq_some hfound
      rw [← Option.some.inj (hy.symm.trans hx)]
      simpa using hid
  have hother : ∀ i x, x.campaignId = id →
      db'.testingContracts.get? i = some x ∨ db.testingContracts.get? i = some x → i ≠ k := by
    rintro i x hx hrow rfl
    rcases hrow with hnew | hrow
    · have hsaved := Option.some.inj (h.contract.symm.trans hnew)
      rw [← hsaved, saved_campaignId] at hx
      exact hne hx.symm
    · exact hne (hx.symm.trans (hold x hrow))
  constructor
  · intro i x hx
    constructor
    · intro hrow
      exact (h.others i (hother i x hx (Or.inl hrow))).1.symm.trans hrow
    · intro hrow
      exact (h.others i (hother i x hx (Or.inr hrow))).1.trans hrow
  · intro i x hx hrow
    exact (h.others i (hother i x hx (Or.inr hrow))).2

/-- A publication locks the contract of its own campaign. -/
theorem publishCampaign_same {j : Uuid} {r : Uuid × Campaign}
    (hok : (publishCampaign j ownerId).alone now ⟨db, [], n⟩ = .ok (r, c)) (hf : Flushes c db')
    (hne : id ≠ j) : SameContract id db db' := by
  rcases publishCampaign_locks hok hf with ⟨rfl, -⟩ | ⟨k, hk, -, hlocks, htasks⟩
  · exact .of_eq rfl rfl
  · obtain ⟨hrow, hid⟩ := Table.find?_eq_some hk
    have hfor : k.2.campaignId = j := by simpa using hid
    refine ⟨fun i x hx => ?_, fun i x _ _ => by rw [Db.tasksOf, htasks]; rfl⟩
    rw [hlocks]
    by_cases hi : i = k.1
    · subst hi
      rw [Table.get?_modify_self, hrow]
      constructor
      · intro hsome
        rw [← Option.some.inj hsome] at hx
        exact absurd (hx.symm.trans hfor) hne
      · intro hsome
        rw [← Option.some.inj hsome] at hx
        exact absurd (hx.symm.trans hfor) hne
    · rw [Table.get?_modify_ne hi]

end TestExchange
