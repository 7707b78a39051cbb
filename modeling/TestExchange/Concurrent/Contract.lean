import TestExchange.Concurrent.Promise

/-!
# Saving and locking a contract at the same time

Saves of a contract and the publication of its campaign, interleaved. A save
reads the campaign and the contract without a lock before it rewrites the
contract and its tasks, and the publication locks neither of these rows before
it reads them, so a save can take effect on a contract that is locked by then.
In runs where no save does, a locked contract stays as it is.
-/

namespace TestExchange

open Txn Txn.Session Txn.World

/-- What an owner does about the contract of a campaign. -/
inductive ContractRequest where
  | save (payload : ContractUpsert)
  | publish

/-- What happens in the database while owners save contracts and publish. -/
abbrev ContractWorld := World Db Lock Failure ContractRequest

/-- The transaction of each request on the campaign. -/
def ContractRequest.program (campaignId ownerId : Uuid) :
    ContractRequest → Program Db Lock Failure Unit
  | .save payload => (discard (upsertContract campaignId ownerId payload)).commit
  | .publish => (discard (publishCampaign campaignId ownerId)).commit

/-- The contract that a save updates is not locked. -/
def contractOpen (x : Landing Db Lock Failure ContractRequest) : Bool :=
  match x.request with
  | .save _ => (x.write.rows x.view).all fun
      | .testingContract id => (x.db.testingContracts.get? id).all fun c => c.status ≠ .locked
      | _ => true
  | .publish => true

/-- What a contract promises, the same in both. -/
structure TestingContract.SameTerms (c c' : TestingContract) : Prop where
  campaignId : c'.campaignId = c.campaignId
  version : c'.version = c.version
  testerInstructions : c'.testerInstructions = c.testerInstructions
  accessInstructions : c'.accessInstructions = c.accessInstructions
  deviceRequirements : c'.deviceRequirements = c.deviceRequirements
  evidenceRequirements : c'.evidenceRequirements = c.evidenceRequirements
  reviewWindowHours : c'.reviewWindowHours = c.reviewWindowHours
  minimumDurationDays : c'.minimumDurationDays = c.minimumDurationDays
  requiredSessions : c'.requiredSessions = c.requiredSessions

/-- **Locked contracts stay locked, with their terms and their tasks.** -/
def LockedKept (db db' : Db) : Prop :=
  ∀ id c, db.testingContracts.get? id = some c → c.status = .locked →
    ∃ c', db'.testingContracts.get? id = some c' ∧ c'.status = .locked ∧ c.SameTerms c'
      ∧ db'.tasksOf id = db.tasksOf id

/-- What a commit does to contracts and tasks, depending on what it has locked. -/
structure ContractGuar (locks : List Lock) (db db' : Db) : Prop where
  contracts : ∀ id, .testingContract id ∉ locks →
    db'.testingContracts.get? id = db.testingContracts.get? id
  tasks : ∀ id, .contractTask id ∉ locks → db'.contractTasks.get? id = db.contractTasks.get? id
  kept : LockedKept db db'

/-- What the transactions agree on. -/
def contractProtocol : Protocol Db Lock Failure ContractRequest where
  Inv _ := True
  Guar := ContractGuar
  cond := contractOpen

variable {campaignId ownerId k : Uuid} {db : Db}

theorem TestingContract.SameTerms.refl (c : TestingContract) : c.SameTerms c :=
  ⟨rfl, rfl, rfl, rfl, rfl, rfl, rfl, rfl, rfl⟩

theorem TestingContract.SameTerms.trans {c₁ c₂ c₃ : TestingContract} (h : c₁.SameTerms c₂)
    (h' : c₂.SameTerms c₃) : c₁.SameTerms c₃ where
  campaignId := h'.campaignId.trans h.campaignId
  version := h'.version.trans h.version
  testerInstructions := h'.testerInstructions.trans h.testerInstructions
  accessInstructions := h'.accessInstructions.trans h.accessInstructions
  deviceRequirements := h'.deviceRequirements.trans h.deviceRequirements
  evidenceRequirements := h'.evidenceRequirements.trans h.evidenceRequirements
  reviewWindowHours := h'.reviewWindowHours.trans h.reviewWindowHours
  minimumDurationDays := h'.minimumDurationDays.trans h.minimumDurationDays
  requiredSessions := h'.requiredSessions.trans h.requiredSessions

theorem LockedKept.refl (db : Db) : LockedKept db db :=
  fun _ c hc hlocked => ⟨c, hc, hlocked, .refl c, rfl⟩

theorem LockedKept.trans {db₁ db₂ db₃ : Db} (h : LockedKept db₁ db₂) (h' : LockedKept db₂ db₃) :
    LockedKept db₁ db₃ := by
  intro id c hc hlocked
  obtain ⟨c₂, hc₂, hlocked₂, hsame₂, htasks₂⟩ := h id c hc hlocked
  obtain ⟨c₃, hc₃, hlocked₃, hsame₃, htasks₃⟩ := h' id c₂ hc₂ hlocked₂
  exact ⟨c₃, hc₃, hlocked₃, hsame₂.trans hsame₃, htasks₃.trans htasks₂⟩

/-! ## What a transaction may keep to itself -/

theorem stable_contract {held : List Lock} {o : Option TestingContract}
    (h : .testingContract k ∈ held) :
    contractProtocol.Stable held fun db => db.testingContracts.get? k = o := by
  intro locks s s' hl _ _ hg hs
  exact (hg.contracts k (hl _ h)).trans hs

/-- The listed tasks are tasks of the contract. -/
def TasksOfContract (k : Uuid) (ids : List Uuid) (db : Db) : Prop :=
  ∀ id ∈ ids, ∀ t, db.contractTasks.get? id = some t → t.contractId = k

theorem stable_tasks {held : List Lock} {ids : List Uuid}
    (h : ∀ id ∈ ids, .contractTask id ∈ held) :
    contractProtocol.Stable held (TasksOfContract k ids) := by
  intro locks s s' hl _ _ hg hs id hid t ht
  rw [hg.tasks id (hl _ (h id hid))] at ht
  exact hs id hid t ht

/-! ## Kinds of writes -/

/-- A write that changes only contracts and tasks whose rows it takes. -/
structure Framed (w : Write) : Prop where
  contracts : ∀ (db s : Db) (id : Uuid), .testingContract id ∉ w.rows s →
    (w.effect db).testingContracts.get? id = db.testingContracts.get? id
  tasks : ∀ (db s : Db) (id : Uuid), .contractTask id ∉ w.rows s →
    (w.effect db).contractTasks.get? id = db.contractTasks.get? id

/-- A write around contracts and tasks. -/
theorem Framed.of_eq {w : Write}
    (h : ∀ db : Db, (w.effect db).testingContracts = db.testingContracts
      ∧ (w.effect db).contractTasks = db.contractTasks) : Framed w :=
  ⟨fun db _ id _ => by rw [(h db).1], fun db _ id _ => by rw [(h db).2]⟩

/-- What a sequence of writes changes, it has locked. -/
theorem effects_framed {ws : List Write} {held : List Lock} (h : ∀ w ∈ ws, Framed w)
    (hheld : ∀ w ∈ ws, ∃ s, ∀ l ∈ w.rows s, l ∈ held) (db : Db) :
    (∀ id, .testingContract id ∉ held →
        (effects ws db).testingContracts.get? id = db.testingContracts.get? id)
      ∧ ∀ id, .contractTask id ∉ held →
        (effects ws db).contractTasks.get? id = db.contractTasks.get? id := by
  constructor
  · intro id hid
    refine effects_keep (f := fun db : Db => db.testingContracts.get? id) (fun w hw db => ?_) db
    obtain ⟨s, hs⟩ := hheld w hw
    exact (h w hw).contracts db s id fun hl => hid (hs _ hl)
  · intro id hid
    refine effects_keep (f := fun db : Db => db.contractTasks.get? id) (fun w hw db => ?_) db
    obtain ⟨s, hs⟩ := hheld w hw
    exact (h w hw).tasks db s id fun hl => hid (hs _ hl)

theorem framed_writeTestingContract {f : TestingContract → TestingContract} :
    Framed (writeTestingContract k f) where
  contracts := by
    intro db s id hid
    refine Table.get?_modify_ne ?_
    rintro rfl
    exact hid (List.mem_singleton_self _)
  tasks := fun _ _ _ _ => rfl

theorem framed_insertTestingContract {c : TestingContract} : Framed (insertTestingContract k c) where
  contracts := by
    intro db s id hid
    refine Table.get?_insert_ne ?_
    rintro rfl
    exact hid List.mem_cons_self
  tasks := fun _ _ _ _ => rfl

theorem framed_insertContractTask {t : ContractTask} : Framed (insertContractTask k t) where
  contracts := fun _ _ _ _ => rfl
  tasks := by
    intro db s id hid
    refine Table.get?_insert_ne ?_
    rintro rfl
    exact hid List.mem_cons_self

theorem framed_deleteContractTasks {ids : List Uuid} : Framed (deleteContractTasks ids) where
  contracts := fun _ _ _ _ => rfl
  tasks := by
    intro db s id hid
    show (db.contractTasks.erase ids).get? id = _
    rw [Table.get?_erase, if_neg fun hm => hid (List.mem_map_of_mem hm)]

/-! ## Saving -/

/-- A write of a save: it touches one contract and the tasks of that contract. -/
structure SaveWrite (k : Uuid) (w : Write) : Prop extends Framed w where
  otherContracts : ∀ (db : Db) (id : Uuid), id ≠ k →
    (w.effect db).testingContracts.get? id = db.testingContracts.get? id
  otherTasks : ∀ (db : Db) (id : Uuid), id ≠ k → (w.effect db).tasksOf id = db.tasksOf id

theorem saveWrite_of_eq {w : Write}
    (h : ∀ db : Db, (w.effect db).testingContracts = db.testingContracts
      ∧ (w.effect db).contractTasks = db.contractTasks) : SaveWrite k w where
  toFramed := .of_eq h
  otherContracts := fun db id _ => by rw [(h db).1]
  otherTasks := fun db id _ => by rw [Db.tasksOf, (h db).2]; rfl

theorem saveWrite_insert {c : TestingContract} : SaveWrite k (insertTestingContract k c) where
  toFramed := framed_insertTestingContract
  otherContracts := fun _ _ hid => Table.get?_insert_ne hid
  otherTasks := fun _ _ _ => rfl

theorem saveWrite_task {id : Uuid} {task : ContractTaskInput} {position : Nat} :
    SaveWrite k (insertContractTask id (task.task k position)) where
  toFramed := framed_insertContractTask
  otherContracts := fun _ _ _ => rfl
  otherTasks := by
    intro db j hj
    show (db.contractTasks.insert id (task.task k position)).where' _ = _
    cases hid : db.contractTasks.get? id with
    | some t => rw [Table.insert_of_mem hid]; rfl
    | none =>
        rw [Table.where'_insert hid, if_neg (by simp [ContractTaskInput.task, Ne.symm hj]),
          List.append_nil]
        rfl

/-- Deleting tasks of one contract leaves the others with theirs. -/
theorem tasksOf_delete {ids : List Uuid} {id : Uuid} (h : TasksOfContract k ids db) (hid : id ≠ k) :
    ((deleteContractTasks ids).effect db).tasksOf id = db.tasksOf id := by
  refine Table.where'_erase fun i hi t ht => ?_
  rw [h i hi t ht]
  simpa using Ne.symm hid

theorem effects_saveWrites {ws : List Write} (h : ∀ w ∈ ws, SaveWrite k w) {id : Uuid}
    (hid : id ≠ k) (db : Db) :
    (effects ws db).testingContracts.get? id = db.testingContracts.get? id
      ∧ (effects ws db).tasksOf id = db.tasksOf id :=
  ⟨effects_keep (f := fun db : Db => db.testingContracts.get? id)
      (fun w hw db => (h w hw).otherContracts db id hid) db,
    effects_keep (f := fun db : Db => db.tasksOf id)
      (fun w hw db => (h w hw).otherTasks db id hid) db⟩

/-- The commit of a save: it has changed the one contract, which is not locked. -/
theorem commits_save {c : Ctx Db Lock Failure} {ws : List Write} (hsent : Sends ws (.start db) c)
    (hws : ∀ w ∈ ws, Framed w)
    (hothers : ∀ s, c.known s → ∀ id, id ≠ k →
      (effects ws s).testingContracts.get? id = s.testingContracts.get? id
        ∧ (effects ws s).tasksOf id = s.tasksOf id)
    (hopen : ∀ s, c.known s → ∀ x, s.testingContracts.get? k = some x → x.status ≠ .locked) :
    contractProtocol.Commits c := by
  intro s _ hk
  have hview : c.view s = effects ws s := by
    rw [Ctx.view, hsent.writes]
    rfl
  obtain ⟨hcontracts, htasks⟩ := effects_framed hws hsent.locked s
  rw [hview]
  refine ⟨⟨hcontracts, htasks, ?_⟩, trivial⟩
  intro id x hx hlocked
  have hid : id ≠ k := by
    rintro rfl
    exact hopen s hk x hx hlocked
  obtain ⟨hcontract, htasks⟩ := hothers s hk id hid
  exact ⟨x, hcontract.trans hx, hlocked, .refl x, htasks⟩

/-- The last flush of a save, after the writes `ws`. -/
theorem swp_finishSave {r : ContractRequest} {c : Ctx Db Lock Failure} {ws queue : List Write}
    (hsent : Sends ws (.start db) c) (hws : ∀ w ∈ ws, Framed w)
    (hothers : ∀ s, c.known s → ∀ id, id ≠ k →
      (effects ws s).testingContracts.get? id = s.testingContracts.get? id
        ∧ (effects ws s).tasksOf id = s.tasksOf id)
    (hopen : ∀ s, c.known s → ∀ x, s.testingContracts.get? k = some x → x.status ≠ .locked)
    (hqueue : ∀ w ∈ queue, SaveWrite k w) :
    swp contractProtocol r (sendAll queue)
      (fun _ => swp contractProtocol r flush fun _ _ c => contractProtocol.Commits c) [] c := by
  refine swp_sendAll_sends fun c' hc => commits_save (k := k) (hsent.trans hc) ?_ ?_ ?_
  · exact fun w hw => (List.mem_append.mp hw).elim (hws w) fun hw => (hqueue w hw).toFramed
  · intro s hk id hid
    obtain ⟨hcontract, htasks⟩ := hothers s (hc.known s hk) id hid
    obtain ⟨hcontract', htasks'⟩ := effects_saveWrites hqueue hid (effects ws s)
    rw [effects_append]
    exact ⟨hcontract'.trans hcontract, htasks'.trans htasks⟩
  · exact fun s hk => hopen s (hc.known s hk)

/-- The tasks are queued one by one. -/
theorem swp_addTasks {R : Type} {P : Protocol Db Lock Failure R} {r : R}
    {tasks : List ContractTaskInput} {position : Nat} {ws : List Write} {c : Ctx Db Lock Failure}
    {post : Unit → List Write → Ctx Db Lock Failure → Prop}
    (hpost : ∀ vs, (∀ w ∈ vs, SaveWrite k w) → post () (ws ++ vs) c) :
    swp P r (addTasks k position tasks) post ws c := by
  induction tasks generalizing position ws with
  | nil =>
      have hnil := hpost [] (by simp)
      rw [List.append_nil] at hnil
      exact hnil
  | cons task tasks ih =>
      simp only [addTasks, swp_bind, swp_uuid4, swp_add]
      intro id
      refine ih fun vs hvs => ?_
      rw [List.append_assoc]
      refine hpost _ fun w hw => ?_
      rcases List.mem_cons.mp hw with rfl | hw
      · exact saveWrite_task
      · exact hvs w hw

theorem contractOpen_write {payload : ContractUpsert} {seen view : Db}
    {f : TestingContract → TestingContract} {x : TestingContract}
    (h : contractOpen ⟨.save payload, seen, view, db, writeTestingContract k f⟩ = true)
    (hx : db.testingContracts.get? k = some x) : x.status ≠ .locked := by
  simpa [contractOpen, writeTestingContract, hx] using h

theorem saveWrite_queue {vs : List Write} {e : AuditEvent} (h : ∀ w ∈ vs, SaveWrite k w) :
    ∀ w ∈ vs ++ [insertAuditEvent e], SaveWrite k w := by
  intro w hw
  rcases List.mem_append.mp hw with hw | hw
  · exact h w hw
  · rw [List.mem_singleton.mp hw]
    exact saveWrite_of_eq fun _ => ⟨rfl, rfl⟩

/-- **A save keeps to the protocol.** -/
theorem upsertContract_safe (payload : ContractUpsert) :
    contractProtocol.Safe (.save payload)
      (ContractRequest.program campaignId ownerId (.save payload)) := by
  refine safe_commit fun s₀ _ => ?_
  simp only [discard, upsertContract, getCampaign, requireCampaignOwner, swp_bind, swp_pure,
    swp_orRaise, swp_raiseIf]
  rw [swp_query]
  intro s₁ _ _
  refine .skip fun _ _ _ _ => ?_
  rw [swp_query]
  intro s₂ _ _
  refine .skip ?_
  simp only [Ctx.view_see, Ctx.view_start, addAuditEvent, swp_add]
  cases s₂.contractOf campaignId with
  | none =>
      -- the contract is new
      simp only [saveContract, swp_bind, swp_uuid4, swp_add, swp_flush, List.nil_append,
        swp_sendAll_cons, swp_sendAll_nil, swp_pure]
      intro k
      rw [swp_execute]
      intro s₃ _ _ hv _
      simp only [Ctx.view_see, Ctx.view_start, insertTestingContract, firstViolated_cons,
        Table.contains_eq_false] at hv
      refine .pick _ (stable_contract (o := none) ?_) hv.1 (swp_addTasks fun vs hvs => ?_)
      · exact List.mem_append_left _ List.mem_cons_self
      rw [List.nil_append]
      have hinsert : ∀ w ∈ [insertTestingContract k (payload.contract campaignId)], SaveWrite k w :=
        fun w hw => List.mem_singleton.mp hw ▸ saveWrite_insert
      refine swp_finishSave (Sends.see.trans (Sends.see.trans (Sends.wrote.trans .learn)))
        (fun w hw => (hinsert w hw).toFramed) (fun s _ id hid => effects_saveWrites hinsert hid s)
        ?_ (saveWrite_queue hvs)
      -- nothing was there to be locked
      intro s hk x hx
      rw [hk.2] at hx
      exact absurd hx (by simp)
  | some found =>
      obtain ⟨k, contract⟩ := found
      simp only [saveContract, swp_bind, swp_raiseIf, swp_add, swp_pure]
      intro _
      rw [swp_queryForUpdate]
      intro s₃ _ _
      simp only [Ctx.view_see, Ctx.view_start]
      -- the tasks are locked before they are deleted
      refine .pick _ (@stable_tasks k _ ((s₃.tasksOf k).map Prod.fst) ?_) ?_ ?_
      · intro id hid
        obtain ⟨r, hr, rfl⟩ := List.mem_map.mp hid
        exact List.mem_append_left _ (List.mem_map_of_mem hr)
      · intro id hid t ht
        obtain ⟨⟨_, t'⟩, hr, rfl⟩ := List.mem_map.mp hid
        obtain ⟨hrow, hof⟩ := Table.mem_where'.mp hr
        obtain rfl := Option.some.inj (hrow.symm.trans ht)
        simpa using hof
      rw [swp_execute]
      intro s₄ _ _ _ _
      refine .skip (swp_addTasks fun vs hvs => ?_)
      simp only [swp_flush, List.nil_append, List.cons_append, swp_sendAll_cons]
      rw [swp_execute]
      intro s₅ _ _ _ hcond
      -- the update locks the contract, which nobody changes until the commit
      refine .pick _ (stable_contract (o := s₅.testingContracts.get? k) ?_) rfl ?_
      · exact List.mem_append_left _ List.mem_cons_self
      refine swp_finishSave (k := k) (Sends.see.trans (Sends.see.trans (Sends.see.trans
        (Sends.hold.trans (Sends.learn.trans (Sends.wrote.trans (Sends.wrote.trans .learn)))))))
        ?_ ?_ ?_ (saveWrite_queue hvs)
      · intro w hw
        simp only [List.nil_append, List.append_nil, List.cons_append, List.mem_cons,
          List.not_mem_nil, or_false] at hw
        rcases hw with rfl | rfl
        · exact framed_deleteContractTasks
        · exact framed_writeTestingContract
      · intro s hk id hid
        exact ⟨Table.get?_modify_ne hid, tasksOf_delete hk.1.2 hid⟩
      · intro s hk x hx
        -- the write landed on an open contract, which is what the condition says
        exact contractOpen_write hcond (hk.2 ▸ hx)

/-! ## Publishing -/

/-- A write of a publication: no task changes, and a contract only gets locked. -/
structure PublishWrite (w : Write) : Prop extends Framed w where
  kept : ∀ db : Db, LockedKept db (w.effect db)

theorem publishWrite_of_eq {w : Write}
    (h : ∀ db : Db, (w.effect db).testingContracts = db.testingContracts
      ∧ (w.effect db).contractTasks = db.contractTasks) : PublishWrite w where
  toFramed := .of_eq h
  kept := by
    intro db id c hc hlocked
    exact ⟨c, by rw [(h db).1]; exact hc, hlocked, .refl c, by rw [Db.tasksOf, (h db).2]; rfl⟩

theorem publishWrite_lock {now : Time} :
    PublishWrite (writeTestingContract k fun c => { c with status := .locked, lockedAt := some now })
    where
  toFramed := framed_writeTestingContract
  kept := by
    intro db id c hc hlocked
    by_cases hid : id = k
    · subst hid
      refine ⟨{ c with status := .locked, lockedAt := some now }, ?_, rfl,
        ⟨rfl, rfl, rfl, rfl, rfl, rfl, rfl, rfl, rfl⟩, rfl⟩
      show (db.testingContracts.modify id _).get? id = _
      rw [Table.get?_modify_self, hc]
      rfl
    · exact ⟨c, (Table.get?_modify_ne hid).trans hc, hlocked, .refl c, rfl⟩

theorem effects_publishWrites {ws : List Write} (h : ∀ w ∈ ws, PublishWrite w) (db : Db) :
    LockedKept db (effects ws db) := by
  induction ws generalizing db with
  | nil => exact .refl db
  | cons w ws ih =>
      have hrest := ih (fun v hv => h v (List.mem_cons_of_mem _ hv)) (w.effect db)
      exact ((h w List.mem_cons_self).kept db).trans hrest

theorem publishCampaign_writes : Only PublishWrite (publishCampaign campaignId ownerId) := by
  have haround : ∀ {w : Write}, (∀ db : Db, (w.effect db).testingContracts = db.testingContracts
      ∧ (w.effect db).contractTasks = db.contractTasks) → PublishWrite w := publishWrite_of_eq
  refine only_publishCampaign ?_ (fun _ _ => publishWrite_lock) ?_ ?_ ?_ ?_
  · exact fun _ => haround fun _ => ⟨rfl, rfl⟩
  · exact fun _ _ => haround fun _ => ⟨rfl, rfl⟩
  · exact fun _ _ => haround fun _ => ⟨rfl, rfl⟩
  · exact fun _ => haround fun _ => ⟨rfl, rfl⟩
  · exact fun _ => haround fun _ => ⟨rfl, rfl⟩

/-- **The publication keeps to the protocol.** -/
theorem publishCampaign_keeps_locked :
    contractProtocol.Safe .publish
      (ContractRequest.program campaignId ownerId .publish) := by
  refine safe_commit fun s₀ _ => ?_
  refine swp_finish (W := PublishWrite) (publishCampaign_writes.bind fun _ => only_pure) (by simp) ?_
  rintro c ⟨ws, hws, hsent⟩ s _ _
  have hview : c.view s = effects ws s := by
    rw [Ctx.view, hsent.writes]
    rfl
  obtain ⟨hcontracts, htasks⟩ := effects_framed (fun w hw => (hws w hw).toFramed) hsent.locked s
  rw [hview]
  exact ⟨⟨hcontracts, htasks, effects_publishWrites hws s⟩, trivial⟩

theorem contractRequest_safe (request : ContractRequest) :
    contractProtocol.Safe request (request.program campaignId ownerId) := by
  cases request with
  | save payload => exact upsertContract_safe payload
  | publish => exact publishCampaign_keeps_locked

/--
**A locked contract is immutable** in a run in which no save takes effect on a
contract that is locked by then.
-/
theorem contract_immutable (db : Db) (next : Nat) {acts acts' : List (Act ContractRequest)}
    {w w' : ContractWorld}
    (h : Runs (World.Step (ContractRequest.program campaignId ownerId) contractOpen)
      (.idle db next) acts w)
    (h' : Runs (World.Step (ContractRequest.program campaignId ownerId) contractOpen) w acts' w') :
    LockedKept w.db w'.db := by
  have hgood := Protocol.good_runs (P := contractProtocol) contractRequest_safe
    (Protocol.good_idle trivial next) h
  exact Protocol.relates_runs (P := contractProtocol) contractRequest_safe hgood h' .refl
    (fun _ _ _ => .trans) fun _ _ _ _ _ hg => hg.kept

/-! ## The gap -/

/-- A save that asks for a video. -/
def videoContract : ContractUpsert :=
  { benchCampaign.contract with evidenceRequirements := "A video of it" }

/-- The save and the publication meet, and the publication waits for the row of the contract. -/
def orderlySave : List (Act ContractRequest) :=
  .start 1 (.save videoContract) :: moves 1 8 ++ .start 2 .publish :: moves 2 13 ++ moves 1 5
    ++ moves 2 4

theorem contract_immutable_video :
    ∃ w w', (World.idle draftService.db draftService.nextId).runWhen
        (ContractRequest.program 1 1) contractOpen orderlySave = some w
      ∧ w.runWhen (ContractRequest.program 1 1) contractOpen
          (.start 3 (.save benchCampaign.contract) :: moves 3 1) = some w'
      ∧ LockedKept w.db w'.db := by
  have hsome : (((World.idle draftService.db draftService.nextId).runWhen
      (ContractRequest.program 1 1) contractOpen orderlySave).bind fun w =>
        w.runWhen (ContractRequest.program 1 1) contractOpen
          (.start 3 (.save benchCampaign.contract) :: moves 3 1)).isSome = true := by decide +kernel
  obtain ⟨w', hboth⟩ := Option.isSome_iff_exists.mp hsome
  obtain ⟨w, hw, hw'⟩ := Option.bind_eq_some_iff.mp hboth
  exact ⟨w, w', hw, hw', contract_immutable _ _ (World.runs_iff_runWhen.mpr hw)
    (World.runs_iff_runWhen.mpr hw')⟩

/-- The publication commits after a save has deleted the tasks and before it writes the contract. -/
def lateSave : List (Act ContractRequest) :=
  .start 1 (.save videoContract) :: moves 1 5 ++ .start 2 .publish :: moves 2 17

/-- The status and the version of the contract. -/
def contractOutcome (w : ContractWorld) : Option (ContractStatus × Nat) :=
  (w.db.testingContracts.get? 2).map fun c => (c.status, c.version)

/-- The contract is locked as version 1, and becomes version 2 with other tasks. -/
theorem locked_contract_rewritten :
    ¬∀ (campaignId ownerId : Uuid) (db : Db) (next : Nat) (acts acts' : List (Act ContractRequest))
      (w w' : ContractWorld),
      (World.idle db next).run (ContractRequest.program campaignId ownerId) acts = some w →
        w.run (ContractRequest.program campaignId ownerId) acts' = some w' →
          LockedKept w.db w'.db := by
  intro h
  have hrun : ((World.idle draftService.db draftService.nextId).run (ContractRequest.program 1 1)
      lateSave).bind (fun w => (w.run (ContractRequest.program 1 1) (moves 1 8)).map fun w' =>
        (contractOutcome w, contractOutcome w')) = some (some (.locked, 1), some (.locked, 2)) := by
    decide +kernel
  obtain ⟨w, hw, hrest⟩ := Option.bind_eq_some_iff.mp hrun
  obtain ⟨w', hw', hout⟩ := Option.map_eq_some_iff.mp hrest
  obtain ⟨hbefore, hafter⟩ := Prod.mk.inj hout
  obtain ⟨c, hc, hrow⟩ := Option.map_eq_some_iff.mp hbefore
  obtain ⟨hlocked, hversion⟩ := Prod.mk.inj hrow
  obtain ⟨c', hc', _, hsame, _⟩ := h 1 1 _ _ _ _ w w' hw hw' 2 c hc hlocked
  rw [contractOutcome, hc'] at hafter
  have hversion' := (Prod.mk.inj (Option.some.inj hafter)).2
  rw [hsame.version, hversion] at hversion'
  exact absurd hversion' (by decide)

end TestExchange
