import TestExchange.Spec.Exchange

/-!
# What the shared pieces of a service do to the marketplace

A session knows two databases: the one its statements see, and the one that
would be there if its queue were flushed. `Flushes` names the second. The
lemmas here say, for the writes and for the helpers that several services call,
how the marketplace in it changes; the guards a service checks are read off the
first.
-/

namespace TestExchange

open Txn Txn.Session Exchange

/-- A connection to this database. -/
abbrev Conn := Txn.Conn Db Lock Failure

/-- Flushing the queue of `c` succeeds and gives `db`. -/
def Flushes (c : Conn) (db : Db) : Prop := applyAll c.pending c.db = some db

theorem flushes_append {c : Conn} {ws : List Write} {db : Db}
    (h : applyAll (c.pending ++ ws) c.db = some db) :
    ∃ d, Flushes c d ∧ applyAll ws d = some db := applyAll_append.mp h

/-! ## Writes -/

section Writes

variable {db : Db} {id : Uuid}

@[simp] theorem exchange_insertProfile {p : Profile} :
    ((insertProfile id p).effect db).exchange
      = { db.exchange with profiles := db.exchange.profiles.insert id p } := rfl

@[simp] theorem exchange_writeProfile {f : Profile → Profile} :
    ((writeProfile id f).effect db).exchange
      = { db.exchange with profiles := db.exchange.profiles.modify id f } := rfl

@[simp] theorem exchange_writeSavedProfile {loaded username : String} {f : Profile → Profile} :
    ((writeSavedProfile id loaded username f).effect db).exchange
      = { db.exchange with profiles := db.exchange.profiles.modify id f } := rfl

@[simp] theorem exchange_insertBetaProgramState {state : BetaProgramState} :
    ((insertBetaProgramState state).effect db).exchange = db.exchange := rfl

@[simp] theorem exchange_writeBetaProgramState {state : BetaProgramState} :
    ((writeBetaProgramState state).effect db).exchange = db.exchange := rfl

@[simp] theorem exchange_insertWaitlistEntry {e : WaitlistEntry} :
    ((insertWaitlistEntry id e).effect db).exchange = db.exchange := rfl

@[simp] theorem exchange_insertCampaign {c : Campaign} :
    ((insertCampaign id c).effect db).exchange
      = { db.exchange with campaigns := db.exchange.campaigns.insert id c } := rfl

@[simp] theorem exchange_writeCampaign {f : Campaign → Campaign} :
    ((writeCampaign id f).effect db).exchange = db.exchange.modifyCampaign id f := rfl

@[simp] theorem exchange_patchCampaign {payload : CampaignUpdate} {loaded : Campaign} :
    ((patchCampaign id payload loaded).effect db).exchange
      = db.exchange.modifyCampaign id (payload.set loaded) := rfl

@[simp] theorem exchange_insertTestingContract {c : TestingContract} :
    ((insertTestingContract id c).effect db).exchange = db.exchange := rfl

@[simp] theorem exchange_writeTestingContract {f : TestingContract → TestingContract} :
    ((writeTestingContract id f).effect db).exchange = db.exchange := rfl

@[simp] theorem exchange_insertContractTask {t : ContractTask} :
    ((insertContractTask id t).effect db).exchange = db.exchange := rfl

@[simp] theorem exchange_deleteContractTasks {ids : List Uuid} :
    ((deleteContractTasks ids).effect db).exchange = db.exchange := rfl

@[simp] theorem exchange_insertAssignment {a : Assignment} :
    ((insertAssignment id a).effect db).exchange
      = { db.exchange with assignments := db.exchange.assignments.insert id a } := rfl

@[simp] theorem exchange_writeAssignment {f : Assignment → Assignment} :
    ((writeAssignment id f).effect db).exchange = db.exchange.modifyAssignment id f := rfl

@[simp] theorem exchange_insertTestingSession {t : TestingSession} :
    ((insertTestingSession id t).effect db).exchange = db.exchange := rfl

@[simp] theorem exchange_insertEvidenceSubmission {e : EvidenceSubmission} :
    ((insertEvidenceSubmission id e).effect db).exchange
      = { db.exchange with
          evidenceSubmissions := db.exchange.evidenceSubmissions.insert id e } := rfl

@[simp] theorem exchange_writeEvidenceSubmission {f : EvidenceSubmission → EvidenceSubmission} :
    ((writeEvidenceSubmission id f).effect db).exchange = db.exchange.modifySubmission id f := rfl

@[simp] theorem exchange_insertEvidenceItem {e : EvidenceItem} :
    ((insertEvidenceItem id e).effect db).exchange = db.exchange := rfl

@[simp] theorem exchange_insertMessage {m : Message} :
    ((insertMessage id m).effect db).exchange = db.exchange := rfl

@[simp] theorem exchange_insertReview {r : Review} :
    ((insertReview id r).effect db).exchange
      = { db.exchange with reviews := db.exchange.reviews.insert id r } := rfl

@[simp] theorem exchange_insertDispute {d : Dispute} :
    ((insertDispute id d).effect db).exchange
      = { db.exchange with disputes := db.exchange.disputes.insert id d } := rfl

@[simp] theorem exchange_writeDispute {userId : Uuid} {fkey : String} {f : Dispute → Dispute} :
    ((writeDispute id userId fkey f).effect db).exchange = db.exchange.modifyDispute id f := rfl

@[simp] theorem exchange_insertNotification {n : Notification} :
    ((insertNotification id n).effect db).exchange = db.exchange := rfl

@[simp] theorem exchange_writeNotification {f : Notification → Notification} :
    ((writeNotification id f).effect db).exchange = db.exchange := rfl

@[simp] theorem exchange_writeNotificationsRead {ids : List Uuid} {now : Time} :
    ((writeNotificationsRead ids now).effect db).exchange = db.exchange := rfl

/-- A new account: opening it changes the marketplace as `openAccount` does. -/
@[simp] theorem exchange_insertCreditAccount :
    ((insertCreditAccount id ⟨0⟩).effect db).exchange = db.exchange.openAccount id := rfl

@[simp] theorem exchange_insertAuditEvent {e : AuditEvent} :
    ((insertAuditEvent e).effect db).exchange = db.exchange.record e := by
  unfold insertAuditEvent Db.exchange Exchange.record
  simp only [Exchange.mk.injEq, true_and]
  funext entityType id
  simp only [Db.eventsOf, List.filter_append, List.filter_singleton, Bool.cond_decide]

end Writes

/-! ## Helpers that only look -/

section Reads

variable {now : Nat} {c c' : Conn}

theorem selectForUpdate_ok {α : Type} {table : Db → Table α} {lock : Uuid → Lock} {id : Uuid}
    {r : Option α} :
    (selectForUpdate table lock id).alone now c = .ok (r, c')
      ↔ r = (table c.db).get? id ∧ c' = c := alone_queryForUpdate

theorem getProfile_ok {id : Uuid} {p : Profile} :
    (getProfile id).alone now c = .ok (p, c') ↔ c.db.profiles.get? id = some p ∧ c' = c := by
  simp only [getProfile, alone_bind, alone_query, alone_orRaise, and_assoc, exists_and_left,
    exists_eq_left]

theorem getCampaign_ok {id : Uuid} {x : Campaign} :
    (getCampaign id).alone now c = .ok (x, c') ↔ c.db.campaigns.get? id = some x ∧ c' = c := by
  simp only [getCampaign, alone_bind, alone_query, alone_orRaise, and_assoc, exists_and_left,
    exists_eq_left]

theorem getAssignment_ok {id : Uuid} {a : Assignment} :
    (getAssignment id).alone now c = .ok (a, c')
      ↔ c.db.assignments.get? id = some a ∧ c' = c := by
  simp only [getAssignment, alone_bind, alone_query, alone_orRaise, and_assoc, exists_and_left,
    exists_eq_left]

theorem requireCampaignOwner_ok {campaign : Campaign} {userId : Uuid} {u : Unit} :
    (requireCampaignOwner campaign userId).alone now c = .ok (u, c')
      ↔ campaign.ownerId = userId ∧ c' = c := by
  rw [requireCampaignOwner, alone_raiseIf, not_not]

theorem requireAssignmentParticipant_ok {a : Assignment} {userId : Uuid} {x : Campaign} :
    (requireAssignmentParticipant a userId).alone now c = .ok (x, c')
      ↔ c.db.campaigns.get? a.campaignId = some x
        ∧ ¬(userId ≠ a.testerId ∧ userId ≠ x.ownerId) ∧ c' = c := by
  simp only [requireAssignmentParticipant, alone_bind, getCampaign_ok, alone_raiseIf, alone_pure,
    and_assoc, exists_and_left, exists_eq_left, exists_const]
  constructor
  · intro ⟨x', hx, hu, he, hc⟩; subst he; exact ⟨hx, hu, hc⟩
  · intro ⟨hx, hu, hc⟩; exact ⟨x, hx, hu, rfl, hc⟩

theorem testerDisplayName_ok {a : Assignment} {name : String}
    (h : (testerDisplayName a).alone now c = .ok (name, c')) : c' = c :=
  (alone_query.mp h).2

theorem addAuditEvent_ok {actorId : Option Uuid} {action entityType : String} {id : Uuid}
    {details : List (String × Json)} {u : Unit} :
    (addAuditEvent actorId action entityType id details).alone now c = .ok (u, c')
      ↔ c' = { c with
          pending := c.pending ++ [insertAuditEvent ⟨actorId, action, entityType, id, details⟩] } :=
  alone_add

theorem getContract_ok {id : Uuid}
    {r : (Uuid × TestingContract) × List (Uuid × ContractTask)} :
    (getContract id).alone now c = .ok (r, c')
      ↔ c.db.contractOf id = some r.1 ∧ r.2 = sortTasks (c.db.tasksOf r.1.1) ∧ c' = c := by
  simp only [getContract, alone_bind, alone_query, alone_orRaise, alone_pure, and_assoc,
    exists_and_left, exists_eq_left]
  constructor
  · intro ⟨x, hx, hr, hc⟩; subst hr; exact ⟨hx, rfl, hc⟩
  · intro ⟨hx, hr, hc⟩; exact ⟨r.1, hx, by rw [← hr], hc⟩

theorem contractForAssignment_ok {a : Assignment}
    {r : (Uuid × TestingContract) × List (Uuid × ContractTask)} :
    (contractForAssignment a).alone now c = .ok (r, c')
      ↔ c.db.contractOf a.campaignId = some r.1 ∧ r.2 = c.db.tasksOf r.1.1 ∧ c' = c := by
  simp only [contractForAssignment, alone_bind, alone_query, alone_orRaise, alone_pure, and_assoc,
    exists_and_left, exists_eq_left]
  constructor
  · intro ⟨x, hx, hr, hc⟩; subst hr; exact ⟨hx, rfl, hc⟩
  · intro ⟨hx, hr, hc⟩; exact ⟨r.1, hx, by rw [← hr], hc⟩

theorem checkItems_ok {id : Uuid} {items : List EvidenceItemCreate} {u : Unit}
    (h : (checkItems id items).alone now c = .ok (u, c')) : c' = c := by
  induction items generalizing c with
  | nil => exact (alone_pure.mp h).2
  | cons item items ih =>
      cases hk : item.storageKey with
      | none =>
          simp only [checkItems, hk, alone_bind, alone_raiseIf] at h
          obtain ⟨_, _, ⟨_, rfl⟩, hrest⟩ := h
          exact ih hrest
      | some key =>
          simp only [checkItems, hk, alone_bind, alone_raiseIf] at h
          obtain ⟨_, _, ⟨_, rfl⟩, _, c₁, hkey, hrest⟩ := h
          have hc₁ := (alone_raiseIf.mp hkey).2
          subst hc₁
          exact ih hrest

end Reads

/-! ## Helpers that write around the marketplace -/

section Silent

variable {now : Nat} {c c' : Conn} {db : Db}

/-- **A notification changes nothing else**, whether it is sent or was sent before. -/
theorem addNotification_flushes {n : Notification} {u : Unit}
    (h : (addNotification n).alone now c = .ok (u, c')) (hf : Flushes c' db) :
    ∃ d, Flushes c d ∧ db.exchange = d.exchange := by
  simp only [addNotification, alone_bind, alone_query, and_assoc, exists_and_left,
    exists_eq_left] at h
  cases hx : c.db.notifications.find? fun _ m => m.idempotencyKey = n.idempotencyKey with
  | some m =>
      rw [hx] at h
      obtain ⟨_, rfl⟩ := alone_pure.mp h
      exact ⟨db, hf, rfl⟩
  | none =>
      rw [hx] at h
      simp only [alone_bind, alone_uuid4, alone_add, alone_flush, and_assoc, exists_and_left,
        exists_eq_left, exists_const] at h
      obtain ⟨db₁, hdb₁, rfl⟩ := h
      obtain ⟨d, hd, hw⟩ := flushes_append hdb₁
      rw [applyAll_cons, applyAll_nil] at hw
      have hdb : db = db₁ := applyAll_nil.mp hf
      exact ⟨d, hd, by rw [hdb, hw.2, exchange_insertNotification]⟩

theorem addTasks_flushes {contractId : Uuid} {tasks : List ContractTaskInput} {position : Nat}
    {u : Unit} (h : (addTasks contractId position tasks).alone now c = .ok (u, c'))
    (hf : Flushes c' db) : c'.db = c.db ∧ ∃ d, Flushes c d ∧ db.exchange = d.exchange := by
  induction tasks generalizing c position with
  | nil =>
      obtain ⟨_, rfl⟩ := alone_pure.mp h
      exact ⟨rfl, db, hf, rfl⟩
  | cons task tasks ih =>
      simp only [addTasks, alone_bind, alone_uuid4, alone_add, and_assoc, exists_and_left,
        exists_eq_left, exists_const] at h
      obtain ⟨hdb, d₁, hd₁, he⟩ := ih h
      obtain ⟨d, hd, hw⟩ := flushes_append hd₁
      rw [applyAll_cons, applyAll_nil] at hw
      exact ⟨hdb, d, hd, by rw [he, hw.2, exchange_insertContractTask]⟩

theorem addItems_flushes {submissionId : Uuid} {items : List EvidenceItemCreate} {u : Unit}
    (h : (addItems submissionId items).alone now c = .ok (u, c')) (hf : Flushes c' db) :
    c'.db = c.db ∧ ∃ d, Flushes c d ∧ db.exchange = d.exchange := by
  induction items generalizing c with
  | nil =>
      obtain ⟨_, rfl⟩ := alone_pure.mp h
      exact ⟨rfl, db, hf, rfl⟩
  | cons item items ih =>
      simp only [addItems, alone_bind, alone_uuid4, alone_add, and_assoc, exists_and_left,
        exists_eq_left, exists_const] at h
      obtain ⟨hdb, d₁, hd₁, he⟩ := ih h
      obtain ⟨d, hd, hw⟩ := flushes_append hd₁
      rw [applyAll_cons, applyAll_nil] at hw
      exact ⟨hdb, d, hd, by rw [he, hw.2, exchange_insertEvidenceItem]⟩

end Silent

/-! ## Credits -/

section Credits

variable {now : Nat} {c c' : Conn} {db : Db} {userId : Uuid}

theorem ensureCreditAccount_some {account a : CreditAccount}
    (hx : c.db.creditAccounts.get? userId = some account) :
    (ensureCreditAccount userId).alone now c = .ok (a, c') ↔ a = account ∧ c' = c := by
  simp only [ensureCreditAccount, alone_bind, alone_query, and_assoc, exists_and_left,
    exists_eq_left, hx, alone_pure]

theorem ensureCreditAccount_none {a : CreditAccount}
    (hx : c.db.creditAccounts.get? userId = none)
    (h : (ensureCreditAccount userId).alone now c = .ok (a, c')) :
    a = ⟨0⟩ ∧ ∃ d, Flushes c d ∧ c' = ⟨(insertCreditAccount userId ⟨0⟩).effect d, [], c.next⟩ := by
  simp only [ensureCreditAccount, alone_bind, alone_query, and_assoc, exists_and_left,
    exists_eq_left, hx, alone_add, alone_flush, alone_pure, exists_const, applyAll_append,
    applyAll_cons, applyAll_nil] at h
  obtain ⟨c₁, ⟨d₁, ⟨d, hd, _, rfl⟩, rfl⟩, rfl, rfl⟩ := h
  exact ⟨rfl, d, hd, rfl⟩

/-- Looking an account up for an update opens it if it is missing. -/
theorem getCreditAccountForUpdate_flushes {a : CreditAccount}
    (h : (getCreditAccountForUpdate userId).alone now c = .ok (a, c'))
    (hq : ∀ d, Flushes c d → d.creditAccounts = c.db.creditAccounts) (hf : Flushes c' db) :
    a.balance = c.db.exchange.balance userId ∧ (db.creditAccounts.get? userId).isSome
      ∧ ∃ d, Flushes c d ∧ db.exchange = d.exchange.openAccount userId := by
  simp only [getCreditAccountForUpdate, alone_bind, selectForUpdate_ok, and_assoc, exists_and_left,
    exists_eq_left] at h
  cases hx : c.db.creditAccounts.get? userId with
  | some account =>
      rw [hx] at h
      obtain ⟨rfl, rfl⟩ := alone_pure.mp h
      have hdb : db.creditAccounts.get? userId = some a := by rw [hq db hf]; exact hx
      refine ⟨?_, by rw [hdb]; rfl, db, hf, ?_⟩
      · show a.balance = (c'.db.creditAccounts.get? userId).elim 0 (·.balance)
        rw [hx]
        rfl
      · show db.exchange = { db.exchange with creditAccounts := db.creditAccounts.insert userId ⟨0⟩ }
        rw [Table.insert_of_mem hdb]
        rfl
  | none =>
      rw [hx] at h
      obtain ⟨rfl, d, hd, rfl⟩ := ensureCreditAccount_none hx h
      have hdb : db = (insertCreditAccount userId ⟨0⟩).effect d := applyAll_nil.mp hf
      have hnone : d.creditAccounts.get? userId = none := by rw [hq d hd]; exact hx
      refine ⟨?_, ?_, d, hd, by rw [hdb, exchange_insertCreditAccount]⟩
      · show (0 : Int) = (c.db.creditAccounts.get? userId).elim 0 (·.balance)
        rw [hx]
        rfl
      · rw [hdb]
        show ((d.creditAccounts.insert userId ⟨0⟩).get? userId).isSome = true
        rw [Table.get?_insert_self hnone]
        rfl

/--
**Recording a credit change moves the balance and the ledger together, once per
key.** What is queued must leave both alone, since the lookups do not see it.
-/
theorem recordCreditEntry_flushes {change : CreditChange} {e : CreditLedgerEntry}
    (h : (recordCreditEntry change).alone now c = .ok (e, c'))
    (hq : ∀ d, Flushes c d → d.creditAccounts = c.db.creditAccounts
      ∧ d.creditLedgerEntries = c.db.creditLedgerEntries)
    (hf : Flushes c' db) : ∃ d, Flushes c d ∧ Credited change d.exchange db.exchange := by
  simp only [recordCreditEntry, alone_bind, alone_query, and_assoc, exists_and_left,
    exists_eq_left] at h
  cases hx : c.db.creditLedgerEntries.find? fun e => e.idempotencyKey = change.idempotencyKey with
  | some entry =>
      rw [hx] at h
      obtain ⟨rfl, rfl⟩ := alone_pure.mp h
      have hmem := List.mem_of_find?_eq_some hx
      have hkey := List.find?_some hx
      rw [← (hq db hf).2] at hmem
      exact ⟨db, hf, .known hmem (by simpa using hkey)⟩
  | none =>
      rw [hx] at h
      simp only [alone_bind, alone_raiseIf, alone_add, alone_uuid4, alone_flush, alone_pure,
        and_assoc, exists_and_left, exists_eq_left, exists_const] at h
      obtain ⟨hdelta, account, c₁, hacc, hfunds, c₂, ⟨db₂, hdb₂, rfl⟩, _, rfl⟩ := h
      rw [List.append_assoc] at hdb₂
      obtain ⟨d₁, hd₁, hw⟩ := flushes_append hdb₂
      obtain ⟨hbal, hsome, d, hd, hopen⟩ :=
        getCreditAccountForUpdate_flushes hacc (fun d hd => (hq d hd).1) hd₁
      simp only [List.cons_append, List.nil_append, applyAll_cons, applyAll_nil] at hw
      have hdb : db = db₂ := applyAll_nil.mp hf
      have hbal' : account.balance = d.exchange.balance change.userId := by
        rw [hbal]
        show (c.db.creditAccounts.get? _).elim 0 (·.balance)
          = (d.creditAccounts.get? _).elim 0 (·.balance)
        rw [(hq d hd).1]
      refine ⟨d, hd, ?_⟩
      have hres : db.exchange = d.exchange.enter change c₁.next := by
        rw [hdb, hw.2.2]
        show { d₁.exchange with
            creditAccounts := d₁.exchange.creditAccounts.modify change.userId
              fun _ => ⟨account.balance + change.delta⟩
            creditLedgerEntries := d₁.exchange.creditLedgerEntries ++ [change.entry c₁.next] } = _
        rw [hopen, hbal']
        rfl
      rw [hres]
      refine .entered _ ?_ hdelta ?_
      · intro f hmem
        have hnone := List.find?_eq_none.mp hx f (by rw [← (hq d hd).2]; exact hmem)
        simpa using hnone
      · rw [← hbal']
        exact not_lt.mp hfunds

end Credits

/-! ## Completion -/

section Completion

variable {now : Nat} {c c' : Conn} {db : Db} {id actorId : Uuid} {campaign : Campaign}

/-- Completion queues the new status and its event, or does nothing. -/
theorem maybeCompleteCampaign_ok {b : Bool}
    (h : (maybeCompleteCampaign id campaign actorId).alone now c = .ok (b, c')) :
    (b = false ∧ c' = c) ∨ (b = true
      ∧ (campaign.status = .published ∨ campaign.status = .paused ∨ campaign.status = .cancelled)
      ∧ ∃ details, c' = { c with
          pending := c.pending ++
            [writeCampaign id fun c => { c with status := .completed },
             insertAuditEvent (campaignEvent actorId "campaign.completed" id details)] }) := by
  simp only [maybeCompleteCampaign, alone_bind, alone_query, and_assoc, exists_and_left,
    exists_eq_left] at h
  obtain ⟨closed, c₁, hclosed, h⟩ := h
  have hc₁ : c₁ = c ∧ (closed = true → campaign.status = .cancelled) := by
    unfold closedWorkSettled at hclosed
    split at hclosed
    · rename_i hs
      simp only [alone_bind, alone_query, alone_pure, and_assoc, exists_and_left,
        exists_eq_left] at hclosed
      exact ⟨hclosed.2, fun _ => hs⟩
    · obtain ⟨rfl, rfl⟩ := alone_pure.mp hclosed
      exact ⟨rfl, fun hf => absurd hf (by simp)⟩
  obtain ⟨rfl, hcancelled⟩ := hc₁
  split at h
  · rename_i hdone
    simp only [alone_bind, alone_add, addAuditEvent_ok, alone_pure, exists_eq_left, exists_const,
      List.append_assoc, List.cons_append, List.nil_append] at h
    refine Or.inr ⟨h.1, ?_, _, h.2⟩
    simp only [Bool.or_eq_true, Bool.and_eq_true, decide_eq_true_eq] at hdone
    rcases hdone with ⟨hp | hp, _⟩ | hd
    · exact Or.inl hp
    · exact Or.inr (Or.inl hp)
    · exact Or.inr (Or.inr (hcancelled hd))
  · exact Or.inl (alone_pure.mp h)

/-- A campaign of the given status is completed, or left alone. -/
inductive MayComplete (id actorId : Uuid) (status : CampaignStatus) (s : Exchange) :
    Exchange → Prop where
  | no : MayComplete id actorId status s s
  | yes (hstatus : status = .published ∨ status = .paused ∨ status = .cancelled)
      (details : List (String × Json)) :
      MayComplete id actorId status s
        ((s.modifyCampaign id fun c => { c with status := .completed }).record
          (campaignEvent actorId "campaign.completed" id details))

theorem maybeCompleteCampaign_flushes {b : Bool}
    (h : (maybeCompleteCampaign id campaign actorId).alone now c = .ok (b, c'))
    (hf : Flushes c' db) :
    ∃ d, Flushes c d ∧ MayComplete id actorId campaign.status d.exchange db.exchange := by
  rcases maybeCompleteCampaign_ok h with ⟨_, rfl⟩ | ⟨_, hstatus, details, rfl⟩
  · exact ⟨db, hf, .no⟩
  · obtain ⟨d, hd, hw⟩ := flushes_append hf
    simp only [applyAll_cons, applyAll_nil] at hw
    refine ⟨d, hd, ?_⟩
    rw [hw.2.2, exchange_insertAuditEvent, exchange_writeCampaign]
    exact .yes hstatus details

/-- Completion is a step of its own. -/
theorem MayComplete.runs {g : Nat} {s s' : Exchange} {x : Campaign}
    (h : MayComplete id actorId x.status s s') (hx : s.campaigns.get? id = some x) :
    ∃ actions, (∀ y ∈ actions, y = .complete id) ∧ Runs (Step g) s actions s' := by
  cases h with
  | no => exact ⟨[], by simp, .nil s⟩
  | yes hstatus details => exact ⟨[.complete id], by simp, .single (.complete hx hstatus)⟩

/-- Events of different entities can be written in either order. -/
theorem record_comm {s : Exchange} {e f : AuditEvent} (h : e.entityType ≠ f.entityType) :
    (s.record e).record f = (s.record f).record e := by
  unfold Exchange.record
  simp only [Exchange.mk.injEq, true_and]
  funext entityType i
  by_cases he : e.entityType = entityType
  · have hf : f.entityType ≠ entityType := fun hf => h (he.trans hf.symm)
    simp [hf]
  · simp [he]

theorem MayComplete.record {status : CampaignStatus} {s s' : Exchange} {e : AuditEvent}
    (h : MayComplete id actorId status s s') (he : e.entityType = "assignment") :
    MayComplete id actorId status (s.record e) (s'.record e) := by
  cases h with
  | no => exact .no
  | yes hstatus details =>
      rw [record_comm (by rw [he]; simp [campaignEvent])]
      exact .yes hstatus details

theorem MayComplete.settle {status : CampaignStatus} {s s' : Exchange} {d m : Uuid}
    {payload : DisputeResolve} {t : Time} (h : MayComplete id actorId status s s') :
    MayComplete id actorId status (s.settle d m payload t) (s'.settle d m payload t) := by
  cases h with
  | no => exact .no
  | yes hstatus details => exact .yes hstatus details

/-- Declining the listed applications, one after the other. -/
def Exchange.declineAll (actorId : Uuid) (now : Time) (s : Exchange) : List Uuid → Exchange
  | [] => s
  | id :: ids =>
      ((s.modifyAssignment id fun a =>
          { a with status := .cancelled, completedAt := some now }).record
        (assignmentEvent actorId "assignment.declined" id
          [("reason", .str "recruitment_closed")])).declineAll actorId now ids

theorem declinePending_flushes {at' : Time} {rest : List (Uuid × Assignment)} {u : Unit}
    (h : (declinePending campaign actorId at' rest).alone now c = .ok (u, c'))
    (hf : Flushes c' db) :
    ∃ d, Flushes c d ∧ db.exchange = d.exchange.declineAll actorId at' (rest.map Prod.fst) := by
  induction rest generalizing c with
  | nil =>
      obtain ⟨_, rfl⟩ := alone_pure.mp h
      exact ⟨db, hf, rfl⟩
  | cons r rest ih =>
      simp only [declinePending, alone_bind, alone_add, addAuditEvent_ok, exists_eq_left,
        exists_const, List.append_assoc, List.cons_append, List.nil_append] at h
      obtain ⟨_, c₁, hn, hrest⟩ := h
      obtain ⟨d₁, hd₁, he⟩ := ih hrest
      obtain ⟨d₂, hd₂, he₂⟩ := addNotification_flushes hn hd₁
      obtain ⟨d, hd, hw⟩ := flushes_append hd₂
      simp only [applyAll_cons, applyAll_nil] at hw
      refine ⟨d, hd, ?_⟩
      rw [he, he₂, hw.2.2, exchange_insertAuditEvent, exchange_writeAssignment]
      rfl

/-- Declines of distinct pending applications are steps. -/
theorem declineAll_runs {g : Nat} {at' : Time} {s : Exchange} {ids : List Uuid}
    (hnd : ids.Nodup)
    (hpending : ∀ i ∈ ids, ∃ a, s.assignments.get? i = some a ∧ a.status = .applied) :
    Runs (Step g) s (ids.map .decline) (s.declineAll actorId at' ids) := by
  induction ids generalizing s with
  | nil => exact .nil s
  | cons i ids ih =>
      obtain ⟨hi, hnd⟩ := List.nodup_cons.mp hnd
      obtain ⟨a, ha, happlied⟩ := hpending i List.mem_cons_self
      refine .cons (.decline ha happlied) (ih hnd ?_)
      intro j hj
      obtain ⟨b, hb, hbs⟩ := hpending j (List.mem_cons_of_mem _ hj)
      refine ⟨b, ?_, hbs⟩
      have hji : j ≠ i := fun he => hi (he ▸ hj)
      exact (Table.get?_modify_ne hji).trans hb

/-- Declines and a change of the campaign do not see each other. -/
theorem declineAll_modifyCampaign {at' : Time} {s : Exchange} {ids : List Uuid}
    {f : Campaign → Campaign} :
    (s.modifyCampaign id f).declineAll actorId at' ids
      = (s.declineAll actorId at' ids).modifyCampaign id f := by
  induction ids generalizing s with
  | nil => rfl
  | cons i ids ih => rw [declineAll, declineAll, ← ih]; rfl

theorem declineAll_campaigns {at' : Time} {s : Exchange} {ids : List Uuid} :
    (s.declineAll actorId at' ids).campaigns = s.campaigns := by
  induction ids generalizing s with
  | nil => rfl
  | cons i ids ih => exact ih

end Completion

/-! ## Services as steps -/

section Takes

variable {g : Nat}

/-- Run alone, `m` takes only steps satisfying `p`. -/
def Takes {α : Type} (g : Nat) (m : Session α) (p : Action → Prop) : Prop :=
  ∀ now db n a c db', m.alone now ⟨db, [], n⟩ = .ok (a, c) → Flushes c db' →
    ∃ actions, (∀ x ∈ actions, p x) ∧ Runs (Step g) db.exchange actions db'.exchange

theorem takes_single {s s' : Exchange} {x : Action} {p : Action → Prop} (hx : p x)
    (h : Step g s x s') :
    ∃ actions, (∀ x ∈ actions, p x) ∧ Runs (Step g) s actions s' :=
  ⟨[x], by simpa using hx, .single h⟩

theorem takes_none {s : Exchange} {p : Action → Prop} :
    ∃ actions, (∀ x ∈ actions, p x) ∧ Runs (Step g) s actions s :=
  ⟨[], by simp, .nil s⟩

/-- A step, and the completion of a campaign that may follow it. -/
theorem takes_then_complete {s s₁ s' : Exchange} {x : Action} {p : Action → Prop}
    {id actorId : Uuid} {c : Campaign} (hx : p x) (hp : ∀ i, p (.complete i))
    (h : Step g s x s₁) (hm : MayComplete id actorId c.status s₁ s')
    (hc : s₁.campaigns.get? id = some c) :
    ∃ actions, (∀ x ∈ actions, p x) ∧ Runs (Step g) s actions s' := by
  obtain ⟨actions, hactions, hrun⟩ := hm.runs (g := g) hc
  refine ⟨x :: actions, ?_, .cons h hrun⟩
  intro y hy
  rcases List.mem_cons.mp hy with rfl | hy
  · exact hx
  · rw [hactions y hy]; exact hp id

end Takes

end TestExchange
