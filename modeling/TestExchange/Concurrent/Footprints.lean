import TestExchange.Model.Requests
import TestExchange.Txn.Traces

/-!
# What the shared pieces of a service write

For the helpers that several services call: which writes they may send. A kind
of writes that includes these is respected by the helper, whatever it reads.
-/

namespace TestExchange

open Txn Txn.Session

section Reads

variable {W : Write → Prop}

theorem only_selectForUpdate {α : Type} {table : Db → Table α} {lock : Uuid → Lock} {id : Uuid} :
    Only W (selectForUpdate table lock id) := only_queryForUpdate

theorem only_getProfile {id : Uuid} : Only W (getProfile id) :=
  only_query.bind fun _ => only_orRaise

theorem only_getCampaign {id : Uuid} : Only W (getCampaign id) :=
  only_query.bind fun _ => only_orRaise

theorem only_getAssignment {id : Uuid} : Only W (getAssignment id) :=
  only_query.bind fun _ => only_orRaise

theorem only_requireCampaignOwner {campaign : Campaign} {userId : Uuid} :
    Only W (requireCampaignOwner campaign userId) := only_raiseIf

theorem only_requireAssignmentParticipant {a : Assignment} {userId : Uuid} :
    Only W (requireAssignmentParticipant a userId) :=
  only_getCampaign.bind fun _ => only_raiseIf.bind fun _ => only_pure

theorem only_testerDisplayName {a : Assignment} : Only W (testerDisplayName a) := only_query

theorem only_getContract {id : Uuid} : Only W (getContract id) :=
  only_query.bind fun _ => only_orRaise.bind fun _ => only_query.bind fun _ => only_pure

theorem only_contractForAssignment {a : Assignment} : Only W (contractForAssignment a) :=
  only_query.bind fun _ => only_orRaise.bind fun _ => only_query.bind fun _ => only_pure

theorem only_checkItems {id : Uuid} {items : List EvidenceItemCreate} :
    Only W (checkItems id items) := by
  induction items with
  | nil => exact only_pure
  | cons item items ih =>
      refine only_raiseIf.bind fun _ => ?_
      split
      · exact ih
      · exact only_raiseIf.bind fun _ => ih

end Reads

section Writes

variable {W : Write → Prop}

theorem only_addAuditEvent {actorId : Option Uuid} {action entityType : String} {id : Uuid}
    {details : List (String × Json)}
    (h : W (insertAuditEvent ⟨actorId, action, entityType, id, details⟩)) :
    Only W (addAuditEvent actorId action entityType id details) := only_add h

theorem only_addNotification {n : Notification} (h : ∀ id, W (insertNotification id n)) :
    Only W (addNotification n) := by
  refine only_query.bind fun existing => ?_
  cases existing with
  | some _ => exact only_pure
  | none => exact only_uuid4.bind fun id => (only_add (h id)).bind fun _ => only_flush

theorem only_ensureCreditAccount {u : Uuid} (h : W (insertCreditAccount u ⟨0⟩)) :
    Only W (ensureCreditAccount u) := by
  refine only_query.bind fun existing => ?_
  cases existing with
  | some _ => exact only_pure
  | none => exact (only_add h).bind fun _ => only_flush.bind fun _ => only_pure

theorem only_getCreditAccountForUpdate {u : Uuid} (h : W (insertCreditAccount u ⟨0⟩)) :
    Only W (getCreditAccountForUpdate u) := by
  refine only_selectForUpdate.bind fun account => ?_
  cases account with
  | some _ => exact only_pure
  | none => exact only_ensureCreditAccount h

theorem only_recordCreditEntry {change : CreditChange}
    (hopen : W (insertCreditAccount change.userId ⟨0⟩))
    (hwrite : ∀ balance, W (writeCreditAccount change.userId balance))
    (hentry : ∀ id, W (insertCreditLedgerEntry (change.entry id))) :
    Only W (recordCreditEntry change) := by
  refine only_query.bind fun existing => ?_
  cases existing with
  | some _ => exact only_pure
  | none =>
      refine only_raiseIf.bind fun _ => (only_getCreditAccountForUpdate hopen).bind fun account =>
        only_raiseIf.bind fun _ => (only_add (hwrite _)).bind fun _ => only_uuid4.bind fun id => ?_
      exact (only_add (hentry id)).bind fun _ => only_flush.bind fun _ => only_pure

theorem only_maybeCompleteCampaign {id actorId : Uuid} {campaign : Campaign}
    (hwrite : W (writeCampaign id fun c => { c with status := .completed }))
    (haudit : ∀ e, W (insertAuditEvent e)) : Only W (maybeCompleteCampaign id campaign actorId) := by
  refine only_query.bind fun _ => Only.bind ?_ fun _ => ?_
  · unfold closedWorkSettled
    split
    · exact only_query.bind fun _ => only_query.bind fun _ => only_pure
    · exact only_pure
  · split
    · exact (only_add hwrite).bind fun _ => (only_addAuditEvent (haudit _)).bind fun _ => only_pure
    · exact only_pure

theorem only_addTasks {contractId : Uuid} {tasks : List ContractTaskInput} {position : Nat}
    (h : ∀ id task position, W (insertContractTask id (ContractTaskInput.task task contractId position))) :
    Only W (addTasks contractId position tasks) := by
  induction tasks generalizing position with
  | nil => exact only_pure
  | cons task tasks ih =>
      exact only_uuid4.bind fun id => (only_add (h id task position)).bind fun _ => ih

theorem only_addItems_mem {submissionId : Uuid} {items : List EvidenceItemCreate}
    (h : ∀ id, ∀ item ∈ items, W (insertEvidenceItem id (item.item submissionId))) :
    Only W (addItems submissionId items) := by
  induction items with
  | nil => exact only_pure
  | cons item items ih =>
      have hrest : Only W (addItems submissionId items) :=
        ih fun id other hother => h id other (List.mem_cons_of_mem _ hother)
      exact only_uuid4.bind fun id => (only_add (h id item List.mem_cons_self)).bind fun _ => hrest

theorem only_addItems {submissionId : Uuid} {items : List EvidenceItemCreate}
    (h : ∀ id item, W (insertEvidenceItem id (EvidenceItemCreate.item item submissionId))) :
    Only W (addItems submissionId items) := only_addItems_mem fun id item _ => h id item

theorem only_declinePending {campaign : Campaign} {ownerId : Uuid} {now : Time}
    {rest : List (Uuid × Assignment)}
    (hwrite : ∀ id, W (writeAssignment id fun a =>
      { a with status := .cancelled, completedAt := some now }))
    (haudit : ∀ e, W (insertAuditEvent e)) (hnote : ∀ id n, W (insertNotification id n)) :
    Only W (declinePending campaign ownerId now rest) := by
  induction rest with
  | nil => exact only_pure
  | cons r rest ih =>
      exact (only_add (hwrite r.1)).bind fun _ => (only_addAuditEvent (haudit _)).bind fun _ =>
        (only_addNotification fun id => hnote id _).bind fun _ => ih

/-- The publication of a campaign, kind of write by kind of write. -/
theorem only_publishCampaign {campaignId ownerId : Uuid}
    (hcampaign : ∀ f, W (writeCampaign campaignId f))
    (hlock : ∀ k now, W (writeTestingContract k fun c =>
      { c with status := .locked, lockedAt := some now }))
    (hopen : ∀ u a, W (insertCreditAccount u a)) (hmove : ∀ u b, W (writeCreditAccount u b))
    (hentry : ∀ e, W (insertCreditLedgerEntry e)) (hevent : ∀ e, W (insertAuditEvent e)) :
    Only W (publishCampaign campaignId ownerId) := by
  refine only_selectForUpdate.bind fun _ => only_orRaise.bind fun campaign =>
    only_requireCampaignOwner.bind fun _ => ?_
  split
  · exact only_pure
  · exact only_raiseIf.bind fun _ => only_getContract.bind fun _ => only_raiseIf.bind fun _ =>
      (only_recordCreditEntry (hopen _ _) (hmove _) fun _ => hentry _).bind fun _ =>
      only_utcnow.bind fun _ => (only_add (hcampaign _)).bind fun _ =>
      (only_add (hlock _ _)).bind fun _ => (only_addAuditEvent (hevent _)).bind fun _ =>
      only_flush.bind fun _ => only_pure

end Writes

section Locking

variable {R α : Type} {P : Protocol Db Lock Failure R} {r : R} {c : Ctx Db Lock Failure}
  {ws : List Write}

/-- The rule for a row that is locked and has to be there: `Q` is what is remembered of the read. -/
theorem swp_lockRow {table : Db → Table α} {lock : Uuid → Lock} {id : Uuid} {error : Failure}
    {post : α → List Write → Ctx Db Lock Failure → Prop} (Q : α → Db → Db → Prop)
    (hQ : ∀ a s, P.Inv s → c.known s → (table (c.view s)).get? id = some a →
      P.Stable (lock id :: c.held) (Q a s) ∧ Q a s s)
    (hpost : ∀ a s c', P.Inv s → c.known s → (table (c.view s)).get? id = some a →
      Sends [] c c' → lock id ∈ c'.held → (∀ t, c'.known t → Q a s t) → post a ws c') :
    swp P r (selectForUpdate table lock id) (fun found => swp P r (orRaise error found) post) ws c := by
  rw [selectForUpdate, swp_queryForUpdate]
  intro s hs hk
  simp only [swp_orRaise]
  cases ha : (table (c.view s)).get? id with
  | none => exact .skip fun a h => absurd h (by simp)
  | some a =>
      rw [if_pos (Table.contains_eq_true.mpr ⟨a, ha⟩)]
      obtain ⟨hstable, hq⟩ := hQ a s hs hk ha
      refine .pick (Q a s) hstable hq ?_
      intro a' ha'
      obtain rfl := Option.some.inj ha'
      exact hpost a s _ hs hk ha (Sends.see.trans (Sends.hold.trans .learn))
        (List.mem_cons_self) fun t ht => ht.2

/-- The same for a row of which nothing is remembered but what it was. -/
theorem swp_lockRow_skip {table : Db → Table α} {lock : Uuid → Lock} {id : Uuid} {error : Failure}
    {post : α → List Write → Ctx Db Lock Failure → Prop}
    (hpost : ∀ a s c', P.Inv s → c.known s → (table (c.view s)).get? id = some a →
      Sends [] c c' → post a ws c') :
    swp P r (selectForUpdate table lock id) (fun found => swp P r (orRaise error found) post) ws c :=
  swp_lockRow (fun _ _ _ => True) (fun _ _ _ _ _ => ⟨.true, trivial⟩)
    fun a s c' hs hk ha hc _ _ => hpost a s c' hs hk ha hc

end Locking

end TestExchange
