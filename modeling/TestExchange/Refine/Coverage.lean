import TestExchange.Refine.Contracts
import TestExchange.Spec.Coverage

/-!
# What the services do to coverage

Tasks are written by saving a contract only, and only for a draft. So whoever
covers a campaign that is published goes on covering it, whatever is saved, and
whatever becomes of the other campaigns. A submission stores its items together
with itself.
-/

namespace TestExchange

open Txn Txn.Session Exchange

variable {db db' : Db} {k campaignId id : Uuid} {now n : Nat} {c : Conn}

/-- The tables that coverage is about. -/
def Db.coverage (db : Db) : Table TestingContract × Table ContractTask × Table EvidenceItem :=
  (db.testingContracts, db.contractTasks, db.evidenceItems)

theorem Db.Covers.of_coverage (h : db.Covers k campaignId) (hsame : db'.coverage = db.coverage) :
    db'.Covers k campaignId := by
  obtain ⟨hcontracts, hrest⟩ := Prod.mk.inj hsame
  obtain ⟨htasks, hitems⟩ := Prod.mk.inj hrest
  exact h.congr hcontracts htasks hitems

theorem covers_keeps {w : Write} (hw : Keeps Db.coverage w) :
    Preserves (fun t => t.Covers k campaignId) w :=
  preserves_of_keeps fun t ht => ht.of_coverage (hw t)

theorem covers_event {e : AuditEvent} :
    Preserves (fun t => t.Covers k campaignId) (insertAuditEvent e) :=
  covers_keeps fun _ => rfl

/-! ## Saving a contract -/

/-- The submission covers the campaign, and the contract that is written to is another one's. -/
structure Shielded (k campaignId contractId : Uuid) (db : Db) : Prop where
  covers : db.Covers k campaignId
  elsewhere : db.Elsewhere contractId campaignId

section Shielded

variable {i : Uuid}

theorem shielded_keeps {w : Write} (hw : Keeps Db.coverage w) :
    Preserves (Shielded k campaignId i) w := by
  refine preserves_of_keeps fun t ht => ⟨ht.covers.of_coverage (hw t), ?_⟩
  have hcontracts : (w.effect t).testingContracts = t.testingContracts := congrArg Prod.fst (hw t)
  unfold Db.Elsewhere
  rw [hcontracts]
  exact ht.elsewhere

theorem shielded_event {e : AuditEvent} : Preserves (Shielded k campaignId i) (insertAuditEvent e) :=
  shielded_keeps fun _ => rfl

theorem shielded_task {j : Uuid} {task : ContractTask} (htask : task.contractId = i) :
    Preserves (Shielded k campaignId i) (insertContractTask j task) := by
  refine preserves_of_keeps fun t ht => ⟨?_, ht.elsewhere⟩
  exact covers_insertContractTask (htask ▸ ht.elsewhere) ht.covers

theorem shielded_write {j : Uuid} {f : TestingContract → TestingContract}
    (hf : ∀ x, (f x).campaignId = x.campaignId) :
    Preserves (Shielded k campaignId i) (writeTestingContract j f) := by
  refine preserves_of_keeps fun t ht => ⟨covers_writeTestingContract hf ht.covers, ?_⟩
  intro contract hcontract
  rcases Table.get?_modify_cases hcontract with ⟨rfl, x, hx, rfl⟩ | ⟨-, hold⟩
  · rw [hf x]
    exact ht.elsewhere x hx
  · exact ht.elsewhere contract hold

/-- Saving the contract of another campaign, up to the new tasks. -/
theorem saveContract_shields {payload : ContractUpsert} {r : Uuid × TestingContract}
    (es : List AuditEvent) (h : db.Covers k campaignId) (hne : id ≠ campaignId)
    (hok : (saveContract id payload (db.contractOf id)).alone now ⟨db, es.map insertAuditEvent, n⟩
      = .ok (r, c)) :
    Shielded k campaignId r.1 c.db ∧ ∀ w ∈ c.pending, Preserves (Shielded k campaignId r.1) w := by
  cases hfound : db.contractOf id with
  | none =>
      rw [hfound] at hok
      simp only [saveContract, alone_bind, alone_uuid4, alone_add, alone_flush, alone_pure,
        and_assoc, exists_and_left, exists_eq_left, exists_const] at hok
      obtain ⟨c₁, ⟨d₁, hd₁, rfl⟩, rfl, rfl⟩ := hok
      obtain ⟨d₂, hd₂, hw⟩ := applyAll_append.mp hd₁
      obtain ⟨hv, hw⟩ := applyAll_cons.mp hw
      rw [applyAll_nil] at hw
      have hevents : ∀ w ∈ es.map insertAuditEvent,
          Preserves (fun t => t.Covers k campaignId) w := by
        intro w hw
        obtain ⟨e, -, rfl⟩ := List.mem_map.mp hw
        exact covers_event
      have hcovers := applyAll_preserves hevents hd₂ h
      simp only [insertTestingContract, firstViolated_cons, Table.contains_eq_false] at hv
      refine ⟨⟨?_, ?_⟩, fun w hw => absurd hw List.not_mem_nil⟩
      · rw [hw]
        exact covers_insertTestingContract hcovers
      · intro contract hcontract
        rw [hw] at hcontract
        rcases Table.get?_insert_cases hcontract with hold | ⟨-, rfl, -⟩
        · exact absurd (hold.symm.trans hv.1) (by simp)
        · exact hne
  | some found =>
      rw [hfound] at hok
      simp only [saveContract, alone_bind, alone_raiseIf, alone_add, alone_queryForUpdate,
        alone_execute, alone_pure, and_assoc, exists_and_left, exists_eq_left, exists_const] at hok
      obtain ⟨-, -, rfl, rfl⟩ := hok
      obtain ⟨hrow, hof⟩ := Table.find?_eq_some hfound
      have hof : found.2.campaignId = id := by simpa using hof
      have helsewhere : db.Elsewhere found.1 campaignId := by
        intro contract hcontract
        rw [← Option.some.inj (hrow.symm.trans hcontract), hof]
        exact hne
      refine ⟨⟨covers_deleteContractTasks ?_ h, helsewhere⟩, fun w hw => ?_⟩
      · intro j hj task htask
        obtain ⟨⟨j', task'⟩, hmem, rfl⟩ := List.mem_map.mp hj
        obtain ⟨hrow', hin⟩ := Table.mem_where'.mp hmem
        obtain rfl := Option.some.inj (hrow'.symm.trans htask)
        have hin : task'.contractId = found.1 := by simpa using hin
        rw [hin]
        exact helsewhere
      · rcases List.mem_append.mp hw with hevent | hwrite
        · obtain ⟨e, -, rfl⟩ := List.mem_map.mp hevent
          exact shielded_event
        · rw [List.mem_singleton.mp hwrite]
          refine shielded_write ?_
          exact fun _ => rfl

end Shielded

/-- **Saving a contract keeps what covers an open campaign.** -/
theorem upsertContract_covers (es : List AuditEvent) {ownerId : Uuid} {payload : ContractUpsert}
    {r : Uuid × TestingContract} {x : Campaign} (hx : db.campaigns.get? campaignId = some x)
    (hopen : x.status ≠ .draft) (h : db.Covers k campaignId)
    (hok : (upsertContract id ownerId payload).alone now ⟨db, es.map insertAuditEvent, n⟩
      = .ok (r, c)) : c.db.Covers k campaignId := by
  simp only [upsertContract, alone_bind, getCampaign_ok, requireCampaignOwner_ok, alone_raiseIf,
    alone_query, and_assoc, exists_and_left, exists_eq_left, exists_const, not_not] at hok
  obtain ⟨y, hy, -, hdraft, saved, c₁, hsave, hrest⟩ := hok
  have hne : id ≠ campaignId := by
    intro hsame
    subst hsame
    rw [Option.some.inj (hx.symm.trans hy)] at hopen
    exact hopen hdraft
  obtain ⟨hshielded, hpending⟩ := saveContract_shields es h hne hsave
  have hall : Confined (Preserves (Shielded k campaignId saved.1)) (do
      addTasks saved.1 0 payload.tasks
      addAuditEvent (some ownerId) "contract.saved" "campaign" id
        [("contract_id", .str (Uuid.str saved.1)), ("version", .int saved.2.version)]
      flush
      pure saved) :=
    ((only_addTasks fun _ _ _ => shielded_task rfl).bind fun _ =>
      (only_addAuditEvent shielded_event).bind fun _ => only_flush.bind fun _ => only_pure).confined
  simp only [← alone_bind] at hrest
  have hkept := hall.preserves hrest hpending hshielded
  exact hkept.1.covers

/-! ## Publishing and launching -/

theorem publishCampaign_covers {ownerId : Uuid} {r : Uuid × Campaign}
    (h : db.Covers k campaignId)
    (hok : (publishCampaign id ownerId).alone now ⟨db, [], n⟩ = .ok (r, c)) (hf : Flushes c db') :
    db'.Covers k campaignId := by
  have hall : Only (Preserves fun t => t.Covers k campaignId) (publishCampaign id ownerId) := by
    refine only_publishCampaign (fun _ => covers_keeps fun _ => rfl) ?_
      (fun _ _ => covers_keeps fun _ => rfl) (fun _ _ => covers_keeps fun _ => rfl)
      (fun _ => covers_keeps fun _ => rfl) fun _ => covers_event
    refine fun j now => preserves_of_keeps fun t ht => covers_writeTestingContract ?_ ht
    exact fun _ => rfl
  exact (hall.confined.preserves hok (fun w hw => absurd hw List.not_mem_nil) h).2 db' hf

theorem launchCampaign_covers {ownerId : Uuid} {payload : CampaignLaunch} {r : Uuid × Campaign}
    {x : Campaign} (hx : db.campaigns.get? campaignId = some x) (hopen : x.status ≠ .draft)
    (h : db.Covers k campaignId)
    (hok : (launchCampaign ownerId payload).alone now ⟨db, [], n⟩ = .ok (r, c))
    (hf : Flushes c db') : db'.Covers k campaignId := by
  simp only [launchCampaign, alone_bind] at hok
  obtain ⟨created, c₁, hcreate, _, c₂, hsave, hpublish⟩ := hok
  obtain ⟨rfl, hnew, rfl⟩ := createCampaign_ok hcreate
  have hcreated : ((insertCampaign n (payload.campaign.campaign ownerId)).effect db).Covers k
      campaignId := h.congr rfl rfl rfl
  have hsaved := upsertContract_covers [campaignEvent ownerId "campaign.created" n []]
    (Table.get?_insert_of_some hx) hopen hcreated hsave
  obtain ⟨hpending, -⟩ := upsertContract_ok [campaignEvent ownerId "campaign.created" n []] hsave
  have hc₂ : c₂ = ⟨c₂.db, [], c₂.next⟩ := by rw [← hpending]
  rw [hc₂] at hpublish
  exact publishCampaign_covers hsaved hpublish hf

/-! ## Submitting -/

/-- The items of a submission are all stored by the time the queue is flushed. -/
theorem addItems_stores {submissionId : Uuid} {items : List EvidenceItemCreate} {u : Unit}
    {c' : Conn} (hok : (addItems submissionId items).alone now c = .ok (u, c'))
    (hf : Flushes c' db) : ∀ item ∈ items, ∃ m,
      db.evidenceItems.get? m = some (item.item submissionId) := by
  induction items generalizing c with
  | nil => exact fun item hitem => absurd hitem List.not_mem_nil
  | cons item items ih =>
      simp only [addItems, alone_bind, alone_uuid4, alone_add, and_assoc, exists_and_left,
        exists_eq_left, exists_const] at hok
      intro other hother
      rcases List.mem_cons.mp hother with rfl | hother
      · have hrest : Only (Preserves fun t : Db =>
            t.evidenceItems.get? c.next = some (other.item submissionId))
            (addItems submissionId items) :=
          only_addItems fun _ _ => preserves_of_keeps fun t ht => Table.get?_insert_of_some ht
        obtain ⟨new, hnew, happly⟩ := Emits.alone hrest hok hf
        obtain ⟨d, hd, happly⟩ := applyAll_append.mp happly
        obtain ⟨t, ht, hw⟩ := flushes_append hd
        obtain ⟨hv, hw⟩ := applyAll_cons.mp hw
        rw [applyAll_nil] at hw
        simp only [insertEvidenceItem, firstViolated_cons, Table.contains_eq_false] at hv
        have hfirst : d.evidenceItems.get? c.next = some (other.item submissionId) := by
          rw [hw]
          exact Table.get?_insert_self hv.1
        have hlast := applyAll_preserves hnew happly hfirst
        exact ⟨c.next, hlast⟩
      · exact ih hok other hother

/-- **A submission adds itself with all its items.** -/
theorem createSubmission_stores {id testerId : Uuid} {payload : SubmissionCreate} :
    Yields (createSubmission id testerId payload) fun _ db db' => ∃ k e,
      db'.evidenceSubmissions = db.evidenceSubmissions.insert k e ∧ e.assignmentId = id
        ∧ ∀ item ∈ payload.items, ∃ m, db'.evidenceItems.get? m = some (item.item k) := by
  intro now db n r c db' h hf
  simp only [createSubmission, alone_bind, alone_query, selectForUpdate_ok, alone_orRaise,
    alone_raiseIf, contractForAssignment_ok, getCampaign_ok, alone_utcnow, alone_add, alone_uuid4,
    addAuditEvent_ok, alone_flush, alone_pure, and_assoc, exists_and_left, exists_eq_left,
    exists_const, List.nil_append, List.append_assoc, List.cons_append, not_not] at h
  obtain ⟨a, ha, rfl, hstatus, _, _, _, _, _, _, _, _, _, _, c₁, hitems, c₂, ⟨d₂, hd₂, rfl⟩, _, c₃,
    hadd, x, _, name, c₄, hname, _, c₅, hn, c₆, ⟨d₆, hd₆, rfl⟩, _, rfl⟩ := h
  have hc₁ := checkItems_ok hitems
  have hc₄ := testerDisplayName_ok hname
  subst hc₁ hc₄
  obtain ⟨d₅, hd₅, hsame₅⟩ := (only_addNotification
    (W := Keeps fun t : Db => (t.evidenceSubmissions, t.evidenceItems))
    fun _ _ => rfl).flushes hn hd₆
  obtain ⟨d₃, hd₃, hw⟩ := flushes_append hd₅
  have hstored := addItems_stores hadd hd₃
  obtain ⟨d, hd, hsame₃⟩ := (only_addItems (W := Keeps Db.evidenceSubmissions)
    fun _ _ _ => rfl).flushes hadd hd₃
  simp only [Flushes, List.nil_append, applyAll_cons, applyAll_nil] at hd hd₂ hw hf
  obtain ⟨hsubmissions, hevidence⟩ := Prod.mk.inj hsame₅
  have hsent : d₅.evidenceSubmissions = d₃.evidenceSubmissions
      ∧ d₅.evidenceItems = d₃.evidenceItems := by
    rw [hw.2.2]
    exact ⟨rfl, rfl⟩
  refine ⟨n, ⟨id, db.latestVersion id + 1, payload.summary, .submitted, now⟩, ?_, rfl, ?_⟩
  · rw [hf, hsubmissions, hsent.1, hsame₃, hd, hd₂.2]
    rfl
  · rw [hf, hevidence, hsent.2]
    exact hstored

end TestExchange
