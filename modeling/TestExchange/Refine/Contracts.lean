import TestExchange.Refine.Relations
import TestExchange.Refine.Serve

/-!
# Contracts are locked when their campaigns open

A campaign has one contract, and past its draft the contract is locked. Saving
writes to the contract of a draft only; publishing locks the contract in the
transaction that opens the campaign.
-/

namespace TestExchange

open Txn Txn.Session Exchange

/-- A campaign has at most one contract, which is locked unless the campaign is a draft. -/
structure ContractInv (db : Db) : Prop where
  once : ∀ i j k k', db.testingContracts.get? i = some k → db.testingContracts.get? j = some k' →
    k.campaignId = k'.campaignId → i = j
  locked : ∀ i k c, db.testingContracts.get? i = some k →
    db.campaigns.get? k.campaignId = some c → c.status ≠ .draft → k.status = .locked

/-- Campaigns that are no drafts were none before. -/
def Unopened (db db' : Db) : Prop :=
  ∀ id c', db'.campaigns.get? id = some c' → c'.status ≠ .draft →
    ∃ c, db.campaigns.get? id = some c ∧ c.status ≠ .draft

section Steps

variable {g : Nat} {s s' : Exchange} {x : Action}

/-- Only publishing opens a campaign. -/
theorem opened_step (hs : Step g s x s') (hx : ∀ id, x ≠ .publish id) {id : Uuid} {c' : Campaign}
    (hc' : s'.campaigns.get? id = some c') (hd : c'.status ≠ .draft) :
    ∃ c, s.campaigns.get? id = some c ∧ c.status ≠ .draft := by
  have hmodify : ∀ {t : Table Campaign} {i : Uuid} {c : Campaign} {f : Campaign → Campaign},
      t.get? i = some c → ((f c).status ≠ .draft → c.status ≠ .draft) →
      (t.modify i f).get? id = some c' → ∃ c, t.get? id = some c ∧ c.status ≠ .draft := by
    intro t i c f hc hf hm
    rcases Table.get?_modify_cases hm with ⟨rfl, c₀, hc₀, rfl⟩ | ⟨-, hold⟩
    · obtain rfl := Option.some.inj (hc.symm.trans hc₀)
      exact ⟨c, hc, hf hd⟩
    · exact ⟨c', hold, hd⟩
  cases hs with
  | addProfile hnew hgrant =>
      obtain ⟨-, hcs, -⟩ := paid_frame hgrant
      exact ⟨c', (congrArg (·.get? id) hcs).symm.trans hc', hd⟩
  | createCampaign hnew hdraft =>
      rcases Table.get?_insert_cases hc' with hold | ⟨-, rfl, -⟩
      · exact ⟨c', hold, hd⟩
      · exact absurd hdraft hd
  | editCampaign hc hdraft => exact hmodify hc (fun hopen => absurd hdraft hopen) hc'
  | publish hc hdraft hspend => exact absurd rfl (hx _)
  | @transition _ c action _ _ hc hfrom hroom =>
      refine hmodify hc (fun _ hdraft => ?_) hc'
      cases action <;> simp [hdraft, TransitionAction.allowedFrom] at hfrom
  | complete hc hstatus =>
      refine hmodify hc (fun _ hdraft => ?_) hc'
      simp [hdraft] at hstatus
  | review he hof ha hc hcalm hpending hawaiting hnew hfirst hsub hby hpay =>
      obtain ⟨-, hcs, -⟩ := paid_frame hpay
      exact ⟨c', (congrArg (·.get? id) hcs).symm.trans hc', hd⟩
  | award hc hremedy houtcome hstatus hsub he hof hcamp hpay =>
      obtain ⟨-, hcs, -⟩ := hpay.frame
      exact ⟨c', (congrArg (·.get? id) hcs).symm.trans hc', hd⟩
  | _ => exact ⟨c', hc', hd⟩

theorem opened_runs {actions : List Action} (h : Runs (Step g) s actions s')
    (hx : ∀ x ∈ actions, ∀ id, x ≠ .publish id) {id : Uuid} {c' : Campaign}
    (hc' : s'.campaigns.get? id = some c') (hd : c'.status ≠ .draft) :
    ∃ c, s.campaigns.get? id = some c ∧ c.status ≠ .draft := by
  induction h with
  | nil s => exact ⟨c', hc', hd⟩
  | cons hs _ ih =>
      obtain ⟨c₁, hc₁, hd₁⟩ := ih (fun x hm => hx x (List.mem_cons_of_mem _ hm)) hc'
      exact opened_step hs (hx _ List.mem_cons_self) hc₁ hd₁

end Steps

/-! ## Saving -/

variable {db db' : Db} {now n : Nat} {c : Conn}

theorem contractInv_same (h : ContractInv db) (hsame : db'.testingContracts = db.testingContracts)
    (hopened : Unopened db db') : ContractInv db' where
  once := by
    rw [hsame]
    exact h.once
  locked := by
    intro i k c' hk hc' hd
    rw [hsame] at hk
    obtain ⟨c, hc, hopen⟩ := hopened _ c' hc' hd
    exact h.locked i k c hk hc hopen

/-- While a contract is being saved: the campaign is a draft, and the contract found is its own. -/
structure Saving (campaignId : Uuid) (found : Option (Uuid × TestingContract)) (db : Db) : Prop where
  inv : ContractInv db
  draft : ∀ c, db.campaigns.get? campaignId = some c → c.status = .draft
  own : ∀ k ∈ found, ∀ contract, db.testingContracts.get? k.1 = some contract →
    contract.campaignId = campaignId

section Saving

variable {id : Uuid} {o : Option (Uuid × TestingContract)}

/-- A write to neither campaigns nor contracts. -/
theorem saving_keeps {w : Write} (hc : Keeps Db.campaigns w) (hk : Keeps Db.testingContracts w) :
    Preserves (Saving id o) w := by
  refine preserves_of_keeps fun t ht => ⟨contractInv_same ht.inv (hk t) ?_, ?_, ?_⟩
  · intro i c' hc' hd
    rw [hc t] at hc'
    exact ⟨c', hc', hd⟩
  · rw [hc t]
    exact ht.draft
  · rw [hk t]
    exact ht.own

theorem saving_insert {k : Uuid} {payload : ContractUpsert} :
    Preserves (Saving id none) (insertTestingContract k (payload.contract id)) := by
  intro t hv ht
  simp only [insertTestingContract, firstViolated_cons, Table.any_eq_false,
    Table.contains_eq_false, decide_eq_false_iff_not] at hv
  obtain ⟨hnew, hfirst, -⟩ := hv
  refine ⟨⟨?_, ?_⟩, ht.draft, fun k hk => absurd hk (by simp)⟩
  · intro i j c c' hi hj hsame
    rcases Table.get?_insert_cases hi with hi₀ | ⟨rfl, rfl, -⟩
    · rcases Table.get?_insert_cases hj with hj₀ | ⟨rfl, rfl, -⟩
      · exact ht.inv.once i j c c' hi₀ hj₀ hsame
      · exact absurd hsame (hfirst i c hi₀)
    · rcases Table.get?_insert_cases hj with hj₀ | ⟨rfl, rfl, -⟩
      · exact absurd hsame.symm (hfirst j c' hj₀)
      · rfl
  · intro i c x hi hx hd
    rcases Table.get?_insert_cases hi with hi | ⟨rfl, rfl, -⟩
    · exact ht.inv.locked i c x hi hx hd
    · exact absurd (ht.draft x hx) hd

theorem saving_modify {k : Uuid × TestingContract} {f : TestingContract → TestingContract}
    (hf : ∀ x, (f x).campaignId = x.campaignId) :
    Preserves (Saving id (some k)) (writeTestingContract k.1 f) := by
  refine preserves_of_keeps fun t ht => ⟨⟨?_, ?_⟩, ht.draft, ?_⟩
  · intro i j x x' hi hj hsame
    have hrow : ∀ {i x}, (t.testingContracts.modify k.1 f).get? i = some x →
        ∃ y, t.testingContracts.get? i = some y ∧ y.campaignId = x.campaignId := by
      intro i x hi
      rcases Table.get?_modify_cases hi with ⟨rfl, y, hy, rfl⟩ | ⟨-, hold⟩
      · exact ⟨y, hy, (hf y).symm⟩
      · exact ⟨x, hold, rfl⟩
    obtain ⟨y, hy, hxy⟩ := hrow hi
    obtain ⟨y', hy', hxy'⟩ := hrow hj
    exact ht.inv.once i j y y' hy hy' (hxy.trans (hsame.trans hxy'.symm))
  · intro i x campaign hi hcampaign hd
    rcases Table.get?_modify_cases hi with ⟨rfl, y, hy, rfl⟩ | ⟨-, hold⟩
    · have hown : y.campaignId = id := ht.own k rfl y hy
      rw [hf y, hown] at hcampaign
      exact absurd (ht.draft campaign hcampaign) hd
    · exact ht.inv.locked i x campaign hold hcampaign hd
  · intro k' hk' x hx
    obtain rfl := Option.some.inj hk'
    rcases Table.get?_modify_cases hx with ⟨-, y, hy, rfl⟩ | ⟨-, hold⟩
    · rw [hf y]
      exact ht.own k rfl y hy
    · exact ht.own k rfl x hold

theorem saving_event {e : AuditEvent} : Preserves (Saving id o) (insertAuditEvent e) :=
  saving_keeps (fun _ => rfl) fun _ => rfl

theorem saveContract_saving {payload : ContractUpsert} :
    Confined (Preserves (Saving id o)) (saveContract id payload o) := by
  cases o with
  | none =>
      exact (only_uuid4.bind fun _ => (only_add saving_insert).bind fun _ =>
        only_flush.bind fun _ => only_pure).confined
  | some k =>
      refine only_raiseIf.confined.bind fun _ => (only_add (saving_modify ?_)).confined.bind fun _ =>
        only_queryForUpdate.confined.bind fun _ => Confined.bind ?_ fun _ => only_pure.confined
      · exact fun _ => rfl
      · exact confined_execute (saving_keeps (fun _ => rfl) fun _ => rfl)

/-- **Saving a contract keeps contracts in order.** -/
theorem upsertContract_contracts (es : List AuditEvent) {ownerId : Uuid} {payload : ContractUpsert}
    {r : Uuid × TestingContract} (h : ContractInv db)
    (hok : (upsertContract id ownerId payload).alone now ⟨db, es.map insertAuditEvent, n⟩
      = .ok (r, c)) : ContractInv c.db := by
  obtain ⟨x, c₁, hget, hok⟩ := alone_bind.mp hok
  obtain ⟨hx, rfl⟩ := getCampaign_ok.mp hget
  obtain ⟨_, c₂, howner, hok⟩ := alone_bind.mp hok
  obtain ⟨-, rfl⟩ := requireCampaignOwner_ok.mp howner
  obtain ⟨_, c₃, hcheck, hok⟩ := alone_bind.mp hok
  obtain ⟨hstatus, rfl⟩ := alone_raiseIf.mp hcheck
  obtain ⟨o, c₄, hfound, hok⟩ := alone_bind.mp hok
  obtain ⟨rfl, rfl⟩ := alone_query.mp hfound
  have hdraft : x.status = .draft := not_not.mp hstatus
  have hsaving : Saving id (db.contractOf id) db := by
    refine ⟨h, fun c hc => ?_, fun k hk contract hcontract => ?_⟩
    · rw [← Option.some.inj (hx.symm.trans hc)]
      exact hdraft
    · obtain ⟨hfound, hid⟩ := Table.find?_eq_some hk
      rw [← Option.some.inj (hfound.symm.trans hcontract)]
      simpa using hid
  have hevents : ∀ w ∈ es.map insertAuditEvent, Preserves (Saving id (db.contractOf id)) w := by
    intro w hw
    obtain ⟨e, -, rfl⟩ := List.mem_map.mp hw
    exact saving_event
  have hall : Confined (Preserves (Saving id (db.contractOf id))) (do
      let contract ← saveContract id payload (db.contractOf id)
      addTasks contract.1 0 payload.tasks
      addAuditEvent (some ownerId) "contract.saved" "campaign" id
        [("contract_id", .str (Uuid.str contract.1)), ("version", .int contract.2.version)]
      flush
      pure contract) := by
    refine saveContract_saving.bind fun _ => Only.confined ?_
    exact (only_addTasks fun _ _ _ => saving_keeps (fun _ => rfl) fun _ => rfl).bind fun _ =>
      (only_addAuditEvent saving_event).bind fun _ => only_flush.bind fun _ => only_pure
  exact (hall.preserves hok hevents hsaving).1.inv

end Saving

/-! ## Publishing -/

/-- The draft's only contract is locked when the campaign opens. -/
theorem contractInv_publish {id : Uuid} {k : Uuid × TestingContract} {f : Campaign → Campaign}
    {lock : TestingContract → TestingContract} (h : ContractInv db)
    (hfound : db.contractOf id = some k) (hlock : ∀ x, (lock x).status = .locked)
    (hown : ∀ x, (lock x).campaignId = x.campaignId)
    (hcampaigns : db'.campaigns = db.campaigns.modify id f)
    (hcontracts : db'.testingContracts = db.testingContracts.modify k.1 lock) : ContractInv db' := by
  obtain ⟨hrow, hid⟩ := Table.find?_eq_some hfound
  have hfor : k.2.campaignId = id := by simpa using hid
  have hback : ∀ {i x}, db'.testingContracts.get? i = some x →
      ∃ y, db.testingContracts.get? i = some y ∧ y.campaignId = x.campaignId
        ∧ (x.status = .locked ∨ x = y) := by
    intro i x hi
    rw [hcontracts] at hi
    rcases Table.get?_modify_cases hi with ⟨rfl, y, hy, rfl⟩ | ⟨-, hold⟩
    · exact ⟨y, hy, (hown y).symm, Or.inl (hlock y)⟩
    · exact ⟨x, hold, rfl, Or.inr rfl⟩
  constructor
  · intro i j x x' hi hj hsame
    obtain ⟨y, hy, hxy, -⟩ := hback hi
    obtain ⟨y', hy', hxy', -⟩ := hback hj
    exact h.once i j y y' hy hy' (hxy.trans (hsame.trans hxy'.symm))
  · intro i x campaign hi hcampaign hd
    obtain ⟨y, hy, hxy, hlocked | rfl⟩ := hback hi
    · exact hlocked
    · rw [hcampaigns] at hcampaign
      rcases Table.get?_modify_cases hcampaign with ⟨hopens, -⟩ | ⟨-, hold⟩
      · have hik : i = k.1 := h.once i k.1 x k.2 hy hrow (hopens.trans hfor.symm)
        subst hik
        rw [hcontracts, Table.get?_modify_self, hy] at hi
        rw [← Option.some.inj hi]
        exact hlock x
      · exact h.locked i x campaign hy hold hd

/-- Publishing opens the campaign and locks its contract, or the campaign was open already. -/
theorem publishCampaign_locks {id ownerId : Uuid} {r : Uuid × Campaign}
    (hok : (publishCampaign id ownerId).alone now ⟨db, [], n⟩ = .ok (r, c)) (hf : Flushes c db') :
    (db' = db ∧ ∃ x, db.campaigns.get? id = some x ∧ x.status = .published)
      ∨ ∃ k, db.contractOf id = some k
          ∧ db'.campaigns = db.campaigns.modify id (fun c =>
              { c with status := .published, publishedAt := some now })
          ∧ db'.testingContracts = db.testingContracts.modify k.1 (fun c =>
              { c with status := .locked, lockedAt := some now })
          ∧ db'.contractTasks = db.contractTasks := by
  simp only [publishCampaign, alone_bind, selectForUpdate_ok, alone_orRaise,
    requireCampaignOwner_ok, and_assoc, exists_and_left, exists_eq_left, exists_const] at hok
  obtain ⟨x, hx, rfl, hok⟩ := hok
  split at hok
  · rename_i hpublished
    obtain ⟨_, rfl⟩ := alone_pure.mp hok
    exact Or.inl ⟨applyAll_nil.mp hf, x, hx, hpublished⟩
  · simp only [alone_bind, alone_raiseIf, getContract_ok, alone_utcnow, alone_add,
      addAuditEvent_ok, alone_flush, alone_pure, and_assoc, exists_and_left, exists_eq_left,
      exists_const, List.append_assoc, List.cons_append, List.nil_append, not_not] at hok
    obtain ⟨hdraft, k, hk, _, _, e, c₁, hrec, c₂, ⟨d₂, hd₂, rfl⟩, _, rfl⟩ := hok
    obtain ⟨d₁, hd₁, hw⟩ := applyAll_append.mp hd₂
    have hcredit : Only (Keeps fun t : Db => (t.campaigns, t.testingContracts, t.contractTasks))
        (recordCreditEntry (postingEntry id x x.ownerId)) := by
      have honly : Only (Within [.creditAccounts, .creditLedgerEntries])
          (recordCreditEntry (postingEntry id x x.ownerId)) := only_credit (by simp) (by simp)
      refine only_keeping honly fun r hr w hw t => ?_
      cases hw <;> first | rfl | simp at hr
    obtain ⟨t, ht, hsame⟩ := hcredit.flushes hrec hd₁
    rw [applyAll_nil] at ht
    rw [ht] at hsame
    obtain ⟨hcampaigns, hrest⟩ := Prod.mk.inj hsame
    obtain ⟨hcontracts, htasks⟩ := Prod.mk.inj hrest
    simp only [Flushes, applyAll_cons, applyAll_nil] at hf hw
    rw [hf, hw.2.2.2, ← hcampaigns, ← hcontracts, ← htasks]
    exact Or.inr ⟨k.1, hk, rfl, rfl, rfl⟩

/-- **Publishing keeps contracts in order.** -/
theorem publishCampaign_contracts {id ownerId : Uuid} {r : Uuid × Campaign} (h : ContractInv db)
    (hok : (publishCampaign id ownerId).alone now ⟨db, [], n⟩ = .ok (r, c)) (hf : Flushes c db') :
    ContractInv db' := by
  rcases publishCampaign_locks hok hf with ⟨rfl, -⟩ | ⟨k, hk, hopens, hlocks, -⟩
  · exact h
  · refine contractInv_publish h hk ?_ ?_ hopens hlocks
    · exact fun _ => rfl
    · exact fun _ => rfl

theorem launchCampaign_contracts {ownerId : Uuid} {payload : CampaignLaunch}
    {r : Uuid × Campaign} (h : ContractInv db)
    (hok : (launchCampaign ownerId payload).alone now ⟨db, [], n⟩ = .ok (r, c))
    (hf : Flushes c db') : ContractInv db' := by
  simp only [launchCampaign, alone_bind] at hok
  obtain ⟨k, c₁, hcreate, _, c₂, hsave, hpublish⟩ := hok
  obtain ⟨rfl, hnew, rfl⟩ := createCampaign_ok hcreate
  have hcreated : ContractInv
      ((insertCampaign n (payload.campaign.campaign ownerId)).effect db) := by
    refine contractInv_same h rfl fun i c' hc' hd => ?_
    rcases Table.get?_insert_cases hc' with hold | ⟨-, rfl, -⟩
    · exact ⟨c', hold, hd⟩
    · exact absurd rfl hd
  have hsaved := upsertContract_contracts [campaignEvent ownerId "campaign.created" n []]
    hcreated hsave
  obtain ⟨hpending, -⟩ := upsertContract_ok [campaignEvent ownerId "campaign.created" n []] hsave
  have hc₂ : c₂ = ⟨c₂.db, [], c₂.next⟩ := by rw [← hpending]
  rw [hc₂] at hpublish
  exact publishCampaign_contracts hsaved hpublish hf

/-! ## All requests -/

theorem handle_contracts {settings : Settings} {user : CurrentUser} (request : Request) :
    Yields (handle settings user request) fun _ db db' => ContractInv db → ContractInv db' := by
  by_cases hcontracts : .testingContracts ∈ request.relations
  · cases request with
    | launchCampaign payload =>
        exact yields_active (yields_validated fun p _ => yields_discard
          fun now db n r c db' hok hf h => launchCampaign_contracts h hok hf)
    | saveContract id payload =>
        refine yields_active (yields_validated fun p _ => fun now db n r c db' hok hf h => ?_)
        simp only [discard, alone_bind, getContract_ok, alone_pure] at hok
        obtain ⟨a, c₁, hm, _, c₂, ⟨_, _, rfl⟩, _, rfl⟩ := hok
        obtain ⟨hpending, -⟩ := upsertContract_ok [] hm
        rw [Flushes, hpending, applyAll_nil] at hf
        rw [hf]
        exact upsertContract_contracts [] h hm
    | publishCampaign id =>
        exact yields_active (yields_discard
          fun now db n r c db' hok hf h => publishCampaign_contracts h hok hf)
    | _ => exact absurd hcontracts (by simp [Request.relations])
  · intro now db n r c db' hok hf h
    have hcommit : (handle settings user request).commit.alone now db n = .ok (r, db', c.next) :=
      commit_alone.mpr ⟨c, hok, hf, rfl⟩
    refine contractInv_same h (commit_keeps hcommit fun s hs w hw t => ?_) ?_
    · cases hw <;> first | rfl | exact absurd hs hcontracts
    · obtain ⟨actions, hacts, hrun⟩ := handle_acts request now db n r c db' hok hf
      intro id c' hc' hd
      refine opened_runs hrun (fun x hx i hpublish => ?_) hc' hd
      have hx := hacts x hx
      subst hpublish
      cases request <;> simp [Request.acts, Request.relations] at hx hcontracts

theorem contractInv_reachable {settings : Settings} {s : Service} (h : Reachable settings s) :
    ContractInv s.db := by
  refine reachable_invariant ContractInv h ?_ ?_
  · constructor
    · intro i j k k' hi
      exact absurd hi (by simp [Db.empty])
    · intro i k c hi
      exact absurd hi (by simp [Db.empty])
  · intro s now user request u db nextId _ hinv hok
    obtain ⟨c, halone, hf, -⟩ := commit_alone.mp hok
    exact handle_contracts request now s.db s.nextId u c db halone hf hinv

end TestExchange
