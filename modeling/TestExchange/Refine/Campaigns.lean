import TestExchange.Refine.Effects

/-!
# The campaign and profile services take steps of the marketplace

Launching a campaign runs three services in one transaction, so creating,
saving and publishing are first described from any queue of audit events.
-/

namespace TestExchange

open Txn Txn.Session Exchange

variable {g : Nat}

/-! ## Drafts -/

theorem createCampaign_ok {ownerId : Uuid} {payload : CampaignCreate} {r : Uuid × Campaign}
    {now n : Nat} {db : Db} {c : Conn}
    (h : (createCampaign ownerId payload).alone now ⟨db, [], n⟩ = .ok (r, c)) :
    r = (n, payload.campaign ownerId) ∧ db.exchange.campaigns.get? n = none
      ∧ c = ⟨(insertCampaign n (payload.campaign ownerId)).effect db,
          [insertAuditEvent (campaignEvent ownerId "campaign.created" n [])], n + 1⟩ := by
  simp only [createCampaign, alone_bind, getProfile_ok, alone_query, alone_raiseIf, alone_uuid4,
    alone_add, addAuditEvent_ok, alone_flush, alone_pure, and_assoc, exists_and_left,
    exists_eq_left, exists_const, List.nil_append, applyAll_cons, applyAll_nil] at h
  obtain ⟨_, _, _, hv, hr, hc⟩ := h
  simp only [insertCampaign, firstViolated_cons, Table.contains_eq_false] at hv
  exact ⟨hr, hv.1, hc⟩

theorem createCampaign_takes (ownerId : Uuid) (payload : CampaignCreate) :
    Takes g (createCampaign ownerId payload) (∃ id, · = .createCampaign id) := by
  intro now db n r c db' h hf
  obtain ⟨_, hnew, rfl⟩ := createCampaign_ok h
  simp only [Flushes, applyAll_cons, applyAll_nil] at hf
  refine takes_single ⟨n, rfl⟩ ?_
  rw [hf.2, exchange_insertAuditEvent, exchange_insertCampaign]
  exact .createCampaign hnew rfl

theorem updateCampaign_takes (id ownerId : Uuid) (payload : CampaignUpdate) :
    Takes g (updateCampaign id ownerId payload) (· = .editCampaign id) := by
  intro now db n r c db' h hf
  simp only [updateCampaign, alone_bind, getCampaign_ok, requireCampaignOwner_ok, alone_raiseIf,
    alone_add, addAuditEvent_ok, alone_flush, alone_pure, and_assoc, exists_and_left,
    exists_eq_left, exists_const, List.nil_append, List.cons_append, not_not, applyAll_cons,
    applyAll_nil] at h
  obtain ⟨x, hx, rfl, hdraft, _, _, _, rfl⟩ := h
  rw [Flushes, applyAll_nil] at hf
  refine takes_single rfl ?_
  rw [hf, exchange_insertAuditEvent, exchange_patchCampaign]
  exact .editCampaign hx hdraft

/-! ## Contracts -/

/-- The marketplace after writing these events. -/
theorem flushes_events {es : List AuditEvent} {db d : Db} {n : Nat}
    (h : Flushes ⟨db, es.map insertAuditEvent, n⟩ d) :
    d.exchange = es.foldl Exchange.record db.exchange := by
  induction es generalizing db with
  | nil =>
      rw [Flushes, List.map_nil, applyAll_nil] at h
      rw [h]
      rfl
  | cons e es ih =>
      simp only [Flushes, List.map_cons, applyAll_cons] at h
      rw [ih h.2, exchange_insertAuditEvent]
      rfl

theorem saveContract_flushes {id : Uuid} {payload : ContractUpsert}
    {o : Option (Uuid × TestingContract)} {r : Uuid × TestingContract} {es : List AuditEvent}
    {now n : Nat} {db d : Db} {c : Conn}
    (h : (saveContract id payload o).alone now ⟨db, es.map insertAuditEvent, n⟩ = .ok (r, c))
    (hf : Flushes c d) : d.exchange = es.foldl Exchange.record db.exchange := by
  cases o with
  | none =>
      simp only [saveContract, alone_bind, alone_uuid4, alone_add, alone_flush, alone_pure,
        and_assoc, exists_and_left, exists_eq_left, exists_const] at h
      obtain ⟨c₁, ⟨d₁, hd₁, rfl⟩, _, rfl⟩ := h
      obtain ⟨d₂, hd₂, hw⟩ := applyAll_append.mp hd₁
      simp only [Flushes, applyAll_cons, applyAll_nil] at hf hw
      rw [hf, hw.2, exchange_insertTestingContract]
      exact flushes_events (n := n) hd₂
  | some old =>
      simp only [saveContract, alone_bind, alone_raiseIf, alone_add, alone_queryForUpdate,
        alone_execute, alone_pure, and_assoc, exists_and_left, exists_eq_left, exists_const] at h
      obtain ⟨_, _, _, rfl⟩ := h
      obtain ⟨d₁, hd₁, hw⟩ := applyAll_append.mp hf
      simp only [applyAll_cons, applyAll_nil] at hw
      rw [hw.2, exchange_writeTestingContract, flushes_events (n := n) hd₁,
        exchange_deleteContractTasks]

/-- Saving a contract writes one event that stands for no change of status. -/
theorem upsertContract_ok (es : List AuditEvent) {id ownerId : Uuid} {payload : ContractUpsert}
    {r : Uuid × TestingContract} {now n : Nat} {db : Db} {c : Conn}
    (h : (upsertContract id ownerId payload).alone now ⟨db, es.map insertAuditEvent, n⟩ = .ok (r, c)) :
    c.pending = [] ∧ ∃ details, c.db.exchange = (es.foldl Exchange.record db.exchange).record
      (campaignEvent ownerId "contract.saved" id details) := by
  simp only [upsertContract, alone_bind, getCampaign_ok, requireCampaignOwner_ok, alone_raiseIf,
    alone_query, addAuditEvent_ok, alone_flush, alone_pure, and_assoc, exists_and_left,
    exists_eq_left, exists_const] at h
  obtain ⟨x, _, rfl, _, k, c₁, hsave, _, c₂, htasks, c₃, ⟨d₃, hd₃, rfl⟩, _, rfl⟩ := h
  obtain ⟨d₂, hd₂, hw⟩ := applyAll_append.mp hd₃
  obtain ⟨_, d₁, hd₁, he₁⟩ := addTasks_flushes htasks hd₂
  simp only [applyAll_cons, applyAll_nil] at hw
  refine ⟨rfl, [("contract_id", .str (Uuid.str k.1)), ("version", .int k.2.version)], ?_⟩
  rw [hw.2, exchange_insertAuditEvent, he₁, saveContract_flushes hsave hd₁]
  rfl

theorem upsertContract_takes (id ownerId : Uuid) (payload : ContractUpsert) :
    Takes g (upsertContract id ownerId payload) (· = .note) := by
  intro now db n r c db' h hf
  obtain ⟨hpending, details, he⟩ := upsertContract_ok [] h
  rw [Flushes, hpending, applyAll_nil] at hf
  refine takes_single rfl ?_
  rw [hf, he]
  exact .note (by simp [neutralActions, campaignEvent])

/-! ## Publication -/

theorem publishCampaign_takes (id ownerId : Uuid) :
    Takes g (publishCampaign id ownerId) (· = .publish id) := by
  intro now db n r c db' h hf
  simp only [publishCampaign, alone_bind, selectForUpdate_ok, alone_orRaise,
    requireCampaignOwner_ok, and_assoc, exists_and_left, exists_eq_left, exists_const] at h
  obtain ⟨x, hx, rfl, h⟩ := h
  split at h
  · obtain ⟨_, rfl⟩ := alone_pure.mp h
    rw [Flushes, applyAll_nil] at hf
    rw [hf]
    exact takes_none
  · simp only [alone_bind, alone_raiseIf, getContract_ok, alone_utcnow, alone_add,
      addAuditEvent_ok, alone_flush, alone_pure, and_assoc, exists_and_left, exists_eq_left,
      exists_const, List.append_assoc, List.cons_append, List.nil_append, not_not] at h
    obtain ⟨hdraft, k, _, _, _, e, c₁, hrec, c₂, ⟨d₂, hd₂, rfl⟩, _, rfl⟩ := h
    obtain ⟨d₁, hd₁, hw⟩ := applyAll_append.mp hd₂
    obtain ⟨d, hd, hcredit⟩ := recordCreditEntry_flushes hrec (fun d hd => by
      rw [Flushes, applyAll_nil] at hd
      rw [hd]
      exact ⟨rfl, rfl⟩) hd₁
    simp only [Flushes, applyAll_cons, applyAll_nil] at hf hd hw
    rw [hd] at hcredit
    refine takes_single rfl ?_
    rw [hf, hw.2.2.2, exchange_insertAuditEvent, exchange_writeTestingContract,
      exchange_writeCampaign]
    exact .publish hx hdraft hcredit

theorem launchCampaign_takes (ownerId : Uuid) (payload : CampaignLaunch) :
    Takes g (launchCampaign ownerId payload)
      (fun x => x = .note ∨ ∃ id, x = .createCampaign id ∨ x = .publish id) := by
  intro now db n r c db' h hf
  simp only [launchCampaign, alone_bind] at h
  obtain ⟨k, c₁, hcreate, _, c₂, hsave, hpublish⟩ := h
  obtain ⟨rfl, hnew, rfl⟩ := createCampaign_ok hcreate
  obtain ⟨hpending, details, he⟩ :=
    upsertContract_ok [campaignEvent ownerId "campaign.created" n []] hsave
  have hc₂ : c₂ = ⟨c₂.db, [], c₂.next⟩ := by rw [← hpending]
  rw [hc₂] at hpublish
  obtain ⟨actions, hactions, hrun⟩ :=
    publishCampaign_takes (g := g) n ownerId _ _ _ _ _ _ hpublish hf
  rw [he] at hrun
  have hneutral : (campaignEvent ownerId "contract.saved" n details).action ∈ neutralActions := by
    simp [neutralActions, campaignEvent]
  refine ⟨.createCampaign n :: .note :: actions, ?_, .cons ?_ (.cons (.note hneutral) hrun)⟩
  · intro y hy
    rcases List.mem_cons.mp hy with rfl | hy
    · exact Or.inr ⟨n, Or.inl rfl⟩
    · rcases List.mem_cons.mp hy with rfl | hy
      · exact Or.inl rfl
      · exact Or.inr ⟨n, Or.inr (hactions y hy)⟩
  · exact .createCampaign (c := payload.campaign.campaign ownerId) hnew rfl

/-! ## Recruitment -/

theorem completeIfClosed_flushes {id actorId : Uuid} {x : Campaign} {action : TransitionAction}
    {now : Nat} {c c' : Conn} {db : Db} {b : Bool}
    (h : (completeIfClosed id x actorId action).alone now c = .ok (b, c')) (hf : Flushes c' db) :
    ∃ d, Flushes c d ∧ MayComplete id actorId x.status d.exchange db.exchange := by
  unfold completeIfClosed at h
  split at h
  · exact maybeCompleteCampaign_flushes h hf
  · obtain ⟨_, rfl⟩ := alone_pure.mp h
    exact ⟨db, hf, .no⟩

/-- The keys of the applications waiting for an answer are distinct. -/
theorem pending_nodup {db : Db} {p : Uuid → Assignment → Bool} :
    ((db.assignments.where' p).map Prod.fst).Nodup :=
  db.assignments.nodup.sublist (List.filter_sublist.map _)

/-- The status change of a transition, after the declines that closing brings. -/
theorem performTransition_flushes {id ownerId : Uuid} {x : Campaign} {action : TransitionAction}
    {now n : Nat} {db d : Db} {c : Conn} {status : CampaignStatus}
    (h : (performTransition id x ownerId action).alone now ⟨db, [], n⟩ = .ok (status, c))
    (hf : Flushes c d) :
    status = action.target ∧ action.allowedFrom x.status
      ∧ ∃ ids, d.exchange = (db.exchange.declineAll ownerId now ids).modifyCampaign id
            (fun c => { c with status := action.target })
          ∧ Runs (Step g) db.exchange (ids.map .decline) (db.exchange.declineAll ownerId now ids)
          ∧ (action = .resume →
              (db.exchange.declineAll ownerId now ids).occupiedSlots id < x.targetTesters) := by
  cases action with
  | pause =>
      simp only [performTransition, alone_bind, alone_raiseIf, alone_add, alone_pure, and_assoc,
        exists_and_left, exists_eq_left, exists_const, List.nil_append, not_not] at h
      obtain ⟨hstatus, rfl, rfl⟩ := h
      simp only [Flushes, applyAll_cons, applyAll_nil] at hf
      exact ⟨rfl, hstatus, [], congrArg Db.exchange hf.2, .nil _, fun he => absurd he (by simp)⟩
  | resume =>
      simp only [performTransition, alone_bind, alone_raiseIf, alone_query, alone_add, alone_pure,
        and_assoc, exists_and_left, exists_eq_left, exists_const, List.nil_append, not_not] at h
      obtain ⟨hstatus, hroom, rfl, rfl⟩ := h
      simp only [Flushes, applyAll_cons, applyAll_nil] at hf
      exact ⟨rfl, hstatus, [], congrArg Db.exchange hf.2, .nil _, fun _ => not_le.mp hroom⟩
  | close =>
      simp only [performTransition, alone_bind, alone_raiseIf, alone_queryForUpdate, alone_utcnow,
        alone_add, alone_pure, and_assoc, exists_and_left, exists_eq_left, exists_const,
        List.nil_append, not_and_or, not_not] at h
      obtain ⟨hstatus, _, c₁, hdecline, rfl, rfl⟩ := h
      obtain ⟨d₁, hd₁, he⟩ := declinePending_flushes hdecline hf
      simp only [Flushes, applyAll_cons, applyAll_nil] at hd₁
      rw [hd₁.2, exchange_writeCampaign, declineAll_modifyCampaign] at he
      refine ⟨rfl, hstatus, _, he, declineAll_runs pending_nodup ?_, fun he => absurd he (by simp)⟩
      intro i hi
      obtain ⟨⟨j, a⟩, hmem, rfl⟩ := List.mem_map.mp hi
      obtain ⟨ha, hp⟩ := Table.mem_where'.mp hmem
      simp only [Bool.and_eq_true, decide_eq_true_eq] at hp
      exact ⟨a, ha, hp.2⟩

theorem transitionCampaign_takes (id ownerId : Uuid) (action : TransitionAction) :
    Takes g (transitionCampaign id ownerId action)
      (fun x => x = .transition id action ∨ x = .complete id ∨ ∃ i, x = .decline i) := by
  intro now db n r c db' h hf
  simp only [transitionCampaign, alone_bind, selectForUpdate_ok, alone_orRaise,
    requireCampaignOwner_ok, addAuditEvent_ok, alone_flush, alone_pure, and_assoc, exists_and_left,
    exists_eq_left, exists_const] at h
  obtain ⟨x, hx, rfl, status, c₁, hperform, completed, c₂, hcomplete, c₃, ⟨d₃, hd₃, rfl⟩, _, rfl⟩ :=
    h
  obtain ⟨d₂, hd₂, hmay⟩ := completeIfClosed_flushes hcomplete hd₃
  obtain ⟨d₁, hd₁, hw⟩ := applyAll_append.mp hd₂
  obtain ⟨rfl, hfrom, ids, he₁, hdeclines, hroom⟩ := performTransition_flushes (g := g) hperform hd₁
  simp only [Flushes, applyAll_cons, applyAll_nil] at hf hw
  have hx₁ : (db.exchange.declineAll x.ownerId now ids).campaigns.get? id = some x := by
    rw [declineAll_campaigns]
    exact hx
  rw [hw.2, exchange_insertAuditEvent, he₁] at hmay
  obtain ⟨actions, hactions, hrun⟩ := hmay.runs (g := g)
    (Table.get?_modify_self.trans (congrArg (Option.map _) hx₁))
  rw [hf]
  refine ⟨ids.map .decline ++ .transition id action :: actions, ?_,
    hdeclines.append (.cons (.transition hx₁ hfrom hroom) hrun)⟩
  intro y hy
  rcases List.mem_append.mp hy with hy | hy
  · obtain ⟨i, _, rfl⟩ := List.mem_map.mp hy
    exact Or.inr (Or.inr ⟨i, rfl⟩)
  · rcases List.mem_cons.mp hy with rfl | hy
    · exact Or.inl rfl
    · exact Or.inr (Or.inl (hactions y hy))

/-! ## Profiles and accounts -/

theorem lockBetaState_ok {state : BetaProgramState} {now n : Nat} {db : Db} {c : Conn}
    (h : lockBetaState.alone now ⟨db, [], n⟩ = .ok (state, c)) :
    ∃ d, c = ⟨d, [], n⟩ ∧ d.exchange = db.exchange ∧ d.profiles = db.profiles := by
  simp only [lockBetaState, alone_bind, alone_queryForUpdate, and_assoc, exists_and_left,
    exists_eq_left] at h
  cases hs : db.betaProgramState with
  | some s =>
      rw [hs] at h
      obtain ⟨_, rfl⟩ := alone_pure.mp h
      exact ⟨db, rfl, rfl, rfl⟩
  | none =>
      rw [hs] at h
      simp only [alone_bind, alone_query, alone_add, alone_flush, alone_pure, and_assoc,
        exists_and_left, exists_eq_left, exists_const, List.nil_append, applyAll_cons,
        applyAll_nil] at h
      obtain ⟨_, _, rfl⟩ := h
      exact ⟨_, rfl, rfl, rfl⟩

theorem ensureCreditAccount_flushes {userId : Uuid} {a : CreditAccount} {now n : Nat} {db : Db}
    {c : Conn} (h : (ensureCreditAccount userId).alone now ⟨db, [], n⟩ = .ok (a, c)) :
    c.pending = [] ∧ c.db.exchange = db.exchange.openAccount userId := by
  cases hx : db.creditAccounts.get? userId with
  | some account =>
      obtain ⟨_, rfl⟩ := (ensureCreditAccount_some hx).mp h
      refine ⟨rfl, ?_⟩
      show db.exchange = { db.exchange with creditAccounts := db.creditAccounts.insert userId ⟨0⟩ }
      rw [Table.insert_of_mem hx]
      rfl
  | none =>
      obtain ⟨_, d, hd, rfl⟩ := ensureCreditAccount_none hx h
      rw [Flushes, applyAll_nil] at hd
      exact ⟨rfl, by rw [hd, exchange_insertCreditAccount]⟩

theorem creditBalance_takes (userId : Uuid) :
    Takes g (creditBalance userId) (· = .openAccount userId) := by
  intro now db n r c db' h hf
  simp only [creditBalance, alone_bind, getProfile_ok, alone_pure, and_assoc, exists_and_left,
    exists_eq_left] at h
  obtain ⟨_, _, a, c₁, hensure, _, rfl⟩ := h
  obtain ⟨hpending, he⟩ := ensureCreditAccount_flushes hensure
  rw [Flushes, hpending, applyAll_nil] at hf
  refine takes_single rfl ?_
  rw [hf, he]
  exact .openAccount

/-- The starting credits, if there are any. -/
theorem grantSignupCredits_flushes {grant : Nat} {userId : Uuid} {now n : Nat} {db d : Db} {c : Conn}
    {u : Unit} (h : (grantSignupCredits grant userId).alone now ⟨db, [], n⟩ = .ok (u, c))
    (hf : Flushes c d) :
    if 0 < grant then Credited (signupGrantEntry grant userId) db.exchange d.exchange
    else d.exchange = db.exchange := by
  unfold grantSignupCredits at h
  split at h
  · rename_i hg
    rw [if_pos hg]
    simp only [alone_bind, alone_pure] at h
    obtain ⟨e, c₁, hrec, _, rfl⟩ := h
    obtain ⟨d₀, hd₀, hcredit⟩ := recordCreditEntry_flushes hrec (fun d hd => by
      rw [Flushes, applyAll_nil] at hd
      rw [hd]
      exact ⟨rfl, rfl⟩) hf
    rw [Flushes, applyAll_nil] at hd₀
    rw [hd₀] at hcredit
    exact hcredit
  · rename_i hg
    rw [if_neg hg]
    obtain ⟨_, rfl⟩ := alone_pure.mp h
    rw [Flushes, applyAll_nil] at hf
    rw [hf]

theorem upsertProfile_takes (settings : Settings) (userId : Uuid) (email : Option String)
    (payload : ProfileUpsert) :
    Takes settings.signupCreditGrant (upsertProfile settings userId email payload)
      (fun x => x = .addProfile userId ∨ x = .editProfile userId) := by
  intro now db n r c db' h hf
  simp only [upsertProfile, alone_bind, alone_query, alone_raiseIf, and_assoc, exists_and_left,
    exists_eq_left, exists_const] at h
  obtain ⟨_, h⟩ := h
  cases hx : db.profiles.get? userId with
  | none =>
      rw [hx] at h
      simp only [alone_bind, alone_raiseIf, alone_add, addAuditEvent_ok, alone_flush, alone_pure,
        and_assoc, exists_and_left, exists_eq_left, exists_const] at h
      obtain ⟨_, state, c₁, hlock, _, c₂, ⟨d₂, hd₂, rfl⟩, _, c₃, hensure, _, c₄, hgrant, c₅,
        ⟨d₅, hd₅, rfl⟩, _, rfl⟩ := h
      obtain ⟨d₁, rfl, he₁, _⟩ := lockBetaState_ok hlock
      obtain ⟨hpending, he₃⟩ := ensureCreditAccount_flushes hensure
      obtain ⟨d₄, hd₄, hw⟩ := applyAll_append.mp hd₅
      have hc₃ : c₃ = ⟨c₃.db, [], c₃.next⟩ := by rw [← hpending]
      rw [hc₃] at hgrant
      have hcredit := grantSignupCredits_flushes hgrant hd₄
      simp only [Flushes, List.nil_append, List.cons_append, applyAll_cons, applyAll_nil] at hf hd₂ hw
      rw [he₃, hd₂.2.2, exchange_insertProfile, exchange_writeBetaProgramState, he₁] at hcredit
      refine takes_single (Or.inl rfl) ?_
      rw [hf, hw.2, exchange_insertAuditEvent]
      exact .addProfile hx hcredit
  | some profile =>
      rw [hx] at h
      simp only [alone_bind, alone_add, addAuditEvent_ok, alone_flush, alone_pure, and_assoc,
        exists_and_left, exists_eq_left, exists_const, List.nil_append, List.cons_append,
        applyAll_cons, applyAll_nil] at h
      obtain ⟨_, _, _, rfl⟩ := h
      rw [Flushes, applyAll_nil] at hf
      refine takes_single (Or.inr rfl) ?_
      rw [hf, exchange_insertAuditEvent, exchange_writeSavedProfile]
      exact .editProfile (by simp [neutralActions])

theorem suspendParticipant_takes (participantId moderatorId : Uuid) (reason : String) :
    Takes g (suspendParticipant participantId moderatorId reason)
      (· = .editProfile participantId) := by
  intro now db n r c db' h hf
  simp only [suspendParticipant, alone_bind, alone_raiseIf, selectForUpdate_ok, alone_orRaise,
    alone_utcnow, alone_add, addAuditEvent_ok, alone_flush, alone_pure, and_assoc, exists_and_left,
    exists_eq_left, exists_const, List.nil_append, List.cons_append, applyAll_cons,
    applyAll_nil] at h
  obtain ⟨_, p, _, _, _, _, rfl⟩ := h
  rw [Flushes, applyAll_nil] at hf
  refine takes_single rfl ?_
  rw [hf, exchange_insertAuditEvent, exchange_writeProfile]
  exact .editProfile (by simp [neutralActions])

theorem restoreParticipant_takes (participantId moderatorId : Uuid) :
    Takes g (restoreParticipant participantId moderatorId) (· = .editProfile participantId) := by
  intro now db n r c db' h hf
  simp only [restoreParticipant, alone_bind, selectForUpdate_ok, alone_orRaise, alone_add,
    addAuditEvent_ok, alone_flush, alone_pure, and_assoc, exists_and_left, exists_eq_left,
    exists_const, List.nil_append, List.cons_append, applyAll_cons, applyAll_nil] at h
  obtain ⟨p, _, _, _, _, rfl⟩ := h
  rw [Flushes, applyAll_nil] at hf
  refine takes_single rfl ?_
  rw [hf, exchange_insertAuditEvent, exchange_writeProfile]
  exact .editProfile (by simp [neutralActions])

/-! ## Waitlist and notifications -/

theorem joinWaitlist_takes (email : String) : Takes g (joinWaitlist email) (fun _ => False) := by
  intro now db n r c db' h hf
  simp only [joinWaitlist, alone_bind, alone_query, and_assoc, exists_and_left,
    exists_eq_left] at h
  cases hx : db.waitlistEntries.find? fun _ e => e.email = email with
  | some existing =>
      rw [hx] at h
      obtain ⟨_, rfl⟩ := alone_pure.mp h
      rw [Flushes, applyAll_nil] at hf
      rw [hf]
      exact takes_none
  | none =>
      rw [hx] at h
      simp only [alone_bind, alone_uuid4, alone_executeNested, and_assoc, exists_and_left,
        exists_eq_left] at h
      cases hv : (insertWaitlistEntry n ⟨email⟩).violates db with
      | none =>
          rw [hv] at h
          obtain ⟨_, rfl⟩ := alone_pure.mp h
          rw [Flushes, applyAll_nil] at hf
          rw [hf]
          exact takes_none
      | some e =>
          rw [hv] at h
          simp only [alone_bind, alone_query, alone_orRaise, and_assoc, exists_and_left,
            exists_eq_left] at h
          obtain ⟨_, rfl⟩ := h
          rw [Flushes, applyAll_nil] at hf
          rw [hf]
          exact takes_none

theorem markNotificationRead_takes (id userId : Uuid) :
    Takes g (markNotificationRead id userId) (fun _ => False) := by
  intro now db n r c db' h hf
  simp only [markNotificationRead, alone_bind, selectForUpdate_ok, alone_orRaise, alone_raiseIf,
    and_assoc, exists_and_left, exists_eq_left, exists_const] at h
  obtain ⟨m, _, _, h⟩ := h
  cases hr : m.readAt with
  | some t =>
      rw [hr] at h
      obtain ⟨_, rfl⟩ := alone_pure.mp h
      rw [Flushes, applyAll_nil] at hf
      rw [hf]
      exact takes_none
  | none =>
      rw [hr] at h
      simp only [alone_bind, alone_utcnow, alone_add, alone_flush, alone_pure, and_assoc,
        exists_and_left, exists_eq_left, exists_const, List.nil_append, applyAll_cons,
        applyAll_nil] at h
      obtain ⟨_, _, rfl⟩ := h
      rw [Flushes, applyAll_nil] at hf
      rw [hf]
      exact takes_none

theorem markAllNotificationsRead_takes (userId : Uuid) :
    Takes g (markAllNotificationsRead userId) (fun _ => False) := by
  intro now db n r c db' h hf
  simp only [markAllNotificationsRead, alone_bind, alone_utcnow, alone_queryForUpdate,
    alone_execute, and_assoc, exists_and_left, exists_eq_left] at h
  obtain ⟨_, rfl⟩ := h
  rw [Flushes, applyAll_nil] at hf
  rw [hf]
  exact takes_none

end TestExchange
