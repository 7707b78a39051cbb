import TestExchange.Refine.Effects
import TestExchange.Txn.Success

/-!
# The workflow services take steps of the marketplace

One theorem per service: if it succeeds, run alone from an empty queue, then the
marketplace after the final flush is reached from the one before by the steps
named in the theorem. The guards of those steps are the checks the service made.
-/

namespace TestExchange

open Txn Txn.Session Exchange

variable {g : Nat}

/-! ## Applications and testing -/

/-- What an accept that succeeds has checked, and what it does. -/
theorem acceptAssignment_ok {id ownerId : Uuid} {r : Uuid × Assignment} {now n : Nat} {db db' : Db}
    {c : Conn} (h : (acceptAssignment id ownerId).alone now ⟨db, [], n⟩ = .ok (r, c))
    (hf : Flushes c db') :
    ∃ a x, db.assignments.get? id = some a ∧ a.status = .applied
      ∧ db.campaigns.get? a.campaignId = some x ∧ x.ownerId = ownerId ∧ x.status = .published
      ∧ db.occupiedSlots a.campaignId < x.targetTesters
      ∧ db'.exchange = (db.exchange.modifyAssignment id fun a =>
          { a with status := .accepted, acceptedAt := some now }).record
          (assignmentEvent ownerId "assignment.accepted" id []) := by
  simp only [acceptAssignment, alone_bind, alone_query, selectForUpdate_ok, alone_orRaise,
    alone_raiseIf, requireCampaignOwner_ok, alone_utcnow, alone_add, addAuditEvent_ok, alone_flush,
    alone_pure, and_assoc, exists_and_left, exists_eq_left, exists_const, List.nil_append,
    List.cons_append, Option.map_eq_some_iff, not_not] at h
  obtain ⟨_, ⟨a, ha, rfl⟩, x, hx, rfl, hpublished, a', ha', happlied, hroom, _, c₁, hn, c₂,
    ⟨db₂, hdb₂, rfl⟩, _, rfl⟩ := h
  obtain ⟨d, hd, he⟩ := addNotification_flushes hn hdb₂
  simp only [Flushes, applyAll_cons, applyAll_nil] at hd hf
  have hsame : a' = a := Option.some.inj (ha'.symm.trans ha)
  subst hsame
  refine ⟨a', x, ha, happlied, hx, rfl, hpublished, not_le.mp hroom, ?_⟩
  rw [hf, he, hd.2.2, exchange_insertAuditEvent, exchange_writeAssignment]
  rfl

theorem acceptAssignment_takes (id ownerId : Uuid) :
    Takes g (acceptAssignment id ownerId) (· = .accept id) := by
  intro now db n r c db' h hf
  obtain ⟨a, x, ha, happlied, hx, rfl, hpublished, hroom, he⟩ := acceptAssignment_ok h hf
  refine takes_single rfl ?_
  rw [he]
  exact .accept ha happlied hx hpublished hroom

/-- What an application that succeeds has checked, and what it does. -/
theorem applyToCampaign_ok {campaignId testerId : Uuid} {payload : AssignmentApply}
    {r : Uuid × Assignment} {now n : Nat} {db db' : Db} {c : Conn}
    (h : (applyToCampaign campaignId testerId payload).alone now ⟨db, [], n⟩ = .ok (r, c))
    (hf : Flushes c db') :
    ∃ p x, db.profiles.get? testerId = some p ∧ db.campaigns.get? campaignId = some x
      ∧ x.status = .published ∧ x.ownerId ≠ testerId
      ∧ db.occupiedSlots campaignId < x.targetTesters ∧ n < c.next
      ∧ (insertAssignment n ⟨campaignId, testerId, payload.applicationNote, .applied, none, none,
          none, none⟩).violates db = none
      ∧ db'.exchange = { db.exchange with
          assignments := db.assignments.insert n ⟨campaignId, testerId, payload.applicationNote,
            .applied, none, none, none, none⟩ }.record
          (assignmentEvent testerId "assignment.applied" n []) := by
  simp only [applyToCampaign, alone_bind, getProfile_ok, alone_query, selectForUpdate_ok,
    alone_orRaise, alone_raiseIf, alone_uuid4, alone_add, addAuditEvent_ok, alone_flush,
    alone_pure, and_assoc, exists_and_left, exists_eq_left, exists_const, List.nil_append,
    not_not, applyAll_cons, applyAll_nil] at h
  obtain ⟨p, hp, x, hx, hpublished, howner, _, hroom, hv, name, c₁, hname, _, c₂, hn, _, rfl⟩ := h
  have hc₁ := testerDisplayName_ok hname
  subst hc₁
  have hnext : n < c.next := alone_next_le hn
  obtain ⟨d, hd, he⟩ := addNotification_flushes hn hf
  simp only [Flushes, applyAll_cons, applyAll_nil] at hd
  refine ⟨p, x, hp, hx, hpublished, howner, not_le.mp hroom, hnext, hv, ?_⟩
  rw [he, hd.2, exchange_insertAuditEvent, exchange_insertAssignment]
  rfl

theorem applyToCampaign_takes (campaignId testerId : Uuid) (payload : AssignmentApply) :
    Takes g (applyToCampaign campaignId testerId payload) (∃ id, · = .apply id) := by
  intro now db n r c db' h hf
  obtain ⟨p, x, -, hx, hpublished, howner, hroom, -, hv, he⟩ := applyToCampaign_ok h hf
  simp only [insertAssignment, firstViolated_cons, firstViolated_nil, Table.contains_eq_false]
    at hv
  refine takes_single ⟨n, rfl⟩ ?_
  rw [he]
  refine .apply hv.1 hx hpublished howner ?_ hroom
  intro i a ha hsame
  have hnone := Table.any_eq_false.mp hv.2.1 i a ha
  simp [hsame.1, hsame.2] at hnone

theorem declineAssignment_takes (id ownerId : Uuid) :
    Takes g (declineAssignment id ownerId) (· = .decline id) := by
  intro now db n r c db' h hf
  simp only [declineAssignment, alone_bind, getCampaign_ok, selectForUpdate_ok, alone_orRaise,
    alone_raiseIf, requireCampaignOwner_ok, alone_utcnow, alone_add, addAuditEvent_ok, alone_flush,
    alone_pure, and_assoc, exists_and_left, exists_eq_left, exists_const, List.nil_append,
    List.cons_append, not_not] at h
  obtain ⟨a, ha, x, _, rfl, happlied, _, c₁, hn, c₂, ⟨db₂, hdb₂, rfl⟩, _, rfl⟩ := h
  obtain ⟨d, hd, he⟩ := addNotification_flushes hn hdb₂
  simp only [Flushes, applyAll_cons, applyAll_nil] at hd hf
  refine takes_single rfl ?_
  rw [hf, he, hd.2.2, exchange_insertAuditEvent, exchange_writeAssignment]
  exact .decline ha happlied

theorem withdrawAssignment_takes (id testerId : Uuid) :
    Takes g (withdrawAssignment id testerId)
      (fun x => x = .withdraw id ∨ ∃ campaignId, x = .complete campaignId) := by
  intro now db n r c db' h hf
  simp only [withdrawAssignment, alone_bind, selectForUpdate_ok, alone_orRaise, alone_raiseIf,
    alone_utcnow, alone_add, addAuditEvent_ok, alone_flush, alone_pure, and_assoc,
    exists_and_left, exists_eq_left, exists_const, List.nil_append, List.cons_append, not_not] at h
  obtain ⟨a, ha, rfl, hstatus, x, hx, name, c₁, hname, _, c₂, hn, _, c₃, hm, c₄,
    ⟨db₄, hdb₄, rfl⟩, _, rfl⟩ := h
  have hc₁ := testerDisplayName_ok hname
  subst hc₁
  obtain ⟨d₂, hd₂, hcomplete⟩ := maybeCompleteCampaign_flushes hm hdb₄
  obtain ⟨d, hd, he⟩ := addNotification_flushes hn hd₂
  simp only [Flushes, applyAll_cons, applyAll_nil] at hd hf
  have hd₂' := he.trans (congrArg Db.exchange hd.2.2)
  rw [exchange_insertAuditEvent, exchange_writeAssignment] at hd₂'
  rw [hd₂'] at hcomplete
  rw [hf]
  exact takes_then_complete (Or.inl rfl) (fun _ => Or.inr ⟨_, rfl⟩)
    (.withdraw ha (by simpa using hstatus)) hcomplete hx

theorem startAssignment_takes (id testerId : Uuid) :
    Takes g (startAssignment id testerId) (· = .start id) := by
  intro now db n r c db' h hf
  simp only [startAssignment, alone_bind, getAssignment_ok, alone_raiseIf, alone_utcnow, alone_add,
    alone_uuid4, addAuditEvent_ok, alone_flush, alone_pure, and_assoc, exists_and_left,
    exists_eq_left, exists_const, List.nil_append, List.cons_append, not_not, applyAll_cons,
    applyAll_nil] at h
  obtain ⟨a, ha, rfl, haccepted, _, _, _, _, rfl⟩ := h
  simp only [Flushes, applyAll_nil] at hf
  refine takes_single rfl ?_
  rw [hf, exchange_insertAuditEvent, exchange_insertTestingSession, exchange_writeAssignment]
  exact .start ha haccepted

theorem recordTestingSession_takes (id testerId : Uuid) (payload : TestingSessionCreate) :
    Takes g (recordTestingSession id testerId payload) (· = .note) := by
  intro now db n r c db' h hf
  simp only [recordTestingSession, alone_bind, alone_query, selectForUpdate_ok, alone_orRaise,
    alone_raiseIf, alone_utcnow, alone_add, alone_uuid4, addAuditEvent_ok, alone_flush, alone_pure,
    and_assoc, exists_and_left, exists_eq_left, exists_const, List.nil_append, applyAll_cons,
    applyAll_nil] at h
  obtain ⟨a, _, _, _, _, _, _, rfl⟩ := h
  simp only [Flushes, applyAll_cons, applyAll_nil] at hf
  refine takes_single rfl ?_
  rw [hf.2, exchange_insertAuditEvent, exchange_insertTestingSession]
  exact .note (by simp [neutralActions])

theorem addMessage_takes (id senderId : Uuid) (payload : MessageCreate) :
    Takes g (addMessage id senderId payload) (· = .note) := by
  intro now db n r c db' h hf
  simp only [addMessage, alone_bind, getAssignment_ok, requireAssignmentParticipant_ok,
    getCampaign_ok, alone_add, alone_uuid4, addAuditEvent_ok, alone_flush, alone_pure, and_assoc,
    exists_and_left, exists_eq_left, exists_const, List.nil_append, applyAll_cons,
    applyAll_nil] at h
  obtain ⟨a, _, _, _, _, _, _, _, _, c₂, hn, _, rfl⟩ := h
  obtain ⟨d, hd, he⟩ := addNotification_flushes hn hf
  simp only [Flushes, applyAll_cons, applyAll_nil] at hd
  refine takes_single rfl ?_
  rw [he, hd.2, exchange_insertAuditEvent, exchange_insertMessage]
  exact .note (by simp [neutralActions])

/-! ## Submissions and reviews -/

theorem createSubmission_takes (id testerId : Uuid) (payload : SubmissionCreate) :
    Takes g (createSubmission id testerId payload) (∃ submissionId, · = .submit submissionId) := by
  intro now db n r c db' h hf
  simp only [createSubmission, alone_bind, alone_query, selectForUpdate_ok, alone_orRaise,
    alone_raiseIf, contractForAssignment_ok, getCampaign_ok, alone_utcnow, alone_add, alone_uuid4,
    addAuditEvent_ok, alone_flush, alone_pure, and_assoc, exists_and_left, exists_eq_left,
    exists_const, List.nil_append, List.append_assoc, List.cons_append, not_not] at h
  obtain ⟨a, ha, rfl, hstatus, _, _, _, _, _, _, _, _, _, _, c₁, hitems, c₂, ⟨d₂, hd₂, rfl⟩, _, c₃,
    hadd, x, _, name, c₄, hname, _, c₅, hn, c₆, ⟨d₆, hd₆, rfl⟩, _, rfl⟩ := h
  have hc₁ := checkItems_ok hitems
  have hc₄ := testerDisplayName_ok hname
  subst hc₁ hc₄
  obtain ⟨d₅, hd₅, he₅⟩ := addNotification_flushes hn hd₆
  obtain ⟨d₃, hd₃, hw⟩ := flushes_append hd₅
  obtain ⟨_, d, hd, he₃⟩ := addItems_flushes hadd hd₃
  simp only [Flushes, List.nil_append, applyAll_cons, applyAll_nil] at hd hd₂ hw hf
  obtain ⟨hv, rfl⟩ := hd₂
  simp only [insertEvidenceSubmission, firstViolated_cons, Table.contains_eq_false] at hv
  refine takes_single ⟨n, rfl⟩ ?_
  rw [hf, he₅, hw.2.2, exchange_insertAuditEvent, exchange_writeAssignment, he₃, hd,
    exchange_insertEvidenceSubmission]
  exact .submit ha hstatus hv.1 rfl rfl rfl

/-- Approving queued work: it is paid, and its campaign may be complete. -/
theorem approval_flushes {submissionId id campaignId actorId : Uuid} {change : CreditChange}
    {x : Campaign} {e : CreditLedgerEntry} {at' now n : Nat} {db d₂ db' : Db} {c₁ c : Conn} {b : Bool}
    (hrec : (recordCreditEntry change).alone now
      ⟨db, [writeEvidenceSubmission submissionId fun e => { e with status := .approved },
        writeAssignment id fun a => { a with status := .approved, completedAt := some at' }], n⟩
      = .ok (e, c₁))
    (hd₂ : Flushes c₁ d₂)
    (hm : (maybeCompleteCampaign campaignId x actorId).alone now ⟨d₂, [], c₁.next⟩ = .ok (b, c))
    (hf : Flushes c db') :
    ∃ s', Credited change (db.exchange.reviewed submissionId id at' .approved) s'
      ∧ MayComplete campaignId actorId x.status s' db'.exchange := by
  obtain ⟨d₃, hd₃, hcomplete⟩ := maybeCompleteCampaign_flushes hm hf
  obtain ⟨d, hd, hcredit⟩ := recordCreditEntry_flushes hrec (fun d hd => by
    simp only [Flushes, applyAll_cons, applyAll_nil] at hd
    rw [hd.2.2]
    exact ⟨rfl, rfl⟩) hd₂
  simp only [Flushes, applyAll_cons, applyAll_nil] at hd hd₃
  rw [hd₃] at hcomplete
  rw [hd.2.2, exchange_writeAssignment, exchange_writeEvidenceSubmission] at hcredit
  exact ⟨d₂.exchange, hcredit, hcomplete⟩

/-- The decision, its payment, and a completion it may bring about. -/
theorem applyDecision_flushes {submissionId id reviewerId : Uuid} {a : Assignment} {x : Campaign}
    {decision : ReviewDecision} {now n : Nat} {db db' : Db} {c : Conn} {u : Unit}
    (h : (applyDecision submissionId id a x reviewerId decision).alone now ⟨db, [], n⟩ = .ok (u, c))
    (hf : Flushes c db') :
    ∃ s' note,
      (if decision = .approved then
        Credited (rewardEntry id a x note reviewerId)
          (db.exchange.reviewed submissionId id now decision) s'
      else s' = db.exchange.reviewed submissionId id now decision)
      ∧ MayComplete a.campaignId reviewerId x.status s' db'.exchange := by
  cases decision with
  | approved =>
      simp only [applyDecision, alone_bind, alone_utcnow, alone_add, alone_flush, alone_pure,
        and_assoc, exists_and_left, exists_eq_left, exists_const, List.nil_append,
        List.cons_append] at h
      obtain ⟨e, c₁, hrec, c₂, ⟨d₂, hd₂, rfl⟩, _, c₃, hm, _, rfl⟩ := h
      obtain ⟨s', hcredit, hcomplete⟩ := approval_flushes hrec hd₂ hm hf
      exact ⟨s', _, by rw [if_pos rfl]; exact hcredit, hcomplete⟩
  | changesRequested =>
      simp only [applyDecision, alone_bind, alone_add, exists_const, exists_eq_left,
        List.nil_append, List.cons_append] at h
      subst h
      simp only [Flushes, applyAll_cons, applyAll_nil] at hf
      refine ⟨db'.exchange, "", ?_, .no⟩
      rw [if_neg (by simp), hf.2.2, exchange_writeAssignment, exchange_writeEvidenceSubmission]
      rfl
  | rejected =>
      simp only [applyDecision, alone_bind, alone_add, exists_const, exists_eq_left,
        List.nil_append, List.cons_append] at h
      subst h
      simp only [Flushes, applyAll_cons, applyAll_nil] at hf
      refine ⟨db'.exchange, "", ?_, .no⟩
      rw [if_neg (by simp), hf.2.2, exchange_writeAssignment, exchange_writeEvidenceSubmission]
      rfl

theorem createReview_takes (submissionId reviewerId : Uuid) (payload : ReviewCreate) :
    Takes g (createReview submissionId reviewerId payload)
      (fun x => x = .review submissionId ∨ ∃ campaignId, x = .complete campaignId) := by
  intro now db n r c db' h hf
  simp only [createReview, alone_bind, alone_query, selectForUpdate_ok, alone_orRaise,
    alone_raiseIf, requireCampaignOwner_ok, alone_add, alone_uuid4, addAuditEvent_ok, alone_flush,
    alone_pure, and_assoc, exists_and_left, exists_eq_left, exists_const, List.nil_append, not_not,
    applyAll_cons, applyAll_nil, Option.map_eq_some_iff] at h
  obtain ⟨_, ⟨e₀, he₀, rfl⟩, a, ha, e, he, x, hx, rfl, hcalm, hpending, hawaiting, hv, _, c₁, hdec,
    _, c₂, hn, c₃, ⟨d₃, hd₃, rfl⟩, _, rfl⟩ := h
  have hsame : e₀ = e := Option.some.inj (he₀.symm.trans he)
  subst hsame
  obtain ⟨d₂, hd₂, hn₂⟩ := addNotification_flushes hn hd₃
  obtain ⟨d₁, hd₁, hw⟩ := flushes_append hd₂
  obtain ⟨s', note, hpay, hcomplete⟩ := applyDecision_flushes hdec hd₁
  simp only [Flushes, applyAll_cons, applyAll_nil] at hf hw
  simp only [insertReview, firstViolated_cons, Table.contains_eq_false] at hv
  have hres := (congrArg Db.exchange hf).trans (hn₂.trans (congrArg Db.exchange hw.2))
  rw [exchange_insertAuditEvent] at hres
  rw [hres]
  have hcampaign : s'.campaigns = db.exchange.campaigns := by
    cases hdcs : payload.decision with
    | approved =>
        rw [hdcs, if_pos rfl] at hpay
        cases hpay with
        | known => rfl
        | entered => rfl
    | changesRequested => rw [hdcs, if_neg (by simp)] at hpay; rw [hpay]; rfl
    | rejected => rw [hdcs, if_neg (by simp)] at hpay; rw [hpay]; rfl
  let review : Review :=
    { submissionId, reviewerId := x.ownerId, decision := payload.decision, notes := payload.notes }
  refine takes_then_complete (Or.inl rfl) (fun _ => Or.inr ⟨_, rfl⟩)
    (@Step.review g db.exchange s' n submissionId e₀.assignmentId a e₀ x review note now _ he
      rfl ha hx ?_ hpending hawaiting hv.1 ?_ rfl rfl hpay)
    (hcomplete.record rfl) (by show s'.campaigns.get? _ = _; rw [hcampaign]; exact hx)
  · intro i d hd hof hactive
    have hnone := Table.find?_eq_none.mp (Option.not_isSome_iff_eq_none.mp hcalm) i d hd
    simp [hof, hactive] at hnone
  · intro i q hq hsub
    have hnone := Table.any_eq_false.mp hv.2.1 i q hq
    simp [hsub] at hnone

/-! ## Disputes -/

theorem checkEscalation_ok {a : Assignment} {e : EvidenceSubmission} {now : Nat} {c c' : Conn}
    {u : Unit} (h : (checkEscalation a e).alone now c = .ok (u, c'))
    (hstatus : a.status ∈ [AssignmentStatus.rejected, .submitted]) :
    c' = c ∧ ((a.status = .submitted ∧ e.status = .submitted)
      ∨ (a.status = .rejected ∧ e.status = .rejected)) := by
  unfold checkEscalation at h
  split at h
  · rename_i hs
    simp only [alone_bind, alone_raiseIf, contractForAssignment_ok, alone_utcnow, and_assoc,
      exists_and_left, exists_eq_left, exists_const, not_not] at h
    obtain ⟨he, _, _, _, _, rfl⟩ := h
    exact ⟨rfl, Or.inl ⟨hs, he⟩⟩
  · rename_i hs
    rw [alone_raiseIf, not_not] at h
    have ha : a.status = .rejected := by simpa [hs] using hstatus
    exact ⟨h.2, Or.inr ⟨ha, h.1⟩⟩

theorem openDispute_takes (id openedBy : Uuid) (payload : DisputeCreate) :
    Takes g (openDispute id openedBy payload) (∃ disputeId, · = .openDispute disputeId) := by
  intro now db n r c db' h hf
  simp only [openDispute, alone_bind, alone_query, selectForUpdate_ok, alone_orRaise,
    requireAssignmentParticipant_ok, alone_raiseIf, getCampaign_ok, alone_add, alone_uuid4,
    addAuditEvent_ok, alone_flush, alone_pure, and_assoc, exists_and_left, exists_eq_left,
    exists_const, not_not] at h
  obtain ⟨a, ha, x, _, _, rfl, hstatus, submissionId, hsub, e, he, hof, _, c₁, hcheck, honce, c₂,
    ⟨d₂, hd₂, rfl⟩, y, _, _, c₃, hn, _, rfl⟩ := h
  obtain ⟨rfl, hescalate⟩ := checkEscalation_ok hcheck hstatus
  obtain ⟨d₁, hd₁, he₁⟩ := addNotification_flushes hn hf
  simp only [Flushes, List.nil_append, applyAll_cons, applyAll_nil] at hd₁ hd₂
  obtain ⟨hv, rfl⟩ := hd₂
  simp only [insertDispute, firstViolated_cons, Table.contains_eq_false] at hv
  refine takes_single ⟨n, rfl⟩ ?_
  rw [he₁, hd₁.2, exchange_insertAuditEvent, exchange_insertDispute]
  let dispute : Dispute :=
    { assignmentId := id, submissionId := some submissionId, openedBy := a.testerId,
      reason := payload.reason }
  refine @Step.openDispute g db.exchange n submissionId a e dispute hv.1 ha rfl he rfl hof
    hescalate ?_ rfl ⟨rfl, rfl, rfl⟩
  intro i d hd hsame
  have hnone := Table.find?_eq_none.mp (Option.not_isSome_iff_eq_none.mp honce) i d hd
  simp [hsame, dispute] at hnone

theorem claimDispute_takes (disputeId moderatorId : Uuid) :
    Takes g (claimDispute disputeId moderatorId) (· = .claim disputeId) := by
  intro now db n r c db' h hf
  simp only [claimDispute, alone_bind, selectForUpdate_ok, alone_orRaise, and_assoc,
    exists_and_left, exists_eq_left] at h
  obtain ⟨d, hd, h⟩ := h
  split at h
  · simp only [alone_bind, alone_raiseIf, alone_pure, and_assoc, exists_and_left, exists_eq_left,
      exists_const] at h
    obtain ⟨_, _, rfl⟩ := h
    rw [Flushes, applyAll_nil] at hf
    rw [hf]
    exact takes_none
  · simp only [alone_bind, alone_raiseIf, alone_utcnow, alone_add, addAuditEvent_ok, alone_flush,
      alone_pure, and_assoc, exists_and_left, exists_eq_left, exists_const, List.nil_append,
      List.cons_append, not_not, applyAll_cons, applyAll_nil] at h
    obtain ⟨hopen, _, _, _, rfl⟩ := h
    rw [Flushes, applyAll_nil] at hf
    refine takes_single rfl ?_
    rw [hf, exchange_insertAuditEvent, exchange_writeDispute]
    exact .claim hd hopen

theorem disputedSubmission_ok {id : Uuid} {o : Option EvidenceSubmission} {e : EvidenceSubmission}
    {now : Nat} {c c' : Conn} :
    (disputedSubmission id o).alone now c = .ok (e, c')
      ↔ o = some e ∧ e.assignmentId = id ∧ c' = c := by
  simp only [disputedSubmission, alone_bind, alone_orRaise, alone_raiseIf, alone_pure, and_assoc,
    exists_and_left, exists_eq_left, exists_const, not_not]
  constructor
  · rintro ⟨e', ho, hid, he, hc⟩; subst he; exact ⟨ho, hid, hc⟩
  · rintro ⟨ho, hid, hc⟩; exact ⟨e, ho, hid, rfl, hc⟩

/-- What an award does before the dispute itself is closed. -/
theorem awardTester_flushes {d : Dispute} {a : Assignment} {moderatorId : Uuid} {now n : Nat}
    {db db' : Db} {c : Conn} {u : Unit}
    (h : (awardTester d a moderatorId).alone now ⟨db, [], n⟩ = .ok (u, c)) (hf : Flushes c db') :
    ∃ submissionId e x s' note,
      d.submissionId = some submissionId ∧ a.status ∈ [AssignmentStatus.rejected, .submitted]
        ∧ db.exchange.evidenceSubmissions.get? submissionId = some e
        ∧ e.assignmentId = d.assignmentId ∧ db.exchange.campaigns.get? a.campaignId = some x
        ∧ Credited (rewardEntry d.assignmentId a x note moderatorId)
            (db.exchange.reviewed submissionId d.assignmentId now .approved) s'
        ∧ MayComplete a.campaignId moderatorId x.status s' db'.exchange := by
  simp only [awardTester, alone_bind, selectForUpdate_ok, disputedSubmission_ok, alone_orRaise,
    alone_raiseIf, alone_utcnow, alone_add, alone_flush, alone_pure, and_assoc, exists_and_left,
    exists_eq_left, exists_const, List.nil_append, List.cons_append, not_not] at h
  obtain ⟨submissionId, hsub, hstatus, e, he, hof, x, hx, entry, c₁, hrec, c₂, ⟨d₂, hd₂, rfl⟩,
    _, c₃, hm, _, rfl⟩ := h
  obtain ⟨s', hcredit, hcomplete⟩ := approval_flushes hrec hd₂ hm hf
  exact ⟨submissionId, e, x, s', _, hsub, hstatus, he, hof, hx, hcredit, hcomplete⟩

theorem resolveDispute_takes (disputeId moderatorId : Uuid) (payload : DisputeResolve)
    (hvalid : payload.outcome = .rejected → payload.remedy = .none) :
    Takes g (resolveDispute disputeId moderatorId payload)
      (fun x => x = .resolve disputeId ∨ ∃ campaignId, x = .complete campaignId) := by
  intro now db n r c db' h hf
  simp only [resolveDispute, alone_bind, selectForUpdate_ok, alone_orRaise, alone_raiseIf,
    getCampaign_ok, alone_utcnow, alone_add, addAuditEvent_ok, alone_flush, alone_pure, and_assoc,
    exists_and_left, exists_eq_left, exists_const, List.append_assoc, List.cons_append,
    List.nil_append, not_not] at h
  obtain ⟨d, hd, hunder, hassigned, a, ha, _, c₁, hremedy, y, _, _, c₂, hn₁, _, c₃, hn₂, c₄,
    ⟨d₄, hd₄, rfl⟩, _, rfl⟩ := h
  obtain ⟨d₃, hd₃, he₃⟩ := addNotification_flushes hn₂ hd₄
  obtain ⟨d₂, hd₂, he₂⟩ := addNotification_flushes hn₁ hd₃
  obtain ⟨d₁, hd₁, hw⟩ := flushes_append hd₂
  simp only [Flushes, applyAll_cons, applyAll_nil] at hf hw
  have hres := (congrArg Db.exchange hf).trans
    (he₃.trans (he₂.trans (congrArg Db.exchange hw.2.2)))
  rw [exchange_insertAuditEvent, exchange_writeDispute] at hres
  rw [hres]
  have hcase : UnderReviewBy db.exchange disputeId moderatorId d a := ⟨hd, hunder, hassigned, ha⟩
  unfold applyRemedy at hremedy
  split at hremedy
  · rename_i haward
    have houtcome : payload.outcome = .resolved := by
      cases ho : payload.outcome with
      | resolved => rfl
      | rejected => rw [hvalid ho] at haward; exact absurd haward (by simp)
    obtain ⟨submissionId, e, x, s', note, hsub, hstatus, he, hof, hx, hcredit, hcomplete⟩ :=
      awardTester_flushes hremedy hd₁
    have hcampaigns : s'.campaigns = db.exchange.campaigns := by
      cases hcredit with
      | known => rfl
      | entered => rfl
    exact takes_then_complete (Or.inl rfl) (fun _ => Or.inr ⟨_, rfl⟩)
      (.award hcase haward houtcome hstatus hsub he hof hx hcredit)
      (hcomplete.settle.record rfl) (by show s'.campaigns.get? _ = _; rw [hcampaigns]; exact hx)
  · rename_i haward
    split at hremedy
    · rename_i hsubmitted
      simp only [rejectOverdue, alone_bind, alone_query, disputedSubmission_ok, alone_orRaise,
        alone_raiseIf, alone_utcnow, alone_add, and_assoc, exists_and_left, exists_eq_left,
        exists_const, List.nil_append, List.cons_append, not_not] at hremedy
      obtain ⟨houtcome, submissionId, hsub, e, he, hof, rfl⟩ := hremedy
      simp only [Flushes, applyAll_cons, applyAll_nil] at hd₁
      refine takes_single (Or.inl rfl) ?_
      rw [hd₁.2.2, exchange_writeAssignment, exchange_writeEvidenceSubmission]
      exact .rejectOverdue hcase haward houtcome hsubmitted hsub he hof
    · rename_i hsubmitted
      obtain ⟨_, rfl⟩ := alone_pure.mp hremedy
      rw [Flushes, applyAll_nil] at hd₁
      rw [hd₁]
      exact takes_single (Or.inl rfl) (.uphold hcase haward hsubmitted)

theorem moderatorEvidenceUrl_takes (settings : Settings) (disputeId evidenceId moderatorId : Uuid)
    (answer : SigningAnswer) :
    Takes g (moderatorEvidenceUrl settings disputeId evidenceId moderatorId answer)
      (· = .note) := by
  intro now db n r c db' h hf
  simp only [moderatorEvidenceUrl, alone_bind, alone_query, alone_orRaise, alone_raiseIf,
    validateStorageKey, addAuditEvent_ok, alone_flush, alone_pure, and_assoc, exists_and_left,
    exists_eq_left, exists_const, not_not] at h
  obtain ⟨d, _, item, _, e, _, _, key, _, _, url, c₁, hsign, c₂, ⟨d₂, hd₂, rfl⟩, _, rfl⟩ := h
  have hc₁ : c₁ = ⟨db, [], n⟩ := by
    unfold signStorageEvidence at hsign
    split at hsign
    · simp only [alone_bind, alone_orRaise, alone_raiseIf, alone_pure, and_assoc, exists_and_left,
        exists_eq_left, exists_const] at hsign
      obtain ⟨_, _, _, _, rfl⟩ := hsign
      rfl
    · exact (alone_raise.mp hsign).elim
  subst hc₁
  simp only [Flushes, List.nil_append, applyAll_cons, applyAll_nil] at hd₂ hf
  refine takes_single rfl ?_
  rw [hf, hd₂.2, exchange_insertAuditEvent]
  exact .note (by simp [neutralActions])

end TestExchange
