import TestExchange.Refine.Relations
import TestExchange.Refine.Serve
import TestExchange.Spec.Roster

/-!
# Requests on the roster

What each service, run alone, makes of the roster and of the notifications. The
notification of something that has not happened before is not stored yet, so
`add_notification` inserts it; and as that sends whatever is queued, the counts
a completion looks at include the change made just before.
-/

namespace TestExchange

open Txn Txn.Session

/-- The outcome of a request: the roster, and the notifications of what it made happen. -/
structure Enacted (db db' : Db) (r : Roster) (sent : List (Notice × Uuid)) : Prop where
  roster : db'.roster = r
  posts : Posts db.notifications db'.notifications sent
  occurs : ∀ p ∈ sent, p.1.Occurs db'
  /-- The lookup before the insert finds nothing. -/
  free : ∀ p ∈ sent, Unsent db p.1.key

variable {now : Nat} {c c' : Conn} {db db' : Db}

/-- **A new notification is inserted**, after everything that was queued. -/
theorem addNotification_new {n : Notification} {o : Notice} {u : Unit}
    (h : (addNotification n).alone now c = .ok (u, c')) (hkey : n.idempotencyKey = o.key)
    (hnew : Unsent c.db o.key) :
    ∃ d k, Flushes c d ∧ d.notifications.get? k = none
      ∧ c' = ⟨{ d with notifications := d.notifications.insert k n }, [], c.next + 1⟩ := by
  simp only [addNotification, alone_bind, alone_query, and_assoc, exists_and_left,
    exists_eq_left] at h
  have hnone : (c.db.notifications.find? fun _ m => m.idempotencyKey = n.idempotencyKey) = none := by
    refine Table.find?_eq_none.mpr fun k m hm => ?_
    rw [hkey]
    exact decide_eq_false (hnew k m hm)
  rw [hnone] at h
  simp only [alone_bind, alone_uuid4, alone_add, alone_flush, and_assoc, exists_and_left,
    exists_eq_left, exists_const] at h
  obtain ⟨d₁, hd₁, rfl⟩ := h
  obtain ⟨d, hd, hw⟩ := flushes_append hd₁
  simp only [applyAll_cons, applyAll_nil, insertNotification, firstViolated_cons,
    Table.contains_eq_false] at hw
  exact ⟨d, c.next, hd, hw.1.1, by rw [hw.2]⟩

theorem enacted_none {r : Roster} (hroster : db'.roster = r)
    (hposts : Posts db.notifications db'.notifications []) : Enacted db db' r [] :=
  ⟨hroster, hposts, by simp, by simp⟩

theorem enacted_one {r : Roster} {o : Notice} {u : Uuid} (hroster : db'.roster = r)
    (hposts : Posts db.notifications db'.notifications [(o, u)]) (hoccurs : o.Occurs db')
    (hfree : Unsent db o.key) : Enacted db db' r [(o, u)] := by
  refine ⟨hroster, hposts, ?_, ?_⟩
  · intro p hp
    rw [List.mem_singleton.mp hp]
    exact hoccurs
  · intro p hp
    rw [List.mem_singleton.mp hp]
    exact hfree

theorem posts_one {t : Table Notification} {k : Uuid} {n : Notification} {o : Notice} {u : Uuid}
    (hnew : t.get? k = none) (hkey : n.idempotencyKey = o.key) (hu : n.userId = u) :
    Posts t (t.insert k n) [(o, u)] := by
  rw [← hu]
  exact posts_insert hnew hkey

section Unsent

variable {o : Notice} {id : Uuid} {a : Assignment}

/-- Nobody has been notified of a row that is not there yet. -/
theorem unsent_of_absent {ρ : Type} {table : Table ρ} {n : Uuid} (hinv : NoticeInv db)
    (hnew : table.get? n = none) (ho : o.Occurs db → ∃ b, table.get? n = some b) :
    Unsent db o.key := by
  refine hinv.unsent fun hoccurs => ?_
  obtain ⟨b, hb⟩ := ho hoccurs
  rw [hnew] at hb
  exact absurd hb (by simp)

/-- Nobody has been notified of the answer to a pending application. -/
theorem unsent_of_applied (hinv : NoticeInv db) (ha : db.assignments.get? id = some a)
    (happlied : a.status = .applied)
    (ho : o.Occurs db → ∃ b, db.assignments.get? id = some b ∧ b.status ≠ .applied) :
    Unsent db o.key := by
  refine hinv.unsent fun hoccurs => ?_
  obtain ⟨b, hb, hstatus⟩ := ho hoccurs
  obtain rfl := Option.some.inj (hb.symm.trans ha)
  exact hstatus happlied

theorem unsent_of_withdrawable (hinv : NoticeInv db) (ha : db.assignments.get? id = some a)
    (hstatus : a.status ∈ [AssignmentStatus.applied, .accepted, .inProgress, .changesRequested]) :
    Unsent db (Notice.key ⟨.withdrawn, id⟩) := by
  refine hinv.unsent ?_
  rintro ⟨b, hb, hcancelled⟩
  obtain rfl := Option.some.inj (hb.symm.trans ha)
  rw [hcancelled] at hstatus
  exact absurd hstatus (by decide)

end Unsent

/-- Whether the closed work is settled, by the counts in the database. -/
theorem closedWorkSettled_ok {id : Uuid} {x : Campaign} {b : Bool}
    (h : (closedWorkSettled id x).alone now c = .ok (b, c')) :
    c' = c ∧ (b = true ↔ x.status = .cancelled ∧ c.db.roster.activeCount id = 0
      ∧ 0 < c.db.roster.acceptedCount id) := by
  unfold closedWorkSettled at h
  split at h
  · rename_i hs
    simp only [alone_bind, alone_query, alone_pure, and_assoc, exists_and_left,
      exists_eq_left] at h
    refine ⟨h.2, ?_⟩
    rw [h.1, Bool.and_eq_true, decide_eq_true_iff, decide_eq_true_iff]
    exact ⟨fun hcounts => ⟨hs, hcounts⟩, fun hcounts => hcounts.2⟩
  · rename_i hs
    obtain ⟨rfl, rfl⟩ := alone_pure.mp h
    exact ⟨rfl, fun hb => absurd hb (by simp), fun hb => absurd hb.1 hs⟩

/--
**Looking at a campaign settles it.** The counts are read from the database and
the status from the session's object, so what is queued must leave the
assignments alone and have set the status already.
-/
theorem maybeCompleteCampaign_settles {id actorId : Uuid} {x : Campaign} {b : Bool}
    (h : (maybeCompleteCampaign id x actorId).alone now c = .ok (b, c')) (hf : Flushes c' db')
    (hq : ∀ d, Flushes c d → d.assignments = c.db.assignments ∧ d.campaigns.get? id = some x) :
    ∃ d events, Flushes c d ∧ db'.roster = d.roster.settle id
      ∧ db' = { d with campaigns := db'.campaigns, auditEvents := events } := by
  simp only [maybeCompleteCampaign, alone_bind, alone_query, and_assoc, exists_and_left,
    exists_eq_left] at h
  obtain ⟨closed, c₁, hclosed, h⟩ := h
  obtain ⟨rfl, hclosed⟩ := closedWorkSettled_ok hclosed
  have hdue : ∀ d, Flushes c₁ d → (d.roster.Due id x ↔ c₁.db.roster.Due id x) := by
    intro d hd
    simp only [Roster.Due, Roster.approvedCount, Roster.activeCount, Roster.acceptedCount,
      Roster.countOf, Db.roster, (hq d hd).1]
  split at h
  · rename_i hdone
    simp only [alone_bind, alone_add, addAuditEvent_ok, alone_pure, exists_eq_left, exists_const,
      List.append_assoc, List.cons_append, List.nil_append] at h
    obtain ⟨-, rfl⟩ := h
    obtain ⟨d, hd, hw⟩ := flushes_append hf
    simp only [applyAll_cons, applyAll_nil] at hw
    have hnow : c₁.db.roster.Due id x := by
      simp only [Bool.or_eq_true, Bool.and_eq_true, decide_eq_true_eq] at hdone
      exact hdone.imp_right fun hb => hclosed.mp hb
    refine ⟨d, _, hd, ?_, by rw [hw.2.2]; rfl⟩
    rw [Roster.settle_eq (hq d hd).2, if_pos ((hdue d hd).mpr hnow), hw.2.2]
    rfl
  · rename_i hdone
    obtain ⟨-, rfl⟩ := alone_pure.mp h
    have hnot : ¬c'.db.roster.Due id x := by
      intro hnow
      simp only [Bool.or_eq_true, Bool.and_eq_true, decide_eq_true_eq] at hdone
      exact hdone (hnow.imp_right fun hb => hclosed.mpr hb)
    refine ⟨db', _, hf, ?_, rfl⟩
    rw [Roster.settle_eq (hq db' hf).2, if_neg fun hd => hnot ((hdue db' hf).mp hd)]

/-! ## Applications -/

theorem acceptAssignment_enacts (hinv : NoticeInv db) {id ownerId : Uuid} {n : Nat}
    {r : Uuid × Assignment} (h : (acceptAssignment id ownerId).alone now ⟨db, [], n⟩ = .ok (r, c))
    (hf : Flushes c db') :
    ∃ after sent, Enacts db ownerId now (.accept id) after sent ∧ Enacted db db' after sent := by
  simp only [acceptAssignment, alone_bind, alone_query, selectForUpdate_ok, alone_orRaise,
    alone_raiseIf, requireCampaignOwner_ok, alone_utcnow, alone_add, addAuditEvent_ok, alone_flush,
    alone_pure, and_assoc, exists_and_left, exists_eq_left, exists_const, List.nil_append,
    List.cons_append, Option.map_eq_some_iff, not_not] at h
  obtain ⟨_, ⟨a, ha, rfl⟩, x, hx, howner, hpublished, a', ha', happlied, _, _, c₁, hn, c₂,
    ⟨db₂, hdb₂, rfl⟩, _, rfl⟩ := h
  have hsame : a' = a := Option.some.inj (ha'.symm.trans ha)
  subst hsame
  have hunsent : Unsent db (Notice.key ⟨.accepted, id⟩) :=
    unsent_of_applied hinv ha happlied fun ho => ho
  obtain ⟨d, k, hd, hk, rfl⟩ := addNotification_new (o := ⟨.accepted, id⟩) hn rfl hunsent
  simp only [Flushes, applyAll_cons, applyAll_nil] at hd hdb₂ hf
  obtain ⟨-, -, rfl⟩ := hd
  subst hdb₂ hf
  refine ⟨_, _, .accept ⟨ha, hx⟩ howner hpublished happlied,
    enacted_one rfl (posts_one hk rfl rfl) ?_ hunsent⟩
  exact ⟨_, Table.get?_modify_self.trans (congrArg (Option.map _) ha), by simp⟩

theorem declineAssignment_enacts (hinv : NoticeInv db) {id ownerId : Uuid} {n : Nat}
    {r : Uuid × Assignment} (h : (declineAssignment id ownerId).alone now ⟨db, [], n⟩ = .ok (r, c))
    (hf : Flushes c db') :
    ∃ after sent, Enacts db ownerId now (.decline id) after sent ∧ Enacted db db' after sent := by
  simp only [declineAssignment, alone_bind, getCampaign_ok, selectForUpdate_ok, alone_orRaise,
    alone_raiseIf, requireCampaignOwner_ok, alone_utcnow, alone_add, addAuditEvent_ok, alone_flush,
    alone_pure, and_assoc, exists_and_left, exists_eq_left, exists_const, List.nil_append,
    List.cons_append, not_not] at h
  obtain ⟨a, ha, x, hx, howner, happlied, _, c₁, hn, c₂, ⟨db₂, hdb₂, rfl⟩, _, rfl⟩ := h
  have hunsent : Unsent db (Notice.key ⟨.declined, id⟩) :=
    unsent_of_applied hinv ha happlied fun ho => ho
  obtain ⟨d, k, hd, hk, rfl⟩ := addNotification_new (o := ⟨.declined, id⟩) hn rfl hunsent
  simp only [Flushes, applyAll_cons, applyAll_nil] at hd hdb₂ hf
  obtain ⟨-, -, rfl⟩ := hd
  subst hdb₂ hf
  refine ⟨_, _, .decline ⟨ha, hx⟩ howner happlied,
    enacted_one rfl (posts_one hk rfl rfl) ?_ hunsent⟩
  exact ⟨_, Table.get?_modify_self.trans (congrArg (Option.map _) ha), by simp⟩

theorem applyToCampaign_enacts (hinv : NoticeInv db) {campaignId testerId : Uuid}
    {payload sent : AssignmentApply} {n : Nat} {r : Uuid × Assignment}
    (h : (applyToCampaign campaignId testerId payload).alone now ⟨db, [], n⟩ = .ok (r, c))
    (hf : Flushes c db') :
    ∃ after notices, Enacts db testerId now (.apply campaignId sent) after notices
      ∧ Enacted db db' after notices := by
  simp only [applyToCampaign, alone_bind, getProfile_ok, alone_query, selectForUpdate_ok,
    alone_orRaise, alone_raiseIf, alone_uuid4, alone_add, addAuditEvent_ok, alone_flush,
    alone_pure, and_assoc, exists_and_left, exists_eq_left, exists_const, List.nil_append,
    not_not, applyAll_cons, applyAll_nil] at h
  obtain ⟨_, _, x, hx, hpublished, howner, _, _, hv, name, c₁, hname, _, c₂, hn, _, rfl⟩ := h
  obtain rfl := testerDisplayName_ok hname
  simp only [insertAssignment, firstViolated_cons, Table.contains_eq_false] at hv
  have hunsent : Unsent db (Notice.key ⟨.applied, n⟩) := unsent_of_absent hinv hv.1 fun ho => ho
  obtain ⟨d, k, hd, hk, rfl⟩ := addNotification_new (o := ⟨.applied, n⟩) hn rfl hunsent
  simp only [Flushes, applyAll_cons, applyAll_nil] at hd hf
  obtain ⟨-, rfl⟩ := hd
  subst hf
  exact ⟨_, _, .apply hx hpublished howner hv.1,
    enacted_one rfl (posts_one hk rfl rfl) ⟨_, Table.get?_insert_self hv.1⟩ hunsent⟩

theorem withdrawAssignment_enacts (hinv : NoticeInv db) {id testerId : Uuid} {n : Nat}
    {r : Uuid × Assignment} (h : (withdrawAssignment id testerId).alone now ⟨db, [], n⟩ = .ok (r, c))
    (hf : Flushes c db') :
    ∃ after sent, Enacts db testerId now (.withdraw id) after sent ∧ Enacted db db' after sent := by
  simp only [withdrawAssignment, alone_bind, selectForUpdate_ok, alone_orRaise, alone_raiseIf,
    alone_utcnow, alone_add, addAuditEvent_ok, alone_flush, alone_pure, and_assoc,
    exists_and_left, exists_eq_left, exists_const, List.nil_append, List.cons_append, not_not] at h
  obtain ⟨a, ha, htester, hstatus, x, hx, name, c₁, hname, _, c₂, hn, _, c₃, hm, c₄,
    ⟨db₄, hdb₄, rfl⟩, _, rfl⟩ := h
  obtain rfl := testerDisplayName_ok hname
  have hunsent := unsent_of_withdrawable hinv ha hstatus
  obtain ⟨d, k, hd, hk, rfl⟩ := addNotification_new (o := ⟨.withdrawn, id⟩) hn rfl hunsent
  simp only [Flushes, applyAll_cons, applyAll_nil] at hd hf
  obtain ⟨-, -, rfl⟩ := hd
  -- the notification has sent the change of the assignment, so the counts see it
  obtain ⟨d, events, hd, hroster, hrest⟩ := maybeCompleteCampaign_settles hm hdb₄ (by
    intro d hd
    simp only [Flushes, applyAll_nil] at hd
    rw [hd]
    exact ⟨rfl, hx⟩)
  simp only [Flushes, applyAll_nil] at hd
  subst hd hf
  refine ⟨_, _, .withdraw ⟨ha, hx⟩ htester hstatus, enacted_one hroster ?_ ?_ hunsent⟩
  · rw [hrest]
    exact posts_one hk rfl rfl
  · rw [hrest]
    exact ⟨_, Table.get?_modify_self.trans (congrArg (Option.map _) ha), rfl⟩

/-! ## Testing -/

theorem startAssignment_enacts {id testerId : Uuid} {n : Nat} {r : Uuid × Assignment}
    (h : (startAssignment id testerId).alone now ⟨db, [], n⟩ = .ok (r, c)) (hf : Flushes c db') :
    ∃ after sent, Enacts db testerId now (.start id) after sent ∧ Enacted db db' after sent := by
  simp only [startAssignment, alone_bind, getAssignment_ok, alone_raiseIf, alone_utcnow, alone_add,
    alone_uuid4, addAuditEvent_ok, alone_flush, alone_pure, and_assoc, exists_and_left,
    exists_eq_left, exists_const, List.nil_append, List.cons_append, not_not, applyAll_cons,
    applyAll_nil] at h
  obtain ⟨a, ha, htester, haccepted, _, _, _, _, rfl⟩ := h
  simp only [Flushes, applyAll_nil] at hf
  subst hf
  exact ⟨_, _, .start ha htester haccepted, enacted_none rfl (.refl _)⟩

theorem addMessage_enacts (hinv : NoticeInv db) {id senderId : Uuid} {payload sent : MessageCreate}
    {n : Nat} {r : Uuid × Message}
    (h : (addMessage id senderId payload).alone now ⟨db, [], n⟩ = .ok (r, c)) (hf : Flushes c db') :
    ∃ after notices, Enacts db senderId now (.message id sent) after notices
      ∧ Enacted db db' after notices := by
  simp only [addMessage, alone_bind, getAssignment_ok, requireAssignmentParticipant_ok,
    getCampaign_ok, alone_add, alone_uuid4, addAuditEvent_ok, alone_flush, alone_pure, and_assoc,
    exists_and_left, exists_eq_left, exists_const, List.nil_append, applyAll_cons,
    applyAll_nil] at h
  obtain ⟨a, ha, x, hx, huser, hv, y, hy, _, c₂, hn, _, rfl⟩ := h
  obtain rfl := Option.some.inj (hx.symm.trans hy)
  simp only [insertMessage, firstViolated_cons, Table.contains_eq_false] at hv
  have hunsent : Unsent db (Notice.key ⟨.messaged, n⟩) := unsent_of_absent hinv hv.1 fun ho => ho
  obtain ⟨d, k, hd, hk, rfl⟩ := addNotification_new (o := ⟨.messaged, n⟩) hn rfl hunsent
  simp only [Flushes, applyAll_cons, applyAll_nil] at hd hf
  obtain ⟨-, rfl⟩ := hd
  subst hf
  exact ⟨_, _, .message ⟨ha, hx⟩ (by tauto) hv.1,
    enacted_one rfl (posts_one hk rfl rfl) ⟨_, Table.get?_insert_self hv.1⟩ hunsent⟩

/-! ## Submissions and reviews -/

/-- The tables a notification about evidence depends on. -/
def Db.caseload (db : Db) : Roster × Table Notification × Table EvidenceSubmission × Table Review :=
  (db.roster, db.notifications, db.evidenceSubmissions, db.reviews)

/-- What a decision leaves alone. -/
def Db.records (db : Db) : Table Notification × Table Review × Table Dispute :=
  (db.notifications, db.reviews, db.disputes)

theorem only_records {α : Type} {m : Session α} (h : Only (Within decisionRelations) m) :
    Only (Keeps Db.records) m :=
  only_keeping h fun r hr w hw db => by
    cases hw <;> first | rfl | exact absurd hr (by decide)

/-- Approving queued work, paying it and looking at the campaign. -/
theorem approval_settles {submissionId id campaignId actorId : Uuid} {change : CreditChange}
    {x : Campaign} {e : CreditLedgerEntry} {at' n : Nat} {d₂ : Db} {c₁ : Conn} {b : Bool}
    (hrec : (recordCreditEntry change).alone now
      ⟨db, [writeEvidenceSubmission submissionId fun e => { e with status := .approved },
        writeAssignment id fun a => { a with status := .approved, completedAt := some at' }], n⟩
      = .ok (e, c₁))
    (hd₂ : Flushes c₁ d₂)
    (hm : (maybeCompleteCampaign campaignId x actorId).alone now ⟨d₂, [], c₁.next⟩ = .ok (b, c))
    (hf : Flushes c db') (hx : db.campaigns.get? campaignId = some x) :
    db'.roster = (db.roster.modifyAssignment id fun a =>
      { a with status := .approved, completedAt := some at' }).settle campaignId := by
  have hkeeps : Only (Keeps Db.roster) (recordCreditEntry change) :=
    only_recordCreditEntry (fun _ => rfl) (fun _ _ => rfl) (fun _ _ => rfl)
  obtain ⟨t, ht, hroster⟩ := hkeeps.flushes hrec hd₂
  simp only [applyAll_cons, applyAll_nil] at ht
  obtain ⟨-, -, rfl⟩ := ht
  have hx₂ : d₂.campaigns.get? campaignId = some x := by
    have hcampaigns : d₂.campaigns = db.campaigns := congrArg Roster.campaigns hroster
    rw [hcampaigns]
    exact hx
  obtain ⟨d, events, hd, hsettled, -⟩ := maybeCompleteCampaign_settles hm hf (by
    intro d hd
    rw [Flushes, applyAll_nil] at hd
    rw [hd]
    exact ⟨rfl, hx₂⟩)
  rw [Flushes, applyAll_nil] at hd
  rw [hsettled, hd, hroster]
  rfl

theorem applyDecision_settles {submissionId id reviewerId : Uuid} {a : Assignment} {x : Campaign}
    {decision : ReviewDecision} {n : Nat} {u : Unit}
    (h : (applyDecision submissionId id a x reviewerId decision).alone now ⟨db, [], n⟩ = .ok (u, c))
    (hf : Flushes c db') (hx : db.campaigns.get? a.campaignId = some x) :
    db'.roster =
      if decision = .approved then
        (db.roster.modifyAssignment id fun a =>
          { a with status := .approved, completedAt := some now }).settle a.campaignId
      else
        db.roster.modifyAssignment id fun a =>
          { a with status := if decision = .rejected then .rejected else .changesRequested } := by
  cases decision with
  | approved =>
      simp only [applyDecision, alone_bind, alone_utcnow, alone_add, alone_flush, alone_pure,
        and_assoc, exists_and_left, exists_eq_left, exists_const, List.nil_append,
        List.cons_append] at h
      obtain ⟨e, c₁, hrec, c₂, ⟨d₂, hd₂, rfl⟩, _, c₃, hm, _, rfl⟩ := h
      exact approval_settles hrec hd₂ hm hf hx
  | changesRequested =>
      simp only [applyDecision, alone_bind, alone_add, exists_const, exists_eq_left,
        List.nil_append, List.cons_append] at h
      subst h
      simp only [Flushes, applyAll_cons, applyAll_nil] at hf
      rw [hf.2.2]
      rfl
  | rejected =>
      simp only [applyDecision, alone_bind, alone_add, exists_const, exists_eq_left,
        List.nil_append, List.cons_append] at h
      subst h
      simp only [Flushes, applyAll_cons, applyAll_nil] at hf
      rw [hf.2.2]
      rfl

theorem createSubmission_enacts (hinv : NoticeInv db) {id testerId : Uuid}
    {payload sent : SubmissionCreate} {n : Nat} {r : Uuid × EvidenceSubmission}
    (h : (createSubmission id testerId payload).alone now ⟨db, [], n⟩ = .ok (r, c))
    (hf : Flushes c db') :
    ∃ after notices, Enacts db testerId now (.submit id sent) after notices
      ∧ Enacted db db' after notices := by
  simp only [createSubmission, alone_bind, alone_query, selectForUpdate_ok, alone_orRaise,
    alone_raiseIf, contractForAssignment_ok, getCampaign_ok, alone_utcnow, alone_add, alone_uuid4,
    addAuditEvent_ok, alone_flush, alone_pure, and_assoc, exists_and_left, exists_eq_left,
    exists_const, List.nil_append, List.append_assoc, List.cons_append, not_not] at h
  obtain ⟨a, ha, htester, hstatus, _, _, _, _, _, _, _, _, _, _, c₁, hitems, c₂, ⟨d₂, hd₂, rfl⟩, _,
    c₃, hadd, x, hx, name, c₄, hname, _, c₅, hn, c₆, ⟨d₆, hd₆, rfl⟩, _, rfl⟩ := h
  obtain rfl := checkItems_ok hitems
  obtain rfl := testerDisplayName_ok hname
  simp only [List.nil_append, applyAll_cons, applyAll_nil, insertEvidenceSubmission,
    firstViolated_cons, Table.contains_eq_false] at hd₂
  obtain ⟨hv, rfl⟩ := hd₂
  have hkeeps : ∀ rows, Only (Keeps Db.caseload) (addItems n rows) :=
    fun rows => only_addItems fun _ _ _ => rfl
  have hsees := (hkeeps _).sees hadd
  have hsame : c₃.db.notifications = db.notifications := congrArg (·.2.1) hsees
  have hunsent : Unsent db (Notice.key ⟨.submitted, n⟩) := unsent_of_absent hinv hv.1 fun ho => ho
  obtain ⟨d, k, hd, hk, rfl⟩ := addNotification_new (o := ⟨.submitted, n⟩) hn rfl
    (by rw [Unsent, hsame]; exact hunsent)
  obtain ⟨d₃, hd₃, hw⟩ := flushes_append hd
  obtain ⟨t, ht, hcase⟩ := (hkeeps _).flushes hadd hd₃
  simp only [applyAll_cons, applyAll_nil] at ht hw hd₆
  simp only [Flushes, applyAll_nil] at hf
  obtain ⟨-, -, rfl⟩ := hw
  subst ht hd₆ hf
  have hroster : d₃.roster = db.roster := congrArg (·.1) hcase
  have hmail : d₃.notifications = db.notifications := congrArg (·.2.1) hcase
  have hsub : d₃.evidenceSubmissions.get? n = _ :=
    (congrArg (·.2.2.1.get? n) hcase).trans (Table.get?_insert_self hv.1)
  have hcampaigns : c₃.db.campaigns = db.campaigns := congrArg (·.1.campaigns) hsees
  rw [hcampaigns] at hx
  refine ⟨_, _, .submit ⟨ha, hx⟩ htester hstatus hv.1, enacted_one ?_ ?_ ⟨_, hsub⟩ hunsent⟩
  · rw [← hroster]
    rfl
  · rw [← hmail]
    exact posts_one hk rfl rfl

theorem createReview_enacts (hinv : NoticeInv db) {submissionId reviewerId : Uuid}
    {payload sent : ReviewCreate} {n : Nat} {r : Uuid × Review}
    (h : (createReview submissionId reviewerId payload).alone now ⟨db, [], n⟩ = .ok (r, c))
    (hf : Flushes c db') (hdecision : sent.decision = payload.decision) :
    ∃ after notices, Enacts db reviewerId now (.review submissionId sent) after notices
      ∧ Enacted db db' after notices := by
  simp only [createReview, alone_bind, alone_query, selectForUpdate_ok, alone_orRaise,
    alone_raiseIf, requireCampaignOwner_ok, alone_add, alone_uuid4, addAuditEvent_ok, alone_flush,
    alone_pure, and_assoc, exists_and_left, exists_eq_left, exists_const, List.nil_append, not_not,
    applyAll_cons, applyAll_nil, Option.map_eq_some_iff] at h
  obtain ⟨_, ⟨e₀, he₀, rfl⟩, a, ha, e, he, x, hx, howner, hcalm, hpending, hawaiting, hv, _, c₁,
    hdec, _, c₂, hn, c₃, ⟨d₃, hd₃, rfl⟩, _, rfl⟩ := h
  obtain rfl := Option.some.inj (he₀.symm.trans he)
  simp only [insertReview, firstViolated_cons, Table.contains_eq_false] at hv
  have hkeeps : Only (Keeps Db.records)
      (applyDecision submissionId e₀.assignmentId a x reviewerId payload.decision) :=
    only_records applyDecision_within
  have hsame : c₁.db.notifications = db.notifications := congrArg (·.1) (hkeeps.sees hdec)
  have hunsent : Unsent db (Notice.key ⟨.reviewed, n⟩) := unsent_of_absent hinv hv.1 fun ho => ho
  obtain ⟨d, k, hd, hk, rfl⟩ := addNotification_new (o := ⟨.reviewed, n⟩) hn rfl
    (by rw [Unsent, hsame]; exact hunsent)
  obtain ⟨d₁, hd₁, hw⟩ := flushes_append hd
  obtain ⟨t, ht, hrecords⟩ := hkeeps.flushes hdec hd₁
  have hroster := applyDecision_settles hdec hd₁ hx
  simp only [applyAll_cons, applyAll_nil] at ht hw hd₃
  simp only [Flushes, applyAll_nil] at hf
  obtain ⟨-, rfl⟩ := hw
  subst ht hd₃ hf
  have hmail : d₁.notifications = db.notifications := congrArg (·.1) hrecords
  have hreview : d₁.reviews.get? n = _ :=
    (congrArg (·.2.1.get? n) hrecords).trans (Table.get?_insert_self hv.1)
  refine ⟨_, _, .review he ⟨ha, hx⟩ howner (Option.not_isSome_iff_eq_none.mp hcalm) hpending
    hawaiting hv.1, enacted_one ?_ ?_ ⟨_, hreview⟩ hunsent⟩
  · rw [hdecision]
    exact hroster
  · rw [← hmail]
    exact posts_one hk rfl rfl

/-! ## Disputes -/

theorem openDispute_enacts (hinv : NoticeInv db) {id openedBy : Uuid} {payload sent : DisputeCreate}
    {n : Nat} {r : Uuid × Dispute}
    (h : (openDispute id openedBy payload).alone now ⟨db, [], n⟩ = .ok (r, c))
    (hf : Flushes c db') :
    ∃ after notices, Enacts db openedBy now (.openDispute id sent) after notices
      ∧ Enacted db db' after notices := by
  simp only [openDispute, alone_bind, alone_query, selectForUpdate_ok, alone_orRaise,
    requireAssignmentParticipant_ok, alone_raiseIf, getCampaign_ok, alone_add, alone_uuid4,
    addAuditEvent_ok, alone_flush, alone_pure, and_assoc, exists_and_left, exists_eq_left,
    exists_const, not_not] at h
  obtain ⟨a, ha, x, hx, _, htester, hstatus, _, _, _, _, _, _, c₁, hcheck, _, c₂,
    ⟨d₂, hd₂, rfl⟩, y, hy, _, c₃, hn, _, rfl⟩ := h
  obtain ⟨rfl, -⟩ := checkEscalation_ok hcheck hstatus
  simp only [List.nil_append, applyAll_cons, applyAll_nil] at hd₂
  obtain ⟨hv, rfl⟩ := hd₂
  obtain rfl := Option.some.inj (hx.symm.trans hy)
  simp only [insertDispute, firstViolated_cons, Table.contains_eq_false] at hv
  have hunsent : Unsent db (Notice.key ⟨.disputed, n⟩) := unsent_of_absent hinv hv.1 fun ho => ho
  obtain ⟨d, k, hd, hk, rfl⟩ := addNotification_new (o := ⟨.disputed, n⟩) hn rfl hunsent
  simp only [Flushes, List.nil_append, applyAll_cons, applyAll_nil] at hd hf
  obtain ⟨-, rfl⟩ := hd
  subst hf
  exact ⟨_, _, .openDispute ⟨ha, hx⟩ htester hv.1,
    enacted_one rfl (posts_one hk rfl rfl) ⟨_, Table.get?_insert_self hv.1⟩ hunsent⟩

theorem applyRemedy_settles {d : Dispute} {a : Assignment} {moderatorId : Uuid}
    {payload : DisputeResolve} {n : Nat} {u : Unit}
    (h : (applyRemedy d a moderatorId payload).alone now ⟨db, [], n⟩ = .ok (u, c))
    (hf : Flushes c db') :
    c.db.campaigns = db.campaigns
      ∧ (payload.remedy = .awardTester → a.status ∈ [AssignmentStatus.rejected, .submitted])
      ∧ (payload.remedy ≠ .awardTester → a.status = .submitted → payload.outcome = .rejected)
      ∧ db'.roster =
        if payload.remedy = .awardTester then
          (db.roster.modifyAssignment d.assignmentId fun a =>
            { a with status := .approved, completedAt := some now }).settle a.campaignId
        else if a.status = .submitted then
          db.roster.modifyAssignment d.assignmentId fun a =>
            { a with status := .rejected, completedAt := some now }
        else db.roster := by
  unfold applyRemedy at h
  split at h
  · rename_i haward
    simp only [awardTester, alone_bind, selectForUpdate_ok, disputedSubmission_ok, alone_orRaise,
      alone_raiseIf, alone_utcnow, alone_add, alone_flush, alone_pure, and_assoc, exists_and_left,
      exists_eq_left, exists_const, List.nil_append, List.cons_append, not_not] at h
    obtain ⟨submissionId, _, hstatus, e, _, _, x, hx, entry, c₁, hrec, c₂, ⟨d₂, hd₂, rfl⟩,
      _, c₃, hm, _, rfl⟩ := h
    have hsettles := approval_settles hrec hd₂ hm hf hx
    have hkeeps : Only (Keeps Db.campaigns)
        (recordCreditEntry (rewardEntry d.assignmentId a x
          s!"Moderator-approved test for {x.name}" moderatorId)) :=
      only_recordCreditEntry (fun _ => rfl) (fun _ _ => rfl) (fun _ _ => rfl)
    obtain ⟨t, ht, hcampaigns⟩ := hkeeps.flushes hrec hd₂
    simp only [applyAll_cons, applyAll_nil] at ht
    obtain ⟨-, -, rfl⟩ := ht
    refine ⟨?_, fun _ => hstatus, fun hne => absurd haward hne, by rw [if_pos haward]; exact hsettles⟩
    -- completing the campaign is queued, not sent
    rcases maybeCompleteCampaign_ok hm with ⟨-, rfl⟩ | ⟨-, -, details, rfl⟩
    · exact hcampaigns
    · exact hcampaigns
  · rename_i haward
    split at h
    · rename_i hsubmitted
      simp only [rejectOverdue, alone_bind, alone_query, disputedSubmission_ok, alone_orRaise,
        alone_raiseIf, alone_utcnow, alone_add, and_assoc, exists_and_left, exists_eq_left,
        exists_const, List.nil_append, List.cons_append, not_not] at h
      obtain ⟨houtcome, submissionId, _, e, _, _, rfl⟩ := h
      simp only [Flushes, applyAll_cons, applyAll_nil] at hf
      refine ⟨rfl, fun he => absurd he haward, fun _ _ => houtcome, ?_⟩
      rw [if_neg haward, if_pos hsubmitted, hf.2.2]
      rfl
    · rename_i hsubmitted
      obtain ⟨-, rfl⟩ := alone_pure.mp h
      rw [Flushes, applyAll_nil] at hf
      refine ⟨rfl, fun he => absurd he haward, fun _ hs => absurd hs hsubmitted, ?_⟩
      rw [if_neg haward, if_neg hsubmitted, hf]

theorem resolveDispute_enacts (hinv : NoticeInv db) {disputeId moderatorId : Uuid}
    {payload sent : DisputeResolve} {n : Nat} {r : Uuid × Dispute}
    (h : (resolveDispute disputeId moderatorId payload).alone now ⟨db, [], n⟩ = .ok (r, c))
    (hf : Flushes c db') (hremedy : sent.remedy = payload.remedy)
    (houtcome : sent.outcome = payload.outcome) :
    ∃ after notices, Enacts db moderatorId now (.resolveDispute disputeId sent) after notices
      ∧ Enacted db db' after notices := by
  simp only [resolveDispute, alone_bind, selectForUpdate_ok, alone_orRaise, alone_raiseIf,
    getCampaign_ok, alone_utcnow, alone_add, addAuditEvent_ok, alone_flush, alone_pure, and_assoc,
    exists_and_left, exists_eq_left, exists_const, List.append_assoc, List.cons_append,
    List.nil_append, not_not] at h
  obtain ⟨d, hd, hunder, hassigned, a, ha, _, c₁, hdecide, x, hx, _, c₂, hn₁, _, c₃, hn₂, c₄,
    ⟨d₄, hd₄, rfl⟩, _, rfl⟩ := h
  have hkeeps : Only (Keeps Db.records) (applyRemedy d a moderatorId payload) :=
    only_records applyRemedy_within
  have hsame : c₁.db.notifications = db.notifications := congrArg (·.1) (hkeeps.sees hdecide)
  have hopen : ∀ kind ∈ [NoticeKind.resolvedForTester, .resolvedForOwner],
      Unsent db (Notice.key ⟨kind, disputeId⟩) := by
    have hundecided : ¬∃ d', db.disputes.get? disputeId = some d'
        ∧ d'.status ∉ activeDisputeStatuses := by
      rintro ⟨d', hd', hclosed⟩
      obtain rfl := Option.some.inj (hd'.symm.trans hd)
      rw [hunder] at hclosed
      exact hclosed (by decide)
    intro kind hkind
    refine hinv.unsent ?_
    rcases List.mem_pair.mp hkind with rfl | rfl
    · exact hundecided
    · exact hundecided
  obtain ⟨d₂, k, hd₂, hk, rfl⟩ := addNotification_new (o := ⟨.resolvedForTester, disputeId⟩) hn₁ rfl
    (by rw [Unsent, hsame]; exact hopen _ (by decide))
  obtain ⟨d₁, hd₁, hw⟩ := flushes_append hd₂
  obtain ⟨t, ht, hrecords⟩ := hkeeps.flushes hdecide hd₁
  obtain ⟨hcampaigns, haward, hreject, hroster⟩ := applyRemedy_settles hdecide hd₁
  simp only [applyAll_cons, applyAll_nil] at ht hw
  obtain ⟨-, -, rfl⟩ := hw
  rw [ht] at hrecords
  have hmail : d₁.notifications = db.notifications := congrArg (·.1) hrecords
  -- the first notification is about the same dispute, under another key
  have hunsent : Unsent { d₁ with
      notifications := d₁.notifications.insert k (resolutionNotification disputeId x payload
        a.testerId "tester") } (Notice.key ⟨.resolvedForOwner, disputeId⟩) := by
    intro i m hm
    rcases Table.get?_insert_cases hm with hm | ⟨-, rfl, -⟩
    · rw [hmail] at hm
      exact hopen _ (by decide) i m hm
    · intro hkey
      have hkind := congrArg Notice.kind (Notice.key_inj (o := ⟨.resolvedForTester, disputeId⟩) hkey)
      exact absurd hkind (by simp)
  obtain ⟨d₃, k', hd₃, hk', rfl⟩ :=
    addNotification_new (o := ⟨.resolvedForOwner, disputeId⟩) hn₂ rfl hunsent
  simp only [Flushes, applyAll_nil] at hd₃ hd₄ hf
  subst hd₃ hd₄ hf
  rw [hcampaigns] at hx
  refine ⟨_, _, .resolveDispute hd hunder hassigned ⟨ha, hx⟩ ?_ ?_, ?_, ?_, ?_, ?_⟩
  · rw [hremedy]
    exact haward
  · rw [hremedy, houtcome]
    exact hreject
  · rw [hremedy]
    exact hroster
  · rw [← hmail]
    exact (posts_one hk rfl rfl).trans (posts_one hk' rfl rfl)
  · have hrow : d₁.disputes.get? disputeId = some d := (congrArg (·.2.2.get? disputeId) hrecords).trans hd
    have hclosed : payload.outcome.status ∉ activeDisputeStatuses := by
      cases payload.outcome <;> decide
    intro p hp
    rcases List.mem_pair.mp hp with rfl | rfl
    · exact ⟨_, Table.get?_modify_self.trans (congrArg (Option.map _) hrow), hclosed⟩
    · exact ⟨_, Table.get?_modify_self.trans (congrArg (Option.map _) hrow), hclosed⟩
  · intro p hp
    rcases List.mem_pair.mp hp with rfl | rfl
    · exact hopen _ (by decide)
    · exact hopen _ (by decide)

/-! ## Recruitment -/

/-- Declining an application sends everything that was queued before. -/
theorem declinePending_sends {campaign : Campaign} {ownerId : Uuid} {at' : Time}
    {rest : List (Uuid × Assignment)} {u : Unit}
    (h : (declinePending campaign ownerId at' rest).alone now c = .ok (u, c'))
    (hnodup : (rest.map Prod.fst).Nodup)
    (hunsent : ∀ r ∈ rest, Unsent c.db (Notice.key ⟨.recruitmentClosed, r.1⟩))
    (hq : ∀ d, Flushes c d → d.notifications = c.db.notifications) :
    (c'.pending = [] ∨ c' = c) ∧ ∀ db', Flushes c' db' → ∃ d, Flushes c d
      ∧ db'.roster = d.roster.cancelAll at' (rest.map Prod.fst)
      ∧ Posts d.notifications db'.notifications
        (rest.map fun r => (⟨.recruitmentClosed, r.1⟩, r.2.testerId)) := by
  induction rest generalizing c with
  | nil =>
      obtain ⟨-, rfl⟩ := alone_pure.mp h
      exact ⟨Or.inr rfl, fun db' hf => ⟨db', hf, rfl, .refl _⟩⟩
  | cons r rest ih =>
      obtain ⟨id, a⟩ := r
      simp only [declinePending, alone_bind, alone_add, addAuditEvent_ok, exists_eq_left,
        exists_const, List.append_assoc, List.cons_append, List.nil_append] at h
      obtain ⟨_, c₁, hn, hrest⟩ := h
      obtain ⟨hid, hnodup⟩ := List.nodup_cons.mp hnodup
      obtain ⟨d, k, hd, hk, rfl⟩ := addNotification_new (o := ⟨.recruitmentClosed, id⟩) hn rfl
        (hunsent (id, a) List.mem_cons_self)
      obtain ⟨d₀, hd₀, hw⟩ := flushes_append hd
      simp only [applyAll_cons, applyAll_nil] at hw
      obtain ⟨-, -, rfl⟩ := hw
      have hmail := hq d₀ hd₀
      obtain ⟨hc', hall⟩ := ih hrest hnodup (by
        -- the notification just sent is about another application
        intro r hr i m hm
        rcases Table.get?_insert_cases hm with hm | ⟨-, rfl, -⟩
        · exact hunsent r (List.mem_cons_of_mem _ hr) i m (hmail ▸ hm)
        · intro hkey
          have hsame := congrArg Notice.subject
            (Notice.key_inj (o := ⟨.recruitmentClosed, id⟩) hkey)
          exact hid (List.mem_map.mpr ⟨r, hr, hsame.symm⟩)) (by
        intro d hd
        rw [Flushes, applyAll_nil] at hd
        rw [hd])
      refine ⟨Or.inl ?_, fun db' hf => ?_⟩
      · rcases hc' with hc' | rfl
        · exact hc'
        · rfl
      · obtain ⟨d₁, hd₁, hroster, hposts⟩ := hall db' hf
        rw [Flushes, applyAll_nil] at hd₁
        subst hd₁
        exact ⟨d₀, hd₀, hroster, (posts_one hk rfl rfl).trans hposts⟩

theorem pending_applied {id : Uuid} {r : Uuid × Assignment} (hr : r ∈ db.roster.pending id) :
    db.assignments.get? r.1 = some r.2 ∧ r.2.status = .applied := by
  obtain ⟨hrow, hp⟩ := Table.mem_where'.mp hr
  simp only [Bool.and_eq_true, decide_eq_true_eq] at hp
  exact ⟨hrow, hp.2⟩

/-- Nobody whose application waits has been told that recruitment closed. -/
theorem pending_unsent (hinv : NoticeInv db) {id : Uuid} {r : Uuid × Assignment}
    (hr : r ∈ db.roster.pending id) : Unsent db (Notice.key ⟨.recruitmentClosed, r.1⟩) := by
  obtain ⟨hrow, happlied⟩ := pending_applied hr
  exact unsent_of_applied hinv hrow happlied fun ho => ho

theorem transitionCampaign_enacts (hinv : NoticeInv db) {id ownerId : Uuid}
    {action : TransitionAction} {n : Nat} {r : Uuid × Campaign}
    (h : (transitionCampaign id ownerId action).alone now ⟨db, [], n⟩ = .ok (r, c))
    (hf : Flushes c db') :
    ∃ after sent, Enacts db ownerId now (.transitionCampaign id action) after sent
      ∧ Enacted db db' after sent := by
  simp only [transitionCampaign, alone_bind, selectForUpdate_ok, alone_orRaise,
    requireCampaignOwner_ok, addAuditEvent_ok, alone_flush, alone_pure, and_assoc, exists_and_left,
    exists_eq_left, exists_const] at h
  obtain ⟨x, hx, howner, status, c₁, hperform, completed, c₂, hcomplete, c₃, ⟨d₃, hd₃, rfl⟩, _,
    rfl⟩ := h
  simp only [Flushes, applyAll_nil] at hf
  subst hf
  cases action with
  | pause =>
      simp only [performTransition, alone_bind, alone_raiseIf, alone_add, alone_pure, and_assoc,
        exists_and_left, exists_eq_left, exists_const, List.nil_append, not_not] at hperform
      obtain ⟨hstatus, rfl, rfl⟩ := hperform
      obtain ⟨-, rfl⟩ := alone_pure.mp hcomplete
      simp only [List.cons_append, List.nil_append, applyAll_cons, applyAll_nil] at hd₃
      obtain ⟨-, -, rfl⟩ := hd₃
      exact ⟨_, _, .pause hx howner hstatus, enacted_none rfl (.refl _)⟩
  | resume =>
      simp only [performTransition, alone_bind, alone_raiseIf, alone_query, alone_add, alone_pure,
        and_assoc, exists_and_left, exists_eq_left, exists_const, List.nil_append, not_not]
        at hperform
      obtain ⟨hstatus, -, rfl, rfl⟩ := hperform
      obtain ⟨-, rfl⟩ := alone_pure.mp hcomplete
      simp only [List.cons_append, List.nil_append, applyAll_cons, applyAll_nil] at hd₃
      obtain ⟨-, -, rfl⟩ := hd₃
      exact ⟨_, _, .resume hx howner hstatus, enacted_none rfl (.refl _)⟩
  | close =>
      simp only [performTransition, alone_bind, alone_raiseIf, alone_queryForUpdate, alone_utcnow,
        alone_add, alone_pure, and_assoc, exists_and_left, exists_eq_left, exists_const,
        List.nil_append, not_and_or, not_not] at hperform
      obtain ⟨hstatus, _, c₀, hdecline, rfl, rfl⟩ := hperform
      have hunsent := fun r (hr : r ∈ db.roster.pending id) => pending_unsent hinv hr
      have hq : ∀ d, Flushes ⟨db, [writeCampaign id fun c => { c with status := .cancelled }], n⟩ d →
          d.notifications = db.notifications ∧ d.assignments = db.assignments := by
        intro d hd
        simp only [Flushes, applyAll_cons, applyAll_nil] at hd
        rw [hd.2]
        exact ⟨rfl, rfl⟩
      obtain ⟨hc₁, hsends⟩ :=
        declinePending_sends hdecline pending_nodup hunsent fun d hd => (hq d hd).1
      unfold completeIfClosed at hcomplete
      rw [if_pos rfl] at hcomplete
      obtain ⟨d₂, events, hd₂, hsettled, hrest⟩ := maybeCompleteCampaign_settles hcomplete hd₃ (by
        intro d hd
        obtain ⟨d₁, hd₁, hw⟩ := flushes_append hd
        simp only [applyAll_cons, applyAll_nil] at hw
        obtain ⟨-, rfl⟩ := hw
        obtain ⟨d₀, hd₀, hroster, -⟩ := hsends d₁ hd₁
        simp only [Flushes, applyAll_cons, applyAll_nil] at hd₀
        constructor
        · rcases hc₁ with hc₁ | rfl
          · rw [Flushes, hc₁, applyAll_nil] at hd₁
            rw [hd₁]
            rfl
          · exact (hq d₁ hd₁).2
        · have hcampaigns := congrArg (·.campaigns.get? id) hroster
          simp only [Roster.cancelAll_campaigns, hd₀.2] at hcampaigns
          exact hcampaigns.trans (Table.get?_modify_self.trans (congrArg (Option.map _) hx)))
      obtain ⟨d₁, hd₁, hw⟩ := flushes_append hd₂
      simp only [applyAll_cons, applyAll_nil] at hw
      obtain ⟨-, rfl⟩ := hw
      obtain ⟨d₀, hd₀, hroster, hposts⟩ := hsends d₁ hd₁
      simp only [Flushes, applyAll_cons, applyAll_nil] at hd₀
      obtain ⟨-, rfl⟩ := hd₀
      have hafter : db'.roster = (((db.roster.modifyCampaign id fun c =>
          { c with status := .cancelled }).cancelAll now
            ((db.roster.pending id).map Prod.fst)).settle id) := by
        rw [hsettled]
        exact congrArg (Roster.settle · id) hroster
      refine ⟨_, _, .close hx howner hstatus, hafter, ?_, ?_, ?_⟩
      · rw [hrest]
        exact hposts
      · intro p hp
        obtain ⟨r, hr, rfl⟩ := List.mem_map.mp hp
        have hmem : r.1 ∈ (db.roster.pending id).map Prod.fst := List.mem_map.mpr ⟨r, hr, rfl⟩
        have hrow := (congrArg (·.assignments.get? r.1) hroster).trans
          ((Roster.cancelAll_get r.1).trans (if_pos hmem))
        rw [hrest]
        exact ⟨_, hrow.trans (congrArg (Option.map _) (pending_applied hr).1), by simp⟩
      · intro p hp
        obtain ⟨r, hr, rfl⟩ := List.mem_map.mp hp
        exact hunsent r hr

/-! ## Drafts -/

section Drafts

open Exchange

variable {g : Nat}

theorem Roster.Drafts.refl (r : Roster) : r.Drafts r :=
  ⟨rfl, fun _ _ hc _ => hc, fun _ _ hc => Or.inl hc⟩

theorem Roster.Drafts.trans {r₁ r₂ r₃ : Roster} (h : r₁.Drafts r₂) (h' : r₂.Drafts r₃) :
    r₁.Drafts r₃ := by
  refine ⟨h'.assignments.trans h.assignments,
    fun id c hc hd => h'.kept id c (h.kept id c hc hd) hd, fun id c hc => ?_⟩
  rcases h'.fresh id c hc with hc | ⟨hstatus, hdraft⟩
  · exact h.fresh id c hc
  · refine Or.inr ⟨hstatus, fun c₀ hc₀ => ?_⟩
    by_cases hd : c₀.status = .draft
    · exact hd
    · exact hdraft c₀ (h.kept id c₀ hc₀ hd)

/-- A change of a draft that leaves it a draft or publishes it. -/
theorem drafts_modify {r : Roster} {id : Uuid} {c : Campaign} {f : Campaign → Campaign}
    (hc : r.campaigns.get? id = some c) (hdraft : c.status = .draft)
    (hf : (f c).status = .draft ∨ (f c).status = .published) :
    r.Drafts (r.modifyCampaign id f) := by
  refine ⟨rfl, fun i d hd hne => ?_, fun i d hd => ?_⟩
  · refine (Table.get?_modify_ne fun hi => ?_).trans hd
    subst hi
    obtain rfl := Option.some.inj (hc.symm.trans hd)
    exact hne hdraft
  · rcases Table.get?_modify_cases hd with ⟨rfl, c', hc', rfl⟩ | ⟨-, hd⟩
    · obtain rfl := Option.some.inj (hc.symm.trans hc')
      refine Or.inr ⟨hf, fun c₀ hc₀ => ?_⟩
      obtain rfl := Option.some.inj (hc.symm.trans hc₀)
      exact hdraft
    · exact Or.inl hd

/-- The roster of a marketplace. -/
def Exchange.roster (s : Exchange) : Roster := ⟨s.campaigns, s.assignments⟩

theorem Exchange.Credited.roster {change : CreditChange} {s s' : Exchange} (h : Credited change s s') :
    s'.roster = s.roster := by
  cases h with
  | known => rfl
  | entered => rfl

/-- The steps that work on drafts. -/
def draftingActions : Action → Prop
  | .note | .createCampaign _ | .editCampaign _ | .publish _ => True
  | _ => False

theorem drafts_step {s s' : Exchange} {x : Action} (hx : draftingActions x)
    (hs : Step g s x s') : s.roster.Drafts s'.roster := by
  cases hs with
  | note he => exact .refl _
  | @createCampaign id c actor hnew hdraft =>
      refine ⟨rfl, fun i d hd _ => Table.get?_insert_of_some hd, fun i d hd => ?_⟩
      rcases Table.get?_insert_cases hd with hd | ⟨rfl, rfl, -⟩
      · exact Or.inl hd
      · refine Or.inr ⟨Or.inl hdraft, fun c₀ hc₀ => ?_⟩
        exact absurd (hnew.symm.trans hc₀) (by simp)
  | editCampaign hc hdraft => exact drafts_modify hc hdraft (Or.inl hdraft)
  | @publish s₁ id c now hc hdraft hspend =>
      have hsame : s₁.roster = s.roster := hspend.roster
      show s.roster.Drafts (s₁.roster.modifyCampaign id fun c =>
        { c with status := .published, publishedAt := some now })
      rw [hsame]
      exact drafts_modify hc hdraft (Or.inr rfl)
  | _ => exact hx.elim

theorem drafts_runs {s s' : Exchange} {actions : List Action}
    (hactions : ∀ x ∈ actions, draftingActions x) (hrun : Runs (Step g) s actions s') :
    s.roster.Drafts s'.roster := by
  induction hrun with
  | nil s => exact .refl _
  | cons head rest ih =>
      have hfirst := drafts_step (hactions _ List.mem_cons_self) head
      exact hfirst.trans (ih fun x hx => hactions x (List.mem_cons_of_mem _ hx))

/-- A session that only works on drafts, as a request does. -/
theorem drafting_yields {α : Type} {m : Session α} {p : Action → Prop} (h : Takes g m p)
    (hp : ∀ x, p x → draftingActions x) :
    Yields m fun _ db db' => db.roster.Drafts db'.roster :=
  yields_mono h fun _ _ _ ⟨_, hactions, hrun⟩ => drafts_runs (fun x hx => hp x (hactions x hx)) hrun

end Drafts

/-! ## Reading notifications -/

/-- Marking a notification as read leaves the mail as it is. -/
theorem mail_modify {t : Table Notification} {id : Uuid} {at' : Time} :
    mail (t.modify id fun n => { n with readAt := some at' }) = mail t := by
  simp only [mail, Table.modify, List.map_map]
  refine List.map_congr_left fun r _ => ?_
  simp only [Function.comp]
  split <;> rfl

theorem mail_map {t : Table Notification} {ids : List Uuid} {at' : Time} :
    mail (t.map fun id n => if id ∈ ids then { n with readAt := some at' } else n) = mail t := by
  simp only [mail, Table.map, List.map_map]
  refine List.map_congr_left fun r _ => ?_
  simp only [Function.comp]
  split <;> rfl

/-- The mail in a database. -/
def Db.mail (db : Db) : List (Uuid × Notification) := TestExchange.mail db.notifications

theorem markNotificationRead_mail {id userId : Uuid} :
    Only (Keeps Db.mail) (markNotificationRead id userId) := by
  refine only_selectForUpdate.bind fun _ => only_orRaise.bind fun n => only_raiseIf.bind fun _ => ?_
  split
  · exact only_pure
  · exact only_utcnow.bind fun _ => (only_add fun _ => mail_modify).bind fun _ =>
      only_flush.bind fun _ => only_pure

theorem markAllNotificationsRead_mail {userId : Uuid} :
    Confined (Keeps Db.mail) (markAllNotificationsRead userId) :=
  only_utcnow.confined.bind fun _ => only_queryForUpdate.confined.bind fun _ =>
    confined_execute fun _ => mail_map

/-! ## Requests -/

section Requests

variable {settings : Settings} {user : CurrentUser} {request : Request} {n n' : Nat} {u : Unit}

theorem roster_keeps (hcampaigns : .campaigns ∉ request.relations)
    (hassignments : .assignments ∉ request.relations) {r : Relation} (hr : r ∈ request.relations)
    {w : Write} (hw : WritesTo r w) (db : Db) : (w.effect db).roster = db.roster := by
  cases hw <;> first | rfl | exact absurd hr hcampaigns | exact absurd hr hassignments

theorem mail_keeps (hmail : .notifications ∉ request.relations) {r : Relation}
    (hr : r ∈ request.relations) {w : Write} (hw : WritesTo r w) (db : Db) :
    (w.effect db).mail = db.mail := by
  cases hw <;> first | rfl | exact absurd hr hmail

theorem quiet_roster (hquiet : request.IsQuiet) :
    .campaigns ∉ request.relations ∧ .assignments ∉ request.relations := by
  cases request <;> first | exact hquiet.elim | simp [Request.relations]

theorem quiet_mail (hquiet : request.IsQuiet)
    (hok : (handle settings user request).commit.alone now db n = .ok (u, db', n')) :
    db'.mail = db.mail := by
  have hkeeps : .notifications ∉ request.relations → db'.mail = db.mail :=
    fun hnot => commit_keeps hok fun _ hr _ hw => mail_keeps hnot hr hw
  cases request with
  | readNotification id =>
      exact (confined_active markNotificationRead_mail.confined).invariant
        (fun t => t.mail = db.mail) hok rfl fun w t hw _ ht => (hw t).trans ht
  | readAllNotifications =>
      exact (confined_active markAllNotificationsRead_mail).invariant
        (fun t => t.mail = db.mail) hok rfl fun w t hw _ ht => (hw t).trans ht
  | _ => first | exact hquiet.elim | exact hkeeps (by simp [Request.relations])

theorem drafting_mail (hdraft : request.IsDrafting) : .notifications ∉ request.relations := by
  cases request <;> first | exact hdraft.elim | simp [Request.relations]

/-- Serving a request that works on drafts. -/
theorem drafting_drafts (hdraft : request.IsDrafting) :
    Yields (handle settings user request) fun _ db db' => db.roster.Drafts db'.roster := by
  cases request with
  | createCampaign payload =>
      refine yields_active (yields_validated fun p _ => yields_discard ?_)
      exact drafting_yields (createCampaign_takes (g := 0) user.id p)
        fun x ⟨id, hx⟩ => by rw [hx]; trivial
  | launchCampaign payload =>
      refine yields_active (yields_validated fun p _ => yields_discard ?_)
      refine drafting_yields (launchCampaign_takes (g := 0) user.id p) fun x hx => ?_
      rcases hx with rfl | ⟨id, rfl | rfl⟩ <;> trivial
  | updateCampaign id payload =>
      refine yields_active (yields_validated fun p _ => yields_discard ?_)
      exact drafting_yields (updateCampaign_takes (g := 0) id user.id p)
        fun x hx => by rw [hx]; trivial
  | publishCampaign id =>
      exact yields_active (yields_discard (drafting_yields
        (publishCampaign_takes (g := 0) id user.id) fun x hx => by rw [hx]; trivial))
  | _ => exact hdraft.elim

theorem ReviewCreate.parse_decision {p q : ReviewCreate} (h : p.parse = some q) :
    p.decision = q.decision := by
  unfold ReviewCreate.parse at h
  dsimp only at h
  split at h
  · rw [← Option.some.inj h]
  · exact absurd h (by simp)

theorem DisputeResolve.parse_decision {p q : DisputeResolve} (h : p.parse = some q) :
    p.remedy = q.remedy ∧ p.outcome = q.outcome := by
  unfold DisputeResolve.parse at h
  dsimp only at h
  split at h
  · rw [← Option.some.inj h]
    exact ⟨rfl, rfl⟩
  · exact absurd h (by simp)

/-- What a request that succeeds does, when it is one of those that notify or move an assignment. -/
theorem handle_enacts (hquiet : ¬request.IsQuiet) (hdraft : ¬request.IsDrafting) :
    Yields (handle settings user request) fun now db db' => NoticeInv db →
      ∃ after sent, Enacts db user.id now request after sent ∧ Enacted db db' after sent := by
  cases request with
  | transitionCampaign id action =>
      exact yields_active (yields_discard fun _ _ _ _ _ _ h hf hinv =>
        transitionCampaign_enacts hinv h hf)
  | apply id payload =>
      exact yields_active (yields_validated fun p _ => yields_discard fun _ _ _ _ _ _ h hf hinv =>
        applyToCampaign_enacts hinv h hf)
  | accept id =>
      exact yields_active (yields_discard fun _ _ _ _ _ _ h hf hinv =>
        acceptAssignment_enacts hinv h hf)
  | decline id =>
      exact yields_active (yields_discard fun _ _ _ _ _ _ h hf hinv =>
        declineAssignment_enacts hinv h hf)
  | withdraw id =>
      exact yields_active (yields_discard fun _ _ _ _ _ _ h hf hinv =>
        withdrawAssignment_enacts hinv h hf)
  | start id =>
      exact yields_active (yields_discard fun _ _ _ _ _ _ h hf _ => startAssignment_enacts h hf)
  | submit id payload =>
      exact yields_active (yields_validated fun p _ => yields_discard fun _ _ _ _ _ _ h hf hinv =>
        createSubmission_enacts hinv h hf)
  | review submissionId payload =>
      exact yields_active (yields_validated fun p hp => yields_discard fun _ _ _ _ _ _ h hf hinv =>
        createReview_enacts hinv h hf (ReviewCreate.parse_decision hp))
  | message id payload =>
      exact yields_active (yields_validated fun p _ => yields_discard fun _ _ _ _ _ _ h hf hinv =>
        addMessage_enacts hinv h hf)
  | openDispute id payload =>
      exact yields_active (yields_validated fun p _ => yields_discard fun _ _ _ _ _ _ h hf hinv =>
        openDispute_enacts hinv h hf)
  | resolveDispute disputeId payload =>
      exact yields_moderator (yields_validated fun p hp => yields_discard
        fun _ _ _ _ _ _ h hf hinv => resolveDispute_enacts hinv h hf
          (DisputeResolve.parse_decision hp).1 (DisputeResolve.parse_decision hp).2)
  | _ => exact absurd trivial ‹_›

/--
**What a successful request does to the roster and the notifications**, if every
stored notification is about something that has happened.
-/
theorem commit_enacts (hinv : NoticeInv db)
    (hok : (handle settings user request).commit.alone now db n = .ok (u, db', n')) :
    ∃ after sent, Enacts db user.id now request after sent ∧ Enacted db db' after sent := by
  obtain ⟨c, halone, hf, -⟩ := commit_alone.mp hok
  by_cases hquiet : request.IsQuiet
  · obtain ⟨hcampaigns, hassignments⟩ := quiet_roster hquiet
    have hroster : db'.roster = db.roster :=
      commit_keeps hok fun _ hr _ hw => roster_keeps hcampaigns hassignments hr hw
    exact ⟨_, _, .quiet hquiet, enacted_none hroster (.of_mail (quiet_mail hquiet hok))⟩
  · by_cases hdraft : request.IsDrafting
    · have hmail : db'.mail = db.mail :=
        commit_keeps hok fun _ hr _ hw => mail_keeps (drafting_mail hdraft) hr hw
      exact ⟨_, _, .drafting hdraft (drafting_drafts hdraft now db n _ c db' halone hf),
        enacted_none rfl (.of_mail hmail)⟩
    · exact handle_enacts hquiet hdraft now db n _ c db' halone hf hinv

end Requests

end TestExchange
