import TestExchange.Proof.Notices

/-!
# The people behind the records

Audit events and ledger entries name existing profiles, since a foreign key is
checked when they are written and no profile is ever deleted. The owner of a
published campaign has paid for it, the tester of a dispute has opened it and its
moderator has claimed it, each of which left such a record. So their profiles are
there whenever the dispute is decided.
-/

namespace TestExchange

open Txn Exchange

/-- The user has a profile. -/
def Db.Knows (db : Db) (userId : Uuid) : Prop := ∃ p, db.profiles.get? userId = some p

/-- Every event and every ledger entry is about somebody known. -/
structure Db.Attributed (db : Db) : Prop where
  actors : ∀ e ∈ db.auditEvents, ∀ u, e.actorId = some u → db.Knows u
  holders : ∀ e ∈ db.creditLedgerEntries, db.Knows e.userId

theorem knows_of_contains {db : Db} {u : Uuid} (h : (!db.profiles.contains u) = false) :
    db.Knows u := by
  rw [Bool.not_eq_false', Table.contains_eq_true] at h
  exact h

theorem Db.Knows.contains {db : Db} {u : Uuid} (h : db.Knows u) :
    (!db.profiles.contains u) = false := by
  rw [Bool.not_eq_false', Table.contains_eq_true]
  exact h

/-! ## Writes about known users

The constraints of the records, for a write that gives them no cause to object.
-/

section Accepted

variable {db : Db} {u m : Uuid}

theorem insertAuditEvent_accepted {e : AuditEvent} (he : e.actorId = some u) (hu : db.Knows u) :
    (insertAuditEvent e).violates db = none := by
  simp only [insertAuditEvent, firstViolated_cons, firstViolated_nil, and_true]
  rw [he]
  exact hu.contains

theorem insertCreditAccount_accepted (hfree : db.creditAccounts.get? u = none) (hu : db.Knows u) :
    (insertCreditAccount u ⟨0⟩).violates db = none := by
  simp only [insertCreditAccount, firstViolated_cons, firstViolated_nil, and_true]
  exact ⟨Table.contains_eq_false.mpr hfree, rfl, hu.contains⟩

theorem writeCreditAccount_accepted {balance : Int} (h : ¬balance < 0) :
    (writeCreditAccount u balance).violates db = none := by
  simp only [writeCreditAccount, firstViolated_cons, firstViolated_nil, and_true]
  exact decide_eq_false h

theorem insertCreditLedgerEntry_accepted {e : CreditLedgerEntry}
    (hkey : ∀ x ∈ db.creditLedgerEntries, x.idempotencyKey ≠ e.idempotencyKey)
    (hdelta : ¬e.delta = 0) (hu : db.Knows e.userId) (hby : e.createdBy = some m)
    (hm : db.Knows m) : (insertCreditLedgerEntry e).violates db = none := by
  simp only [insertCreditLedgerEntry, firstViolated_cons, firstViolated_nil, and_true]
  refine ⟨List.any_eq_false.mpr fun x hx => ?_, decide_eq_false hdelta, hu.contains, ?_⟩
  · simpa using hkey x hx
  · rw [hby]
    exact hm.contains

end Accepted

/-- A write that only adds profiles. -/
theorem Db.Attributed.profiles {db : Db} {t : Table Profile} (h : db.Attributed)
    (ht : ∀ u, db.Knows u → ∃ p, t.get? u = some p) :
    Db.Attributed { db with profiles := t } :=
  ⟨fun e he u hu => ht u (h.actors e he u hu), fun e he => ht _ (h.holders e he)⟩

theorem Db.Attributed.effect {db : Db} {r : Relation} {w : Write} (h : db.Attributed)
    (hw : WritesTo r w) (hv : w.violates db = none) : Db.Attributed (w.effect db) := by
  cases hw with
  | insertProfile => exact h.profiles fun u hu => stays_insert hu
  | writeProfile => exact h.profiles fun u hu => stays_modify hu
  | writeSavedProfile => exact h.profiles fun u hu => stays_modify hu
  | @insertCreditLedgerEntry entry =>
      refine ⟨h.actors, fun e he => ?_⟩
      rcases List.mem_append.mp he with he | he
      · exact h.holders e he
      · simp only [insertCreditLedgerEntry, firstViolated_cons] at hv
        rw [List.mem_singleton.mp he]
        exact knows_of_contains hv.2.2.1
  | @insertAuditEvent event =>
      refine ⟨fun e he u hu => ?_, h.holders⟩
      rcases List.mem_append.mp he with he | he
      · exact h.actors e he u hu
      · simp only [insertAuditEvent, firstViolated_cons] at hv
        rw [← List.mem_singleton.mp he, hu] at hv
        exact knows_of_contains hv.1
  | _ => exact ⟨h.actors, h.holders⟩

theorem attributed_reachable {settings : Settings} {s : Service} (h : Reachable settings s) :
    s.db.Attributed := by
  refine reachable_invariant Db.Attributed h ?_ ?_
  · exact ⟨fun e he => absurd he (by simp [Db.empty]), fun e he => absurd he (by simp [Db.empty])⟩
  · intro s now user request u db nextId _ hdb hok
    refine (handle_within request).invariant Db.Attributed hok hdb ?_
    rintro w t ⟨r, -, hw⟩ hv ht
    exact ht.effect hw hv

/-! ## Who a dispute is between -/

/-- Somebody did something to the assignment. -/
def Exchange.ActedOn (s : Exchange) (assignmentId userId : Uuid) : Prop :=
  ∃ e ∈ s.history "assignment" assignmentId, e.actorId = some userId

/-- The tester of every dispute has opened it, and its moderator has claimed it. -/
def Signed (s : Exchange) : Prop :=
  ∀ i d, s.disputes.get? i = some d → s.ActedOn d.assignmentId d.openedBy
    ∧ ∀ m, d.assignedTo = some m → s.ActedOn d.assignmentId m

variable {s s₁ s' : Exchange}

theorem Exchange.ActedOn.record {id u : Uuid} {e : AuditEvent} (h : s.ActedOn id u)
    (hh : s₁.history = s.history) : (s₁.record e).ActedOn id u := by
  obtain ⟨f, hf, hu⟩ := h
  rw [← hh] at hf
  exact ⟨f, List.mem_append_left _ hf, hu⟩

theorem actedOn_event {id u : Uuid} {e : AuditEvent} (htype : e.entityType = "assignment")
    (hid : e.entityId = id) (hu : e.actorId = some u) : (s.record e).ActedOn id u :=
  ⟨e, List.mem_append_right _ (by simp [htype, hid]), hu⟩

/-- An event about something that leaves the disputes alone. -/
theorem Signed.record {e : AuditEvent} (h : Signed s) (hd : s₁.disputes = s.disputes)
    (hh : s₁.history = s.history) : Signed (s₁.record e) := by
  intro i d hi
  have hold : s.disputes.get? i = some d := by
    rw [← hd]
    exact hi
  obtain ⟨hopened, hassigned⟩ := h i d hold
  exact ⟨hopened.record hh, fun m hm => (hassigned m hm).record hh⟩

/-- A dispute goes on between the same people, or with a moderator who has just acted on it. -/
theorem Signed.modify {j : Uuid} {f : Dispute → Dispute} {e : AuditEvent} (h : Signed s)
    (hd : s₁.disputes = s.disputes.modify j f) (hh : s₁.history = s.history)
    (hsame : ∀ d, (f d).assignmentId = d.assignmentId ∧ (f d).openedBy = d.openedBy)
    (hf : ∀ d m, s.disputes.get? j = some d → (f d).assignedTo = some m →
      d.assignedTo = some m
        ∨ (e.entityType = "assignment" ∧ e.entityId = d.assignmentId ∧ e.actorId = some m)) :
    Signed (s₁.record e) := by
  intro i d hi
  have hmod : (s.disputes.modify j f).get? i = some d := by
    rw [← hd]
    exact hi
  rcases Table.get?_modify_cases hmod with ⟨rfl, d₀, hd₀, rfl⟩ | ⟨-, hold⟩
  · obtain ⟨hopened, hassigned⟩ := h i d₀ hd₀
    rw [(hsame d₀).1, (hsame d₀).2]
    refine ⟨hopened.record hh, fun m hm => ?_⟩
    rcases hf d₀ m hd₀ hm with hm | ⟨htype, hid, hactor⟩
    · exact (hassigned m hm).record hh
    · exact actedOn_event htype hid hactor
  · obtain ⟨hopened, hassigned⟩ := h i d hold
    exact ⟨hopened.record hh, fun m hm => (hassigned m hm).record hh⟩

theorem Signed.settle {j m : Uuid} {payload : DisputeResolve} {now : Time} {e : AuditEvent}
    (h : Signed s) (hd : s₁.disputes = s.disputes) (hh : s₁.history = s.history) :
    Signed ((s₁.settle j m payload now).record e) := by
  refine h.modify (j := j) (f := fun d => { d with
      status := payload.outcome.status, resolution := some payload.resolution,
      remedy := some payload.remedy, resolvedBy := some m, resolvedAt := some now })
    ?_ hh (fun _ => ⟨rfl, rfl⟩) fun _ _ _ hm => Or.inl hm
  rw [← hd]
  rfl

theorem signed_step {g : Nat} {x : Action} (h : Signed s) (hs : Step g s x s') : Signed s' := by
  cases hs with
  | addProfile hnew hgrant =>
      obtain ⟨_, _, _, _, _, hd, hh⟩ := paid_frame hgrant
      exact h.record hd hh
  | openAccount => exact h
  | publish hc hdraft hspend =>
      obtain ⟨_, _, _, _, _, hd, hh⟩ := hspend.frame
      exact h.record hd hh
  | review he hof ha hc hcalm hpending hawaiting hnew hfirst hsub hby hpay =>
      obtain ⟨_, _, _, _, _, hd, hh⟩ := paid_frame hpay
      exact h.record hd hh
  | @openDispute i k a e d hnew ha hby he hsub hof hstatus honce hopen hfresh =>
      intro j x hx
      rcases Table.get?_insert_cases hx with hold | ⟨-, rfl, -⟩
      · obtain ⟨hopened, hassigned⟩ := h j x hold
        exact ⟨hopened.record rfl, fun m hm => (hassigned m hm).record rfl⟩
      · rw [hby]
        refine ⟨actedOn_event rfl rfl rfl, fun m hm => ?_⟩
        rw [hfresh.1] at hm
        exact absurd hm (by simp)
  | @claim i m d now hd hopen =>
      refine h.modify (j := i) (f := fun d =>
        { d with status := .underReview, assignedTo := some m, assignedAt := some now }) rfl rfl
        (fun _ => ⟨rfl, rfl⟩) ?_
      intro d₀ m' hd₀ hm
      obtain rfl := Option.some.inj (hd.symm.trans hd₀)
      exact Or.inr ⟨rfl, rfl, hm⟩
  | award hcase hremedy houtcome hstatus hsub he hof hc hpay =>
      obtain ⟨_, _, _, _, _, hd, hh⟩ := hpay.frame
      exact h.settle hd hh
  | rejectOverdue hcase hremedy houtcome hstatus hsub he hof => exact h.settle rfl rfl
  | uphold hcase hremedy hstatus => exact h.settle rfl rfl
  | _ => exact h.record rfl rfl

theorem signed_possible {g : Nat} (h : Possible g s) : Signed s := by
  refine h.invariant ?_ fun s x s' hs hstep => signed_step hs hstep
  exact fun i d hd => absurd hd (by simp [Exchange.empty, Db.exchange, Db.empty])

/-! ## The people are there -/

variable {settings : Settings} {service : Service}

theorem knows_of_actedOn (h : Reachable settings service) {id u : Uuid}
    (hu : service.db.exchange.ActedOn id u) : service.db.Knows u := by
  obtain ⟨e, he, hactor⟩ := hu
  exact (attributed_reachable h).actors e (List.mem_filter.mp he).1 u hactor

/-- The tester and the moderator of a dispute have profiles. -/
theorem dispute_knows (h : Reachable settings service) {i : Uuid} {d : Dispute}
    (hd : service.db.disputes.get? i = some d) :
    service.db.Knows d.openedBy ∧ ∀ m, d.assignedTo = some m → service.db.Knows m := by
  obtain ⟨hopened, hassigned⟩ := signed_possible (reachable_possible h) i d hd
  exact ⟨knows_of_actedOn h hopened, fun m hm => knows_of_actedOn h (hassigned m hm)⟩

/-- The owner of a campaign past its draft has paid for it, and so has a profile. -/
theorem owner_knows (h : Reachable settings service) {id : Uuid} {c : Campaign}
    (hc : service.db.campaigns.get? id = some c) (hd : c.status ≠ .draft) :
    service.db.Knows c.ownerId := by
  have hledger := ledgerInv_possible (reachable_possible h)
  obtain ⟨e, he, hkey⟩ := hledger.recorded (.posting id) ⟨c, hc, hd⟩
  obtain ⟨o, ho⟩ := hledger.explained e he
  obtain rfl := Occasion.key_inj (ho.key.symm.trans hkey)
  obtain ⟨c', hc', howner, -⟩ := ho.moves
  obtain rfl := Option.some.inj (hc.symm.trans hc')
  rw [← howner]
  exact (attributed_reachable h).holders e he

end TestExchange
