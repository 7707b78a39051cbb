import TestExchange.Proof.Completion
import TestExchange.Proof.References
import TestExchange.Refine.Identifiers

/-!
# A claimed dispute can be settled

Everything `resolve_dispute` looks up for a dispute under review is there, the
reward it pays has not been paid, and no constraint stands in the way of what it
writes. The last is followed through the request by what is on the moderator's
desk: the part of the database the constraints look at.
-/

namespace TestExchange

open Txn Txn.Session Exchange

/-! ## The desk -/

/-- What the constraints on a settlement look at. -/
structure Desk where
  profiles : Table Profile
  notifications : Table Notification
  ledger : List CreditLedgerEntry
  accounts : Table CreditAccount
  owner : Option Uuid

def Db.desk (campaignId : Uuid) (db : Db) : Desk where
  profiles := db.profiles
  notifications := db.notifications
  ledger := db.creditLedgerEntries
  accounts := db.creditAccounts
  owner := (db.campaigns.get? campaignId).map (·.ownerId)

/-- The people concerned have profiles, and the next notification has a free identifier. -/
structure Desk.Manned (owner : Uuid) (people : List Uuid) (n : Nat) (d : Desk) : Prop where
  known : ∀ u ∈ people, ∃ p, d.profiles.get? u = some p
  numbered : ∀ k m, d.notifications.get? k = some m → k < n
  owner : d.owner = some owner

theorem Desk.Manned.succ {owner : Uuid} {people : List Uuid} {n : Nat} {d : Desk}
    (h : d.Manned owner people n) : d.Manned owner people (n + 1) :=
  ⟨h.known, fun k m hm => Nat.lt_succ_of_lt (h.numbered k m hm), h.owner⟩

section Passes

variable {campaignId k u : Uuid} {v : Desk}

theorem passes_submission {f : EvidenceSubmission → EvidenceSubmission} :
    Passes (fun s => s.desk campaignId = v) (writeEvidenceSubmission k f) := fun _ hs => ⟨rfl, hs⟩

theorem passes_assignment {f : Assignment → Assignment} :
    Passes (fun s => s.desk campaignId = v) (writeAssignment k f) := fun _ hs => ⟨rfl, hs⟩

theorem passes_campaign {f : Campaign → Campaign} (hf : ∀ c, (f c).ownerId = c.ownerId) :
    Passes (fun s => s.desk campaignId = v) (writeCampaign k f) := by
  intro s hs
  refine ⟨rfl, ?_⟩
  subst hs
  have howner : (((s.campaigns.modify k f).get? campaignId).map (·.ownerId))
      = (s.campaigns.get? campaignId).map (·.ownerId) := by
    rw [Table.get?_modify]
    split
    · rename_i hk
      rw [hk, Option.map_map]
      exact congrArg (fun g => Option.map g _) (funext hf)
    · rfl
  exact congrArg (Desk.mk s.profiles s.notifications s.creditLedgerEntries s.creditAccounts) howner

theorem passes_event {e : AuditEvent} (hu : e.actorId = some u)
    (h : ∃ p, v.profiles.get? u = some p) :
    Passes (fun s => s.desk campaignId = v) (insertAuditEvent e) := by
  intro s hs
  refine ⟨?_, hs⟩
  subst hs
  exact insertAuditEvent_accepted hu h

theorem passes_dispute {f : Dispute → Dispute} {fkey : String}
    (h : ∃ p, v.profiles.get? u = some p) :
    Passes (fun s => s.desk campaignId = v) (writeDispute k u fkey f) := by
  intro s hs
  refine ⟨?_, hs⟩
  subst hs
  have hknows : s.Knows u := h
  simp [writeDispute, hknows.contains]

end Passes

/-! ## What the helpers return -/

section Helpers

variable {campaignId owner : Uuid} {people : List Uuid} {now : Nat} {c : Conn}

/-- The balances and the ledger. -/
def Db.money (db : Db) : List CreditLedgerEntry × Table CreditAccount :=
  (db.creditLedgerEntries, db.creditAccounts)

/-- Everything queued is sure to be written, and the people concerned are known. -/
abbrev Ready (campaignId owner : Uuid) (people : List Uuid) (c : Conn) : Prop :=
  Calm (Db.desk campaignId) (Desk.Manned owner people) c

/-- The people concerned are known wherever the desk looks the same. -/
theorem ready_knows {s : Db} {u : Uuid} (h : Ready campaignId owner people c)
    (hs : s.desk campaignId = c.db.desk campaignId) (hu : u ∈ people) : s.Knows u := by
  have hdesk := h.holds.known u hu
  rw [← hs] at hdesk
  exact hdesk

theorem ready_manned {s : Db} (h : Ready campaignId owner people c)
    (hs : s.desk campaignId = c.db.desk campaignId) :
    (s.desk campaignId).Manned owner people c.next := by
  rw [hs]
  exact h.holds

theorem money_of_desk {s s' : Db} (h : s.desk campaignId = s'.desk campaignId) :
    s.money = s'.money :=
  congrArg (fun v : Desk => (v.ledger, v.accounts)) h

theorem addNotification_returns {x : Notification} (h : Ready campaignId owner people c)
    (hx : x.userId ∈ people) :
    Returns (addNotification x) now c fun _ c' =>
      Ready campaignId owner people c' ∧ c'.db.money = c.db.money := by
  unfold addNotification
  simp only [Returns, alone_query_bind]
  cases hfind : c.db.notifications.find? fun _ n => n.idempotencyKey = x.idempotencyKey with
  | some found => exact returns_pure ⟨h, rfl⟩
  | none =>
      simp only [alone_uuid4_bind, alone_add_bind]
      refine h.flushWith fun s hs => ?_
      have hnotifications : s.notifications = c.db.notifications := congrArg Desk.notifications hs
      have howner : (s.campaigns.get? campaignId).map (·.ownerId) = some owner :=
        (congrArg Desk.owner hs).trans h.holds.owner
      have hfree : s.notifications.get? c.next = none := by
        rw [hnotifications]
        cases hget : c.db.notifications.get? c.next with
        | none => rfl
        | some m => exact absurd (h.holds.numbered _ _ hget) (Nat.lt_irrefl _)
      have hunsent := Table.find?_eq_none.mp hfind
      rw [← hnotifications] at hunsent
      refine ⟨_, applyAll_cons.mpr ⟨?_, rfl⟩, calm_start ⟨?_, ?_, howner⟩, ?_⟩
      · simp only [insertNotification, firstViolated_cons, firstViolated_nil, and_true]
        exact ⟨Table.contains_eq_false.mpr hfree, Table.any_eq_false.mpr hunsent, (ready_knows h hs hx).contains⟩
      · exact fun u hu => ready_knows (s := s) h hs hu
      · intro k m hm
        rcases Table.get?_insert_cases hm with hold | ⟨rfl, -, -⟩
        · rw [hnotifications] at hold
          exact Nat.lt_succ_of_lt (h.holds.numbered k m hold)
        · exact Nat.lt_succ_self _
      · show s.money = c.db.money
        exact money_of_desk hs

theorem maybeCompleteCampaign_returns {id m : Uuid} {campaign : Campaign}
    (h : Ready campaignId owner people c) (hm : m ∈ people) :
    Returns (maybeCompleteCampaign id campaign m) now c fun _ c' =>
      Ready campaignId owner people c' ∧ c'.db.money = c.db.money := by
  have hclosed : ∃ b, (closedWorkSettled id campaign).alone now c = .ok (b, c) := by
    unfold closedWorkSettled
    split
    · exact ⟨_, rfl⟩
    · exact ⟨_, rfl⟩
  obtain ⟨b, hb⟩ := hclosed
  unfold maybeCompleteCampaign
  simp only [Returns, alone_query_bind]
  refine Returns.bind (Q := fun b' c' => b' = b ∧ c' = c) ⟨b, c, hb, rfl, rfl⟩ ?_
  rintro b' c' ⟨rfl, rfl⟩
  split
  · simp only [Returns, alone_add_bind, addAuditEvent]
    have hwritten := h.add (passes_campaign (k := id) (f := fun x => { x with status := .completed })
      fun _ => rfl)
    refine returns_pure ⟨hwritten.add (passes_event rfl (h.holds.known m hm)), rfl⟩
  · exact returns_pure ⟨h, rfl⟩

theorem getCampaign_returns (h : Ready campaignId owner people c) :
    Returns (getCampaign campaignId) now c fun x c' => x.ownerId = owner ∧ c' = c := by
  have howner : (c.db.campaigns.get? campaignId).map (·.ownerId) = some owner := h.holds.owner
  obtain ⟨x, hx, hown⟩ := Option.map_eq_some_iff.mp howner
  unfold getCampaign
  simp only [Returns, alone_query_bind, hx]
  exact returns_pure ⟨hown, rfl⟩

/-- The account is there for the update, opened if it has to be. -/
theorem getCreditAccountForUpdate_returns {u : Uuid} (h : Ready campaignId owner people c)
    (hu : u ∈ people) :
    Returns (getCreditAccountForUpdate u) now c fun account c' =>
      Ready campaignId owner people c' ∧ account.balance = c.db.exchange.balance u
        ∧ c'.db.creditLedgerEntries = c.db.creditLedgerEntries
        ∧ c'.db.creditAccounts = c.db.creditAccounts.insert u ⟨0⟩ := by
  unfold getCreditAccountForUpdate
  simp only [Returns, selectForUpdate, alone_queryForUpdate_bind]
  cases hget : c.db.creditAccounts.get? u with
  | some account =>
      refine returns_pure ⟨h, ?_, rfl, (Table.insert_of_mem hget).symm⟩
      show account.balance = (c.db.creditAccounts.get? u).elim 0 (·.balance)
      rw [hget]
      rfl
  | none =>
      simp only [ensureCreditAccount, alone_query_bind, hget, alone_add_bind]
      refine (h.flushWith (Q := fun _ c' => Ready campaignId owner people c'
        ∧ c'.db.creditLedgerEntries = c.db.creditLedgerEntries
        ∧ c'.db.creditAccounts = c.db.creditAccounts.insert u ⟨0⟩) fun s hs => ?_).bind ?_
      · have haccounts : s.creditAccounts = c.db.creditAccounts := congrArg Desk.accounts hs
        refine ⟨_, applyAll_cons.mpr ⟨?_, rfl⟩, calm_start ?_, congrArg Desk.ledger hs, ?_⟩
        · refine insertCreditAccount_accepted ?_ (ready_knows h hs hu)
          rw [haccounts]
          exact hget
        · exact ⟨(ready_manned h hs).known, (ready_manned h hs).numbered, (ready_manned h hs).owner⟩
        · show s.creditAccounts.insert u ⟨0⟩ = _
          rw [haccounts]
      · rintro _ c' ⟨hready, hledger, haccounts⟩
        refine returns_pure ⟨hready, ?_, hledger, haccounts⟩
        show (0 : Int) = (c.db.creditAccounts.get? u).elim 0 (·.balance)
        rw [hget]
        rfl

/-- A reward nobody has been paid is paid. -/
theorem recordCreditEntry_returns {change : CreditChange} {m : Uuid}
    (h : Ready campaignId owner people c) (huser : change.userId ∈ people) (hm : m ∈ people)
    (hby : change.createdBy = some m) (hdelta : 0 < change.delta)
    (hkey : ∀ e ∈ c.db.creditLedgerEntries, e.idempotencyKey ≠ change.idempotencyKey)
    (hsolvent : 0 ≤ c.db.exchange.balance change.userId) :
    Returns (recordCreditEntry change) now c fun _ c' =>
      Ready campaignId owner people c'
        ∧ (∃ t, c'.db.creditLedgerEntries = c.db.creditLedgerEntries ++ [change.entry t])
        ∧ c'.db.creditAccounts = (c.db.creditAccounts.insert change.userId ⟨0⟩).modify change.userId
            fun _ => ⟨c.db.exchange.balance change.userId + change.delta⟩ := by
  have hfind : (c.db.creditLedgerEntries.find?
      fun e => e.idempotencyKey = change.idempotencyKey) = none := by
    refine List.find?_eq_none.mpr fun e he => ?_
    simpa using hkey e he
  unfold recordCreditEntry
  simp only [Returns, alone_query_bind, hfind]
  have hnonzero : ¬change.delta = 0 := by omega
  simp only [alone_raiseIf_bind hnonzero]
  refine (getCreditAccountForUpdate_returns h huser).bind ?_
  rintro account c₁ ⟨h₁, hbalance, hledger, haccounts⟩
  have hfunds : ¬account.balance + change.delta < 0 := by
    rw [hbalance]
    omega
  simp only [Returns, alone_raiseIf_bind hfunds, alone_add_bind, alone_uuid4_bind,
    List.append_assoc, List.cons_append, List.nil_append]
  refine (h₁.flushWith (n := c₁.next + 1) (Q := fun _ c' => Ready campaignId owner people c'
    ∧ c'.db.creditLedgerEntries = c.db.creditLedgerEntries ++ [change.entry c₁.next]
    ∧ c'.db.creditAccounts = (c.db.creditAccounts.insert change.userId ⟨0⟩).modify change.userId
        fun _ => ⟨c.db.exchange.balance change.userId + change.delta⟩) fun s hs => ?_).bind ?_
  · have hledger' : s.creditLedgerEntries = c.db.creditLedgerEntries :=
      (congrArg Desk.ledger hs).trans hledger
    have haccounts' : s.creditAccounts = c.db.creditAccounts.insert change.userId ⟨0⟩ :=
      (congrArg Desk.accounts hs).trans haccounts
    refine ⟨_, applyAll_cons.mpr ⟨?_, applyAll_cons.mpr ⟨?_, rfl⟩⟩, calm_start ?_, ?_, ?_⟩
    · exact writeCreditAccount_accepted hfunds
    · have hpaid : s.Knows change.userId := ready_knows h₁ hs huser
      have hpayer : s.Knows m := ready_knows h₁ hs hm
      refine insertCreditLedgerEntry_accepted (fun e he => ?_) hnonzero hpaid hby hpayer
      have hmem : e ∈ s.creditLedgerEntries := he
      rw [hledger'] at hmem
      exact hkey e hmem
    · have hmanned := (ready_manned h₁ hs).succ
      exact ⟨hmanned.known, hmanned.numbered, hmanned.owner⟩
    · show s.creditLedgerEntries ++ [change.entry c₁.next] = _
      rw [hledger']
    · show s.creditAccounts.modify change.userId (fun _ => ⟨account.balance + change.delta⟩) = _
      rw [haccounts', hbalance]
  · rintro _ c' ⟨hready, hentry, hpaid⟩
    exact returns_pure ⟨hready, ⟨_, hentry⟩, hpaid⟩

end Helpers

/-! ## Deciding -/

/-- A dispute under review and everything its decision looks up. -/
structure Settleable (db : Db) (i m : Uuid) (d : Dispute) (a : Assignment) (k : Uuid)
    (e : EvidenceSubmission) (c : Campaign) : Prop where
  hd : db.disputes.get? i = some d
  underReview : d.status = .underReview
  assigned : d.assignedTo = some m
  ha : db.assignments.get? d.assignmentId = some a
  submission : d.submissionId = some k
  he : db.evidenceSubmissions.get? k = some e
  hof : e.assignmentId = d.assignmentId
  hc : db.campaigns.get? a.campaignId = some c
  escalated : Escalated a.status e.status

section Deciding

variable {db : Db} {i m k : Uuid} {d : Dispute} {a : Assignment} {e : EvidenceSubmission}
  {x : Campaign} {n now : Nat} {people : List Uuid} {payload : DisputeResolve}

/-- **The decision goes through if its remedy does**, and moves no credits but the remedy's. -/
theorem resolveDispute_returns (h : Settleable db i m d a k e x) (hm : m ∈ people)
    (htester : a.testerId ∈ people) (howner : x.ownerId ∈ people)
    {P : List CreditLedgerEntry × Table CreditAccount → Prop}
    (hremedy : Returns (applyRemedy d a m payload) now ⟨db, [], n⟩ fun _ c =>
      Ready a.campaignId x.ownerId people c ∧ P c.db.money) :
    ∃ r db' n', (resolveDispute i m payload).commit.alone now db n = .ok (r, db', n')
      ∧ P db'.money := by
  have hall : Returns (resolveDispute i m payload) now ⟨db, [], n⟩ fun _ c =>
      Ready a.campaignId x.ownerId people c ∧ P c.db.money := by
    unfold resolveDispute
    simp only [Returns, selectForUpdate, alone_queryForUpdate_bind, h.hd, alone_orRaise_bind,
      alone_raiseIf_bind (not_not.mpr h.underReview), alone_raiseIf_bind (not_not.mpr h.assigned),
      h.ha]
    refine Returns.bind hremedy ?_
    rintro _ c₁ ⟨hready, hp⟩
    simp only [Returns, alone_utcnow_bind, addAuditEvent, alone_add_bind]
    have hknown := hready.holds.known m hm
    refine (getCampaign_returns ((hready.add (passes_dispute hknown)).add
      (passes_event rfl hknown))).bind ?_
    rintro campaign c₂ ⟨hown, rfl⟩
    refine (addNotification_returns ((hready.add (passes_dispute hknown)).add
      (passes_event rfl hknown)) htester).bind ?_
    rintro _ c₃ ⟨hready₃, hmoney₃⟩
    have howner' : campaign.ownerId ∈ people := by
      rw [hown]
      exact howner
    refine (addNotification_returns hready₃ howner').bind ?_
    rintro _ c₄ ⟨hready₄, hmoney₄⟩
    refine hready₄.flushed.bind ?_
    rintro _ c₅ ⟨hready₅, hdesk⟩
    refine returns_pure ⟨hready₅, ?_⟩
    rw [money_of_desk hdesk, hmoney₄, hmoney₃]
    exact hp
  obtain ⟨r, db', n', hok, hp⟩ := hall.calm (P := fun v : Desk => P (v.ledger, v.accounts))
  exact ⟨r, db', n', hok, hp⟩

theorem disputedSubmission_returns {id : Uuid} {c : Conn} (hof : e.assignmentId = id) :
    Returns (disputedSubmission id (some e)) now c fun _ c' => c' = c := by
  unfold disputedSubmission
  simp only [Returns, alone_orRaise_bind, alone_raiseIf_bind (not_not.mpr hof)]
  exact returns_pure rfl

/-- The tester's reward is in the ledger and in the account, and nothing else has changed there. -/
def Rewarded (db : Db) (assignmentId : Uuid) (a : Assignment) (x : Campaign) (m : Uuid)
    (money : List CreditLedgerEntry × Table CreditAccount) : Prop :=
  (∃ t note, money.1 = db.creditLedgerEntries ++ [(rewardEntry assignmentId a x note m).entry t])
    ∧ money.2 = (db.creditAccounts.insert a.testerId ⟨0⟩).modify a.testerId
        fun _ => ⟨db.exchange.balance a.testerId + x.rewardCredits⟩

/-- The award pays the tester the reward of the campaign. -/
theorem award_returns {outcome : DisputeOutcome} {resolution : String} (h : Settleable db i m d a k e x)
    (hready : Ready a.campaignId x.ownerId people ⟨db, [], n⟩) (hm : m ∈ people)
    (htester : a.testerId ∈ people) (hreward : 0 < x.rewardCredits)
    (hkey : ∀ f ∈ db.creditLedgerEntries,
      f.idempotencyKey ≠ idempotencyKey "assignment" d.assignmentId "reward")
    (hsolvent : 0 ≤ db.exchange.balance a.testerId) :
    Returns (applyRemedy d a m ⟨outcome, .awardTester, resolution⟩) now ⟨db, [], n⟩ fun _ c =>
      Ready a.campaignId x.ownerId people c ∧ Rewarded db d.assignmentId a x m c.db.money := by
  have hstatus : ¬a.status ∉ [AssignmentStatus.rejected, .submitted] := by
    rcases h.escalated with hs | hs <;> simp [hs.1]
  unfold applyRemedy
  rw [if_pos rfl]
  unfold awardTester
  simp only [Returns, selectForUpdate, h.submission, alone_orRaise_bind,
    alone_raiseIf_bind hstatus, alone_queryForUpdate_bind, h.he]
  refine (disputedSubmission_returns h.hof).bind ?_
  rintro _ _ rfl
  simp only [Returns, alone_queryForUpdate_bind, h.hc, alone_orRaise_bind, alone_utcnow_bind,
    alone_add_bind]
  have hqueued := (hready.add (passes_submission (k := k)
    (f := fun e => { e with status := .approved }))).add (passes_assignment (k := d.assignmentId)
    (f := fun a => { a with status := .approved, completedAt := some now }))
  refine (recordCreditEntry_returns hqueued htester hm rfl ?_ hkey hsolvent).bind ?_
  · exact Int.natCast_pos.mpr hreward
  rintro _ c₁ ⟨h₁, hentry, hpaid⟩
  refine h₁.flushed.bind ?_
  rintro _ c₂ ⟨h₂, hdesk⟩
  refine (maybeCompleteCampaign_returns h₂ hm).bind ?_
  rintro _ c₃ ⟨h₃, hmoney⟩
  have hsame : c₃.db.money = c₁.db.money := hmoney.trans (money_of_desk hdesk)
  have hledger : c₃.db.creditLedgerEntries = c₁.db.creditLedgerEntries := congrArg Prod.fst hsame
  have haccounts : c₃.db.creditAccounts = c₁.db.creditAccounts := congrArg Prod.snd hsame
  obtain ⟨t, hentry⟩ := hentry
  exact returns_pure ⟨h₃, ⟨t, _, hledger.trans hentry⟩, haccounts.trans hpaid⟩

/-- A decision against the tester moves no credits. -/
theorem rejection_returns {resolution : String} (h : Settleable db i m d a k e x)
    (hready : Ready a.campaignId x.ownerId people ⟨db, [], n⟩) :
    Returns (applyRemedy d a m ⟨.rejected, .none, resolution⟩) now ⟨db, [], n⟩ fun _ c =>
      Ready a.campaignId x.ownerId people c ∧ c.db.money = db.money := by
  have hremedy : DisputeRemedy.none ≠ .awardTester := by decide
  unfold applyRemedy
  simp only [if_neg hremedy]
  split
  · unfold rejectOverdue
    have houtcome : ¬DisputeOutcome.rejected ≠ .rejected := not_not.mpr rfl
    simp only [Returns, alone_raiseIf_bind houtcome, h.submission, alone_orRaise_bind,
      alone_query_bind, h.he]
    refine (disputedSubmission_returns h.hof).bind ?_
    rintro _ _ rfl
    simp only [Returns, alone_utcnow_bind, alone_add_bind]
    exact returns_add ⟨(hready.add passes_submission).add passes_assignment, rfl⟩
  · exact returns_pure ⟨hready, rfl⟩

/-- The owner's rejection stands. -/
theorem upholding_returns {outcome : DisputeOutcome} {resolution : String}
    (hready : Ready a.campaignId x.ownerId people ⟨db, [], n⟩) (hs : a.status ≠ .submitted) :
    Returns (applyRemedy d a m ⟨outcome, .none, resolution⟩) now ⟨db, [], n⟩ fun _ c =>
      Ready a.campaignId x.ownerId people c ∧ c.db.money = db.money := by
  have hremedy : DisputeRemedy.none ≠ .awardTester := by decide
  unfold applyRemedy
  simp only [if_neg hremedy, if_neg hs]
  exact returns_pure ⟨hready, rfl⟩

/-- An overdue submission needs a verdict. -/
theorem resolveDispute_fails {resolution : String} (h : Settleable db i m d a k e x)
    (hs : a.status = .submitted) :
    (resolveDispute i m ⟨.resolved, .none, resolution⟩).commit.alone now db n
      = .error (.domain "An overdue submission must be approved or rejected" 422) := by
  have hremedy : DisputeRemedy.none ≠ .awardTester := by decide
  have houtcome : DisputeOutcome.resolved ≠ .rejected := by decide
  refine Fails.commit ?_
  unfold resolveDispute
  simp only [Fails, selectForUpdate, alone_queryForUpdate_bind, h.hd, alone_orRaise_bind,
    alone_raiseIf_bind (not_not.mpr h.underReview), alone_raiseIf_bind (not_not.mpr h.assigned),
    h.ha]
  refine Fails.bind ?_
  unfold applyRemedy
  simp only [if_neg hremedy, if_pos hs]
  exact (fails_raiseIf houtcome).bind

end Deciding

/-! ## In every reachable state -/

variable {settings : Settings} {s : Service} {i m : Uuid} {d : Dispute}

theorem settleable (h : Reachable settings s) (hd : s.db.disputes.get? i = some d)
    (hunder : d.status = .underReview) :
    ∃ m a k e c, Settleable s.db i m d a k e c ∧ c.status ≠ .draft ∧ d.openedBy = a.testerId := by
  obtain ⟨a, k, e, hcase⟩ := (caseInv_possible (reachable_possible h)).disputed i d hd
  have hphase := hcase.phase
  unfold Dispute.Phase at hphase
  rw [hunder] at hphase
  obtain ⟨m, hm⟩ := Option.ne_none_iff_exists'.mp hphase.1
  obtain ⟨c, hc, hdraft, -⟩ :=
    (ledgerInv_possible (reachable_possible h)).assigned d.assignmentId a hcase.ha
  exact ⟨m, a, k, e, c, ⟨hd, hunder, hm, hcase.ha, hcase.submission, hcase.he, hcase.hof, hc,
    hphase.2.2.2⟩, hdraft, hcase.openedBy⟩

/-- The people concerned have profiles, and nothing is queued. -/
theorem ready_service (h : Reachable settings s) {a : Assignment} {k : Uuid}
    {e : EvidenceSubmission} {c : Campaign} (hs : Settleable s.db i m d a k e c)
    (hdraft : c.status ≠ .draft) (hopened : d.openedBy = a.testerId) :
    Ready a.campaignId c.ownerId [a.testerId, c.ownerId, m] ⟨s.db, [], s.nextId⟩ := by
  obtain ⟨htester, hmoderator⟩ := dispute_knows h hs.hd
  refine calm_start ⟨?_, numbered_reachable h, ?_⟩
  · intro u hu
    simp only [List.mem_cons, List.not_mem_nil, or_false] at hu
    rcases hu with rfl | rfl | rfl
    · rw [← hopened]
      exact htester
    · exact owner_knows h hs.hc hdraft
    · exact hmoderator u hs.assigned
  · show (s.db.campaigns.get? a.campaignId).map (·.ownerId) = some c.ownerId
    rw [hs.hc]
    rfl

/-- Work that is not approved has not been rewarded. -/
theorem unrewarded (h : Reachable settings s) {id : Uuid} {a : Assignment}
    (ha : s.db.assignments.get? id = some a) (hs : a.status ≠ .approved) :
    ∀ f ∈ s.db.creditLedgerEntries, f.idempotencyKey ≠ idempotencyKey "assignment" id "reward" := by
  intro f hf hkey
  obtain ⟨o, ho⟩ := (ledgerInv_possible (reachable_possible h)).explained f hf
  obtain rfl : o = .reward id := Occasion.key_inj (ho.key.symm.trans hkey)
  obtain ⟨a', ha', happroved⟩ := ho.occurs
  obtain rfl := Option.some.inj (ha.symm.trans ha')
  exact hs happroved

/-- The tester is paid the reward: a new entry, and the balance goes up by it. -/
structure Pays (db db' : Db) (assignmentId : Uuid) (a : Assignment) (c : Campaign) : Prop where
  entry : ∃ e, db'.creditLedgerEntries = db.creditLedgerEntries ++ [e] ∧ e.entryType = .reward
    ∧ e.userId = a.testerId ∧ e.delta = (c.rewardCredits : Int) ∧ e.referenceId = some assignmentId
  balance : db'.exchange.balance a.testerId = db.exchange.balance a.testerId + c.rewardCredits

theorem Rewarded.pays {db db' : Db} {id : Uuid} {a : Assignment} {c : Campaign}
    (h : Rewarded db id a c m db'.money) : Pays db db' id a c := by
  obtain ⟨⟨t, note, hentry⟩, haccounts⟩ := h
  have haccounts : db'.creditAccounts = _ := haccounts
  refine ⟨⟨_, hentry, rfl, rfl, rfl, rfl⟩, ?_⟩
  have hbalance := @balance_enter db.exchange (rewardEntry id a c note m) t a.testerId
  rw [if_pos (show (rewardEntry id a c note m).userId = a.testerId from rfl)] at hbalance
  refine Eq.trans ?_ hbalance
  show (db'.creditAccounts.get? a.testerId).elim 0 (·.balance) = _
  rw [haccounts]
  rfl

/--
**A claimed dispute can always be settled.** Its moderator can award the tester,
who is paid a positive reward by a new entry, and can reject the dispute; to let
the owner's decision stand is possible exactly if there is one, and otherwise
refused for that reason.
-/
theorem claimed_settles (settings : Settings) (s : Service) (h : Reachable settings s)
    (now : Time) (i : Uuid) (d : Dispute) (hd : s.db.disputes.get? i = some d)
    (hunder : d.status = .underReview) :
    ∃ m a c, d.assignedTo = some m ∧ s.db.Works d.assignmentId a c ∧ 0 < c.rewardCredits
      ∧ ∀ resolution,
        (∃ r db n, (resolveDispute i m ⟨.resolved, .awardTester, resolution⟩).commit.alone now s.db
            s.nextId = .ok (r, db, n) ∧ Pays s.db db d.assignmentId a c)
        ∧ (∃ r db n, (resolveDispute i m ⟨.rejected, .none, resolution⟩).commit.alone now s.db
            s.nextId = .ok (r, db, n))
        ∧ ((∃ r db n, (resolveDispute i m ⟨.resolved, .none, resolution⟩).commit.alone now s.db
            s.nextId = .ok (r, db, n)) ↔ a.status = .rejected)
        ∧ (a.status ≠ .rejected →
            (resolveDispute i m ⟨.resolved, .none, resolution⟩).commit.alone now s.db s.nextId
              = .error (.domain "An overdue submission must be approved or rejected" 422)) := by
  obtain ⟨m, a, k, e, c, hs, hdraft, hopened⟩ := settleable h hd hunder
  have hpositive := (terms_positive h hs.hc hdraft).2
  have hready := ready_service h hs hdraft hopened
  have htester : a.testerId ∈ [a.testerId, c.ownerId, m] := by simp
  have howner : c.ownerId ∈ [a.testerId, c.ownerId, m] := by simp
  have hmoderator : m ∈ [a.testerId, c.ownerId, m] := by simp
  have hopen : a.status ≠ .approved := by
    rcases hs.escalated with hst | hst <;> simp [hst.1]
  refine ⟨m, a, c, hs.assigned, ⟨hs.ha, hs.hc⟩, hpositive, fun resolution => ⟨?_, ?_, ?_, ?_⟩⟩
  · have hsolvent := (ledgerInv_possible (reachable_possible h)).booked.solvent a.testerId
    obtain ⟨r, db, n, hok, hpays⟩ := resolveDispute_returns
      (P := Rewarded s.db d.assignmentId a c m) hs hmoderator htester howner
      (award_returns hs hready hmoderator htester hpositive (unrewarded h hs.ha hopen) hsolvent)
    exact ⟨r, db, n, hok, hpays.pays⟩
  · obtain ⟨r, db, n, hok, -⟩ := resolveDispute_returns (P := fun money => money = s.db.money) hs
      hmoderator htester howner (rejection_returns hs hready)
    exact ⟨r, db, n, hok⟩
  · constructor
    · intro ⟨r, db, n, hok⟩
      rcases hs.escalated with hst | hst
      · rw [resolveDispute_fails hs hst.1] at hok
        exact absurd hok (by simp)
      · exact hst.1
    · intro hrejected
      obtain ⟨r, db, n, hok, -⟩ := resolveDispute_returns (P := fun money => money = s.db.money)
        hs hmoderator htester howner (upholding_returns hready (by simp [hrejected]))
      exact ⟨r, db, n, hok⟩
  · intro hne
    rcases hs.escalated with hst | hst
    · exact resolveDispute_fails hs hst.1
    · exact absurd hst.1 hne

/-- The moderator has claimed the dispute, number 27, about the rejected assignment, number 8. -/
def claimedService : Service :=
  Service.init.run benchSettings (benchLaunch ++ benchTests ++ benchDispute.take 2)

theorem claimed_settles_bench :
    ∃ d m a c, claimedService.db.disputes.get? 27 = some d ∧ d.assignedTo = some m
      ∧ claimedService.db.Works d.assignmentId a c
      ∧ ∃ r db n, (resolveDispute 27 m ⟨.resolved, .awardTester, "The bench is there"⟩).commit.alone 0
          claimedService.db claimedService.nextId = .ok (r, db, n)
        ∧ Pays claimedService.db db d.assignmentId a c := by
  have hstatus : (claimedService.db.disputes.get? 27).map (·.status) = some .underReview := by
    decide +kernel
  obtain ⟨d, hd, hunder⟩ := Option.map_eq_some_iff.mp hstatus
  obtain ⟨m, a, c, hm, hworks, -, hsettles⟩ :=
    claimed_settles benchSettings claimedService (reachable_run .init _) 0 27 d hd hunder
  exact ⟨d, m, a, c, hd, hm, hworks, (hsettles "The bench is there").1⟩

end TestExchange
