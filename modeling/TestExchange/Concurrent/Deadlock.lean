import TestExchange.Proof.Lifecycle
import TestExchange.Txn.Deadlock

/-!
# Who waits for whom

The ten operations that decide about assignments, submissions, campaigns and
disputes lock the rows they are going to rely on. All but two take them in one
order: dispute, assignment, submission, campaign, credit account. Accepting an
application and closing a campaign take the campaign first and the assignments
after it. Unless one of these has to wait for an assignment that is held by an
operation that goes on to the campaign and needs a row itself, nobody ever waits in
a circle.
-/

namespace TestExchange

open Txn Txn.Session Txn.World

/-- The operations that lock rows before they decide. -/
inductive LockingRequest where
  | accept (assignmentId ownerId : Uuid)
  | decline (assignmentId ownerId : Uuid)
  | withdraw (assignmentId testerId : Uuid)
  | submit (assignmentId testerId : Uuid) (payload : SubmissionCreate)
  | review (submissionId reviewerId : Uuid) (payload : ReviewCreate)
  | dispute (assignmentId openedBy : Uuid) (payload : DisputeCreate)
  | claim (disputeId moderatorId : Uuid)
  | resolve (disputeId moderatorId : Uuid) (payload : DisputeResolve)
  | publish (campaignId ownerId : Uuid)
  | transition (campaignId ownerId : Uuid) (action : TransitionAction)

/-- The service behind each of them. -/
def LockingRequest.service : LockingRequest → Session Unit
  | .accept assignmentId ownerId => discard (acceptAssignment assignmentId ownerId)
  | .decline assignmentId ownerId => discard (declineAssignment assignmentId ownerId)
  | .withdraw assignmentId testerId => discard (withdrawAssignment assignmentId testerId)
  | .submit assignmentId testerId payload =>
      discard (createSubmission assignmentId testerId payload)
  | .review submissionId reviewerId payload =>
      discard (createReview submissionId reviewerId payload)
  | .dispute assignmentId openedBy payload =>
      discard (openDispute assignmentId openedBy payload)
  | .claim disputeId moderatorId => discard (claimDispute disputeId moderatorId)
  | .resolve disputeId moderatorId payload =>
      discard (resolveDispute disputeId moderatorId payload)
  | .publish campaignId ownerId => discard (publishCampaign campaignId ownerId)
  | .transition campaignId ownerId action => discard (transitionCampaign campaignId ownerId action)

/-- Its transaction. -/
def LockingRequest.program (request : LockingRequest) : Program Db Lock Failure Unit :=
  request.service.commit

/-- What happens in the database while these operations run. -/
abbrev LockingWorld := World Db Lock Failure LockingRequest

/-- It locks assignments of a campaign it has locked. -/
def LockingRequest.campaignFirst : LockingRequest → Bool
  | .accept _ _ => true
  | .transition _ _ .close => true
  | _ => false

/-- It locks the campaign of an assignment it has locked. -/
def LockingRequest.assignmentFirst : LockingRequest → Bool
  | .withdraw _ _ => true
  | .review _ _ _ => true
  | .resolve _ _ payload => payload.remedy = .awardTester
  | _ => false

/--
Transaction `i` has its campaign and needs an assignment; `j` has that, and on its
way to the campaign it needs another row itself.
-/
def Crossed (w : LockingWorld) (i j : Nat) : Prop :=
  ∃ t u id l, w.txs.get? i = some t ∧ t.request.campaignFirst = true
    ∧ t.asks w.db = some (.assignment id) ∧ w.txs.get? j = some u
    ∧ u.request.assignmentFirst = true ∧ .assignment id ∈ u.locks ∧ u.asks w.db = some l

/-! ## The order -/

/-- Where the rows that are locked by reading come in the order. -/
def Lock.rank : Lock → Nat
  | .dispute _ => 1
  | .assignment _ => 2
  | .evidenceSubmission _ => 3
  | .campaign _ => 4
  | .creditAccount _ => 5
  | _ => 0

/-- Every assignment belongs to the campaign that `home` says. -/
def Homes (home : Uuid → Option Uuid) (db : Db) : Prop :=
  ∀ id a, db.assignments.get? id = some a → home id = some a.campaignId

/-- The locking reads of the ten operations. -/
inductive Asking (home : Uuid → Option Uuid) (r : LockingRequest) (held : List Lock)
    (rows : Db → List Lock) : Prop where
  /-- One row that comes after all that is held. -/
  | next (l : Lock) (hrows : ∀ db, ∀ m ∈ rows db, m = l) (hheld : ∀ m ∈ held, m.rank < l.rank)
      (hfree : r.assignmentFirst = false → ∀ id, .assignment id ∉ held)
  /-- Assignments of a campaign that is held. -/
  | back (c : Uuid) (hr : r.campaignFirst = true) (hc : .campaign c ∈ held)
      (hfree : ∀ id, .assignment id ∉ held)
      (hrows : ∀ db, Homes home db → ∀ m ∈ rows db, ∃ id, m = .assignment id ∧ home id = some c)

variable {home : Uuid → Option Uuid} {w : LockingWorld} {i j k : Nat}

section Circles

variable {t u : Tx Db Lock Failure LockingRequest} {l l' : Lock}

/-- Whoever asks for the next row holds all his rows since earlier statements. -/
theorem held_of_next {rows : Db → List Lock} (hrows : ∀ db, ∀ m ∈ rows db, m = l')
    (hmissing : l' ∉ t.locks) (htaken : Taken (Homes home) rows t.taken) (hl : l ∈ t.locks) :
    l ∈ t.held := by
  rcases List.mem_append.mp hl with hl' | hl'
  · obtain ⟨db, -, hmem⟩ := htaken l hl'
    rw [hrows db l hmem] at hl
    exact absurd hl hmissing
  · exact hl'

/-- Nobody in a circle asks for assignments of a campaign he holds. -/
theorem not_back (hw : w.Disciplined (Homes home) (Asking home))
    (hexclusive : ∀ i j t u l, w.txs.get? i = some t → w.txs.get? j = some u → l ∈ t.locks →
      l ∈ u.locks → i = j)
    (hclear : ∀ i j, ¬Crossed w i j) {c id : Uuid} (ht : w.txs.get? i = some t)
    (hfirst : t.request.campaignFirst = true) (hc : .campaign c ∈ t.locks)
    (hasks : t.asks w.db = some (.assignment id)) (hhome : home id = some c)
    (hij : w.waitsFor i j = true) (hjk : w.waitsFor j k = true) : False := by
  obtain ⟨t', u, l, ht', hl, hu, hne, hlu⟩ := waitsFor_iff.mp hij
  obtain rfl := Option.some.inj (ht.symm.trans ht')
  obtain rfl := Option.some.inj (hasks.symm.trans hl)
  obtain ⟨u', _, l', hu', hl', _, _, _⟩ := waitsFor_iff.mp hjk
  obtain rfl := Option.some.inj (hu.symm.trans hu')
  obtain ⟨rows, hasking, hmem, hmissing, htaken⟩ := hw.asking hu hl'
  cases hasking with
  | next m hrows hheld hfree =>
      obtain rfl := hrows _ _ hmem
      have hin := held_of_next hrows hmissing htaken hlu
      cases hkind : u.request.assignmentFirst with
      | false => exact hfree hkind id hin
      | true => exact hclear i j ⟨t, u, id, l', ht, hfirst, hasks, hu, hkind, hlu, hl'⟩
  | back c' hr hc' hfree hrows =>
      rcases List.mem_append.mp hlu with hin | hin
      · obtain ⟨db, hdb, hrow⟩ := htaken _ hin
        obtain ⟨id', heq, hhome'⟩ := hrows db hdb _ hrow
        obtain rfl := Lock.assignment.inj heq
        obtain rfl := Option.some.inj (hhome.symm.trans hhome')
        exact hne (hexclusive i j t u _ ht hu hc (List.mem_append_right _ hc'))
      · exact hfree id hin

/-- **No circle** in a world in which everybody keeps to the order and nobody is crossed. -/
theorem not_deadlocked_of_clear (hw : w.Disciplined (Homes home) (Asking home))
    (hexclusive : ∀ i j t u l, w.txs.get? i = some t → w.txs.get? j = some u → l ∈ t.locks →
      l ∈ u.locks → i = j)
    (hclear : ∀ i j, ¬Crossed w i j) : ¬w.Deadlocked := by
  refine not_deadlocked (fun i => ((w.txs.get? i).bind (·.asks w.db)).elim 0 Lock.rank) ?_
  intro i j k m hij hjk hkm
  obtain ⟨t, u, l, ht, hl, hu, _, hlu⟩ := waitsFor_iff.mp hij
  obtain ⟨u', _, l', hu', hl', _, _, _⟩ := waitsFor_iff.mp hjk
  obtain rfl := Option.some.inj (hu.symm.trans hu')
  obtain ⟨rows, hasking, hmem, hmissing, htaken⟩ := hw.asking hu hl'
  simp only [ht, hl, hu, hl', Option.bind_some, Option.elim_some]
  cases hasking with
  | next m hrows hheld hfree =>
      obtain rfl := hrows _ _ hmem
      exact hheld l (held_of_next hrows hmissing htaken hlu)
  | back c hr hc hfree hrows =>
      obtain ⟨id, rfl, hhome⟩ := hrows _ ((hw.txs j u hu).view hw.db) _ hmem
      exact (not_back hw hexclusive hclear hu hr (List.mem_append_right _ hc) hl' hhome hjk hkm).elim

end Circles

/-! ## What the operations write -/

/-- A write that moves no assignment to another campaign. -/
def KeepsHomes (home : Uuid → Option Uuid) (w : Write) : Prop :=
  ∀ db, Homes home db → Homes home (w.effect db)

/-- It also leaves credit accounts alone. -/
def Cheap (home : Uuid → Option Uuid) (w : Write) : Prop :=
  KeepsHomes home w ∧ ∀ db, ∀ l ∈ w.rows db, l.rank < 5

theorem keepsHomes_of_eq {w : Write} (h : ∀ db : Db, (w.effect db).assignments = db.assignments) :
    KeepsHomes home w := by
  intro db hdb id a ha
  rw [h db] at ha
  exact hdb id a ha

theorem keepsHomes_assignment {id : Uuid} {f : Assignment → Assignment}
    (hf : ∀ a, (f a).campaignId = a.campaignId) : KeepsHomes home (writeAssignment id f) := by
  intro db hdb i a ha
  rcases Table.get?_modify_cases ha with ⟨rfl, b, hb, rfl⟩ | ⟨_, hb⟩
  · rw [hf b]
    exact hdb i b hb
  · exact hdb i a hb

section Helpers

theorem plain_event {actorId : Option Uuid} {action entityType : String} {id : Uuid}
    {details : List (String × Json)} :
    Plain (KeepsHomes home) (addAuditEvent actorId action entityType id details) :=
  plain_add (keepsHomes_of_eq fun _ => rfl)

theorem plain_notification {n : Notification} : Plain (KeepsHomes home) (addNotification n) := by
  refine plain_query.bind fun existing => ?_
  cases existing with
  | some _ => exact plain_pure
  | none =>
      exact plain_uuid4.bind fun _ => (plain_add (keepsHomes_of_eq fun _ => rfl)).bind fun _ =>
        plain_flush

theorem plain_complete {id actorId : Uuid} {campaign : Campaign} :
    Plain (KeepsHomes home) (maybeCompleteCampaign id campaign actorId) := by
  refine plain_query.bind fun _ => Plain.bind ?_ fun _ => ?_
  · unfold closedWorkSettled
    split
    · exact plain_query.bind fun _ => plain_query.bind fun _ => plain_pure
    · exact plain_pure
  · split
    · exact (plain_add (keepsHomes_of_eq fun _ => rfl)).bind fun _ => plain_event.bind fun _ =>
        plain_pure
    · exact plain_pure

theorem plain_account {W : Write → Prop} {u : Uuid} (h : W (insertCreditAccount u ⟨0⟩)) :
    Plain W (ensureCreditAccount u) := by
  refine plain_query.bind fun existing => ?_
  cases existing with
  | some _ => exact plain_pure
  | none => exact (plain_add h).bind fun _ => plain_flush.bind fun _ => plain_pure

theorem plain_campaign {W : Write → Prop} {id : Uuid} : Plain W (getCampaign id) :=
  plain_query.bind fun _ => plain_orRaise

theorem plain_contract {W : Write → Prop} {a : Assignment} : Plain W (contractForAssignment a) :=
  plain_query.bind fun _ => plain_orRaise.bind fun _ => plain_query.bind fun _ => plain_pure

theorem plain_checkItems {W : Write → Prop} {id : Uuid} {items : List EvidenceItemCreate} :
    Plain W (checkItems id items) := by
  induction items with
  | nil => exact plain_pure
  | cons item items ih =>
      refine plain_raiseIf.bind fun _ => ?_
      split
      · exact ih
      · exact plain_raiseIf.bind fun _ => ih

theorem plain_addItems {submissionId : Uuid} {items : List EvidenceItemCreate} :
    Plain (KeepsHomes home) (addItems submissionId items) := by
  induction items with
  | nil => exact plain_pure
  | cons item items ih =>
      exact plain_uuid4.bind fun _ => (plain_add (keepsHomes_of_eq fun _ => rfl)).bind fun _ => ih

theorem plain_declinePending {campaign : Campaign} {ownerId : Uuid} {now : Time}
    {rest : List (Uuid × Assignment)} :
    Plain (KeepsHomes home) (declinePending campaign ownerId now rest) := by
  induction rest with
  | nil => exact plain_pure
  | cons r rest ih =>
      refine Plain.bind (plain_add (keepsHomes_assignment ?_)) fun _ => plain_event.bind fun _ =>
        plain_notification.bind fun _ => ih
      exact fun _ => rfl

theorem plain_checkEscalation {W : Write → Prop} {a : Assignment} {e : EvidenceSubmission} :
    Plain W (checkEscalation a e) := by
  unfold checkEscalation
  split
  · exact plain_raiseIf.bind fun _ => plain_contract.bind fun _ => plain_utcnow.bind fun _ =>
      plain_raiseIf
  · exact plain_raiseIf

theorem plain_rejectOverdue {d : Dispute} {payload : DisputeResolve} :
    Plain (KeepsHomes home) (rejectOverdue d payload) := by
  refine plain_raiseIf.bind fun _ => plain_orRaise.bind fun _ => plain_query.bind fun _ =>
    Plain.bind ?_ fun _ => plain_utcnow.bind fun _ => ?_
  · exact plain_orRaise.bind fun _ => plain_raiseIf.bind fun _ => plain_pure
  · exact (plain_add (keepsHomes_of_eq fun _ => rfl)).bind fun _ =>
      plain_add (keepsHomes_assignment fun _ => rfl)

end Helpers

/-! ## What the operations lock -/

section Locks

variable {r : LockingRequest} {ws : List Write} {held : List Lock}

/-- From here on no row is locked by reading. -/
theorem obeys_rest {α : Type} {m : Session α} (h : Plain (KeepsHomes home) m)
    (hws : ∀ w ∈ ws, KeepsHomes home w) :
    obeys (Homes home) (Asking home r) m
      (fun _ => obeys (Homes home) (Asking home r) flush fun _ _ _ => True) ws held := by
  refine obeys_plain (B := fun _ => True) h (fun _ hw => hw) (fun _ _ _ _ _ => trivial) hws
    (fun _ _ => trivial) fun _ vs held' hvs _ => ?_
  exact obeys_plain (B := fun _ => True) plain_flush (fun _ hw => hw) (fun _ _ _ _ _ => trivial) hvs
    (fun _ _ => trivial) fun _ _ _ _ _ => trivial

/-- A row that is locked and has to be there. -/
theorem obeys_selectForUpdate {α : Type} {table : Db → Table α} {lock : Uuid → Lock} {id : Uuid}
    {error : Failure} {post : α → List Write → List Lock → Prop}
    (hD : Asking home r held fun db => if (table db).contains id then [lock id] else [])
    (hpost : ∀ db a held', Homes home db → (table db).get? id = some a → lock id ∈ held' →
      (∀ m ∈ held', m = lock id ∨ m ∈ held) → (∀ m ∈ held, m ∈ held') → post a ws held') :
    obeys (Homes home) (Asking home r) (selectForUpdate table lock id)
      (fun found => obeys (Homes home) (Asking home r) (orRaise error found) post) ws held := by
  refine obeys_lockRow (l := lock id) ?_ ?_ hD hpost
  · intro db _ a ha
    exact if_pos (Table.contains_eq_true.mpr ⟨a, ha⟩)
  · intro db m hm
    split at hm
    · exact List.mem_singleton.mp hm
    · exact absurd hm (by simp)

theorem asking_next {α : Type} {table : Db → Table α} {lock : Uuid → Lock} {id : Uuid}
    (hheld : ∀ m ∈ held, m.rank < (lock id).rank)
    (hfree : r.assignmentFirst = false → ∀ id, .assignment id ∉ held) :
    Asking home r held fun db => if (table db).contains id then [lock id] else [] := by
  refine .next (lock id) (fun db m hm => ?_) hheld hfree
  split at hm
  · exact List.mem_singleton.mp hm
  · exact absurd hm (by simp)

/-- A row that comes next in the order, as long as it is no later than the assignment. -/
theorem obeys_climb {α : Type} {table : Db → Table α} {lock : Uuid → Lock} {id : Uuid}
    {error : Failure} {post : α → List Write → List Lock → Prop}
    (hheld : ∀ m ∈ held, m.rank < (lock id).rank)
    (hfree : r.assignmentFirst = true ∨ (lock id).rank ≤ 2)
    (hpost : ∀ a held', (∀ m ∈ held', m.rank < (lock id).rank + 1) → post a ws held') :
    obeys (Homes home) (Asking home r) (selectForUpdate table lock id)
      (fun found => obeys (Homes home) (Asking home r) (orRaise error found) post) ws held := by
  refine obeys_selectForUpdate (asking_next hheld ?_) fun _ a held' _ _ _ hheld' _ =>
    hpost a held' fun m hm => ?_
  · intro hr i hi
    rcases hfree with hfirst | hle
    · exact absurd (hfirst.symm.trans hr) (by simp)
    · have hlt : 2 < (lock id).rank := hheld _ hi
      omega
  · rcases hheld' m hm with rfl | hm
    · exact Nat.lt_succ_self _
    · exact Nat.lt_succ_of_lt (hheld m hm)

/-- A credit change locks the account, which comes last. -/
theorem obeys_recordCreditEntry {change : CreditChange}
    {post : CreditLedgerEntry → List Write → List Lock → Prop}
    (hheld : ∀ m ∈ held, m.rank < 5)
    (hfree : r.assignmentFirst = false → ∀ id, .assignment id ∉ held)
    (hws : ∀ w ∈ ws, KeepsHomes home w)
    (hpost : ∀ e vs held', (∀ w ∈ vs, KeepsHomes home w) → post e vs held') :
    obeys (Homes home) (Asking home r) (recordCreditEntry change) post ws held := by
  unfold recordCreditEntry
  rw [obeys_bind, obeys_query]
  intro db _
  cases db.creditLedgerEntries.find? fun e => e.idempotencyKey = change.idempotencyKey with
  | some e => exact hpost e ws held hws
  | none =>
      rw [obeys_bind, obeys_raiseIf]
      intro _
      rw [obeys_bind]
      unfold getCreditAccountForUpdate
      rw [obeys_bind, selectForUpdate, obeys_queryForUpdate]
      refine ⟨asking_next hheld hfree, fun db taken _ _ _ => ?_⟩
      refine obeys_plain (W := KeepsHomes home) (B := fun _ => True) ?_ (fun _ hw => hw)
        (fun _ _ _ _ _ => trivial) hws (fun _ _ => trivial) fun account vs held' hvs _ => ?_
      · split
        · exact plain_pure
        · exact plain_account (keepsHomes_of_eq fun _ => rfl)
      refine obeys_plain (W := KeepsHomes home) (B := fun _ => True) ?_ (fun _ hw => hw)
        (fun _ _ _ _ _ => trivial) hvs (fun _ _ => trivial) fun e vs held' hvs _ => hpost e vs held' hvs
      exact plain_raiseIf.bind fun _ => (plain_add (keepsHomes_of_eq fun _ => rfl)).bind fun _ =>
        plain_uuid4.bind fun _ => (plain_add (keepsHomes_of_eq fun _ => rfl)).bind fun _ =>
        plain_flush.bind fun _ => plain_pure

theorem obeys_discard {α : Type} {m : Session α}
    (h : obeys (Homes home) (Asking home r) m
      (fun _ => obeys (Homes home) (Asking home r) flush fun _ _ _ => True) ws held) :
    obeys (Homes home) (Asking home r) (discard m)
      (fun _ => obeys (Homes home) (Asking home r) flush fun _ _ _ => True) ws held := by
  unfold discard
  rw [obeys_bind]
  exact h

/-! ### One operation each -/

variable {id userId : Uuid}

theorem declineAssignment_obeys :
    obeys (Homes home) (Asking home r) (declineAssignment id userId)
      (fun _ => obeys (Homes home) (Asking home r) flush fun _ _ _ => True) [] [] := by
  unfold declineAssignment
  rw [obeys_bind]
  simp only [obeys_bind (m := orRaise _ _)]
  refine obeys_climb (by simp) (Or.inr (Nat.le_refl 2)) fun a held _ => ?_
  refine obeys_rest ?_ (by simp)
  refine plain_campaign.bind fun _ => plain_raiseIf.bind fun _ => plain_raiseIf.bind fun _ =>
    plain_utcnow.bind fun _ => Plain.bind (plain_add (keepsHomes_assignment ?_)) fun _ =>
    plain_event.bind fun _ => plain_notification.bind fun _ => plain_flush.bind fun _ => plain_pure
  exact fun _ => rfl

theorem createSubmission_obeys {payload : SubmissionCreate} :
    obeys (Homes home) (Asking home r) (createSubmission id userId payload)
      (fun _ => obeys (Homes home) (Asking home r) flush fun _ _ _ => True) [] [] := by
  unfold createSubmission
  rw [obeys_bind]
  simp only [obeys_bind (m := orRaise _ _)]
  refine obeys_climb (by simp) (Or.inr (Nat.le_refl 2)) fun a held _ => ?_
  refine obeys_rest ?_ (by simp)
  refine plain_raiseIf.bind fun _ => plain_raiseIf.bind fun _ => plain_contract.bind fun _ =>
    plain_utcnow.bind fun _ => plain_orRaise.bind fun _ => plain_raiseIf.bind fun _ =>
    plain_query.bind fun _ => plain_raiseIf.bind fun _ => plain_raiseIf.bind fun _ =>
    plain_raiseIf.bind fun _ => plain_checkItems.bind fun _ => plain_query.bind fun _ =>
    plain_uuid4.bind fun _ => plain_utcnow.bind fun _ => ?_
  refine (plain_add (keepsHomes_of_eq fun _ => rfl)).bind fun _ => plain_flush.bind fun _ =>
    plain_addItems.bind fun _ => plain_utcnow.bind fun _ =>
    Plain.bind (plain_add (keepsHomes_assignment ?_)) fun _ => plain_event.bind fun _ =>
    plain_campaign.bind fun _ => plain_query.bind fun _ => plain_notification.bind fun _ =>
    plain_flush.bind fun _ => plain_pure
  exact fun _ => rfl

theorem openDispute_obeys {payload : DisputeCreate} :
    obeys (Homes home) (Asking home r) (openDispute id userId payload)
      (fun _ => obeys (Homes home) (Asking home r) flush fun _ _ _ => True) [] [] := by
  unfold openDispute
  rw [obeys_bind]
  simp only [obeys_bind (m := orRaise _ _)]
  refine obeys_climb (by simp) (Or.inr (Nat.le_refl 2)) fun a held _ => ?_
  refine obeys_rest ?_ (by simp)
  refine Plain.bind (plain_campaign.bind fun _ => plain_raiseIf.bind fun _ => plain_pure) fun _ =>
    plain_raiseIf.bind fun _ => plain_raiseIf.bind fun _ => plain_orRaise.bind fun _ =>
    plain_query.bind fun _ => plain_orRaise.bind fun _ => plain_raiseIf.bind fun _ =>
    plain_checkEscalation.bind fun _ => plain_query.bind fun _ => plain_raiseIf.bind fun _ =>
    plain_uuid4.bind fun _ => ?_
  exact (plain_add (keepsHomes_of_eq fun _ => rfl)).bind fun _ => plain_flush.bind fun _ =>
    plain_event.bind fun _ => plain_campaign.bind fun _ => plain_notification.bind fun _ =>
    plain_pure

theorem claimDispute_obeys :
    obeys (Homes home) (Asking home r) (claimDispute id userId)
      (fun _ => obeys (Homes home) (Asking home r) flush fun _ _ _ => True) [] [] := by
  unfold claimDispute
  rw [obeys_bind]
  simp only [obeys_bind (m := orRaise _ _)]
  refine obeys_climb (by simp) (Or.inr (Nat.le_succ 1)) fun d held _ => ?_
  refine obeys_rest ?_ (by simp)
  split
  · exact plain_raiseIf.bind fun _ => plain_pure
  · exact plain_raiseIf.bind fun _ => plain_utcnow.bind fun _ =>
      (plain_add (keepsHomes_of_eq fun _ => rfl)).bind fun _ => plain_event.bind fun _ =>
      plain_flush.bind fun _ => plain_pure

/-- The assignment and then its campaign. -/
theorem withdrawAssignment_obeys (hr : r.assignmentFirst = true) :
    obeys (Homes home) (Asking home r) (withdrawAssignment id userId)
      (fun _ => obeys (Homes home) (Asking home r) flush fun _ _ _ => True) [] [] := by
  unfold withdrawAssignment
  rw [obeys_bind]
  simp only [obeys_bind (m := orRaise _ _)]
  refine obeys_climb (by simp) (Or.inl hr) fun a held hheld => ?_
  rw [obeys_bind, obeys_raiseIf]
  intro _
  rw [obeys_bind, obeys_raiseIf]
  intro _
  rw [obeys_bind]
  simp only [obeys_bind (m := orRaise _ _)]
  refine obeys_climb ?_ (Or.inl hr) fun x held' _ => ?_
  · exact fun m hm => Nat.lt_succ_of_lt (hheld m hm)
  refine obeys_rest ?_ (by simp)
  refine plain_utcnow.bind fun _ => Plain.bind (plain_add (keepsHomes_assignment ?_)) fun _ =>
    plain_event.bind fun _ => plain_query.bind fun _ => plain_notification.bind fun _ =>
    plain_complete.bind fun _ => plain_flush.bind fun _ => plain_pure
  exact fun _ => rfl

/-- The campaign and then the assignment. -/
theorem acceptAssignment_obeys (hr : r.campaignFirst = true) :
    obeys (Homes home) (Asking home r) (acceptAssignment id userId)
      (fun _ => obeys (Homes home) (Asking home r) flush fun _ _ _ => True) [] [] := by
  unfold acceptAssignment
  rw [obeys_bind, obeys_query]
  intro db hdb
  rw [obeys_bind, obeys_orRaise]
  intro c hc
  obtain ⟨a, ha, rfl⟩ := Option.map_eq_some_iff.mp hc
  rw [obeys_bind]
  simp only [obeys_bind (m := orRaise _ _)]
  refine obeys_selectForUpdate (asking_next (by simp) (by simp)) fun _ x held _ _ hin hheld _ => ?_
  rw [obeys_bind, requireCampaignOwner, obeys_raiseIf]
  intro _
  rw [obeys_bind, obeys_raiseIf]
  intro _
  rw [obeys_bind]
  simp only [obeys_bind (m := orRaise _ _)]
  refine obeys_selectForUpdate (.back a.campaignId hr hin ?_ ?_) fun _ b held' _ _ _ _ _ => ?_
  · intro i hi
    rcases hheld _ hi with heq | hm
    · exact absurd heq (by simp)
    · exact absurd hm (by simp)
  · intro db' _ m hm
    split at hm
    · exact ⟨id, List.mem_singleton.mp hm, hdb id a ha⟩
    · exact absurd hm (by simp)
  refine obeys_rest ?_ (by simp)
  refine plain_raiseIf.bind fun _ => plain_query.bind fun _ => plain_raiseIf.bind fun _ =>
    plain_utcnow.bind fun _ => Plain.bind (plain_add (keepsHomes_assignment ?_)) fun _ =>
    plain_event.bind fun _ => plain_notification.bind fun _ => plain_flush.bind fun _ => plain_pure
  exact fun _ => rfl

theorem publishCampaign_obeys :
    obeys (Homes home) (Asking home r) (publishCampaign id userId)
      (fun _ => obeys (Homes home) (Asking home r) flush fun _ _ _ => True) [] [] := by
  unfold publishCampaign
  rw [obeys_bind]
  simp only [obeys_bind (m := orRaise _ _)]
  refine obeys_selectForUpdate (asking_next (by simp) (by simp)) fun _ x held _ _ _ hheld _ => ?_
  have hcampaign : ∀ m ∈ held, m = .campaign id := by
    intro m hm
    exact (hheld m hm).resolve_right (by simp)
  rw [obeys_bind, requireCampaignOwner, obeys_raiseIf]
  intro _
  split
  · exact obeys_rest plain_pure (by simp)
  rw [obeys_bind, obeys_raiseIf]
  intro _
  rw [obeys_bind]
  have hreads : Plain (fun _ : Write => False) (getContract id) :=
    plain_query.bind fun _ => plain_orRaise.bind fun _ => plain_query.bind fun _ => plain_pure
  refine obeys_plain hreads (fun _ hw => hw.elim) (fun _ hw => hw.elim) (by simp) hcampaign
    fun contract vs held' hvs hheld' => ?_
  rw [obeys_bind, obeys_raiseIf]
  intro _
  rw [obeys_bind]
  refine obeys_recordCreditEntry ?_ ?_ (fun w hw => (hvs w hw).elim) fun _ vs held' hvs => ?_
  · intro m hm
    rw [hheld' m hm]
    simp [Lock.rank]
  · intro _ i hi
    exact absurd (hheld' _ hi) (by simp)
  refine obeys_rest ?_ hvs
  exact plain_utcnow.bind fun _ => (plain_add (keepsHomes_of_eq fun _ => rfl)).bind fun _ =>
    (plain_add (keepsHomes_of_eq fun _ => rfl)).bind fun _ => plain_event.bind fun _ =>
    plain_flush.bind fun _ => plain_pure

/-- What follows the lock on the campaign; closing also locks the pending assignments. -/
theorem performTransition_obeys {x : Campaign} {action : TransitionAction}
    {post : CampaignStatus → List Write → List Lock → Prop}
    (hr : action = .close → r.campaignFirst = true) (hin : .campaign id ∈ held)
    (hfree : ∀ i, .assignment i ∉ held)
    (hpost : ∀ status vs held', (∀ w ∈ vs, KeepsHomes home w) → post status vs held') :
    obeys (Homes home) (Asking home r) (performTransition id x userId action) post [] held := by
  have hplain : ∀ {m : Session CampaignStatus} {ws : List Write} {held : List Lock},
      Plain (KeepsHomes home) m → (∀ w ∈ ws, KeepsHomes home w) →
        obeys (Homes home) (Asking home r) m post ws held := fun h hws =>
    obeys_plain (B := fun _ => True) h (fun _ hw => hw) (fun _ _ _ _ _ => trivial) hws
      (fun _ _ => trivial) fun status vs held' hvs _ => hpost status vs held' hvs
  cases action with
  | pause =>
      exact hplain (plain_raiseIf.bind fun _ =>
        (plain_add (keepsHomes_of_eq fun _ => rfl)).bind fun _ => plain_pure) (by simp)
  | resume =>
      exact hplain (plain_raiseIf.bind fun _ => plain_query.bind fun _ => plain_raiseIf.bind fun _ =>
        (plain_add (keepsHomes_of_eq fun _ => rfl)).bind fun _ => plain_pure) (by simp)
  | close =>
      unfold performTransition
      rw [obeys_bind, obeys_raiseIf]
      intro _
      rw [obeys_bind, obeys_add]
      dsimp only
      rw [obeys_bind, obeys_queryForUpdate]
      refine ⟨.back id (hr rfl) hin hfree ?_, fun db taken _ _ _ => ?_⟩
      · intro db hdb m hm
        obtain ⟨⟨i, a⟩, hrow, rfl⟩ := List.mem_map.mp hm
        obtain ⟨ha, hpending⟩ := Table.mem_where'.mp hrow
        simp only [Bool.and_eq_true, decide_eq_true_eq] at hpending
        refine ⟨i, rfl, ?_⟩
        rw [hdb i a ha, hpending.1]
      · refine hplain (plain_utcnow.bind fun _ => plain_declinePending.bind fun _ => plain_pure) ?_
        intro w hw
        rw [List.mem_singleton.mp hw]
        exact keepsHomes_of_eq fun _ => rfl

theorem transitionCampaign_obeys {action : TransitionAction}
    (hr : action = .close → r.campaignFirst = true) :
    obeys (Homes home) (Asking home r) (transitionCampaign id userId action)
      (fun _ => obeys (Homes home) (Asking home r) flush fun _ _ _ => True) [] [] := by
  unfold transitionCampaign
  rw [obeys_bind]
  simp only [obeys_bind (m := orRaise _ _)]
  refine obeys_selectForUpdate (asking_next (by simp) (by simp)) fun _ x held _ _ hin hheld _ => ?_
  rw [obeys_bind, requireCampaignOwner, obeys_raiseIf]
  intro _
  rw [obeys_bind]
  refine performTransition_obeys hr hin ?_ fun status vs held' hvs => ?_
  · intro i hi
    exact absurd ((hheld _ hi).resolve_right (by simp)) (by simp)
  refine obeys_rest ?_ hvs
  refine plain_event.bind fun _ => Plain.bind ?_ fun _ => plain_flush.bind fun _ => plain_pure
  unfold completeIfClosed
  split
  · exact plain_complete
  · exact plain_pure

/-- The reward: its account is the last row that is locked. -/
theorem obeys_award {α : Type} {change : CreditChange} {f : CreditLedgerEntry → Session α}
    {post : α → List Write → List Lock → Prop} (hheld : ∀ m ∈ held, m.rank < 5)
    (hr : r.assignmentFirst = true) (hws : ∀ w ∈ ws, KeepsHomes home w)
    (hf : ∀ e, Plain (KeepsHomes home) (f e))
    (hpost : ∀ a vs held', (∀ w ∈ vs, KeepsHomes home w) → post a vs held') :
    obeys (Homes home) (Asking home r) (recordCreditEntry change >>= f) post ws held := by
  rw [obeys_bind]
  refine obeys_recordCreditEntry hheld (by simp [hr]) hws fun e vs held' hvs => ?_
  exact obeys_plain (B := fun _ => True) (hf e) (fun _ hw => hw) (fun _ _ _ _ _ => trivial) hvs
    (fun _ _ => trivial) fun a vs held' hvs _ => hpost a vs held' hvs

theorem applyDecision_obeys {submissionId assignmentId : Uuid} {a : Assignment} {x : Campaign}
    {decision : ReviewDecision} {post : Unit → List Write → List Lock → Prop}
    (hr : r.assignmentFirst = true) (hheld : ∀ m ∈ held, m.rank < 5)
    (hws : ∀ w ∈ ws, KeepsHomes home w)
    (hpost : ∀ vs held', (∀ w ∈ vs, KeepsHomes home w) → post () vs held') :
    obeys (Homes home) (Asking home r)
      (applyDecision submissionId assignmentId a x userId decision) post ws held := by
  have hsubmission : ∀ {f : EvidenceSubmission → EvidenceSubmission},
      KeepsHomes home (writeEvidenceSubmission submissionId f) := keepsHomes_of_eq fun _ => rfl
  cases decision with
  | approved =>
      unfold applyDecision
      rw [obeys_bind, obeys_utcnow]
      intro now
      rw [obeys_bind, obeys_add, obeys_bind, obeys_add]
      refine obeys_award hheld hr ?_ (fun _ => ?_) fun _ vs held' hvs => hpost vs held' hvs
      · intro w hw
        simp only [List.append_assoc, List.mem_append, List.mem_cons, List.not_mem_nil, or_false,
          List.cons_append, List.nil_append] at hw
        rcases hw with hw | rfl | rfl
        · exact hws w hw
        · exact hsubmission
        · exact keepsHomes_assignment fun _ => rfl
      · exact plain_flush.bind fun _ => plain_complete.bind fun _ => plain_pure
  | changesRequested =>
      refine obeys_plain (W := KeepsHomes home) (B := fun _ => True) ?_ (fun _ hw => hw)
        (fun _ _ _ _ _ => trivial) hws (fun _ _ => trivial) fun _ vs held' hvs _ => hpost vs held' hvs
      refine (plain_add hsubmission).bind fun _ => plain_add (keepsHomes_assignment ?_)
      exact fun _ => rfl
  | rejected =>
      refine obeys_plain (W := KeepsHomes home) (B := fun _ => True) ?_ (fun _ hw => hw)
        (fun _ _ _ _ _ => trivial) hws (fun _ _ => trivial) fun _ vs held' hvs _ => hpost vs held' hvs
      refine (plain_add hsubmission).bind fun _ => plain_add (keepsHomes_assignment ?_)
      exact fun _ => rfl

/-- The assignment, the submission, the campaign, and the account of a reward. -/
theorem createReview_obeys {payload : ReviewCreate} (hr : r.assignmentFirst = true) :
    obeys (Homes home) (Asking home r) (createReview id userId payload)
      (fun _ => obeys (Homes home) (Asking home r) flush fun _ _ _ => True) [] [] := by
  unfold createReview
  rw [obeys_bind, obeys_query]
  intro db _
  rw [obeys_bind, obeys_orRaise]
  intro assignmentId _
  rw [obeys_bind]
  simp only [obeys_bind (m := orRaise _ _)]
  refine obeys_climb (by simp) (Or.inl hr) fun a held hheld => ?_
  rw [obeys_bind]
  simp only [obeys_bind (m := orRaise _ _)]
  refine obeys_climb hheld (Or.inl hr) fun e held hheld => ?_
  rw [obeys_bind]
  simp only [obeys_bind (m := orRaise _ _)]
  refine obeys_climb hheld (Or.inl hr) fun x held hheld => ?_
  rw [obeys_bind, requireCampaignOwner, obeys_raiseIf]
  intro _
  rw [obeys_bind, obeys_query]
  intro _ _
  rw [obeys_bind, obeys_raiseIf]
  intro _
  rw [obeys_bind, obeys_raiseIf]
  intro _
  rw [obeys_bind, obeys_raiseIf]
  intro _
  rw [obeys_bind, obeys_uuid4]
  intro reviewId
  rw [obeys_bind, obeys_add, obeys_bind]
  refine obeys_plain (W := Cheap home) (B := fun l => l.rank < 5) plain_flush (fun _ hw => hw.1)
    (fun _ hw => hw.2) ?_ hheld fun _ vs held hvs hheld => ?_
  · intro w hw
    rw [List.nil_append, List.mem_singleton] at hw
    rw [hw]
    refine ⟨keepsHomes_of_eq fun _ => rfl, fun _ l hl => ?_⟩
    simp only [insertReview, List.mem_cons, List.not_mem_nil, or_false] at hl
    rcases hl with rfl | rfl <;> simp [Lock.rank]
  rw [obeys_bind]
  refine applyDecision_obeys hr hheld (fun w hw => (hvs w hw).1) fun vs held' hvs => ?_
  refine obeys_rest ?_ hvs
  exact plain_event.bind fun _ => plain_notification.bind fun _ => plain_flush.bind fun _ =>
    plain_pure

/-- The rest of an award: the submission, the campaign and the account. -/
theorem awardTester_obeys {d : Dispute} {a : Assignment} {post : Unit → List Write → List Lock → Prop}
    (hr : r.assignmentFirst = true) (hheld : ∀ m ∈ held, m.rank < 3)
    (hpost : ∀ vs held', (∀ w ∈ vs, KeepsHomes home w) → post () vs held') :
    obeys (Homes home) (Asking home r) (awardTester d a userId) post [] held := by
  unfold awardTester
  rw [obeys_bind, obeys_orRaise]
  intro submissionId _
  rw [obeys_bind, obeys_raiseIf]
  intro _
  unfold disputedSubmission
  rw [obeys_bind]
  simp only [obeys_bind (m := orRaise _ _), obeys_bind (m := orRaise _ _ >>= _)]
  refine obeys_climb hheld (Or.inl hr) fun e held hheld => ?_
  rw [obeys_bind, obeys_raiseIf]
  intro _
  rw [obeys_pure, obeys_bind]
  simp only [obeys_bind (m := orRaise _ _)]
  refine obeys_climb hheld (Or.inl hr) fun x held hheld => ?_
  rw [obeys_bind, obeys_utcnow]
  intro now
  rw [obeys_bind, obeys_add, obeys_bind, obeys_add]
  refine obeys_award hheld hr ?_ (fun _ => ?_) fun _ vs held' hvs => hpost vs held' hvs
  · intro w hw
    simp only [List.nil_append, List.cons_append, List.mem_cons, List.not_mem_nil, or_false] at hw
    rcases hw with rfl | rfl
    · exact keepsHomes_of_eq fun _ => rfl
    · exact keepsHomes_assignment fun _ => rfl
  · exact plain_flush.bind fun _ => plain_complete.bind fun _ => plain_pure

theorem resolveDispute_obeys {payload : DisputeResolve}
    (hr : payload.remedy = .awardTester → r.assignmentFirst = true) :
    obeys (Homes home) (Asking home r) (resolveDispute id userId payload)
      (fun _ => obeys (Homes home) (Asking home r) flush fun _ _ _ => True) [] [] := by
  unfold resolveDispute
  rw [obeys_bind]
  simp only [obeys_bind (m := orRaise _ _)]
  refine obeys_climb (by simp) (Or.inr (Nat.le_succ 1)) fun d held hheld => ?_
  rw [obeys_bind, obeys_raiseIf]
  intro _
  rw [obeys_bind, obeys_raiseIf]
  intro _
  rw [obeys_bind]
  simp only [obeys_bind (m := orRaise _ _)]
  refine obeys_climb hheld (Or.inr (Nat.le_refl 2)) fun a held hheld => ?_
  rw [obeys_bind]
  have hrest : ∀ vs held', (∀ w ∈ vs, KeepsHomes home w) →
      obeys (Homes home) (Asking home r) (do
        let now ← utcnow
        let set (d : Dispute) : Dispute :=
          { d with
            status := payload.outcome.status, resolution := some payload.resolution,
            remedy := some payload.remedy, resolvedBy := some userId, resolvedAt := some now }
        add (writeDispute id userId "disputes_resolved_by_fkey" set)
        addAuditEvent (some userId) payload.outcome.auditAction "assignment" d.assignmentId
          [("dispute_id", .str (Uuid.str id)), ("outcome", .str payload.outcome.value),
           ("remedy", .str payload.remedy.value)]
        let campaign ← getCampaign a.campaignId
        addNotification (resolutionNotification id campaign payload a.testerId "tester")
        addNotification (resolutionNotification id campaign payload campaign.ownerId "owner")
        flush
        pure (id, set d))
      (fun _ => obeys (Homes home) (Asking home r) flush fun _ _ _ => True) vs held' := by
    intro vs held' hvs
    refine obeys_rest ?_ hvs
    exact plain_utcnow.bind fun _ => (plain_add (keepsHomes_of_eq fun _ => rfl)).bind fun _ =>
      plain_event.bind fun _ => plain_campaign.bind fun _ => plain_notification.bind fun _ =>
      plain_notification.bind fun _ => plain_flush.bind fun _ => plain_pure
  unfold applyRemedy
  split
  · rename_i haward
    exact awardTester_obeys (hr haward) hheld hrest
  · have hplain : Plain (KeepsHomes home)
        (if a.status = .submitted then rejectOverdue d payload else pure ()) := by
      split
      · exact plain_rejectOverdue
      · exact plain_pure
    exact obeys_plain (B := fun _ => True) hplain (fun _ hw => hw) (fun _ _ _ _ _ => trivial) (by simp)
      (fun _ _ => trivial) fun _ vs held' hvs _ => hrest vs held' hvs

end Locks

/-- **Every operation keeps to the order**, or asks for assignments of a campaign it holds. -/
theorem program_obeys (r : LockingRequest) :
    r.program.Obeys (Homes home) (Asking home r) [] fun _ _ => True := by
  refine obeys_commit ?_
  cases r with
  | accept id userId => exact obeys_discard (acceptAssignment_obeys rfl)
  | decline id userId => exact obeys_discard declineAssignment_obeys
  | withdraw id userId => exact obeys_discard (withdrawAssignment_obeys rfl)
  | submit id userId payload => exact obeys_discard createSubmission_obeys
  | review id userId payload => exact obeys_discard (createReview_obeys rfl)
  | dispute id userId payload => exact obeys_discard openDispute_obeys
  | claim id userId => exact obeys_discard claimDispute_obeys
  | resolve id userId payload =>
      exact obeys_discard (resolveDispute_obeys fun haward => decide_eq_true haward)
  | publish id userId => exact obeys_discard publishCampaign_obeys
  | transition id userId action =>
      refine obeys_discard (transitionCampaign_obeys fun hclose => ?_)
      rw [hclose]
      rfl

/--
**No deadlock on rows that are locked by reading**: whatever the order of steps,
unless somebody is crossed, nobody waits in a circle.
-/
theorem rows_no_deadlock {db : Db} {next : Nat} {acts : List (Act LockingRequest)} {w : LockingWorld}
    (h : Runs (World.Step LockingRequest.program fun _ => true) (.idle db next) acts w)
    (hclear : ∀ i j, ¬Crossed w i j) : ¬w.Deadlocked := by
  have hstart : Homes (fun id => (db.assignments.get? id).map (·.campaignId)) db := by
    intro id a ha
    exact Option.map_eq_some_iff.mpr ⟨a, ha, rfl⟩
  have hw := disciplined_runs program_obeys hstart h
  exact not_deadlocked_of_clear hw (fun i j t u l ht hu hlt hlu => exclusive_runs h ht hu hlt hlu)
    hclear

/-! ## The gap -/

/-- The owner's acceptance waits for his own refusal. -/
def undecidedSchedule : List (Act LockingRequest) :=
  .start 1 (.accept 8 1) :: .start 2 (.decline 8 1) :: moves 1 3 ++ moves 2 2

theorem rows_no_deadlock_bench :
    ∃ w, (World.idle appliedService.db appliedService.nextId).run LockingRequest.program
        undecidedSchedule = some w ∧ w.waitsFor 1 2 = true ∧ ¬w.Deadlocked := by
  have hrun : ((World.idle appliedService.db appliedService.nextId).run LockingRequest.program
      undecidedSchedule).map (fun w => (w.waitsFor 1 2,
        w.txs.any fun _ t => t.request.assignmentFirst)) = some (true, false) := by
    decide +kernel
  obtain ⟨w, hw, hout⟩ := Option.map_eq_some_iff.mp hrun
  obtain ⟨hwaits, hnone⟩ := Prod.mk.inj hout
  refine ⟨w, hw, hwaits, rows_no_deadlock (World.runs_iff_run.mpr hw) ?_⟩
  rintro i j ⟨t, u, id, l, _, _, _, hu, hfirst, _⟩
  have hother := Table.any_eq_false.mp hnone j u hu
  exact absurd (hfirst.symm.trans hother) (by simp)

/-- The owner accepts the tester, who withdraws: each has locked what the other needs next. -/
def crossedSchedule : List (Act LockingRequest) :=
  .start 1 (.accept 8 1) :: .start 2 (.withdraw 8 2) :: moves 1 3 ++ moves 2 2

theorem deadlock_reached :
    ¬∀ (s : Service) (acts : List (Act LockingRequest)) (w : LockingWorld),
      Reachable benchSettings s → (World.idle s.db s.nextId).run LockingRequest.program acts = some w →
        ¬w.Deadlocked := by
  intro h
  have hrun : ((World.idle appliedService.db appliedService.nextId).run LockingRequest.program
      crossedSchedule).map (fun w => (w.waitsFor 1 2, w.waitsFor 2 1)) = some (true, true) := by
    decide +kernel
  obtain ⟨w, hw, hout⟩ := Option.map_eq_some_iff.mp hrun
  obtain ⟨hforth, hback⟩ := Prod.mk.inj hout
  have hcircle : Relation.TransGen (fun i j => w.waitsFor i j = true) 1 1 :=
    .tail (.single hforth) hback
  exact h appliedService crossedSchedule w (reachable_run .init _) hw ⟨1, hcircle⟩

end TestExchange
