import TestExchange.Proof.Contents
import TestExchange.Txn.Heading

/-!
# What a service is heading for

Followed from its first statement to its last, a service queues only changes that
the database will take: the identifiers of new rows are free, because every
stored row is below the next one, and whoever a row names has a profile. So it
ends as its own checks say, never because a constraint refuses a write.
-/

namespace TestExchange

open Txn Txn.Session

variable {n n' : Nat} {db t : Db} {c : Conn} {u : Uuid}

/-! ## Identifiers -/

/-- No two people share a username. -/
def Db.Named (db : Db) : Prop :=
  ∀ i j p q, db.profiles.get? i = some p → db.profiles.get? j = some q →
    p.username = q.username → i = j

/--
Every identifier has been drawn, every owner and tester has a profile under a
name of their own, and every contract a campaign.
-/
structure Db.Orderly (n : Nat) (db : Db) : Prop where
  waitlistEntries : Issued Db.waitlistEntries n db
  campaigns : Issued Db.campaigns n db
  testingContracts : Issued Db.testingContracts n db
  contractTasks : Issued Db.contractTasks n db
  assignments : Issued Db.assignments n db
  testingSessions : Issued Db.testingSessions n db
  evidenceSubmissions : Issued Db.evidenceSubmissions n db
  evidenceItems : Issued Db.evidenceItems n db
  messages : Issued Db.messages n db
  notifications : Issued Db.notifications n db
  reviews : Issued Db.reviews n db
  disputes : Issued Db.disputes n db
  owners : ∀ i x, db.campaigns.get? i = some x → db.Knows x.ownerId
  testers : ∀ i a, db.assignments.get? i = some a → db.Knows a.testerId
  contracts : ∀ i x, db.testingContracts.get? i = some x →
    ∃ y, db.campaigns.get? x.campaignId = some y
  names : db.Named

theorem orderly_empty : Db.empty.Orderly n := by
  constructor <;> first
    | exact fun k a ha => absurd ha (by simp [Db.empty])
    | exact fun i j p q hp => absurd hp (by simp [Db.empty])

theorem Db.Orderly.later (h : db.Orderly n) (hle : n ≤ n') : db.Orderly n' where
  waitlistEntries := h.waitlistEntries.later hle
  campaigns := h.campaigns.later hle
  testingContracts := h.testingContracts.later hle
  contractTasks := h.contractTasks.later hle
  assignments := h.assignments.later hle
  testingSessions := h.testingSessions.later hle
  evidenceSubmissions := h.evidenceSubmissions.later hle
  evidenceItems := h.evidenceItems.later hle
  messages := h.messages.later hle
  notifications := h.notifications.later hle
  reviews := h.reviews.later hle
  disputes := h.disputes.later hle
  owners := h.owners
  testers := h.testers
  contracts := h.contracts
  names := h.names

section Tables

variable {ρ : Type} {table : Db → Table ρ} {db' : Db}

theorem issued_insert {k : Uuid} {a : ρ} (h : Issued table n db) (hk : k < n)
    (hdb : table db' = (table db).insert k a) : Issued table n db' := by
  intro i b hb
  rw [hdb] at hb
  rcases Table.get?_insert_cases hb with hold | ⟨hi, -, -⟩
  · exact h i b hold
  · exact hi ▸ hk

theorem issued_modify {k : Uuid} {f : ρ → ρ} (h : Issued table n db)
    (hdb : table db' = (table db).modify k f) : Issued table n db' := by
  intro i b hb
  rw [hdb] at hb
  rcases Table.get?_modify_cases hb with ⟨rfl, a, ha, -⟩ | ⟨-, hold⟩
  · exact h i a ha
  · exact h i b hold

end Tables

/-! A write stores new rows under the identifiers it is given, or none. -/

section Writes

variable {k : Uuid}

theorem orderly_insertWaitlistEntry {e : WaitlistEntry} (h : db.Orderly n) (hk : k < n) :
    ((insertWaitlistEntry k e).effect db).Orderly n :=
  { h with waitlistEntries := issued_insert h.waitlistEntries hk rfl }

theorem orderly_insertCampaign {x : Campaign} (h : db.Orderly n) (hk : k < n)
    (hu : db.Knows x.ownerId) : ((insertCampaign k x).effect db).Orderly n := by
  refine { h with campaigns := issued_insert h.campaigns hk rfl, owners := ?_, contracts := ?_ }
  · intro i y hy
    rcases Table.get?_insert_cases hy with hold | ⟨-, rfl, -⟩
    · exact h.owners i y hold
    · exact hu
  · exact fun i y hy => stays_insert (h.contracts i y hy)

theorem orderly_insertTestingContract {x : TestingContract} (h : db.Orderly n) (hk : k < n)
    (hcampaign : ∃ y, db.campaigns.get? x.campaignId = some y) :
    ((insertTestingContract k x).effect db).Orderly n := by
  refine { h with testingContracts := issued_insert h.testingContracts hk rfl, contracts := ?_ }
  intro i y hy
  rcases Table.get?_insert_cases hy with hold | ⟨-, rfl, -⟩
  · exact h.contracts i y hold
  · exact hcampaign

theorem orderly_insertContractTask {x : ContractTask} (h : db.Orderly n) (hk : k < n) :
    ((insertContractTask k x).effect db).Orderly n :=
  { h with contractTasks := issued_insert h.contractTasks hk rfl }

theorem orderly_insertAssignment {a : Assignment} (h : db.Orderly n) (hk : k < n)
    (hu : db.Knows a.testerId) : ((insertAssignment k a).effect db).Orderly n := by
  refine { h with assignments := issued_insert h.assignments hk rfl, testers := ?_ }
  intro i b hb
  rcases Table.get?_insert_cases hb with hold | ⟨-, rfl, -⟩
  · exact h.testers i b hold
  · exact hu

theorem orderly_insertTestingSession {x : TestingSession} (h : db.Orderly n) (hk : k < n) :
    ((insertTestingSession k x).effect db).Orderly n :=
  { h with testingSessions := issued_insert h.testingSessions hk rfl }

theorem orderly_insertEvidenceSubmission {e : EvidenceSubmission} (h : db.Orderly n) (hk : k < n) :
    ((insertEvidenceSubmission k e).effect db).Orderly n :=
  { h with evidenceSubmissions := issued_insert h.evidenceSubmissions hk rfl }

theorem orderly_insertEvidenceItem {x : EvidenceItem} (h : db.Orderly n) (hk : k < n) :
    ((insertEvidenceItem k x).effect db).Orderly n :=
  { h with evidenceItems := issued_insert h.evidenceItems hk rfl }

theorem orderly_insertMessage {m : Message} (h : db.Orderly n) (hk : k < n) :
    ((insertMessage k m).effect db).Orderly n :=
  { h with messages := issued_insert h.messages hk rfl }

theorem orderly_insertNotification {m : Notification} (h : db.Orderly n) (hk : k < n) :
    ((insertNotification k m).effect db).Orderly n :=
  { h with notifications := issued_insert h.notifications hk rfl }

theorem orderly_insertReview {r : Review} (h : db.Orderly n) (hk : k < n) :
    ((insertReview k r).effect db).Orderly n :=
  { h with reviews := issued_insert h.reviews hk rfl }

theorem orderly_insertDispute {d : Dispute} (h : db.Orderly n) (hk : k < n) :
    ((insertDispute k d).effect db).Orderly n :=
  { h with disputes := issued_insert h.disputes hk rfl }

theorem owners_modify {f : Campaign → Campaign} (h : db.Orderly n)
    (hf : ∀ x, (f x).ownerId = x.ownerId) :
    ∀ i x, (db.campaigns.modify k f).get? i = some x → db.Knows x.ownerId := by
  intro i x hx
  rcases Table.get?_modify_cases hx with ⟨rfl, y, hy, rfl⟩ | ⟨-, hold⟩
  · rw [hf]
    exact h.owners i y hy
  · exact h.owners i x hold

theorem orderly_writeCampaign {f : Campaign → Campaign} (h : db.Orderly n)
    (hf : ∀ x, (f x).ownerId = x.ownerId) : ((writeCampaign k f).effect db).Orderly n := by
  refine { h with campaigns := issued_modify h.campaigns rfl, owners := owners_modify h hf, contracts := ?_ }
  exact fun i y hy => stays_modify (h.contracts i y hy)

theorem orderly_patchCampaign {payload : CampaignUpdate} {x : Campaign} (h : db.Orderly n) :
    ((patchCampaign k payload x).effect db).Orderly n :=
  orderly_writeCampaign (f := payload.set x) h fun _ => rfl

theorem orderly_writeTestingContract {f : TestingContract → TestingContract} (h : db.Orderly n)
    (hf : ∀ x, (f x).campaignId = x.campaignId) :
    ((writeTestingContract k f).effect db).Orderly n := by
  refine { h with testingContracts := issued_modify h.testingContracts rfl, contracts := ?_ }
  intro i x hx
  rcases Table.get?_modify_cases hx with ⟨rfl, y, hy, rfl⟩ | ⟨-, hold⟩
  · rw [hf]
    exact h.contracts i y hy
  · exact h.contracts i x hold

theorem orderly_writeAssignment {f : Assignment → Assignment} (h : db.Orderly n)
    (hf : ∀ a, (f a).testerId = a.testerId) : ((writeAssignment k f).effect db).Orderly n := by
  refine { h with assignments := issued_modify h.assignments rfl, testers := ?_ }
  intro i a ha
  rcases Table.get?_modify_cases ha with ⟨rfl, b, hb, rfl⟩ | ⟨-, hold⟩
  · show db.Knows (f b).testerId
    rw [hf]
    exact h.testers i b hb
  · exact h.testers i a hold

theorem orderly_writeEvidenceSubmission {f : EvidenceSubmission → EvidenceSubmission} (h : db.Orderly n) :
    ((writeEvidenceSubmission k f).effect db).Orderly n :=
  { h with evidenceSubmissions := issued_modify h.evidenceSubmissions rfl }

theorem orderly_writeNotification {f : Notification → Notification} (h : db.Orderly n) :
    ((writeNotification k f).effect db).Orderly n :=
  { h with notifications := issued_modify h.notifications rfl }

theorem orderly_writeDispute {f : Dispute → Dispute} {fkey : String} (h : db.Orderly n) :
    ((writeDispute k u fkey f).effect db).Orderly n :=
  { h with disputes := issued_modify h.disputes rfl }

theorem orderly_deleteContractTasks {ids : List Uuid} (h : db.Orderly n) :
    ((deleteContractTasks ids).effect db).Orderly n := by
  have htasks := h.contractTasks.effect (w := deleteContractTasks ids)
    (issues_of_erase fun _ => rfl)
  have hitems := h.evidenceItems.effect (w := deleteContractTasks ids)
    (issues_of_map (f := fun _ item =>
      { item with taskId := item.taskId.filter fun taskId => taskId ∉ ids }) fun _ => rfl)
  exact { h with contractTasks := htasks, evidenceItems := hitems }

theorem orderly_writeNotificationsRead {ids : List Uuid} {now : Time} (h : db.Orderly n) :
    ((writeNotificationsRead ids now).effect db).Orderly n := by
  have hrows := h.notifications.effect (w := writeNotificationsRead ids now)
    (issues_of_map (f := fun id m =>
      if id ∈ ids then { m with readAt := some now } else m) fun _ => rfl)
  exact { h with notifications := hrows }

/-- Other tables have keys that are not drawn. -/
theorem Db.Orderly.elsewhere {db' : Db} (h : db.Orderly n)
    (hdb : { db with
        profiles := db'.profiles
        betaProgramState := db'.betaProgramState
        creditAccounts := db'.creditAccounts
        creditLedgerEntries := db'.creditLedgerEntries
        auditEvents := db'.auditEvents } = db')
    (hstays : ∀ u, db.Knows u → db'.Knows u) (hnames : db'.Named) : db'.Orderly n := by
  rw [← hdb]
  rw [← hdb] at hstays hnames
  refine { h with owners := ?_, testers := ?_, names := hnames }
  · exact fun i x hx => hstays _ (h.owners i x hx)
  · exact fun i a ha => hstays _ (h.testers i a ha)

end Writes

/-! ## What a service looks at before it flushes -/

/-- The part of the database that is read while other changes are queued. -/
structure Consulted where
  notifications : Table Notification
  ledger : List CreditLedgerEntry
  accounts : Table CreditAccount
  known : Uuid → Bool

def Db.consulted (db : Db) : Consulted where
  notifications := db.notifications
  ledger := db.creditLedgerEntries
  accounts := db.creditAccounts
  known := db.profiles.contains

theorem knows_iff : db.Knows u ↔ db.consulted.known u = true :=
  (Table.contains_eq_true (t := db.profiles)).symm

/-- The service is heading for `t`. -/
abbrev OnCourse (c : Conn) (t : Db) : Prop := Heads Db.Orderly Db.consulted c t

/-- Whoever is known now is known when the queue is flushed. -/
theorem onCourse_knows (h : OnCourse c t) (hu : c.db.Knows u) : t.Knows u := by
  rw [knows_iff, h.same]
  exact knows_iff.mp hu

theorem onCourse_draw (h : OnCourse c t) : OnCourse { c with next := c.next + 1 } t :=
  h.draw fun _ _ hs => hs.later (Nat.le_succ _)

/-- The database takes the write, which leaves alone what is looked at before the next flush. -/
structure Taken (n : Nat) (t : Db) (w : Write) : Prop where
  accepted : w.violates t = none
  orderly : (w.effect t).Orderly n
  consulted : (w.effect t).consulted = t.consulted

theorem onCourse_add {w : Write} (h : OnCourse c t) (hw : Taken c.next t w) :
    OnCourse { c with pending := c.pending ++ [w] } (w.effect t) :=
  h.add hw.accepted hw.orderly hw.consulted

section Taken

variable {k : Uuid}

theorem taken_campaign {f : Campaign → Campaign} (h : t.Orderly n)
    (hf : ∀ x, (f x).ownerId = x.ownerId) : Taken n t (writeCampaign k f) :=
  ⟨rfl, orderly_writeCampaign h hf, rfl⟩

theorem taken_contract {f : TestingContract → TestingContract} (h : t.Orderly n)
    (hf : ∀ x, (f x).campaignId = x.campaignId) : Taken n t (writeTestingContract k f) :=
  ⟨rfl, orderly_writeTestingContract h hf, rfl⟩

theorem taken_assignment {f : Assignment → Assignment} (h : t.Orderly n)
    (hf : ∀ a, (f a).testerId = a.testerId) : Taken n t (writeAssignment k f) :=
  ⟨rfl, orderly_writeAssignment h hf, rfl⟩

theorem taken_submission {f : EvidenceSubmission → EvidenceSubmission} (h : t.Orderly n) :
    Taken n t (writeEvidenceSubmission k f) :=
  ⟨rfl, orderly_writeEvidenceSubmission h, rfl⟩

theorem taken_event {e : AuditEvent} (h : t.Orderly n) (he : e.actorId = some u) (hu : t.Knows u) :
    Taken n t (insertAuditEvent e) :=
  ⟨insertAuditEvent_accepted he hu, h.elsewhere rfl (fun _ hv => hv) h.names, rfl⟩

theorem taken_dispute {f : Dispute → Dispute} {fkey : String} (h : t.Orderly n) (hu : t.Knows u) :
    Taken n t (writeDispute k u fkey f) := by
  refine ⟨?_, orderly_writeDispute h, rfl⟩
  simp [writeDispute, hu.contains]

theorem consulted_modify {f : Profile → Profile} :
    { t with profiles := t.profiles.modify k f }.consulted = t.consulted := by
  have hknown : ∀ v, (t.profiles.modify k f).contains v = t.profiles.contains v := by
    intro v
    rw [Table.contains, Table.contains, Table.get?_modify]
    split
    · rename_i hv
      rw [hv, Option.isSome_map]
    · rfl
  exact congrArg (Consulted.mk t.notifications t.creditLedgerEntries t.creditAccounts)
    (funext hknown)

theorem named_modify {f : Profile → Profile} (h : t.Named) (hf : ∀ p,
    t.profiles.get? k = some p → (f p).username = p.username
      ∨ ∀ i q, t.profiles.get? i = some q → q.username = (f p).username → i = k) :
    Db.Named { t with profiles := t.profiles.modify k f } := by
  have hcross : ∀ j p q, t.profiles.get? k = some p → t.profiles.get? j = some q →
      q.username = (f p).username → j = k := by
    intro j p q hp hq hname
    rcases hf p hp with hsame | hfree
    · exact h j k q p hq hp (hname.trans hsame)
    · exact hfree j q hq hname
  intro i j p q hp hq hname
  rcases Table.get?_modify_cases hp with ⟨rfl, p₀, hp₀, rfl⟩ | ⟨-, hp₀⟩
  · rcases Table.get?_modify_cases hq with ⟨rfl, -⟩ | ⟨-, hq₀⟩
    · rfl
    · exact (hcross j p₀ q hp₀ hq₀ hname.symm).symm
  · rcases Table.get?_modify_cases hq with ⟨rfl, q₀, hq₀, rfl⟩ | ⟨-, hq₀⟩
    · exact hcross i q₀ p hq₀ hp₀ hname
    · exact h i j p q hp₀ hq₀ hname

theorem taken_profile {f : Profile → Profile} (h : t.Orderly n)
    (hf : ∀ p, (f p).username = p.username) : Taken n t (writeProfile k f) := by
  refine ⟨rfl, h.elsewhere rfl (fun _ hv => stays_modify hv) ?_, consulted_modify⟩
  exact named_modify h.names fun p _ => Or.inl (hf p)

/-- A profile is saved under a username nobody else has. -/
theorem taken_savedProfile {loaded username : String} {f : Profile → Profile} (h : t.Orderly n)
    (hf : ∀ p, t.profiles.get? k = some p → (f p).username = username)
    (hfree : ∀ i p, t.profiles.get? i = some p → p.username = username → i = k) :
    Taken n t (writeSavedProfile k loaded username f) := by
  refine ⟨?_, h.elsewhere rfl (fun _ hv => stays_modify hv) ?_, consulted_modify⟩
  · simp only [writeSavedProfile, firstViolated_cons, firstViolated_nil, and_true]
    refine Table.any_eq_false.mpr fun i p hp => ?_
    by_cases hname : p.username = username
    · simp [hfree i p hp hname]
    · simp [hname]
  · refine named_modify h.names fun p hp => Or.inr fun i q hq hname => ?_
    rw [hf p hp] at hname
    exact hfree i q hq hname

end Taken

/-! ## Ending well -/

/-- Something went wrong inside: a write was refused, a row missing, an exception not expected. -/
def Failure.Internal : Failure → Prop
  | .integrity _ | .unhandled _ => True
  | .domain _ statusCode => statusCode = 500
  | _ => False

/-- The service returns with `Q`, or refuses; it fails internally only if `P` holds. -/
abbrev EndsWell {α : Type} (P : Prop) (m : Session α) (now : Nat) (c : Conn)
    (Q : α → Conn → Prop) : Prop := Ends m now c Q fun e => e.Internal → P

section EndsWell

variable {α β : Type} {P : Prop} {now : Nat} {R : β → Conn → Prop} {f : α → Session β}
  {g : Unit → Session β} {detail : String} {statusCode : Nat}

/-- What has to be found is found, or the service refuses. -/
theorem endsWell_orRaise_bind {o : Option α} (hcode : statusCode ≠ 500)
    (hf : ∀ a, o = some a → EndsWell P (f a) now c R) :
    EndsWell P (orRaise (.domain detail statusCode) o >>= f) now c R :=
  ends_orRaise_bind (fun _ he => absurd he hcode) hf

theorem endsWell_raiseIf_bind {p : Prop} [Decidable p] (hcode : statusCode ≠ 500)
    (hg : ¬p → EndsWell P (g ()) now c R) :
    EndsWell P (raiseIf p (.domain detail statusCode) >>= g) now c R :=
  ends_raiseIf_bind (fun _ he => absurd he hcode) hg

theorem endsWell_raise_bind (hcode : statusCode ≠ 500) :
    EndsWell P ((raise (.domain detail statusCode) : Session α) >>= f) now c R :=
  ends_raise_bind fun he => absurd he hcode

theorem endsWell_raiseIf {p : Prop} [Decidable p] {Q : Unit → Conn → Prop} (hcode : statusCode ≠ 500)
    (hQ : ¬p → Q () c) : EndsWell P (raiseIf p (.domain detail statusCode)) now c Q :=
  ends_raiseIf (fun _ he => absurd he hcode) hQ

theorem ends_select_bind {table : Db → Table α} {lock : Uuid → Lock} {id : Uuid}
    {g : Option α → Session β} {E : Failure → Prop} (h : Ends (g ((table c.db).get? id)) now c R E) :
    Ends (selectForUpdate table lock id >>= g) now c R E := ends_queryForUpdate_bind h

/-- The three lookups that fail with the service's own error. -/
theorem endsWell_lookup {table : Db → Table α} {id : Uuid} (hcode : statusCode ≠ 500) :
    EndsWell P (do orRaise (.domain detail statusCode) (← query fun db => (table db).get? id)) now c
      fun x c' => (table c.db).get? id = some x ∧ c' = c :=
  ends_query_bind (ends_orRaise (fun _ he => absurd he hcode) fun _ hx => ⟨hx, rfl⟩)

theorem Ends.there {m : Session α} {E : Failure → Prop} {p : α → Prop}
    (h : Ends m now c (fun x c' => p x ∧ c' = c) E) (hf : ∀ x, p x → Ends (f x) now c R E) :
    Ends (m >>= f) now c R E := by
  refine h.bind ?_
  rintro x _ ⟨hx, rfl⟩
  exact hf x hx

theorem endsWell_getCampaign_bind {id : Uuid} {g : Campaign → Session β}
    (h : ∀ x, c.db.campaigns.get? id = some x → EndsWell P (g x) now c R) :
    EndsWell P (getCampaign id >>= g) now c R := Ends.there (endsWell_lookup (by decide)) h

theorem endsWell_getAssignment_bind {id : Uuid} {g : Assignment → Session β}
    (h : ∀ a, c.db.assignments.get? id = some a → EndsWell P (g a) now c R) :
    EndsWell P (getAssignment id >>= g) now c R := Ends.there (endsWell_lookup (by decide)) h

theorem endsWell_getProfile_bind {id : Uuid} {g : Profile → Session β}
    (h : ∀ p, c.db.profiles.get? id = some p → EndsWell P (g p) now c R) :
    EndsWell P (getProfile id >>= g) now c R := Ends.there (endsWell_lookup (by decide)) h

/-- The owner or the tester of the assignment. -/
theorem endsWell_participant_bind {a : Assignment} {userId : Uuid} {g : Campaign → Session β}
    (h : ∀ x, c.db.campaigns.get? a.campaignId = some x →
      userId = a.testerId ∨ userId = x.ownerId → EndsWell P (g x) now c R) :
    EndsWell P (requireAssignmentParticipant a userId >>= g) now c R := by
  have hall : EndsWell P (requireAssignmentParticipant a userId) now c fun x c' =>
      (c.db.campaigns.get? a.campaignId = some x ∧ (userId = a.testerId ∨ userId = x.ownerId))
        ∧ c' = c :=
    endsWell_getCampaign_bind fun x hx => endsWell_raiseIf_bind (by decide) fun hp =>
      ends_pure ⟨⟨hx, by simpa [Classical.or_iff_not_imp_left] using hp⟩, rfl⟩
  exact Ends.there hall fun x hx => h x hx.1 hx.2

end EndsWell

/-! ## The services' helpers -/

/-- The session is on course, and nobody has got or lost a profile. -/
def Reaches (t : Db) (c : Conn) : Prop := ∃ t', OnCourse c t' ∧ t'.profiles = t.profiles

theorem reaches_self (h : OnCourse c t) : Reaches t c := ⟨t, h, rfl⟩

theorem onCourse_start (h : db.Orderly n) : OnCourse ⟨db, [], n⟩ db := heads_start h

theorem knows_of_profiles {t' : Db} (h : t'.profiles = t.profiles) (hu : t.Knows u) : t'.Knows u := by
  unfold Db.Knows
  rw [h]
  exact hu

/-- The owner of a campaign as it is read now has a profile. -/
theorem reaches_owner {k : Uuid} {x : Campaign} (h : Reaches t c)
    (hx : c.db.campaigns.get? k = some x) : t.Knows x.ownerId := by
  obtain ⟨t', ht', hprofiles⟩ := h
  exact knows_of_profiles hprofiles.symm (onCourse_knows ht' (ht'.base.owners k x hx))

section Helpers

variable {P : Prop} {E : Failure → Prop} {now : Nat}

theorem addNotification_reaches {x : Notification} (h : OnCourse c t) (hu : t.Knows x.userId) :
    Ends (addNotification x) now c (fun _ => Reaches t) E := by
  have hnotifications : t.notifications = c.db.notifications :=
    congrArg Consulted.notifications h.same
  refine ends_query_bind ?_
  cases hfind : c.db.notifications.find? fun _ m => m.idempotencyKey = x.idempotencyKey with
  | some found => exact ends_pure (reaches_self h)
  | none =>
      have hunsent := Table.find?_eq_none.mp hfind
      rw [← hnotifications] at hunsent
      refine ends_uuid4_bind (ends_add_bind ?_)
      have hlater := (onCourse_draw h).holds
      have hv : (insertNotification c.next x).violates t = none := by
        simp only [insertNotification, firstViolated_cons, firstViolated_nil, and_true]
        exact ⟨Table.contains_eq_false.mpr (h.holds.notifications.free (Nat.le_refl _)),
          Table.any_eq_false.mpr hunsent, hu.contains⟩
      refine h.ends_flush (applyAll_cons.mpr ⟨hv, rfl⟩) ⟨_, onCourse_start ?_, rfl⟩
      exact orderly_insertNotification hlater (Nat.lt_succ_self _)

/-- The account is there for the update, opened if it has to be. -/
theorem getCreditAccountForUpdate_reaches (h : OnCourse c t) (hu : t.Knows u) :
    Ends (getCreditAccountForUpdate u) now c (fun _ c' =>
      Reaches t c' ∧ c'.db.creditLedgerEntries = c.db.creditLedgerEntries) E := by
  have haccounts : t.creditAccounts = c.db.creditAccounts := congrArg Consulted.accounts h.same
  have hledger : t.creditLedgerEntries = c.db.creditLedgerEntries :=
    congrArg Consulted.ledger h.same
  unfold getCreditAccountForUpdate
  refine ends_select_bind ?_
  cases hget : c.db.creditAccounts.get? u with
  | some account => exact ends_pure ⟨reaches_self h, rfl⟩
  | none =>
      refine ends_query_bind ?_
      rw [hget]
      refine ends_add_bind (h.ends_flush_bind (applyAll_cons.mpr
        ⟨insertCreditAccount_accepted ?_ hu, rfl⟩) (ends_pure ⟨⟨_, onCourse_start ?_, rfl⟩, hledger⟩))
      · rw [haccounts]
        exact hget
      · exact h.holds.elsewhere rfl (fun _ hv => hv) h.holds.names

theorem recordCreditEntry_endsWell {change : CreditChange} (h : OnCourse c t)
    (hu : t.Knows change.userId) (hby : ∀ m, change.createdBy = some m → t.Knows m) :
    EndsWell P (recordCreditEntry change) now c fun _ => Reaches t := by
  refine ends_query_bind ?_
  cases hfind : c.db.creditLedgerEntries.find?
      fun e => e.idempotencyKey = change.idempotencyKey with
  | some found => exact ends_pure (reaches_self h)
  | none =>
      refine endsWell_raiseIf_bind (by decide) fun hdelta => ?_
      refine (getCreditAccountForUpdate_reaches h hu).bind ?_
      rintro account c₁ ⟨⟨t₁, h₁, hprofiles⟩, hledger⟩
      refine endsWell_raiseIf_bind (by decide) fun hfunds => ends_add_bind (ends_uuid4_bind
        (ends_add_bind ?_))
      have hkey : ∀ e ∈ t₁.creditLedgerEntries, e.idempotencyKey ≠ change.idempotencyKey := by
        intro e he
        have hsame : t₁.creditLedgerEntries = c₁.db.creditLedgerEntries :=
          congrArg Consulted.ledger h₁.same
        rw [hsame, hledger] at he
        simpa using List.find?_eq_none.mp hfind e he
      have hv : (insertCreditLedgerEntry (change.entry c₁.next)).violates
          ((writeCreditAccount change.userId (account.balance + change.delta)).effect t₁) = none := by
        simp only [insertCreditLedgerEntry, firstViolated_cons, firstViolated_nil, and_true]
        refine ⟨List.any_eq_false.mpr fun e he hsame => hkey e he (of_decide_eq_true hsame),
          decide_eq_false hdelta, (knows_of_profiles hprofiles hu).contains, ?_⟩
        show t₁.missingProfile change.createdBy = false
        cases hcreator : change.createdBy with
        | none => rfl
        | some m => exact (knows_of_profiles hprofiles (hby m hcreator)).contains
      simp only [List.append_assoc, List.cons_append, List.nil_append]
      refine h₁.ends_flush_bind (applyAll_cons.mpr ⟨writeCreditAccount_accepted hfunds,
        applyAll_cons.mpr ⟨hv, rfl⟩⟩) (ends_pure ⟨_, onCourse_start ?_, hprofiles⟩)
      exact ((onCourse_draw h₁).holds).elsewhere rfl (fun _ hv => hv) h₁.holds.names

theorem closedWorkSettled_same {id : Uuid} {x : Campaign} :
    Ends (closedWorkSettled id x) now c (fun _ c' => c' = c) E := by
  unfold closedWorkSettled
  split
  · exact ends_query_bind (ends_query_bind (ends_pure rfl))
  · exact ends_pure rfl

theorem maybeCompleteCampaign_reaches {id m : Uuid} {x : Campaign} (h : OnCourse c t)
    (hm : t.Knows m) : Ends (maybeCompleteCampaign id x m) now c (fun _ => Reaches t) E := by
  refine ends_query_bind (closedWorkSettled_same.bind ?_)
  rintro settled _ rfl
  split
  · have hcompleted := onCourse_add h (taken_campaign (k := id)
      (f := fun x => { x with status := .completed }) h.holds fun _ => rfl)
    refine ends_add_bind (ends_add_bind (ends_pure ?_))
    exact ⟨_, onCourse_add hcompleted (taken_event hcompleted.holds rfl hm), rfl⟩
  · exact ends_pure (reaches_self h)

end Helpers

/-! ## Rules for the rest of a service

Between two flushes only one thing matters about what is queued: whose profiles
are there when it is written.
-/

section Rules

variable {α β : Type} {P : Prop} {E : Failure → Prop} {now : Nat} {R : β → Conn → Prop}
  {g : Unit → Session β} {k : Uuid}

/-- A write that is taken wherever the same people have profiles. -/
theorem course_add_bind {w : Write} (h : Reaches t c)
    (hw : ∀ t', t'.Orderly c.next → t'.profiles = t.profiles →
      Taken c.next t' w ∧ (w.effect t').profiles = t'.profiles)
    (hg : ∀ ws, Reaches t { c with pending := ws } →
      Ends (g ()) now { c with pending := ws } R E) : Ends (add w >>= g) now c R E := by
  obtain ⟨t', ht', hprofiles⟩ := h
  obtain ⟨htaken, hkept⟩ := hw t' ht'.holds hprofiles
  exact ends_add_bind (hg _ ⟨_, onCourse_add ht' htaken, hkept.trans hprofiles⟩)

theorem course_assignment_bind {f : Assignment → Assignment} (h : Reaches t c)
    (hf : ∀ a, (f a).testerId = a.testerId) (hg : ∀ ws, Reaches t { c with pending := ws } →
      Ends (g ()) now { c with pending := ws } R E) :
    Ends (add (writeAssignment k f) >>= g) now c R E :=
  course_add_bind h (fun _ horderly _ => ⟨taken_assignment horderly hf, rfl⟩) hg

/-- The last statement of a decision. -/
theorem course_assignment {f : Assignment → Assignment} (h : Reaches t c)
    (hf : ∀ a, (f a).testerId = a.testerId) :
    Ends (add (writeAssignment k f)) now c (fun _ => Reaches t) E := by
  obtain ⟨t', ht', hprofiles⟩ := h
  exact ends_add ⟨_, onCourse_add ht' (taken_assignment ht'.holds hf), hprofiles⟩

theorem course_submission_bind {f : EvidenceSubmission → EvidenceSubmission} (h : Reaches t c)
    (hg : ∀ ws, Reaches t { c with pending := ws } →
      Ends (g ()) now { c with pending := ws } R E) :
    Ends (add (writeEvidenceSubmission k f) >>= g) now c R E :=
  course_add_bind h (fun _ horderly _ => ⟨taken_submission horderly, rfl⟩) hg

theorem course_campaign_bind {f : Campaign → Campaign} (h : Reaches t c)
    (hf : ∀ x, (f x).ownerId = x.ownerId) (hg : ∀ ws, Reaches t { c with pending := ws } →
      Ends (g ()) now { c with pending := ws } R E) :
    Ends (add (writeCampaign k f) >>= g) now c R E :=
  course_add_bind h (fun _ horderly _ => ⟨taken_campaign horderly hf, rfl⟩) hg

theorem course_contract_bind {f : TestingContract → TestingContract} (h : Reaches t c)
    (hf : ∀ x, (f x).campaignId = x.campaignId) (hg : ∀ ws, Reaches t { c with pending := ws } →
      Ends (g ()) now { c with pending := ws } R E) :
    Ends (add (writeTestingContract k f) >>= g) now c R E :=
  course_add_bind h (fun _ horderly _ => ⟨taken_contract horderly hf, rfl⟩) hg

theorem course_dispute_bind {f : Dispute → Dispute} {fkey : String} (h : Reaches t c)
    (hu : t.Knows u) (hg : ∀ ws, Reaches t { c with pending := ws } →
      Ends (g ()) now { c with pending := ws } R E) :
    Ends (add (writeDispute k u fkey f) >>= g) now c R E :=
  course_add_bind h
    (fun _ horderly hp => ⟨taken_dispute horderly (knows_of_profiles hp hu), rfl⟩) hg

theorem course_event_bind {action entityType : String} {details : List (String × Json)}
    (h : Reaches t c) (hu : t.Knows u) (hg : ∀ ws, Reaches t { c with pending := ws } →
      Ends (g ()) now { c with pending := ws } R E) :
    Ends (addAuditEvent (some u) action entityType k details >>= g) now c R E :=
  course_add_bind h
    (fun _ horderly hp => ⟨taken_event horderly rfl (knows_of_profiles hp hu), rfl⟩) hg

theorem course_flush_bind (h : Reaches t c)
    (hg : ∀ t', t'.Orderly c.next → t'.profiles = t.profiles →
      Ends (g ()) now ⟨t', [], c.next⟩ R E) : Ends (flush >>= g) now c R E := by
  obtain ⟨t', ht', hprofiles⟩ := h
  exact ht'.ends_flushed_bind (hg t' ht'.holds hprofiles)

theorem reaches_trans {t' : Db} {c' : Conn} (h : Reaches t' c') (hp : t'.profiles = t.profiles) :
    Reaches t c' := by
  obtain ⟨t'', ht'', hprofiles⟩ := h
  exact ⟨t'', ht'', hprofiles.trans hp⟩

theorem course_notify_bind {x : Notification} (h : Reaches t c) (hu : t.Knows x.userId)
    (hg : ∀ c', Reaches t c' → Ends (g ()) now c' R E) :
    Ends (addNotification x >>= g) now c R E := by
  obtain ⟨t', ht', hprofiles⟩ := h
  exact (addNotification_reaches ht' (knows_of_profiles hprofiles hu)).bind fun _ c' hc' =>
    hg c' (reaches_trans hc' hprofiles)

theorem endsWell_credit_bind {change : CreditChange} {g : CreditLedgerEntry → Session β}
    (h : Reaches t c) (hu : t.Knows change.userId)
    (hby : ∀ m, change.createdBy = some m → t.Knows m)
    (hg : ∀ e c', Reaches t c' → EndsWell P (g e) now c' R) :
    EndsWell P (recordCreditEntry change >>= g) now c R := by
  obtain ⟨t', ht', hprofiles⟩ := h
  refine (recordCreditEntry_endsWell ht' (knows_of_profiles hprofiles hu) fun m hm => ?_).bind
    fun e c' hc' => hg e c' (reaches_trans hc' hprofiles)
  exact knows_of_profiles hprofiles (hby m hm)

theorem course_completion_bind {x : Campaign} {g : Bool → Session β} (h : Reaches t c)
    (hu : t.Knows u) (hg : ∀ b c', Reaches t c' → Ends (g b) now c' R E) :
    Ends (maybeCompleteCampaign k x u >>= g) now c R E := by
  obtain ⟨t', ht', hprofiles⟩ := h
  exact (maybeCompleteCampaign_reaches ht' (knows_of_profiles hprofiles hu)).bind fun b c' hc' =>
    hg b c' (reaches_trans hc' hprofiles)

end Rules

end TestExchange
