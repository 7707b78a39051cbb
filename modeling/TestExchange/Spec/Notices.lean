import TestExchange.Model.Moderation
import TestExchange.Spec.Keys

/-!
# Notices

A notification is about something that happened to an assignment, a submission,
a review, a message or a dispute, and its key says what. Whatever it is about
happens at most once: afterwards the database shows that it has (`Occurs`), and
nothing undoes that. So if every stored notification is about something that has
happened, the key of something that has not is free.
-/

namespace TestExchange

open Txn

/-- The kinds of events a participant is notified of. -/
inductive NoticeKind where
  | applied
  | accepted
  | declined
  | withdrawn
  | recruitmentClosed
  | submitted
  | reviewed
  | messaged
  | disputed
  | resolvedForTester
  | resolvedForOwner
  deriving DecidableEq

/-- The table the event is about. -/
def NoticeKind.scope : NoticeKind → String
  | .applied | .accepted | .declined | .withdrawn | .recruitmentClosed => "assignment"
  | .submitted => "submission"
  | .reviewed => "review"
  | .messaged => "message"
  | .disputed | .resolvedForTester | .resolvedForOwner => "dispute"

/-- The last part of the keys. -/
def NoticeKind.purpose : NoticeKind → String
  | .applied => "application-notification"
  | .accepted => "accepted-notification"
  | .declined => "declined-notification"
  | .withdrawn => "withdrawn-notification"
  | .recruitmentClosed => "recruitment-closed-notification"
  | .submitted => "owner-notification"
  | .reviewed => "tester-notification"
  | .messaged => "recipient-notification"
  | .disputed => "owner-notification"
  | .resolvedForTester => "tester-resolution-notification"
  | .resolvedForOwner => "owner-resolution-notification"

/-- An event of one row. -/
structure Notice where
  kind : NoticeKind
  subject : Uuid

/-- The key the event is notified under. -/
def Notice.key (o : Notice) : String := idempotencyKey o.kind.scope o.subject o.kind.purpose

/-- The event has happened, as the database shows. -/
def Notice.Occurs (o : Notice) (db : Db) : Prop :=
  match o.kind with
  | .applied => ∃ a, db.assignments.get? o.subject = some a
  | .accepted | .declined | .recruitmentClosed =>
      ∃ a, db.assignments.get? o.subject = some a ∧ a.status ≠ .applied
  | .withdrawn => ∃ a, db.assignments.get? o.subject = some a ∧ a.status = .cancelled
  | .submitted => ∃ e, db.evidenceSubmissions.get? o.subject = some e
  | .reviewed => ∃ r, db.reviews.get? o.subject = some r
  | .messaged => ∃ m, db.messages.get? o.subject = some m
  | .disputed => ∃ d, db.disputes.get? o.subject = some d
  | .resolvedForTester | .resolvedForOwner =>
      ∃ d, db.disputes.get? o.subject = some d ∧ d.status ∉ activeDisputeStatuses

theorem scope_colon (kind : NoticeKind) : ':' ∉ kind.scope.toList := by
  cases kind <;> decide

theorem kind_inj {kind kind' : NoticeKind} (hscope : kind.scope = kind'.scope)
    (hpurpose : kind.purpose = kind'.purpose) : kind = kind' := by
  revert hscope hpurpose
  cases kind <;> cases kind' <;> decide

theorem Notice.key_inj {o o' : Notice} (h : o.key = o'.key) : o = o' := by
  obtain ⟨kind, subject⟩ := o
  obtain ⟨kind', subject'⟩ := o'
  obtain ⟨hscope, hid, hpurpose⟩ := idempotencyKey_parts (scope_colon kind) (scope_colon kind') h
  have hkind : kind = kind' := kind_inj hscope hpurpose
  have hsubject : subject = subject' := hid
  rw [hkind, hsubject]

/-- Every stored notification is about something that has happened. -/
def NoticeInv (db : Db) : Prop :=
  ∀ k n, db.notifications.get? k = some n → ∃ o : Notice, n.idempotencyKey = o.key ∧ o.Occurs db

/-- No notification is stored under the key. -/
def Unsent (db : Db) (key : String) : Prop :=
  ∀ k n, db.notifications.get? k = some n → n.idempotencyKey ≠ key

/-- **What has not happened has not been notified of.** -/
theorem NoticeInv.unsent {db : Db} (h : NoticeInv db) {o : Notice} (ho : ¬o.Occurs db) :
    Unsent db o.key := by
  intro k n hn hkey
  obtain ⟨o', hkey', hoccurs⟩ := h k n hn
  have hsame : o' = o := Notice.key_inj (hkey'.symm.trans hkey)
  rw [hsame] at hoccurs
  exact ho hoccurs

/-! ## Posting -/

/-- The stored notifications, whether they were read or not. -/
def mail (t : Table Notification) : List (Uuid × Notification) :=
  t.rows.map fun r => (r.1, { r.2 with readAt := none })

/-- The mail grows by notifications about the listed events, to the listed users. -/
def Posts (t t' : Table Notification) (sent : List (Notice × Uuid)) : Prop :=
  ∃ new, mail t' = mail t ++ new
    ∧ new.map (fun r => (r.2.idempotencyKey, r.2.userId)) = sent.map fun p => (p.1.key, p.2)

theorem Posts.refl (t : Table Notification) : Posts t t [] :=
  ⟨[], (List.append_nil _).symm, rfl⟩

theorem Posts.of_mail {t t' : Table Notification} (h : mail t' = mail t) : Posts t t' [] :=
  ⟨[], by rw [h, List.append_nil], rfl⟩

theorem Posts.trans {t₁ t₂ t₃ : Table Notification} {sent sent' : List (Notice × Uuid)}
    (h : Posts t₁ t₂ sent) (h' : Posts t₂ t₃ sent') : Posts t₁ t₃ (sent ++ sent') := by
  obtain ⟨new, hrows, hnew⟩ := h
  obtain ⟨new', hrows', hnew'⟩ := h'
  refine ⟨new ++ new', ?_, ?_⟩
  · rw [hrows', hrows, List.append_assoc]
  · rw [List.map_append, hnew, hnew', List.map_append]

theorem posts_insert {t : Table Notification} {k : Uuid} {n : Notification} {o : Notice}
    (hnew : t.get? k = none) (hkey : n.idempotencyKey = o.key) :
    Posts t (t.insert k n) [(o, n.userId)] := by
  refine ⟨[(k, { n with readAt := none })], ?_, ?_⟩
  · rw [mail, mail, Table.rows_insert hnew, List.map_append]
    rfl
  · simp only [List.map_cons, List.map_nil, hkey]

/-- A key in use after posting was in use before, or is one of those posted. -/
theorem Posts.cases {t t' : Table Notification} {sent : List (Notice × Uuid)}
    (h : Posts t t' sent) {k : Uuid} {n : Notification} (hn : t'.get? k = some n) :
    (∃ i m, t.get? i = some m ∧ m.idempotencyKey = n.idempotencyKey)
      ∨ ∃ p ∈ sent, n.idempotencyKey = p.1.key := by
  obtain ⟨new, hmail, hnew⟩ := h
  have hmem : (k, { n with readAt := none }) ∈ mail t' :=
    List.mem_map.mpr ⟨(k, n), Table.mem_rows.mpr hn, rfl⟩
  rw [hmail] at hmem
  rcases List.mem_append.mp hmem with hold | hmem
  · obtain ⟨⟨i, m⟩, hm, heq⟩ := List.mem_map.mp hold
    exact Or.inl ⟨i, m, Table.mem_rows.mp hm,
      congrArg (fun r : Uuid × Notification => r.2.idempotencyKey) heq⟩
  · have hkeys := List.mem_map_of_mem (f := fun r : Uuid × Notification =>
      (r.2.idempotencyKey, r.2.userId)) hmem
    rw [hnew] at hkeys
    obtain ⟨p, hp, heq⟩ := List.mem_map.mp hkeys
    exact Or.inr ⟨p, hp, (congrArg Prod.fst heq).symm⟩

end TestExchange
