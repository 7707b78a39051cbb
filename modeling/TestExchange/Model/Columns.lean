import Mathlib.Tactic.MkIffOfInductiveProp
import TestExchange.Model.Entities

/-!
# Columns of limited width

The strings that go to `String(n)` columns. PostgreSQL refuses one that is too long
with a `DataError`, which no service catches: it ends the request. SQLite takes any.

Except where a statement says so, the database of this model has no widths; what
the services write fits with few exceptions.
-/

namespace TestExchange

open Txn

-- a condition on a string and the width of the column it goes to
variable (P : Nat → String → Prop)

@[mk_iff]
structure Profile.Columns (p : Profile) : Prop where
  email : ∀ s ∈ p.email, P 320 s
  username : P 40 p.username
  displayName : P 100 p.displayName
  bio : ∀ s ∈ p.bio, P 500 s
  avatarUrl : ∀ s ∈ p.avatarUrl, P 500 s
  suspensionReason : ∀ s ∈ p.suspensionReason, P 500 s

@[mk_iff]
structure Campaign.Columns (c : Campaign) : Prop where
  name : P 120 c.name
  slug : P 140 c.slug
  category : P 80 c.category
  publicSummary : P 800 c.publicSummary
  publicTesterRequirements : P 800 c.publicTesterRequirements
  minimumVersion : ∀ s ∈ c.minimumVersion, P 80 s

@[mk_iff]
structure EvidenceItem.Columns (e : EvidenceItem) : Prop where
  storageKey : ∀ s ∈ e.storageKey, P 500 s
  externalUrl : ∀ s ∈ e.externalUrl, P 1000 s

@[mk_iff]
structure Notification.Columns (m : Notification) : Prop where
  kind : P 80 m.kind
  title : P 160 m.title
  body : P 500 m.body
  entityType : P 80 m.entityType
  idempotencyKey : P 200 m.idempotencyKey

@[mk_iff]
structure CreditLedgerEntry.Columns (e : CreditLedgerEntry) : Prop where
  referenceType : ∀ s ∈ e.referenceType, P 80 s
  note : ∀ s ∈ e.note, P 500 s
  idempotencyKey : P 200 e.idempotencyKey

@[mk_iff]
structure AuditEvent.Columns (e : AuditEvent) : Prop where
  action : P 120 e.action
  entityType : P 80 e.entityType

/-- The strings of all tables but the waitlist, which nothing that is said of widths is about. -/
@[mk_iff]
structure Db.Columns (db : Db) : Prop where
  profiles : db.profiles.All fun _ p => p.Columns P
  campaigns : db.campaigns.All fun _ c => c.Columns P
  contractTasks : db.contractTasks.All fun _ t => P 160 t.title
  assignments : db.assignments.All fun _ a => ∀ s ∈ a.applicationNote, P 1000 s
  testingSessions : db.testingSessions.All fun _ t => ∀ s ∈ t.note, P 1000 s
  evidenceItems : db.evidenceItems.All fun _ e => e.Columns P
  messages : db.messages.All fun _ m => P 4000 m.body
  notifications : db.notifications.All fun _ m => m.Columns P
  creditLedgerEntries : ∀ e ∈ db.creditLedgerEntries, e.Columns P
  auditEvents : ∀ e ∈ db.auditEvents, e.Columns P

section Decidable

variable {P} [∀ width s, Decidable (P width s)]

instance (p : Profile) : Decidable (p.Columns P) := decidable_of_iff' _ (Profile.columns_iff P p)

instance (c : Campaign) : Decidable (c.Columns P) := decidable_of_iff' _ (Campaign.columns_iff P c)

instance (e : EvidenceItem) : Decidable (e.Columns P) :=
  decidable_of_iff' _ (EvidenceItem.columns_iff P e)

instance (m : Notification) : Decidable (m.Columns P) :=
  decidable_of_iff' _ (Notification.columns_iff P m)

instance (e : CreditLedgerEntry) : Decidable (e.Columns P) :=
  decidable_of_iff' _ (CreditLedgerEntry.columns_iff P e)

instance (e : AuditEvent) : Decidable (e.Columns P) :=
  decidable_of_iff' _ (AuditEvent.columns_iff P e)

instance (db : Db) : Decidable (db.Columns P) := decidable_of_iff' _ (Db.columns_iff P db)

end Decidable

/-! ## PostgreSQL -/

/-- What a `VARCHAR(width)` takes: what is too much has to be spaces, which it cuts off. -/
def Varchar (width : Nat) (s : String) : Prop := ∀ c ∈ s.toList.drop width, c = ' '

instance (width : Nat) (s : String) : Decidable (Varchar width s) :=
  inferInstanceAs (Decidable (∀ c ∈ s.toList.drop width, c = ' '))

/-- Every string is one that its column takes. -/
abbrev Db.Held (db : Db) : Prop := db.Columns Varchar

/-- The error for a write that leaves a string its column does not take. -/
def Db.tooWide (db : Db) : Option Failure := if db.Held then none else some (.unhandled "DataError")

theorem tooWide_eq_none {db : Db} : db.tooWide = none ↔ db.Held := by
  unfold Db.tooWide
  split
  · rename_i h
    exact iff_of_true rfl h
  · rename_i h
    exact iff_of_false (by simp) h

theorem eq_of_tooWide {db : Db} {e : Failure} (h : db.tooWide = some e) :
    e = .unhandled "DataError" := by
  unfold Db.tooWide at h
  split at h
  · cases h
  · exact (Option.some.inj h).symm

end TestExchange
