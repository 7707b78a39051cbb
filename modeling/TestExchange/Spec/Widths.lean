import TestExchange.Model.Columns
import TestExchange.Model.Moderation
import TestExchange.Spec.Keys
import TestExchange.Txn.Upkeep

/-!
# Column widths

A row fits if its strings are no longer than their `String(n)` columns. Composed
texts fit if the names they are made of do, since a name and the words around it
leave room, and an identifier takes 36 characters. The numbers in them are the
tester target of a campaign, at most 100, and the version of a submission: there
are no more versions than identifiers have been drawn.

The waitlist is left out; no other table gets its strings from there.
-/

namespace TestExchange

open Txn

/-! ## Rows that fit -/

abbrev Profile.Fits (p : Profile) : Prop := p.Columns fun width s => s.length ≤ width

abbrev Campaign.Fits (c : Campaign) : Prop := c.Columns fun width s => s.length ≤ width

abbrev ContractTask.Fits (t : ContractTask) : Prop := t.title.length ≤ 160

abbrev Assignment.Fits (a : Assignment) : Prop := ∀ s ∈ a.applicationNote, s.length ≤ 1000

abbrev TestingSession.Fits (t : TestingSession) : Prop := ∀ s ∈ t.note, s.length ≤ 1000

abbrev EvidenceItem.Fits (e : EvidenceItem) : Prop := e.Columns fun width s => s.length ≤ width

abbrev Message.Fits (m : Message) : Prop := m.body.length ≤ 4000

abbrev Notification.Fits (m : Notification) : Prop := m.Columns fun width s => s.length ≤ width

abbrev CreditLedgerEntry.Fits (e : CreditLedgerEntry) : Prop :=
  e.Columns fun width s => s.length ≤ width

abbrev AuditEvent.Fits (e : AuditEvent) : Prop := e.Columns fun width s => s.length ≤ width

/-- Every string the services have stored is as wide as its column at most. -/
abbrev Db.Fits (db : Db) : Prop := db.Columns fun width s => s.length ≤ width

/-! ## What fits is taken -/

section Taken

variable {P Q : Nat → String → Prop} (hPQ : ∀ width s, P width s → Q width s)

include hPQ

theorem Profile.Columns.mono {p : Profile} (h : p.Columns P) : p.Columns Q where
  email s hs := hPQ _ _ (h.email s hs)
  username := hPQ _ _ h.username
  displayName := hPQ _ _ h.displayName
  bio s hs := hPQ _ _ (h.bio s hs)
  avatarUrl s hs := hPQ _ _ (h.avatarUrl s hs)
  suspensionReason s hs := hPQ _ _ (h.suspensionReason s hs)

theorem Campaign.Columns.mono {c : Campaign} (h : c.Columns P) : c.Columns Q where
  name := hPQ _ _ h.name
  slug := hPQ _ _ h.slug
  category := hPQ _ _ h.category
  publicSummary := hPQ _ _ h.publicSummary
  publicTesterRequirements := hPQ _ _ h.publicTesterRequirements
  minimumVersion s hs := hPQ _ _ (h.minimumVersion s hs)

theorem EvidenceItem.Columns.mono {e : EvidenceItem} (h : e.Columns P) : e.Columns Q where
  storageKey s hs := hPQ _ _ (h.storageKey s hs)
  externalUrl s hs := hPQ _ _ (h.externalUrl s hs)

theorem Notification.Columns.mono {m : Notification} (h : m.Columns P) : m.Columns Q where
  kind := hPQ _ _ h.kind
  title := hPQ _ _ h.title
  body := hPQ _ _ h.body
  entityType := hPQ _ _ h.entityType
  idempotencyKey := hPQ _ _ h.idempotencyKey

theorem CreditLedgerEntry.Columns.mono {e : CreditLedgerEntry} (h : e.Columns P) : e.Columns Q where
  referenceType s hs := hPQ _ _ (h.referenceType s hs)
  note s hs := hPQ _ _ (h.note s hs)
  idempotencyKey := hPQ _ _ h.idempotencyKey

theorem AuditEvent.Columns.mono {e : AuditEvent} (h : e.Columns P) : e.Columns Q where
  action := hPQ _ _ h.action
  entityType := hPQ _ _ h.entityType

theorem Db.Columns.mono {db : Db} (h : db.Columns P) : db.Columns Q where
  profiles := Table.All.mono h.profiles fun _ _ hp => hp.mono hPQ
  campaigns := Table.All.mono h.campaigns fun _ _ hc => hc.mono hPQ
  contractTasks := Table.All.mono h.contractTasks fun _ _ ht => hPQ _ _ ht
  assignments := Table.All.mono h.assignments fun _ _ ha s hs => hPQ _ _ (ha s hs)
  testingSessions := Table.All.mono h.testingSessions fun _ _ ht s hs => hPQ _ _ (ht s hs)
  evidenceItems := Table.All.mono h.evidenceItems fun _ _ he => he.mono hPQ
  messages := Table.All.mono h.messages fun _ _ hm => hPQ _ _ hm
  notifications := Table.All.mono h.notifications fun _ _ hm => hm.mono hPQ
  creditLedgerEntries e he := (h.creditLedgerEntries e he).mono hPQ
  auditEvents e he := (h.auditEvents e he).mono hPQ

end Taken

theorem varchar_of_length (width : Nat) (s : String) (h : s.length ≤ width) : Varchar width s := by
  intro c hc
  rw [List.drop_of_length_le h] at hc
  exact absurd hc List.not_mem_nil

/-- **PostgreSQL holds what fits.** -/
theorem held_of_fits {db : Db} (h : db.Fits) : db.Held := h.mono varchar_of_length

section Appended

variable {P : Nat → String → Prop} {db : Db}

theorem columns_insertCreditLedgerEntry {e : CreditLedgerEntry} (h : db.Columns P)
    (he : e.Columns P) : ((insertCreditLedgerEntry e).effect db).Columns P := by
  refine { h with creditLedgerEntries := fun f hf => ?_ }
  rcases List.mem_append.mp hf with hf | hf
  · exact h.creditLedgerEntries f hf
  · rw [List.mem_singleton.mp hf]
    exact he

theorem columns_insertAuditEvent {e : AuditEvent} (h : db.Columns P) (he : e.Columns P) :
    ((insertAuditEvent e).effect db).Columns P := by
  refine { h with auditEvents := fun f hf => ?_ }
  rcases List.mem_append.mp hf with hf | hf
  · exact h.auditEvents f hf
  · rw [List.mem_singleton.mp hf]
    exact he

end Appended

/-! ## Texts that fit -/

/-- UUIDs have 128 bits. -/
def uuidBound : Nat := 2 ^ 128

theorem length_str {u : Uuid} (h : u < uuidBound) : (Uuid.str u).length = 36 := by
  have hsigns : u / 16 ^ 32 = 0 := Nat.div_eq_of_lt (Nat.lt_of_lt_of_le h (by decide))
  unfold Uuid.str
  rw [hsigns, String.length_ofList]
  simp only [List.replicate_zero, List.nil_append, List.length_append, List.length_cons,
    length_hexDigits]

theorem key_fits {scope purpose : String} {u : Uuid} (h : u < uuidBound)
    (hscope : scope.length ≤ 40) (hpurpose : purpose.length ≤ 40) :
    (idempotencyKey scope u purpose).length ≤ 200 := by
  have hcolon : ":".length = 1 := by decide
  have hid := length_str h
  unfold idempotencyKey
  simp only [toString, String.length_append]
  omega

/-- Something short before or after a name. -/
theorem text_fits {s t : String} {k width : Nat} (hs : s.length ≤ k) (ht : t.length ≤ width - k)
    (hk : k ≤ width) : (toString s ++ toString t).length ≤ width := by
  simp only [toString, String.length_append]
  omega

/-- The title of a notification about a campaign. -/
theorem title_fits {lead : String} {c : Campaign} (hc : c.Fits) (hlead : lead.length ≤ 40) :
    (toString lead ++ toString c.name).length ≤ 160 := text_fits hlead hc.name (by omega)

/-- The body of a notification about a tester. -/
theorem body_fits {name rest : String} (hname : name.length ≤ 100) (hrest : rest.length ≤ 400) :
    (toString name ++ toString rest).length ≤ 500 := text_fits hname hrest (by omega)

theorem firstChars_fits {n : Nat} {s : String} : (firstChars n s).length ≤ n := by
  unfold firstChars
  rw [String.length_ofList, List.length_take]
  omega

/-- A number below `10 ^ k` has at most `k` digits. -/
theorem number_fits {v k : Nat} (hk : 0 < k) (hv : v < 10 ^ k) : (toString v).length ≤ k :=
  (Nat.length_repr_le_iff hk).mpr hv

theorem version_fits {name : String} {v : Nat} (hname : name.length ≤ 100) (hv : v ≤ uuidBound) :
    s!"{name} submitted version {v} for review.".length ≤ 500 := by
  have hdigits : (toString v).length ≤ 40 :=
    number_fits (by omega) (Nat.lt_of_le_of_lt hv (by decide))
  have hmiddle : " submitted version ".length = 19 := by decide
  have hend : " for review.".length = 12 := by decide
  have hsame : ∀ t : String, toString t = t := fun _ => rfl
  simp only [String.length_append, hsame]
  omega

theorem reviewed_fits {c : Campaign} (hc : c.Fits) (decision : ReviewDecision) :
    s!"Your {c.name} submission was {spaced decision.value}".length ≤ 160 := by
  have hlead : "Your ".length = 5 := by decide
  have hmiddle : " submission was ".length = 16 := by decide
  have hend : (spaced decision.value).length ≤ 17 := by cases decision <;> decide
  have hname := hc.name
  have hsame : ∀ t : String, toString t = t := fun _ => rfl
  simp only [String.length_append, hsame]
  omega

theorem posting_fits {c : Campaign} (hc : c.Fits) (htarget : c.targetTesters ≤ 100) :
    s!"Published {c.name}: permanent spend for {c.targetTesters} tester rewards".length ≤ 500 := by
  have hlead : "Published ".length = 10 := by decide
  have hmiddle : ": permanent spend for ".length = 22 := by decide
  have hend : " tester rewards".length = 15 := by decide
  have hdigits : (toString c.targetTesters).length ≤ 3 := number_fits (by omega) (by omega)
  have hname := hc.name
  have hsame : ∀ t : String, toString t = t := fun _ => rfl
  simp only [String.length_append, hsame]
  omega

/-! ## What is kept -/

/-- The strings fit, and so do the numbers that end up in strings. -/
structure Kept (n : Nat) (db : Db) : Prop extends toFits : db.Fits where
  bounded : n ≤ uuidBound
  campaignTerms : db.campaigns.All fun i c => i < n ∧ c.targetTesters ≤ 100
  assignmentIds : db.assignments.All fun i _ => i < n
  disputeIds : db.disputes.All fun i _ => i < n
  versions : db.evidenceSubmissions.All fun _ e => e.version ≤ n

theorem kept_empty : Kept 0 Db.empty where
  profiles := .empty
  campaigns := .empty
  contractTasks := .empty
  assignments := .empty
  testingSessions := .empty
  evidenceItems := .empty
  messages := .empty
  notifications := .empty
  creditLedgerEntries := fun e he => absurd he (by simp [Db.empty])
  auditEvents := fun e he => absurd he (by simp [Db.empty])
  bounded := Nat.zero_le _
  campaignTerms := .empty
  assignmentIds := .empty
  disputeIds := .empty
  versions := .empty

theorem kept_later (n : Nat) (db : Db) (hn : n < uuidBound) (h : Kept n db) : Kept (n + 1) db :=
  { h with
    bounded := hn
    campaignTerms := h.campaignTerms.mono fun _ _ ⟨hi, ht⟩ => ⟨Nat.lt_succ_of_lt hi, ht⟩
    assignmentIds := h.assignmentIds.mono fun _ _ hi => Nat.lt_succ_of_lt hi
    disputeIds := h.disputeIds.mono fun _ _ hi => Nat.lt_succ_of_lt hi
    versions := h.versions.mono fun _ _ hv => Nat.le_succ_of_le hv }

section Writes

variable {n : Nat} {id userId : Uuid}

theorem safe_insertProfile {p : Profile} (hp : p.Fits) : Safe Kept n (insertProfile id p) :=
  fun _ _ _ hs => { hs with profiles := hs.profiles.insert hp }

theorem safe_writeProfile {f : Profile → Profile} (hf : ∀ p : Profile, p.Fits → (f p).Fits) :
    Safe Kept n (writeProfile id f) :=
  fun _ _ _ hs => { hs with profiles := hs.profiles.modify hf }

theorem safe_writeSavedProfile {loaded username : String} {f : Profile → Profile}
    (hf : ∀ p : Profile, p.Fits → (f p).Fits) :
    Safe Kept n (writeSavedProfile id loaded username f) :=
  fun _ _ _ hs => { hs with profiles := hs.profiles.modify hf }

theorem safe_insertCampaign {c : Campaign} (hid : id < n) (hc : c.Fits)
    (htarget : c.targetTesters ≤ 100) : Safe Kept n (insertCampaign id c) :=
  fun _ hm _ hs =>
    { hs with
      campaigns := hs.campaigns.insert hc
      campaignTerms := hs.campaignTerms.insert ⟨Nat.lt_of_lt_of_le hid hm, htarget⟩ }

theorem safe_modifyCampaign {w : Write} {f : Campaign → Campaign}
    (hw : ∀ s : Db, w.effect s = { s with campaigns := s.campaigns.modify id f })
    (hf : ∀ c : Campaign, c.Fits → (f c).Fits)
    (htarget : ∀ c : Campaign, c.targetTesters ≤ 100 → (f c).targetTesters ≤ 100) :
    Safe Kept n w := by
  intro m hm s hs
  rw [hw s]
  exact { hs with
    campaigns := hs.campaigns.modify hf
    campaignTerms := hs.campaignTerms.modify fun c ⟨hi, ht⟩ => ⟨hi, htarget c ht⟩ }

/-- A change of status. -/
theorem safe_writeCampaign {f : Campaign → Campaign} (hf : ∀ c : Campaign, c.Fits → (f c).Fits)
    (htarget : ∀ c : Campaign, (f c).targetTesters = c.targetTesters) :
    Safe Kept n (writeCampaign id f) :=
  safe_modifyCampaign (fun _ => rfl) hf fun c ht => (htarget c).symm ▸ ht

theorem safe_insertContractTask {t : ContractTask} (ht : t.Fits) :
    Safe Kept n (insertContractTask id t) :=
  fun _ _ _ hs => { hs with contractTasks := hs.contractTasks.insert ht }

theorem safe_deleteContractTasks {ids : List Uuid} : Safe Kept n (deleteContractTasks ids) :=
  fun _ _ _ hs =>
    { hs with
      contractTasks := hs.contractTasks.erase
      evidenceItems := hs.evidenceItems.map fun _ _ he => ⟨he.storageKey, he.externalUrl⟩ }

theorem safe_insertAssignment {a : Assignment} (hid : id < n) (ha : a.Fits) :
    Safe Kept n (insertAssignment id a) :=
  fun _ hm _ hs =>
    { hs with
      assignments := hs.assignments.insert ha
      assignmentIds := hs.assignmentIds.insert (Nat.lt_of_lt_of_le hid hm) }

/-- A change of status or of a time. -/
theorem safe_writeAssignment {f : Assignment → Assignment}
    (hf : ∀ a : Assignment, (f a).applicationNote = a.applicationNote) :
    Safe Kept n (writeAssignment id f) := by
  intro m hm s hs
  have hfits : ∀ a : Assignment, a.Fits → (f a).Fits := by
    intro a ha
    unfold Assignment.Fits
    rw [hf a]
    exact ha
  exact { hs with
    assignments := hs.assignments.modify hfits
    assignmentIds := hs.assignmentIds.modify fun _ hi => hi }

theorem safe_insertTestingSession {t : TestingSession} (ht : t.Fits) :
    Safe Kept n (insertTestingSession id t) :=
  fun _ _ _ hs => { hs with testingSessions := hs.testingSessions.insert ht }

theorem safe_insertEvidenceSubmission {e : EvidenceSubmission} (he : e.version ≤ n) :
    Safe Kept n (insertEvidenceSubmission id e) :=
  fun _ hm _ hs => { hs with versions := hs.versions.insert (Nat.le_trans he hm) }

theorem safe_writeEvidenceSubmission {f : EvidenceSubmission → EvidenceSubmission}
    (hf : ∀ e : EvidenceSubmission, (f e).version = e.version) :
    Safe Kept n (writeEvidenceSubmission id f) :=
  fun _ _ _ hs => { hs with versions := hs.versions.modify fun e he => (hf e).symm ▸ he }

theorem safe_insertEvidenceItem {e : EvidenceItem} (he : e.Fits) :
    Safe Kept n (insertEvidenceItem id e) :=
  fun _ _ _ hs => { hs with evidenceItems := hs.evidenceItems.insert he }

theorem safe_insertMessage {m : Message} (hm : m.Fits) : Safe Kept n (insertMessage id m) :=
  fun _ _ _ hs => { hs with messages := hs.messages.insert hm }

theorem safe_insertNotification {m : Notification} (hm : m.Fits) :
    Safe Kept n (insertNotification id m) :=
  fun _ _ _ hs => { hs with notifications := hs.notifications.insert hm }

theorem Notification.Columns.read {P : Nat → String → Prop} {m : Notification} (h : m.Columns P)
    {t : Option Time} : Notification.Columns P { m with readAt := t } :=
  ⟨h.kind, h.title, h.body, h.entityType, h.idempotencyKey⟩

theorem safe_writeNotification {now : Time} :
    Safe Kept n (writeNotification id fun m => { m with readAt := some now }) :=
  fun _ _ _ hs => { hs with notifications := hs.notifications.modify fun _ hm => hm.read }

theorem safe_writeNotificationsRead {ids : List Uuid} {now : Time} :
    Safe Kept n (writeNotificationsRead ids now) := by
  intro m hm s hs
  refine { hs with notifications := hs.notifications.map fun k r hr => ?_ }
  split
  · exact hr.read
  · exact hr

theorem safe_insertCreditLedgerEntry {e : CreditLedgerEntry} (he : e.Fits) :
    Safe Kept n (insertCreditLedgerEntry e) :=
  fun _ _ _ hs => { hs with toFits := columns_insertCreditLedgerEntry hs.toFits he }

theorem safe_insertDispute {d : Dispute} (hid : id < n) : Safe Kept n (insertDispute id d) :=
  fun _ hm _ hs => { hs with disputeIds := hs.disputeIds.insert (Nat.lt_of_lt_of_le hid hm) }

theorem safe_writeDispute {fkey : String} {f : Dispute → Dispute} :
    Safe Kept n (writeDispute id userId fkey f) :=
  fun _ _ _ hs => { hs with disputeIds := hs.disputeIds.modify fun _ hi => hi }

theorem safe_insertAuditEvent {e : AuditEvent} (he : e.Fits) :
    Safe Kept n (insertAuditEvent e) :=
  fun _ _ _ hs => { hs with toFits := columns_insertAuditEvent hs.toFits he }

/-- A write to tables without columns of limited width. -/
theorem safe_other {w : Write}
    (hw : ∀ s : Db, ∃ state entries contracts reviews accounts, w.effect s =
      { s with
        betaProgramState := state, waitlistEntries := entries, testingContracts := contracts
        reviews := reviews, creditAccounts := accounts }) : Safe Kept n w := by
  intro m hm s hs
  obtain ⟨_, _, _, _, _, hs'⟩ := hw s
  rw [hs']
  exact { hs with }

end Writes

end TestExchange
