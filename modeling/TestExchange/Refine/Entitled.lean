import TestExchange.Refine.Endings
import TestExchange.Spec.Entitled

/-!
# The services stay within the policy

Each write, under the part the caller has in the row, keeps the database within
what he is entitled to change. A service finds out about that part before it
writes anything, so what is left of it is a list of writes that are allowed.
-/

namespace TestExchange

open Txn Txn.Session

variable {settings : Settings} {db cur : Db} {u id : Uuid}

/-- The user may do this, whatever the same request has done before. -/
abbrev Allowed (settings : Settings) (db : Db) (u : Uuid) (w : Write) : Prop :=
  Preserves (Entitled settings db u) w

theorem firstViolated_head {b : Bool} {name : String} {l : List (Bool × String)}
    (h : firstViolated ((b, name) :: l) = none) : b = false := (firstViolated_cons.mp h).1

/-- What an insert was not refused for is not there yet. -/
theorem free_of_accepted {ρ : Type} {t : Table ρ} {k : Uuid} {name : String}
    {l : List (Bool × String)} (h : firstViolated ((t.contains k, name) :: l) = none) :
    t.get? k = none := Table.contains_eq_false.mp (firstViolated_head h)

/-! ## Writes -/

section Writes

theorem allowed_event {e : AuditEvent} (he : e.actorId = some u) :
    Allowed settings db u (insertAuditEvent e) :=
  fun _ _ h => { h with events := h.events.add he }

/-! ### Profiles, seats, waitlist -/

theorem Profile.SamePerson.trans {p q r : Profile} (h : p.SamePerson q) (h' : q.SamePerson r) :
    p.SamePerson r := by
  unfold SamePerson at *
  simp [h, h']

theorem Profile.SameStanding.trans {p q r : Profile} (h : p.SameStanding q)
    (h' : q.SameStanding r) : p.SameStanding r := by
  unfold SameStanding at *
  simp [h, h']

theorem allowed_insertProfile {p : Profile} (hp : p.isSuspended = false) :
    Allowed settings db u (insertProfile u p) := by
  intro cur hv h
  refine { h with profiles := ?_ }
  exact h.profiles.insert_new (fun _ _ => not_false) (free_of_accepted hv) fun _ => ⟨rfl, hp⟩

/-- The user saves his own profile. -/
theorem allowed_saveProfile {loaded username : String} {f : Profile → Profile}
    (hf : ∀ p : Profile, p.SameStanding (f p)) : Allowed settings db u (writeSavedProfile u loaded username f) := by
  intro cur _ h
  refine { h with profiles := h.profiles.modify ?_ ?_ }
  · rintro p q - (rfl | ⟨-, hstanding⟩)
    · exact ⟨.inr rfl, .inl (hf _)⟩
    · refine ⟨.inr rfl, ?_⟩
      rcases hstanding with hsame | ⟨hm, hself⟩
      · exact .inl (hsame.trans (hf q))
      · exact .inr ⟨hm, fun hs => hself (by rw [← (hf q).1]; exact hs)⟩
  · rintro q - ⟨-, hq⟩
    exact ⟨rfl, by rw [(hf q).1]; exact hq⟩

/-- A moderator changes the standing of a participant, and does not suspend himself. -/
theorem allowed_moderate {f : Profile → Profile} (hm : u ∈ settings.moderatorUserIds)
    (hf : ∀ p : Profile, p.SamePerson (f p)) (hself : ∀ p : Profile, (f p).isSuspended = true → id ≠ u) :
    Allowed settings db u (writeProfile id f) := by
  intro cur _ h
  refine { h with profiles := h.profiles.modify ?_ ?_ }
  · rintro p q - (rfl | ⟨hperson, -⟩)
    · exact ⟨.inl (hf _), .inr ⟨hm, hself _⟩⟩
    · refine ⟨?_, .inr ⟨hm, hself _⟩⟩
      rcases hperson with hsame | hown
      · exact .inl (hsame.trans (hf q))
      · exact .inr hown
  · rintro q - ⟨hid, -⟩
    exact ⟨hid, by simpa using fun hs => hself q hs hid⟩

/-- Seats are counted for someone who has no profile yet. -/
theorem allowed_openSeats {state : BetaProgramState} (hu : db.profiles.get? u = none) :
    Allowed settings db u (insertBetaProgramState state) :=
  fun _ _ h => { h with seats := .inr hu }

theorem allowed_takeSeat {state : BetaProgramState} (hu : db.profiles.get? u = none) :
    Allowed settings db u (writeBetaProgramState state) :=
  fun _ _ h => { h with seats := .inr hu }

theorem allowed_insertWaitlistEntry {e : WaitlistEntry} :
    Allowed settings db u (insertWaitlistEntry id e) := by
  intro cur hv h
  refine { h with waitlist := ?_ }
  exact h.waitlist.insert_new (fun _ _ => not_false) (free_of_accepted hv) fun _ => trivial

/-! ### Campaigns and contracts -/

theorem allowed_insertCampaign {c : Campaign} (hc : c.ownerId = u) :
    Allowed settings db u (insertCampaign id c) := by
  intro cur hv h
  refine { h with campaigns := ?_ }
  exact h.campaigns.insert_new (fun _ _ => not_false) (free_of_accepted hv) fun _ => hc

/-- What an owner never changes about a campaign. -/
structure KeepsCampaign (f : Campaign → Campaign) : Prop where
  owner : ∀ c, (f c).ownerId = c.ownerId
  slug : ∀ c, (f c).slug = c.slug
  platform : ∀ c, (f c).platform = c.platform

theorem keepsCampaign_status {s : CampaignStatus} : KeepsCampaign fun c => { c with status := s } :=
  ⟨fun _ => rfl, fun _ => rfl, fun _ => rfl⟩

theorem keepsCampaign_publish {s : CampaignStatus} {now : Time} :
    KeepsCampaign fun c => { c with status := s, publishedAt := some now } :=
  ⟨fun _ => rfl, fun _ => rfl, fun _ => rfl⟩

theorem edited_campaign {f : Campaign → Campaign} (hown : db.OwnsOrNew u id) (hf : KeepsCampaign f)
    (h : Entitled settings db u cur) :
    Table.Edited (campaignEdits settings db u) db.campaigns (cur.campaigns.modify id f) := by
  refine h.campaigns.modify ?_ ?_
  · rintro c d hc (rfl | ⟨howner, hslug, hplatform, -⟩)
    · exact ⟨hf.owner _, hf.slug _, hf.platform _, .inl (hown _ hc)⟩
    · exact ⟨(hf.owner d).trans howner, (hf.slug d).trans hslug, (hf.platform d).trans hplatform,
        .inl (hown c hc)⟩
  · exact fun d _ hd => (hf.owner d).trans hd

theorem allowed_editCampaign {f : Campaign → Campaign} (hown : db.OwnsOrNew u id)
    (hf : KeepsCampaign f) : Allowed settings db u (writeCampaign id f) :=
  fun _ _ h => { h with campaigns := edited_campaign hown hf h }

theorem allowed_patchCampaign {payload : CampaignUpdate} {loaded : Campaign}
    (hown : db.OwnsOrNew u id) : Allowed settings db u (patchCampaign id payload loaded) :=
  fun _ _ h =>
    { h with campaigns := edited_campaign hown ⟨fun _ => rfl, fun _ => rfl, fun _ => rfl⟩ h }

/-- Whose settling of the last work completes the campaign. -/
def Db.Settles (db : Db) (settings : Settings) (u campaignId : Uuid) : Prop :=
  ∃ i a, db.assignments.get? i = some a ∧ a.campaignId = campaignId
    ∧ (a.testerId = u ∨ db.Judges settings u i)

theorem allowed_complete (h : db.OwnsOrNew u id ∨ db.Settles settings u id) :
    Allowed settings db u (writeCampaign id fun c => { c with status := .completed }) := by
  rcases h with hown | hsettles
  · exact allowed_editCampaign hown keepsCampaign_status
  · intro cur _ h
    refine { h with campaigns := h.campaigns.modify ?_ ?_ }
    · rintro c d - (rfl | ⟨howner, hslug, hplatform, hwho⟩)
      · exact ⟨rfl, rfl, rfl, .inr ⟨rfl, hsettles⟩⟩
      · refine ⟨howner, hslug, hplatform, ?_⟩
        rcases hwho with hself | ⟨rfl, -⟩
        · exact .inl hself
        · exact .inr ⟨rfl, hsettles⟩
    · exact fun d _ hd => hd

theorem allowed_insertContract {k : TestingContract} (hown : db.OwnsOrNew u k.campaignId) :
    Allowed settings db u (insertTestingContract id k) := by
  intro cur hv h
  refine { h with contracts := ?_ }
  exact h.contracts.insert_new (fun _ _ => not_false) (free_of_accepted hv) fun _ => hown

/-- The contract with this key is not someone else's. -/
def Db.OwnsContract (db : Db) (u contractId : Uuid) : Prop :=
  ∀ k, db.testingContracts.get? contractId = some k → db.OwnsOrNew u k.campaignId

theorem allowed_writeContract {f : TestingContract → TestingContract} (hown : db.OwnsContract u id)
    (hf : ∀ k, (f k).campaignId = k.campaignId) :
    Allowed settings db u (writeTestingContract id f) := by
  intro cur _ h
  refine { h with contracts := h.contracts.modify ?_ ?_ }
  · rintro k l hk (rfl | ⟨hsame, -⟩)
    · exact ⟨hf _, hown _ hk⟩
    · exact ⟨(hf l).trans hsame, hown k hk⟩
  · intro l _ hl
    show db.OwnsOrNew u (f l).campaignId
    rw [hf]
    exact hl

theorem allowed_insertTask {t : ContractTask} (hown : db.OwnsContract u t.contractId) :
    Allowed settings db u (insertContractTask id t) := by
  intro cur hv h
  refine { h with tasks := h.tasks.insert (free_of_accepted hv) (fun _ => hown) ?_ }
  intro v hv'
  cases hgone : cur.contractTasks.get? id with
  | none => exact ⟨h.tasks.of_gone hv' hgone, hown⟩
  | some w =>
      rw [free_of_accepted hv] at hgone
      cases hgone

/-- The tasks of a contract are deleted, and with them the links of the evidence. -/
theorem allowed_deleteTasks {ids : List Uuid}
    (hown : ∀ i ∈ ids, ∀ t, db.contractTasks.get? i = some t → db.OwnsTask u t) :
    Allowed settings db u (deleteContractTasks ids) := by
  intro cur _ h
  refine { h with tasks := h.tasks.erase hown, items := h.items.map ?_ ?_ }
  · rintro k i j - hij
    have hkept : ∀ i : EvidenceItem, (i.taskId.filter fun taskId => taskId ∉ ids) = i.taskId
        ∨ (i.taskId.filter fun taskId => taskId ∉ ids) = none := by
      intro i
      cases i.taskId with
      | none => exact .inl rfl
      | some taskId =>
          by_cases hmem : taskId ∈ ids
          · exact .inr (by simp [hmem])
          · exact .inl (by simp [hmem])
    rcases hij with rfl | ⟨rfl, hi⟩
    · by_cases hsame : (j.taskId.filter fun taskId => taskId ∉ ids) = j.taskId
      · exact .inl (by rw [hsame])
      · have hnone := (hkept j).resolve_left hsame
        refine .inr ⟨by rw [hnone], ?_⟩
        intro taskId task ht htask
        refine hown taskId ?_ task htask
        rw [ht] at hnone
        simpa using hnone
    · exact .inr ⟨rfl, hi⟩
  · exact fun k i _ hi => hi

/-! ### Assignments and what is sent in -/

/-- What nobody changes about an assignment but its status and its times. -/
structure GivesStatus (s : AssignmentStatus) (f : Assignment → Assignment) : Prop where
  campaign : ∀ a, (f a).campaignId = a.campaignId
  tester : ∀ a, (f a).testerId = a.testerId
  note : ∀ a, (f a).applicationNote = a.applicationNote
  status : ∀ a, (f a).status = s

/-- The part in an assignment that lets the user give it a status. -/
def Db.MayDecide (db : Db) (settings : Settings) (u id : Uuid) (a : Assignment)
    (s : AssignmentStatus) : Prop :=
  a.testerId = u ∧ s ∈ [AssignmentStatus.inProgress, .submitted, .cancelled]
    ∨ db.Owns u a.campaignId
      ∧ s ∈ [AssignmentStatus.accepted, .cancelled, .approved, .changesRequested, .rejected]
    ∨ db.Judges settings u id ∧ s ∈ [AssignmentStatus.approved, .rejected]

theorem allowed_assignment {a : Assignment} {s : AssignmentStatus} {f : Assignment → Assignment}
    (ha : db.assignments.get? id = some a) (hmay : db.MayDecide settings u id a s)
    (hf : GivesStatus s f) : Allowed settings db u (writeAssignment id f) := by
  intro cur _ h
  refine { h with assignments := h.assignments.modify ?_ ?_ }
  · intro b c hb hbc
    rw [ha] at hb
    cases hb
    rw [← hf.status c] at hmay
    rcases hbc with rfl | ⟨hcampaign, htester, hnote, -⟩
    · exact ⟨hf.campaign _, hf.tester _, hf.note _, hmay⟩
    · exact ⟨(hf.campaign c).trans hcampaign, (hf.tester c).trans htester, (hf.note c).trans hnote,
        hmay⟩
  · intro b hb
    rw [ha] at hb
    cases hb

theorem allowed_insertAssignment {a : Assignment} {c : Campaign} (ha : a.testerId = u)
    (hstatus : a.status = .applied) (hc : db.campaigns.get? a.campaignId = some c)
    (hopen : c.status = .published) (hother : c.ownerId ≠ u) :
    Allowed settings db u (insertAssignment id a) := by
  intro cur hv h
  refine { h with assignments := ?_ }
  exact h.assignments.insert_new (fun _ _ => not_false) (free_of_accepted hv) fun _ =>
    ⟨ha, hstatus, c, hc, hopen, hother⟩

theorem allowed_insertSession {t : TestingSession} (htests : db.Tests u t.assignmentId) :
    Allowed settings db u (insertTestingSession id t) := by
  intro cur hv h
  refine { h with sessions := ?_ }
  exact h.sessions.insert_new (fun _ _ => not_false) (free_of_accepted hv) fun _ => htests

theorem allowed_insertSubmission {e : EvidenceSubmission} (htests : db.Tests u e.assignmentId)
    (he : e.status = .submitted) : Allowed settings db u (insertEvidenceSubmission id e) := by
  intro cur hv h
  refine { h with submissions := ?_ }
  exact h.submissions.insert_new (fun _ _ => not_false) (free_of_accepted hv) fun _ => ⟨htests, he⟩

theorem allowed_submission {e : EvidenceSubmission} {s : SubmissionStatus}
    (he : db.evidenceSubmissions.get? id = some e)
    (hmay : db.Hosts u e.assignmentId ∧ s ∈ [SubmissionStatus.approved, .changesRequested, .rejected]
      ∨ db.Judges settings u e.assignmentId ∧ s ∈ [SubmissionStatus.approved, .rejected]) :
    Allowed settings db u (writeEvidenceSubmission id fun e => { e with status := s }) := by
  intro cur _ h
  refine { h with submissions := h.submissions.modify ?_ ?_ }
  · intro b c hb hbc
    rw [he] at hb
    cases hb
    rcases hbc with rfl | ⟨hsame, -⟩
    · exact ⟨rfl, hmay⟩
    · refine ⟨?_, hmay⟩
      rw [hsame]
  · intro b hb
    rw [he] at hb
    cases hb

theorem allowed_insertItem {i : EvidenceItem} (hi : db.evidenceSubmissions.get? i.submissionId = none) :
    Allowed settings db u (insertEvidenceItem id i) := by
  intro cur hv h
  refine { h with items := ?_ }
  exact h.items.insert_new (fun _ _ => not_false) (free_of_accepted hv) fun _ => hi

theorem allowed_insertMessage {m : Message} (hsender : m.senderId = u)
    (hpart : db.Tests u m.assignmentId ∨ db.Hosts u m.assignmentId) :
    Allowed settings db u (insertMessage id m) := by
  intro cur hv h
  refine { h with messages := ?_ }
  exact h.messages.insert_new (fun _ _ => not_false) (free_of_accepted hv) fun _ => ⟨hsender, hpart⟩

/-! ### Notifications -/

theorem allowed_notification {n : Notification} (hn : n.readAt = none)
    (hto : n.userId = u ∨ db.Tells settings u n.userId) :
    Allowed settings db u (insertNotification id n) := by
  intro cur hv h
  refine { h with notifications := ?_ }
  exact h.notifications.insert_new (fun _ _ => not_false) (free_of_accepted hv) fun _ => ⟨hn, hto⟩

/-- Reading one of the user's own notifications that is still unread. -/
theorem read_edit {n o : Notification} {now : Time} (hn : n.userId = u) (hunread : n.readAt = none)
    (h : o = n ∨ (notificationEdits settings db u).changes id n o) :
    (notificationEdits settings db u).changes id n { o with readAt := some now } := by
  refine ⟨hn, hunread, rfl, ?_⟩
  rcases h with rfl | ⟨-, -, -, hsame⟩
  · rfl
  · rw [hsame]

theorem allowed_read {n : Notification} {now : Time} (h : db.notifications.get? id = some n)
    (hn : n.userId = u) (hunread : n.readAt = none) :
    Allowed settings db u (writeNotification id fun n => { n with readAt := some now }) := by
  intro cur _ hcur
  refine { hcur with notifications := hcur.notifications.modify ?_ ?_ }
  · intro m o hm hmo
    rw [h] at hm
    cases hm
    exact read_edit hn hunread hmo
  · intro o ho
    rw [h] at ho
    cases ho

theorem allowed_readAll {ids : List Uuid} {now : Time} (h : ∀ i ∈ ids, ∃ n,
    db.notifications.get? i = some n ∧ n.userId = u ∧ n.readAt = none) :
    Allowed settings db u (writeNotificationsRead ids now) := by
  intro cur _ hcur
  refine { hcur with notifications := hcur.notifications.map ?_ ?_ }
  · intro i n o hn hno
    split
    · rename_i hi
      obtain ⟨n', hn', huser, hunread⟩ := h i hi
      rw [hn] at hn'
      cases hn'
      exact .inr (read_edit huser hunread hno)
    · exact hno
  · intro i o ho hnew
    split
    · rename_i hi
      obtain ⟨n', hn', -⟩ := h i hi
      rw [ho] at hn'
      cases hn'
    · exact hnew

/-! ### Decisions and credits -/

theorem allowed_insertReview {r : Review} {e : EvidenceSubmission} (hr : r.reviewerId = u)
    (he : db.evidenceSubmissions.get? r.submissionId = some e) (hhosts : db.Hosts u e.assignmentId) :
    Allowed settings db u (insertReview id r) := by
  intro cur hv h
  refine { h with reviews := ?_ }
  exact h.reviews.insert_new (fun _ _ => not_false) (free_of_accepted hv) fun _ =>
    ⟨hr, e, he, hhosts⟩

theorem allowed_insertDispute {k : Option Uuid} {reason : String} (htests : db.Tests u id) {i : Uuid} :
    Allowed settings db u (insertDispute i
      { assignmentId := id, submissionId := k, openedBy := u, reason := reason }) := by
  intro cur hv h
  refine { h with disputes := ?_ }
  exact h.disputes.insert_new (fun _ _ => not_false) (free_of_accepted hv) fun _ =>
    ⟨rfl, rfl, rfl, rfl, htests⟩

/-- Whose account the user may add to. -/
def Db.MayCredit (db : Db) (settings : Settings) (u account : Uuid) : Prop :=
  account = u ∨ ∃ i a, db.assignments.get? i = some a ∧ a.testerId = account
    ∧ db.Pays settings u i

theorem allowed_openAccount {a : CreditAccount} (hmay : db.MayCredit settings u id) :
    Allowed settings db u (insertCreditAccount id a) := by
  intro cur hv h
  refine { h with accounts := ?_ }
  exact h.accounts.insert_new (fun _ _ => not_false) (free_of_accepted hv) fun _ => hmay

theorem allowed_writeAccount {balance : Int} (hmay : db.MayCredit settings u id) :
    Allowed settings db u (writeCreditAccount id balance) := by
  intro cur _ h
  refine { h with accounts := h.accounts.modify ?_ ?_ }
  · exact fun _ _ _ _ => hmay
  · exact fun _ _ _ => hmay

theorem allowed_entry {e : CreditLedgerEntry} (he : e.DueTo settings db u) :
    Allowed settings db u (insertCreditLedgerEntry e) :=
  fun _ _ h => { h with ledger := h.ledger.add he }

/-- An open dispute is claimed. -/
theorem allowed_claim {d : Dispute} {now : Time} (hm : u ∈ settings.moderatorUserIds)
    (h : db.disputes.get? id = some d) (hd : d.status = .open) :
    Allowed settings db u (writeDispute id u "fk_disputes_assigned_to_profiles" fun d =>
      { d with status := .underReview, assignedTo := some u, assignedAt := some now }) := by
  intro cur _ hcur
  refine { hcur with disputes := hcur.disputes.modify ?_ ?_ }
  · intro b c hb hbc
    rw [h] at hb
    cases hb
    rcases hbc with rfl | ⟨h₁, h₂, h₃, h₄, -, -, ⟨-, -, hresolver⟩ | ⟨hclaimed, -⟩⟩
    · exact ⟨rfl, rfl, rfl, rfl, hm, rfl, .inl ⟨hd, rfl, rfl⟩⟩
    · exact ⟨h₁, h₂, h₃, h₄, hm, rfl, .inl ⟨hd, rfl, hresolver⟩⟩
    · exact absurd (hd.symm.trans hclaimed) (by decide)
  · intro b hb
    rw [h] at hb
    cases hb

/-- A claimed dispute is resolved by the moderator who claimed it. -/
theorem allowed_resolve {d : Dispute} {status : DisputeStatus} {resolution : String}
    {remedy : DisputeRemedy} {now : Time} (hm : u ∈ settings.moderatorUserIds)
    (h : db.disputes.get? id = some d) (hd : d.status = .underReview)
    (hassigned : d.assignedTo = some u) :
    Allowed settings db u (writeDispute id u "disputes_resolved_by_fkey" fun d =>
      { d with
        status := status, resolution := some resolution, remedy := some remedy,
        resolvedBy := some u, resolvedAt := some now }) := by
  intro cur _ hcur
  refine { hcur with disputes := hcur.disputes.modify ?_ ?_ }
  · intro b c hb hbc
    rw [h] at hb
    cases hb
    rcases hbc with rfl | ⟨h₁, h₂, h₃, h₄, -, hto, -⟩
    · exact ⟨rfl, rfl, rfl, rfl, hm, hassigned, .inr ⟨hd, hassigned, rfl⟩⟩
    · exact ⟨h₁, h₂, h₃, h₄, hm, hto, .inr ⟨hd, hassigned, rfl⟩⟩
  · intro b hb
    rw [h] at hb
    cases hb

end Writes

end TestExchange
