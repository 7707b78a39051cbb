import TestExchange.Proof.Supply
import TestExchange.Refine.Authority

/-!
# Nobody acts for somebody else

What a request changes, its caller has a part in. Read from the other side: as
long as somebody stays away, nothing is done in his name. His rows are all there
and there are no new ones; others have at most decided what was theirs to decide,
and paid him.
-/

namespace TestExchange

open Txn Txn.Session

variable {settings : Settings} {db db₁ db' : Db} {u v id : Uuid} {s : Service} {now : Time}
  {user : CurrentUser} {request : Request}

theorem serve_permitted : Entitled settings s.db user.id (s.serve settings now user request).db := by
  unfold Service.serve
  split
  · rename_i hok
    exact handle_heeds.abided hok
  · exact .refl settings s.db user.id

/-! ## Balances -/

/-- Every balance has changed by what was entered for it. -/
def Db.BooksTo (db db' : Db) : Prop :=
  ∃ new, db'.creditLedgerEntries = db.creditLedgerEntries ++ new
    ∧ ∀ v, db'.exchange.balance v = db.exchange.balance v + earned new v

theorem earned_concat {l l' : List CreditLedgerEntry} :
    earned (l ++ l') v = earned l v + earned l' v := by
  unfold earned
  rw [List.filter_append, List.map_append, List.sum_append]

theorem serve_books (hs : Reachable settings s) :
    s.db.BooksTo (s.serve settings now user request).db := by
  have hbefore := (ledgerInv_possible (reachable_possible hs)).booked.balances
  have hafter := (ledgerInv_possible (reachable_possible (hs.tail now user request))).booked.balances
  have hpermitted : Entitled settings s.db user.id (s.serve settings now user request).db :=
    serve_permitted
  obtain ⟨new, hnew, -⟩ := hpermitted.ledger
  refine ⟨new, hnew, fun v => ?_⟩
  calc (s.serve settings now user request).db.exchange.balance v
      = earned (s.serve settings now user request).db.creditLedgerEntries v := hafter v
    _ = earned s.db.creditLedgerEntries v + earned new v := by rw [hnew, earned_concat]
    _ = s.db.exchange.balance v + earned new v := by rw [hbefore v]; rfl

/--
**A request changes nothing its caller may not change**, in any state and at any
time; and the service being run from the start, it moves no credits but by the
entries its caller may make.
-/
theorem serve_entitled (settings : Settings) (s : Service) (now : Time) (user : CurrentUser)
    (request : Request) :
    Entitled settings s.db user.id (s.serve settings now user request).db
      ∧ (Reachable settings s → s.db.BooksTo (s.serve settings now user request).db) :=
  ⟨serve_permitted, serve_books⟩

/-- The owner approves the waiting work, and pays for it. -/
theorem serve_entitled_approval :
    let s := waitingService.serve benchSettings 0 ⟨1, none⟩ (.review 12 ⟨.approved, "A fine bench"⟩)
    waitingService.db.exchange.balance 2 < s.db.exchange.balance 2
      ∧ Entitled benchSettings waitingService.db 1 s.db ∧ waitingService.db.BooksTo s.db := by
  have hreachable : Reachable benchSettings waitingService := reachable_run .init _
  obtain ⟨hentitled, hbooks⟩ := serve_entitled benchSettings waitingService 0 ⟨1, none⟩
    (.review 12 ⟨.approved, "A fine bench"⟩)
  exact ⟨by decide +kernel, hentitled, hbooks hreachable⟩

/-! ## Staying away -/

/-- What others do to somebody's campaign: settle its last work. -/
def Campaign.LeftTo (c d : Campaign) : Prop := d = c ∨ d = { c with status := .completed }

/-- What others do to somebody's assignment: decide about it. -/
structure Assignment.LeftTo (a b : Assignment) : Prop where
  campaign : b.campaignId = a.campaignId
  tester : b.testerId = a.testerId
  note : b.applicationNote = a.applicationNote
  status : b.status = a.status
    ∨ b.status ∈ [AssignmentStatus.accepted, .cancelled, .approved, .changesRequested, .rejected]

/-- What others do to somebody's submission: give it a status. -/
def EvidenceSubmission.LeftTo (e f : EvidenceSubmission) : Prop := f = { e with status := f.status }

/-- What others do to somebody's evidence: delete the task it is linked to. -/
def EvidenceItem.LeftTo (i j : EvidenceItem) : Prop := j = i ∨ j = { i with taskId := none }

/-- What others do to somebody's dispute: anything but write it anew. -/
def Dispute.LeftTo (d e : Dispute) : Prop :=
  e.assignmentId = d.assignmentId ∧ e.submissionId = d.submissionId ∧ e.reason = d.reason

/-- The task belongs to a contract of a campaign of the user. -/
def Db.Assigns (db : Db) (u : Uuid) (t : ContractTask) : Prop :=
  ∃ k, db.testingContracts.get? t.contractId = some k ∧ db.Owns u k.campaignId

/-- The item belongs to a submission of the user. -/
def Db.HandsIn (db : Db) (u : Uuid) (i : EvidenceItem) : Prop :=
  ∃ e, db.evidenceSubmissions.get? i.submissionId = some e ∧ db.Tests u e.assignmentId

/-- **Nothing was done in the user's name.** -/
structure Untouched (v : Uuid) (db db' : Db) : Prop where
  profile : Table.Spared (fun k _ => k = v) Profile.SamePerson db.profiles db'.profiles
  campaigns : Table.Spared (fun _ c => c.ownerId = v) Campaign.LeftTo db.campaigns db'.campaigns
  contracts : Table.Spared (fun _ k => db.Owns v k.campaignId) Eq db.testingContracts
    db'.testingContracts
  tasks : Table.Spared (fun _ t => db.Assigns v t) Eq db.contractTasks db'.contractTasks
  assignments : Table.Spared (fun _ a => a.testerId = v) Assignment.LeftTo db.assignments
    db'.assignments
  sessions : Table.Spared (fun _ t => db.Tests v t.assignmentId) Eq db.testingSessions
    db'.testingSessions
  submissions : Table.Spared (fun _ e => db.Tests v e.assignmentId) EvidenceSubmission.LeftTo
    db.evidenceSubmissions db'.evidenceSubmissions
  items : Table.Spared (fun _ i => db.HandsIn v i) EvidenceItem.LeftTo db.evidenceItems
    db'.evidenceItems
  messages : Table.Spared (fun _ m => m.senderId = v) Eq db.messages db'.messages
  reviews : Table.Spared (fun _ r => r.reviewerId = v) Eq db.reviews db'.reviews
  opened : Table.Spared (fun _ d => d.openedBy = v) Dispute.LeftTo db.disputes db'.disputes
  /-- No dispute is claimed or resolved for him. -/
  assigned : ∀ k e, db'.disputes.get? k = some e → e.assignedTo = some v →
    ∃ d, db.disputes.get? k = some d ∧ d.assignedTo = some v
  resolved : ∀ k e, db'.disputes.get? k = some e → e.resolvedBy = some v →
    ∃ d, db.disputes.get? k = some d ∧ d.resolvedBy = some v
  /-- What he was told is as he left it, read or unread. -/
  notified : ∀ k x, db.notifications.get? k = some x → x.userId = v →
    db'.notifications.get? k = some x
  /-- He is rewarded, and neither charged nor named as the one who moves credits. -/
  ledger : Appends (fun e => e.createdBy ≠ some v ∧ (e.userId = v → 0 ≤ e.delta))
    db.creditLedgerEntries db'.creditLedgerEntries
  events : Appends (fun e => e.actorId ≠ some v) db.auditEvents db'.auditEvents

/-! ### One request -/

theorem owns_or_new {c : Uuid} (h : db.OwnsOrNew u c) (hv : db.Owns v c) : u = v := by
  obtain ⟨x, hx, rfl⟩ := hv
  exact (h x hx).symm

theorem tests_once {i : Uuid} (h : db.Tests u i) (hv : db.Tests v i) : u = v := by
  obtain ⟨a, ha, rfl⟩ := h
  obtain ⟨b, hb, rfl⟩ := hv
  rw [ha] at hb
  cases hb
  rfl

theorem ownsTask_once {t : ContractTask} (h : db.OwnsTask u t) (hv : db.Assigns v t) : u = v := by
  obtain ⟨k, hk, howns⟩ := hv
  exact owns_or_new (h k hk) howns

theorem Profile.SamePerson.refl (p : Profile) : p.SamePerson p := ⟨rfl, rfl, rfl, rfl, rfl⟩

theorem Assignment.LeftTo.refl (a : Assignment) : a.LeftTo a := ⟨rfl, rfl, rfl, .inl rfl⟩

theorem Dispute.LeftTo.refl (d : Dispute) : d.LeftTo d := ⟨rfl, rfl, rfl⟩

/-- **Who is not the caller is left alone.** -/
theorem Entitled.untouched (h : Entitled settings db u db') (hne : u ≠ v) : Untouched v db db' where
  profile := by
    refine h.profiles.spared Profile.SamePerson.refl ?_ ?_ fun _ _ => False.elim
    · rintro k p q ⟨hperson, -⟩ (rfl | rfl)
      · exact ⟨rfl, rfl, hperson.resolve_right (Ne.symm hne)⟩
      · exact ⟨rfl, rfl, hperson.resolve_right (Ne.symm hne)⟩
    · rintro k p ⟨rfl, -⟩ hk
      exact hne hk
  campaigns := by
    refine h.campaigns.spared (fun _ => .inl rfl) ?_ ?_ fun _ _ => False.elim
    · rintro k c d ⟨howner, -, -, hwho⟩ hv
      have hc : c.ownerId = v := by
        rcases hv with hc | hd
        · exact hc
        · exact howner.symm.trans hd
      refine ⟨hc, howner.trans hc, ?_⟩
      rcases hwho with hu | ⟨hdone, -⟩
      · exact absurd (hu.symm.trans hc) hne
      · exact .inr hdone
    · intro k c hu hv
      exact hne (hu.symm.trans hv)
  contracts := by
    refine h.contracts.spared (fun _ => rfl) ?_ ?_ fun _ _ => False.elim
    · rintro k x y ⟨hsame, hown⟩ hv
      rw [hsame, or_self] at hv
      exact absurd (owns_or_new hown hv) hne
    · exact fun k x hown hv => hne (owns_or_new hown hv)
  tasks := by
    refine h.tasks.spared (fun _ => rfl) ?_ ?_ ?_
    · rintro k x y ⟨hx, hy⟩ (hv | hv)
      · exact absurd (ownsTask_once hx hv) hne
      · exact absurd (ownsTask_once hy hv) hne
    · exact fun k x hx hv => hne (ownsTask_once hx hv)
    · exact fun k x hx hv => hne (ownsTask_once hx hv)
  assignments := by
    refine h.assignments.spared Assignment.LeftTo.refl ?_ ?_ fun _ _ => False.elim
    · rintro k a b ⟨hcampaign, htester, hnote, hwho⟩ hv
      rw [htester, or_self] at hv
      refine ⟨hv, htester.trans hv, hcampaign, htester, hnote, .inr ?_⟩
      rcases hwho with ⟨hu, -⟩ | ⟨-, hstatus⟩ | ⟨-, hstatus⟩
      · exact absurd (hu.symm.trans hv) hne
      · exact hstatus
      · simp only [List.mem_cons, List.not_mem_nil, or_false] at hstatus ⊢
        tauto
    · rintro k a ⟨hu, -⟩ hv
      exact hne (hu.symm.trans hv)
  sessions := by
    refine h.sessions.spared (fun _ => rfl) (fun _ _ _ => False.elim) ?_ fun _ _ => False.elim
    exact fun k t hu hv => hne (tests_once hu hv)
  submissions := by
    refine h.submissions.spared (fun _ => rfl) ?_ ?_ fun _ _ => False.elim
    · rintro k e f ⟨hsame, -⟩ hv
      have hof : f.assignmentId = e.assignmentId := by rw [hsame]
      rw [hof, or_self] at hv
      exact ⟨hv, by rw [hof]; exact hv, hsame⟩
    · rintro k e ⟨hu, -⟩ hv
      exact hne (tests_once hu hv)
  items := by
    refine h.items.spared (fun _ => .inl rfl) ?_ ?_ fun _ _ => False.elim
    · rintro k i j ⟨hsame, -⟩ hv
      have hof : db.HandsIn v j ↔ db.HandsIn v i := by
        unfold Db.HandsIn
        rw [hsame]
      rw [hof, or_self] at hv
      exact ⟨hv, hof.mpr hv, .inr hsame⟩
    · rintro k i hnew ⟨e, he, -⟩
      rw [hnew] at he
      cases he
  messages := by
    refine h.messages.spared (fun _ => rfl) (fun _ _ _ => False.elim) ?_ fun _ _ => False.elim
    exact fun k m hu hv => hne (hu.1.symm.trans hv)
  reviews := by
    refine h.reviews.spared (fun _ => rfl) (fun _ _ _ => False.elim) ?_ fun _ _ => False.elim
    exact fun k r hu hv => hne (hu.1.symm.trans hv)
  opened := by
    refine h.disputes.spared Dispute.LeftTo.refl ?_ ?_ fun _ _ => False.elim
    · rintro k d e ⟨h₁, h₂, hopener, h₄, -⟩ hv
      rw [hopener, or_self] at hv
      exact ⟨hv, hopener.trans hv, h₁, h₂, h₄⟩
    · rintro k d ⟨hu, -⟩ hv
      exact hne (hu.symm.trans hv)
  assigned := by
    intro k e he hto
    cases hd : db.disputes.get? k with
    | none =>
        obtain ⟨-, -, hnobody, -⟩ := h.disputes.of_none hd he
        rw [hnobody] at hto
        cases hto
    | some d =>
        rcases h.disputes.of_some hd he with rfl | ⟨-, -, -, -, -, hu, -⟩
        · exact ⟨_, rfl, hto⟩
        · exact absurd (Option.some.inj (hu.symm.trans hto)) hne
  resolved := by
    intro k e he hby
    cases hd : db.disputes.get? k with
    | none =>
        obtain ⟨-, -, -, hnobody, -⟩ := h.disputes.of_none hd he
        rw [hnobody] at hby
        cases hby
    | some d =>
        rcases h.disputes.of_some hd he with rfl | ⟨-, -, -, -, -, -, ⟨-, -, hsame⟩ | ⟨-, -, hu⟩⟩
        · exact ⟨_, rfl, hby⟩
        · exact ⟨d, rfl, hsame.symm.trans hby⟩
        · exact absurd (Option.some.inj (hu.symm.trans hby)) hne
  notified := by
    intro k x hx hv
    obtain ⟨y, hy⟩ := h.notifications.kept (fun _ _ => not_false) hx
    rcases h.notifications.of_some hx hy with rfl | ⟨hu, -⟩
    · exact hy
    · exact absurd (hu.symm.trans hv) hne
  ledger := by
    refine h.ledger.mono ?_
    rintro e ⟨hby, hwhy⟩
    refine ⟨fun hv => hne (Option.some.inj (hby.symm.trans hv)), fun hv => ?_⟩
    rcases hwhy with ⟨hu, -⟩ | ⟨hu, -⟩ | ⟨-, i, a, c, -, -, -, hdelta, -⟩
    · exact absurd (hu.symm.trans hv) hne
    · exact absurd (hu.symm.trans hv) hne
    · rw [hdelta]
      exact Int.natCast_nonneg _
  events := h.events.mono fun e hu hv => hne (Option.some.inj (hu.symm.trans hv))

/-! ### A run of requests -/

section Runs

theorem Campaign.LeftTo.trans {c d e : Campaign} (h : c.LeftTo d) (h' : d.LeftTo e) : c.LeftTo e := by
  rcases h with rfl | rfl
  · exact h'
  · rcases h' with rfl | rfl
    · exact .inr rfl
    · exact .inr rfl

theorem Assignment.LeftTo.trans {a b c : Assignment} (h : a.LeftTo b) (h' : b.LeftTo c) :
    a.LeftTo c := by
  refine ⟨h'.campaign.trans h.campaign, h'.tester.trans h.tester, h'.note.trans h.note, ?_⟩
  rcases h'.status with hsame | hdecided
  · rw [hsame]
    exact h.status
  · exact .inr hdecided

theorem EvidenceSubmission.LeftTo.trans {d e f : EvidenceSubmission} (h : d.LeftTo e)
    (h' : e.LeftTo f) : d.LeftTo f := by
  unfold LeftTo at *
  rw [h', h]

theorem EvidenceItem.LeftTo.trans {i j k : EvidenceItem} (h : i.LeftTo j) (h' : j.LeftTo k) :
    i.LeftTo k := by
  rcases h with rfl | rfl
  · exact h'
  · rcases h' with rfl | rfl
    · exact .inr rfl
    · exact .inr rfl

theorem Dispute.LeftTo.trans {d e f : Dispute} (h : d.LeftTo e) (h' : e.LeftTo f) : d.LeftTo f :=
  ⟨h'.1.trans h.1, h'.2.1.trans h.2.1, h'.2.2.trans h.2.2⟩

namespace Untouched

variable (h : Untouched v db db₁)

include h

/-! What is his now is what was his before. -/

theorem owns_iff {c : Uuid} : db.Owns v c ↔ db₁.Owns v c := h.campaigns.exists_iff

theorem tests_iff {i : Uuid} : db.Tests v i ↔ db₁.Tests v i := h.assignments.exists_iff

theorem assigns_iff {t : ContractTask} : db.Assigns v t ↔ db₁.Assigns v t := by
  refine h.contracts.exists_iff.trans ?_
  unfold Db.Assigns
  simp only [h.owns_iff]

theorem handsIn_iff {i : EvidenceItem} : db.HandsIn v i ↔ db₁.HandsIn v i := by
  refine h.submissions.exists_iff.trans ?_
  unfold Db.HandsIn
  simp only [h.tests_iff]

theorem trans (h' : Untouched v db₁ db') : Untouched v db db' where
  profile := h.profile.trans (fun _ _ _ => Profile.SamePerson.trans) h'.profile
  campaigns := h.campaigns.trans (fun _ _ _ => Campaign.LeftTo.trans) h'.campaigns
  contracts := h.contracts.trans (fun _ _ _ => Eq.trans)
    (h'.contracts.of_iff fun _ _ => h.owns_iff.symm)
  tasks := h.tasks.trans (fun _ _ _ => Eq.trans) (h'.tasks.of_iff fun _ _ => h.assigns_iff.symm)
  assignments := h.assignments.trans (fun _ _ _ => Assignment.LeftTo.trans) h'.assignments
  sessions := h.sessions.trans (fun _ _ _ => Eq.trans)
    (h'.sessions.of_iff fun _ _ => h.tests_iff.symm)
  submissions := h.submissions.trans (fun _ _ _ => EvidenceSubmission.LeftTo.trans)
    (h'.submissions.of_iff fun _ _ => h.tests_iff.symm)
  items := h.items.trans (fun _ _ _ => EvidenceItem.LeftTo.trans)
    (h'.items.of_iff fun _ _ => h.handsIn_iff.symm)
  messages := h.messages.trans (fun _ _ _ => Eq.trans) h'.messages
  reviews := h.reviews.trans (fun _ _ _ => Eq.trans) h'.reviews
  opened := h.opened.trans (fun _ _ _ => Dispute.LeftTo.trans) h'.opened
  assigned := by
    intro k e he hto
    obtain ⟨d, hd, hto'⟩ := h'.assigned k e he hto
    exact h.assigned k d hd hto'
  resolved := by
    intro k e he hby
    obtain ⟨d, hd, hby'⟩ := h'.resolved k e he hby
    exact h.resolved k d hd hby'
  notified := fun k x hx hv => h'.notified k x (h.notified k x hx hv) hv
  ledger := h.ledger.trans h'.ledger
  events := h.events.trans h'.events

end Untouched

theorem Untouched.refl (v : Uuid) (db : Db) : Untouched v db db where
  profile := .refl Profile.SamePerson.refl
  campaigns := .refl fun _ => .inl rfl
  contracts := .refl fun _ => rfl
  tasks := .refl fun _ => rfl
  assignments := .refl Assignment.LeftTo.refl
  sessions := .refl fun _ => rfl
  submissions := .refl fun _ => rfl
  items := .refl fun _ => .inl rfl
  messages := .refl fun _ => rfl
  reviews := .refl fun _ => rfl
  opened := .refl Dispute.LeftTo.refl
  assigned := fun _ e he hto => ⟨e, he, hto⟩
  resolved := fun _ e he hby => ⟨e, he, hby⟩
  notified := fun _ _ hx _ => hx
  ledger := .refl _
  events := .refl _

/-- Requests of other people. -/
def ByOthers (v : Uuid) (requests : List (Time × CurrentUser × Request)) : Prop :=
  ∀ r ∈ requests, r.2.1.id ≠ v

instance {requests : List (Time × CurrentUser × Request)} : Decidable (ByOthers v requests) :=
  inferInstanceAs (Decidable (∀ r ∈ requests, r.2.1.id ≠ v))

theorem run_untouched {requests : List (Time × CurrentUser × Request)} (h : ByOthers v requests) :
    Untouched v s.db (s.run settings requests).db := by
  induction requests generalizing s with
  | nil => exact .refl v s.db
  | cons r rest ih =>
      have hstep : Untouched v s.db (s.serve settings r.1 r.2.1 r.2.2).db :=
        serve_permitted.untouched (h r List.mem_cons_self)
      exact hstep.trans (ih fun x hx => h x (List.mem_cons_of_mem _ hx))

/-- What somebody earns does not fall as long as only rewards are added. -/
theorem earned_le {l l' : List CreditLedgerEntry}
    (h : Appends (fun e => e.createdBy ≠ some v ∧ (e.userId = v → 0 ≤ e.delta)) l l') :
    earned l v ≤ earned l' v := by
  obtain ⟨new, rfl, hnew⟩ := h
  have hgain : 0 ≤ earned new v := by
    refine List.sum_nonneg fun x hx => ?_
    obtain ⟨e, he, rfl⟩ := List.mem_map.mp hx
    obtain ⟨hmem, hv⟩ := List.mem_filter.mp he
    exact (hnew e hmem).2 (of_decide_eq_true hv)
  rw [earned_concat]
  omega

end Runs

/-- The owner approves the waiting work, and the moderator suspends its tester. -/
def benchAbsence : List (Time × CurrentUser × Request) :=
  [(0, ⟨1, none⟩, .review 12 ⟨.approved, "A fine bench"⟩),
   (0, ⟨3, none⟩, .message 8 ⟨"Where is it?"⟩),
   (0, ⟨9, none⟩, .suspend 2 ⟨"Sits on every bench"⟩)]

end TestExchange
