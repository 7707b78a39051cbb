import TestExchange.Proof.Joinable
import TestExchange.Proof.Progress
import TestExchange.Refine.Answers
import TestExchange.Refine.Refusals
import TestExchange.Spec.Entitled
import TestExchange.Txn.Answers

/-!
# Who may read what

The permissions of the routes that only read, as one policy: which state of the
database makes a route answer, and whom. The rows that a route goes through on its
way to the answer all refer to rows that are there, so nothing but the policy can
keep it from answering.
-/

namespace TestExchange

open Txn Txn.Session

variable {settings : AppSettings} {user : CurrentUser} {s : Service} {db : Db} {now n : Nat}
  {id u : Uuid}

/-! ## The policy -/

/-- The user tests the assignment or hosts it. -/
def Db.TakesPart (db : Db) (u assignmentId : Uuid) : Prop :=
  db.Tests u assignmentId ∨ db.Hosts u assignmentId

/-- The assignment behind a submission is one the user takes part in. -/
def Db.Sees (db : Db) (u submissionId : Uuid) : Prop :=
  ∃ e, db.evidenceSubmissions.get? submissionId = some e ∧ db.TakesPart u e.assignmentId

/--
Who may read. Anybody may look at what is advertised, whoever takes part in an
assignment at everything about it, the tester at the contract only once accepted,
and moderators at the cases.
-/
def Query.Readable (settings : Settings) (db : Db) (u : Uuid) : Query → Prop
  | .health | .ready | .betaStatus | .publicCampaigns => True
  | .publicCampaign slug => ∃ id c, db.campaigns.get? id = some c ∧ c.slug = slug ∧ db.Recruits id c
  | .capabilities | .mine | .assignments | .disputes | .notifications => ¬db.Suspended u
  | .profile | .ledger => db.InGoodStanding u
  | .contract id =>
      ¬db.Suspended u ∧ db.Owns u id ∧ ∃ contract, db.contractOf id = some contract
  | .assignment id | .assignmentCampaign id | .testingSessions id | .submissions id | .messages id
  | .audit id => ¬db.Suspended u ∧ db.TakesPart u id
  | .assignmentContract id =>
      ¬db.Suspended u ∧ (db.Hosts u id
        ∨ ∃ a, db.assignments.get? id = some a ∧ a.testerId = u ∧ a.acceptedAt ≠ none)
  | .submission id | .submissionQualityCheck id | .reviews id => ¬db.Suspended u ∧ db.Sees u id
  | .moderationDisputes _ | .participants | .waitlist => db.Moderates settings u
  | .disputeCase id => db.Moderates settings u ∧ ∃ d, db.disputes.get? id = some d

/-- Rows refer to rows that are there, and slugs tell campaigns apart. -/
structure Db.Joined (db : Db) : Prop where
  hosted : ∀ id a, db.assignments.get? id = some a →
    ∃ x, db.campaigns.get? a.campaignId = some x ∧ x.ownerId ≠ a.testerId
  agreed : ∀ id a, db.assignments.get? id = some a →
    ∃ contract, db.contractOf a.campaignId = some contract
  handedIn : ∀ k e, db.evidenceSubmissions.get? k = some e →
    ∃ a, db.assignments.get? e.assignmentId = some a
  disputed : ∀ i d, db.disputes.get? i = some d →
    ∃ a k e, db.assignments.get? d.assignmentId = some a ∧ d.submissionId = some k
      ∧ db.evidenceSubmissions.get? k = some e ∧ e.assignmentId = d.assignmentId
  slugged : db.Slugged

theorem joined_reachable {settings : Settings} (h : Reachable settings s) : s.db.Joined where
  hosted := by
    intro id a ha
    obtain ⟨x, hx, -, howner⟩ := (ledgerInv_possible (reachable_possible h)).assigned id a ha
    exact ⟨x, hx, howner⟩
  agreed := by
    intro id a ha
    obtain ⟨x, hx, hopen, -⟩ := (ledgerInv_possible (reachable_possible h)).assigned id a ha
    obtain ⟨k, terms, hterms, hof⟩ := (fulfillable_reachable h).agreed a.campaignId x hx hopen
    exact ⟨_, (contractOf_eq_some (contractInv_reachable h)).mpr ⟨hterms, hof⟩⟩
  handedIn := (caseInv_possible (reachable_possible h)).owned
  disputed := by
    intro i d hd
    obtain ⟨a, k, e, hcase⟩ := (caseInv_possible (reachable_possible h)).disputed i d hd
    exact ⟨a, k, e, hcase.ha, hcase.submission, hcase.he, hcase.hof⟩
  slugged := slugged_reachable h

/-! ## What the lookups find -/

section Lookups

variable {c c' : Conn} {a : Assignment}

/-- Whoever is let through as a participant takes part. -/
theorem takesPart_iff (h : db.Joined) (ha : db.assignments.get? id = some a) :
    db.TakesPart u id ↔ ∃ x, db.campaigns.get? a.campaignId = some x
      ∧ ¬(u ≠ a.testerId ∧ u ≠ x.ownerId) := by
  obtain ⟨x, hx, -⟩ := h.hosted id a ha
  constructor
  · rintro (⟨b, hb, rfl⟩ | ⟨b, hb, y, hy, rfl⟩)
    · rw [ha] at hb
      cases hb
      exact ⟨x, hx, fun hno => hno.1 rfl⟩
    · rw [ha] at hb
      cases hb
      exact ⟨y, hy, fun hno => hno.2 rfl⟩
  · rintro ⟨y, hy, hno⟩
    by_cases htester : u = a.testerId
    · exact .inl ⟨a, ha, htester.symm⟩
    · have howner : u = y.ownerId := by
        by_contra hne
        exact hno ⟨htester, hne⟩
      exact .inr ⟨a, ha, y, hy, howner.symm⟩

theorem getOwnAssignment_ok (h : c.db.Joined) :
    (getOwnAssignment id u).alone now c = .ok (a, c')
      ↔ c.db.assignments.get? id = some a ∧ c.db.TakesPart u id ∧ c' = c := by
  simp only [getOwnAssignment, alone_bind, getAssignment_ok, requireAssignmentParticipant_ok,
    alone_pure, and_assoc, exists_and_left, exists_eq_left]
  constructor
  · rintro ⟨b, hb, x, hx, hparty, rfl, rfl⟩
    exact ⟨hb, (takesPart_iff h hb).mpr ⟨x, hx, hparty⟩, rfl⟩
  · rintro ⟨ha, hpart, rfl⟩
    obtain ⟨x, hx, hparty⟩ := (takesPart_iff h ha).mp hpart
    exact ⟨a, ha, x, hx, hparty, rfl, rfl⟩

theorem getSubmission_ok (h : c.db.Joined) {r : EvidenceSubmission × List (Uuid × EvidenceItem)} :
    (getSubmission id u).alone now c = .ok (r, c')
      ↔ c.db.evidenceSubmissions.get? id = some r.1 ∧ c.db.TakesPart u r.1.assignmentId
        ∧ r.2 = c.db.itemsOf id ∧ c' = c := by
  simp only [getSubmission, alone_bind, alone_query, alone_orRaise, getAssignment_ok,
    requireAssignmentParticipant_ok, alone_pure, and_assoc, exists_and_left, exists_eq_left]
  constructor
  · rintro ⟨e, he, b, hb, x, hx, hparty, rfl, rfl⟩
    exact ⟨he, (takesPart_iff h hb).mpr ⟨x, hx, hparty⟩, rfl, rfl⟩
  · rintro ⟨he, hpart, hitems, rfl⟩
    obtain ⟨b, hb⟩ := h.handedIn id r.1 he
    obtain ⟨x, hx, hparty⟩ := (takesPart_iff h hb).mp hpart
    exact ⟨r.1, he, b, hb, x, hx, hparty, by rw [← hitems], rfl⟩

/-- Submissions that are all of one assignment are all shown. -/
theorem submissionResponses_answers (h : c.db.Joined) (hpart : c.db.TakesPart u id)
    {records : List (Uuid × EvidenceSubmission)}
    (hrecords : ∀ r ∈ records,
      c.db.evidenceSubmissions.get? r.1 = some r.2 ∧ r.2.assignmentId = id) :
    (submissionResponses u records).alone now c
      = .ok (records.map fun r => submissionRead r.1 r.2 (c.db.itemsOf r.1), c) := by
  induction records with
  | nil => rfl
  | cons record records ih =>
      -- each submission is looked up once more, and its participants are checked again
      obtain ⟨hrecord, hof⟩ := hrecords record List.mem_cons_self
      have hfirst : (submissionResponse record.1 u).alone now c
          = .ok (submissionRead record.1 record.2 (c.db.itemsOf record.1), c) := by
        refine alone_bind.mpr ⟨(record.2, c.db.itemsOf record.1), c, ?_, rfl⟩
        exact (getSubmission_ok h).mpr ⟨hrecord, hof ▸ hpart, rfl, rfl⟩
      have hrest := ih fun r hr => hrecords r (List.mem_cons_of_mem _ hr)
      exact alone_bind.mpr ⟨_, c, hfirst, alone_bind.mpr ⟨_, c, hrest, rfl⟩⟩

/-! ### Which of them answer -/

variable {α β : Type} {f : α → Session β}

theorem answers_active {g : Unit → Session β} :
    Answers (getActiveUser user >>= g) now c ↔ ¬c.db.Suspended user.id ∧ Answers (g ()) now c := by
  rw [answers_bind_iff fun _ _ => getActiveUser_ok]
  exact ⟨fun ⟨_, h⟩ => h, fun h => ⟨(), h⟩⟩

theorem answers_moderator {settings : Settings} {g : Unit → Session β} :
    Answers (getModerator settings user >>= g) now c
      ↔ c.db.Moderates settings user.id ∧ Answers (g ()) now c := by
  have hmay : ∀ x c', (getModerator settings user).alone now c = .ok (x, c')
      ↔ c.db.Moderates settings user.id ∧ c' = c := by
    intro x c'
    rw [getModerator_iff, Db.Moderates, and_assoc]
  rw [answers_bind_iff hmay]
  exact ⟨fun ⟨_, h⟩ => h, fun h => ⟨(), h⟩⟩

theorem answers_own (h : c.db.Joined) {g : Assignment → Session β} :
    Answers (getOwnAssignment id u >>= g) now c
      ↔ c.db.TakesPart u id ∧ ∃ a, c.db.assignments.get? id = some a ∧ Answers (g a) now c := by
  have hown : ∀ a c', (getOwnAssignment id u).alone now c = .ok (a, c')
      ↔ (c.db.assignments.get? id = some a ∧ c.db.TakesPart u id) ∧ c' = c := by
    intro a c'
    rw [getOwnAssignment_ok h, and_assoc]
  rw [answers_bind_iff hown]
  constructor
  · rintro ⟨a, ⟨ha, hpart⟩, hrest⟩
    exact ⟨hpart, a, ha, hrest⟩
  · rintro ⟨hpart, a, ha, hrest⟩
    exact ⟨a, ⟨ha, hpart⟩, hrest⟩

theorem Db.TakesPart.assigned {db : Db} (h : db.TakesPart u id) :
    ∃ a, db.assignments.get? id = some a := by
  rcases h with ⟨a, ha, -⟩ | ⟨a, ha, -⟩
  · exact ⟨a, ha⟩
  · exact ⟨a, ha⟩

/-- Past the participants, nothing else is asked. -/
theorem answers_own_total (h : c.db.Joined) {g : Assignment → Session β}
    (hg : ∀ a, c.db.assignments.get? id = some a → Answers (g a) now c) :
    Answers (getOwnAssignment id u >>= g) now c ↔ c.db.TakesPart u id := by
  rw [answers_own h]
  constructor
  · exact fun hyes => hyes.1
  · intro hpart
    obtain ⟨a, ha⟩ := hpart.assigned
    exact ⟨hpart, a, ha, hg a ha⟩

theorem getSubmission_answers (h : c.db.Joined)
    {g : EvidenceSubmission × List (Uuid × EvidenceItem) → Session β}
    (hg : ∀ r, c.db.evidenceSubmissions.get? id = some r.1 → Answers (g r) now c) :
    Answers (getSubmission id u >>= g) now c ↔ c.db.Sees u id := by
  have hfound : ∀ r c', (getSubmission id u).alone now c = .ok (r, c')
      ↔ (c.db.evidenceSubmissions.get? id = some r.1 ∧ c.db.TakesPart u r.1.assignmentId
        ∧ r.2 = c.db.itemsOf id) ∧ c' = c := by
    intro r c'
    rw [getSubmission_ok h, and_assoc, and_assoc]
  rw [answers_bind_iff hfound]
  constructor
  · rintro ⟨r, ⟨he, hpart, -⟩, -⟩
    exact ⟨r.1, he, hpart⟩
  · rintro ⟨e, he, hpart⟩
    exact ⟨(e, c.db.itemsOf id), ⟨he, hpart, rfl⟩, hg _ he⟩

theorem answers_contractResponse :
    Answers (contractResponse id) now c ↔ ∃ contract, c.db.contractOf id = some contract := by
  have hcontract : ∀ r c', (getContract id).alone now c = .ok (r, c')
      ↔ (c.db.contractOf id = some r.1 ∧ r.2 = sortTasks (c.db.tasksOf r.1.1)) ∧ c' = c := by
    intro r c'
    rw [getContract_ok, and_assoc]
  rw [contractResponse, answers_bind_iff hcontract]
  constructor
  · rintro ⟨r, ⟨hr, -⟩, -⟩
    exact ⟨r.1, hr⟩
  · rintro ⟨contract, hfound⟩
    exact ⟨(contract, sortTasks (c.db.tasksOf contract.1)), ⟨hfound, rfl⟩, answers_pure⟩

theorem answers_buildSubmissionQualityCheck {lower : String → String} (h : c.db.Joined) :
    Answers (buildSubmissionQualityCheck lower id u) now c ↔ c.db.Sees u id := by
  refine getSubmission_answers h fun r hr => ?_
  obtain ⟨a, ha⟩ := h.handedIn id r.1 hr
  obtain ⟨contract, hcontract⟩ := h.agreed r.1.assignmentId a ha
  refine (answers_bind_iff (P := fun b => c.db.assignments.get? r.1.assignmentId = some b)
    fun _ _ => getAssignment_ok).mpr ⟨a, ha, ?_⟩
  refine answers_query_bind.mpr (answers_orRaise_bind.mpr ⟨contract.1, ?_, ?_⟩)
  · rw [hcontract]
    rfl
  · exact answers_query_bind.mpr answers_pure

theorem answers_getModerationCase (h : c.db.Joined) {g : ModerationCase → Session β}
    (hg : ∀ case, Answers (g case) now c) :
    Answers (getModerationCase id >>= g) now c ↔ ∃ d, c.db.disputes.get? id = some d := by
  constructor
  · rintro ⟨r, c', hok⟩
    obtain ⟨case, c₁, hcase, -⟩ := alone_bind.mp hok
    simp only [getModerationCase, alone_bind, alone_query, alone_orRaise, and_assoc,
      exists_and_left, exists_eq_left] at hcase
    obtain ⟨d, hd, -⟩ := hcase
    exact ⟨d, hd⟩
  · rintro ⟨d, hd⟩
    -- a dispute is about an assignment, and so about a campaign with a contract
    obtain ⟨a, -, -, ha, -⟩ := h.disputed id d hd
    obtain ⟨x, hx, -⟩ := h.hosted d.assignmentId a ha
    obtain ⟨contract, hcontract⟩ := h.agreed d.assignmentId a ha
    have hcase : ∃ case, (getModerationCase id).alone now c = .ok (case, c) := by
      simp only [getModerationCase, alone_bind, alone_query, alone_orRaise, getCampaign_ok,
        alone_pure, and_assoc, exists_and_left, exists_eq_left]
      exact ⟨_, d, hd, a, ha, x, hx, contract, hcontract, rfl, trivial⟩
    obtain ⟨case, hcase⟩ := hcase
    obtain ⟨b, c', hrest⟩ := hg case
    exact ⟨b, c', alone_bind.mpr ⟨case, c, hcase, hrest⟩⟩

theorem answers_publicCampaign (h : c.db.Joined) {slug : String} :
    Answers (publicCampaign slug) now c
      ↔ ∃ id x, c.db.campaigns.get? id = some x ∧ x.slug = slug ∧ c.db.Recruits id x := by
  constructor
  · rintro ⟨r, c', hok⟩
    simp only [publicCampaign, alone_bind, alone_query, alone_orRaise, alone_raiseIf, alone_pure,
      and_assoc, exists_and_left, exists_eq_left, exists_const] at hok
    obtain ⟨y, hfind, hroom, -⟩ := hok
    obtain ⟨hy, hshown⟩ := Table.find?_eq_some hfind
    rw [Bool.and_eq_true, decide_eq_true_iff, decide_eq_true_iff] at hshown
    exact ⟨y.1, y.2, hy, hshown.1, hshown.2, not_le.mp hroom⟩
  · rintro ⟨i, x, hx, rfl, hopen⟩
    obtain ⟨y, hy⟩ : ∃ y, c.db.campaigns.find?
        (fun _ z => z.slug = x.slug && z.status = .published) = some y := by
      refine Option.isSome_iff_exists.mp (Option.isSome_iff_ne_none.mpr fun hnone => ?_)
      have hmissed := Table.find?_eq_none.mp hnone i x hx
      simp [hopen.published] at hmissed
    obtain ⟨hfound, hshown⟩ := Table.find?_eq_some hy
    rw [Bool.and_eq_true, decide_eq_true_iff] at hshown
    -- the first campaign found under the slug is the only one there is
    have hsame : y.1 = i := h.slugged y.1 i y.2 x hfound hx hshown.1
    have hroom : ¬y.2.targetTesters ≤ c.db.occupiedSlots y.1 := by
      rw [hsame] at hfound ⊢
      rw [hx] at hfound
      cases hfound
      exact not_le.mpr hopen.room
    refine ⟨y, c, ?_⟩
    simp only [publicCampaign, alone_bind, alone_query, alone_orRaise, alone_raiseIf, alone_pure,
      and_assoc, exists_and_left, exists_eq_left, exists_const]
    exact ⟨y, hy, hroom, rfl, trivial⟩

/-- What is listed for a participant may be read by a participant. -/
theorem answers_listSubmissions (h : c.db.Joined) {g : List SubmissionRead → Session β}
    (hg : ∀ r, Answers (g r) now c) :
    Answers (listSubmissions id u >>= fun records => submissionResponses u records >>= g) now c
      ↔ c.db.TakesPart u id := by
  have hlisted : Answers (listSubmissions id u) now c ↔ c.db.TakesPart u id :=
    answers_own_total h fun _ _ => answers_query
  constructor
  · rintro ⟨_, _, hok⟩
    obtain ⟨records, c₁, hfirst, -⟩ := alone_bind.mp hok
    exact hlisted.mp ⟨records, c₁, hfirst⟩
  · intro hpart
    obtain ⟨a, ha⟩ := hpart.assigned
    have hrecords : ∀ r ∈ (c.db.submissionsOf id).insertionSort
        (fun s t => t.2.version ≤ s.2.version),
        c.db.evidenceSubmissions.get? r.1 = some r.2 ∧ r.2.assignmentId = id := by
      intro r hr
      rw [List.mem_insertionSort, Db.submissionsOf, Table.mem_where', decide_eq_true_iff] at hr
      exact hr
    obtain ⟨b, c', hrest⟩ := hg _
    refine ⟨b, c', alone_bind.mpr ⟨_, c, ?_, alone_bind.mpr
      ⟨_, c, submissionResponses_answers h hpart hrecords, hrest⟩⟩⟩
    exact alone_bind.mpr ⟨a, c, (getOwnAssignment_ok h).mpr ⟨ha, hpart, rfl⟩, rfl⟩

/-- Rows kept about an assignment. -/
theorem answers_listed (h : c.db.Joined) {q : Db → α} {g : α → Response} :
    Answers (getActiveUser user >>= fun _ =>
        (getOwnAssignment id user.id >>= fun _ => query q) >>= fun r => pure (g r)) now c
      ↔ ¬c.db.Suspended user.id ∧ c.db.TakesPart user.id id := by
  have hrows : Answers (getOwnAssignment id user.id >>= fun _ => query q) now c
      ↔ c.db.TakesPart user.id id := answers_own_total h fun _ _ => answers_query
  exact answers_active.trans
    (and_congr_right fun _ => (answers_bind_total fun _ _ => answers_pure).trans hrows)

/-- A stranger is not suspended, but has no profile to show either. -/
theorem inGoodStanding_iff :
    db.InGoodStanding u ↔ ¬db.Suspended u ∧ ∃ p, db.profiles.get? u = some p := by
  constructor
  · intro hstanding
    obtain ⟨p, hp, -⟩ := id hstanding
    exact ⟨not_suspended hstanding, p, hp⟩
  · rintro ⟨hactive, hknown⟩
    exact inGoodStanding_of_knows hknown hactive

theorem answers_readProfile :
    Answers (readProfile u) now c ↔ ∃ p, c.db.profiles.get? u = some p := by
  rw [readProfile, answers_query_bind, answers_orRaise_bind]
  simp only [answers_pure, and_true]

theorem answers_readContract :
    Answers (readContract id u) now c
      ↔ c.db.Owns u id ∧ ∃ contract, c.db.contractOf id = some contract := by
  have hcampaign : Answers (readContract id u) now c ↔ ∃ x, c.db.campaigns.get? id = some x
      ∧ x.ownerId = u ∧ Answers (contractResponse id) now c := by
    rw [readContract, answers_bind_iff fun _ _ => getCampaign_ok]
    refine exists_congr fun x => and_congr_right fun _ => ?_
    rw [requireCampaignOwner, answers_raiseIf_bind, not_not]
  rw [hcampaign, answers_contractResponse]
  constructor
  · rintro ⟨x, hx, hown, hrest⟩
    exact ⟨⟨x, hx, hown⟩, hrest⟩
  · rintro ⟨⟨x, hx, hown⟩, hrest⟩
    exact ⟨x, hx, hown, hrest⟩

theorem answers_assignmentContract (h : c.db.Joined) :
    Answers (assignmentContract id u) now c ↔ c.db.Hosts u id
      ∨ ∃ a, c.db.assignments.get? id = some a ∧ a.testerId = u ∧ a.acceptedAt ≠ none := by
  rw [assignmentContract, answers_own h]
  constructor
  · rintro ⟨hpart, a, ha, hrest⟩
    have hunlocked := (answers_raiseIf_bind.mp hrest).1
    rcases hpart with ⟨b, hb, rfl⟩ | hhost
    · rw [ha] at hb
      cases hb
      exact .inr ⟨a, ha, rfl, fun hnone => hunlocked ⟨rfl, hnone⟩⟩
    · exact .inl hhost
  · intro hmay
    have hpart : c.db.TakesPart u id := by
      rcases hmay with hhost | ⟨a, ha, htester, -⟩
      · exact .inr hhost
      · exact .inl ⟨a, ha, htester⟩
    obtain ⟨a, ha⟩ := hpart.assigned
    obtain ⟨contract, hcontract⟩ := h.agreed id a ha
    refine ⟨hpart, a, ha, answers_raiseIf_bind.mpr ⟨?_, ?_⟩⟩
    · rintro ⟨htester, hnone⟩
      rcases hmay with ⟨b, hb, x, hx, howner⟩ | ⟨b, hb, -, haccepted⟩
      · -- an owner never tests the own campaign
        rw [ha] at hb
        cases hb
        obtain ⟨y, hy, hne⟩ := h.hosted id a ha
        rw [hx] at hy
        cases hy
        exact hne (howner.trans htester)
      · rw [ha] at hb
        cases hb
        exact haccepted hnone
    · exact answers_contractResponse.mpr ⟨contract, hcontract⟩

/-- **A route that only reads answers whom the policy lets read, and nobody else.** -/
theorem answerQuery_answers (h : c.db.Joined) (query : Query) :
    Answers (answerQuery settings user query) now c
      ↔ query.Readable settings.toSettings c.db user.id := by
  have htaken : ∀ {id : Uuid} {g : Assignment → Session Response}, (∀ a, Answers (g a) now c) →
      (Answers (getActiveUser user >>= fun _ => getOwnAssignment id user.id >>= g) now c
        ↔ ¬c.db.Suspended user.id ∧ c.db.TakesPart user.id id) :=
    fun hg => answers_active.trans (and_congr_right fun _ => answers_own_total h fun a _ => hg a)
  cases query with
  | health => exact iff_true_intro answers_pure
  | ready => exact iff_true_intro (answers_query_bind.mpr answers_pure)
  | betaStatus => exact iff_true_intro (answers_query_bind.mpr answers_pure)
  | publicCampaigns =>
      exact iff_true_intro (answers_query_bind.mpr (answers_query_bind.mpr answers_pure))
  | publicCampaign slug =>
      exact (answers_bind_total (f := campaignResponse) fun _ _ =>
        answers_query_bind.mpr answers_pure).trans (answers_publicCampaign h)
  | profile =>
      exact answers_active.trans
        ((and_congr_right fun _ => answers_readProfile).trans inGoodStanding_iff.symm)
  | capabilities => exact answers_active.trans (and_iff_left answers_pure)
  | mine =>
      exact answers_active.trans
        (and_iff_left (answers_query_bind.mpr (answers_query_bind.mpr answers_pure)))
  | contract id => exact answers_active.trans (and_congr_right fun _ => answers_readContract)
  | assignments =>
      exact answers_active.trans
        (and_iff_left (answers_query_bind.mpr (answers_query_bind.mpr answers_pure)))
  | assignment id => exact htaken fun _ => answers_query_bind.mpr answers_pure
  | assignmentCampaign id =>
      refine answers_active.trans (and_congr_right fun _ => answers_own_total h fun a ha => ?_)
      obtain ⟨x, hx, -⟩ := h.hosted id a ha
      exact (answers_bind_iff fun _ _ => getCampaign_ok).mpr
        ⟨x, hx, answers_query_bind.mpr answers_pure⟩
  | assignmentContract id =>
      exact answers_active.trans (and_congr_right fun _ => answers_assignmentContract h)
  | testingSessions id => exact answers_listed h
  | submission id =>
      exact answers_active.trans (and_congr_right fun _ =>
        (answers_bind_total fun _ _ => answers_pure).trans
          (getSubmission_answers h fun _ _ => answers_pure))
  | submissionQualityCheck id =>
      exact answers_active.trans (and_congr_right fun _ =>
        (answers_bind_total fun _ _ => answers_pure).trans (answers_buildSubmissionQualityCheck h))
  | submissions id =>
      exact answers_active.trans (and_congr_right fun _ =>
        answers_listSubmissions h fun _ => answers_pure)
  | reviews id =>
      exact answers_active.trans (and_congr_right fun _ =>
        (answers_bind_total fun _ _ => answers_pure).trans
          (getSubmission_answers h fun _ _ => answers_query))
  | messages id => exact answers_listed h
  | disputes => exact answers_active.trans (and_iff_left (answers_query_bind.mpr answers_pure))
  | audit id => exact htaken fun _ => answers_query_bind.mpr answers_pure
  | notifications => exact answers_active.trans (and_iff_left (answers_query_bind.mpr answers_pure))
  | ledger =>
      refine answers_active.trans ((and_congr_right fun _ => ?_).trans inGoodStanding_iff.symm)
      refine (answers_bind_iff fun _ _ => getProfile_ok).trans ?_
      exact exists_congr fun p => and_iff_left (answers_query_bind.mpr answers_pure)
  | moderationDisputes status =>
      exact answers_moderator.trans (and_iff_left (answers_query_bind.mpr answers_pure))
  | disputeCase id =>
      exact answers_moderator.trans (and_congr_right fun _ => answers_getModerationCase h fun _ =>
        answers_query_bind.mpr (answers_query_bind.mpr answers_pure))
  | participants =>
      exact answers_moderator.trans (and_iff_left (answers_query_bind.mpr answers_pure))
  | waitlist => exact answers_moderator.trans (and_iff_left (answers_query_bind.mpr answers_pure))

end Lookups

end TestExchange
