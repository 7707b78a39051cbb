import TestExchange.Proof.Notices
import TestExchange.Refine.Contracts
import TestExchange.Refine.Descent

/-!
# Contract participation rules

A submission is accepted after the contract's minimum duration and with the
required number of sessions. Sessions are at most one a day, and the first is on
the day the test starts, so as many days have passed as there are sessions.
-/

namespace TestExchange

open Txn Txn.Session Exchange

variable {settings : Settings} {user : CurrentUser} {request : Request} {now n n' : Nat}
  {db db' : Db} {c : Conn} {u : Unit}

/-! ## Sessions -/

/-- The sessions at time `now`: one a day, from the start of the test on. -/
structure SessionInv (now : Time) (db : Db) : Prop where
  spent : ∀ k t, db.testingSessions.get? k = some t → ∃ a started,
    db.assignments.get? t.assignmentId = some a ∧ a.startedAt = some started
      ∧ Time.date started ≤ t.sessionDate ∧ t.sessionDate ≤ Time.date now
  daily : ∀ i j t t', db.testingSessions.get? i = some t → db.testingSessions.get? j = some t' →
    t.assignmentId = t'.assignmentId → t.sessionDate = t'.sessionDate → i = j
  past : ∀ i a started, db.assignments.get? i = some a → a.startedAt = some started →
    started ≤ now
  fresh : ∀ i a, db.assignments.get? i = some a → a.status = .applied ∨ a.status = .accepted →
    a.startedAt = none
  running : ∀ i a, db.assignments.get? i = some a →
    a.status = .inProgress ∨ a.status = .submitted ∨ a.status = .changesRequested →
    a.startedAt ≠ none

theorem date_mono {t t' : Time} (h : t ≤ t') : Time.date t ≤ Time.date t' :=
  Nat.div_le_div_right h

theorem SessionInv.later {t t' : Time} (h : SessionInv t db) (ht : t ≤ t') : SessionInv t' db where
  spent := by
    intro k x hx
    obtain ⟨a, started, ha, hstarted, hfrom, huntil⟩ := h.spent k x hx
    exact ⟨a, started, ha, hstarted, hfrom, Nat.le_trans huntil (date_mono ht)⟩
  daily := h.daily
  past := fun i a started ha hstarted => Nat.le_trans (h.past i a started ha hstarted) ht
  fresh := h.fresh
  running := h.running

/-- A test is started once, when it has been accepted. -/
theorem Assignment.Moves.started {a a' : Assignment} (h : a.Moves request now a') :
    a'.startedAt = a.startedAt
      ∨ a.status = .accepted ∧ a'.startedAt = some now ∧ a'.status = .inProgress := by
  cases h with
  | start hs => exact Or.inr ⟨hs, rfl, rfl⟩
  | _ => exact Or.inl rfl

/-- The moves of a request, and sessions that are old or on the day it is made. -/
theorem SessionInv.step (h : SessionInv now db)
    (hmoves : MovesAll request now db.assignments db'.assignments)
    (hspent : ∀ k t, db'.testingSessions.get? k = some t → db.testingSessions.get? k = some t
      ∨ t.sessionDate = Time.date now ∧ ∃ a, db'.assignments.get? t.assignmentId = some a
        ∧ a.startedAt ≠ none)
    (hdaily : ∀ i j t t', db'.testingSessions.get? i = some t →
      db'.testingSessions.get? j = some t' → t.assignmentId = t'.assignmentId →
      t.sessionDate = t'.sessionDate → i = j) : SessionInv now db' := by
  have hpast : ∀ i a started, db'.assignments.get? i = some a → a.startedAt = some started →
      started ≤ now := by
    intro i a' started ha' hstarted
    rcases hmoves.to_get ha' with ⟨a, ha, hmove⟩ | ⟨-, hnew⟩
    · rcases hmove.started with hsame | ⟨-, hnow, -⟩
      · exact h.past i a started ha (hsame.symm.trans hstarted)
      · rw [Option.some.inj (hstarted.symm.trans hnow)]
    · exact absurd (hnew.started.symm.trans hstarted) (by simp)
  refine ⟨?_, hdaily, hpast, ?_, ?_⟩
  · intro k t ht
    rcases hspent k t ht with hold | ⟨htoday, a, ha, hstarted⟩
    · obtain ⟨a, started, ha, hstarted, hfrom, huntil⟩ := h.spent k t hold
      obtain ⟨a', ha', hmove⟩ := hmoves.of_get ha
      rcases hmove.started with hsame | ⟨haccepted, -, -⟩
      · exact ⟨a', started, ha', hsame.trans hstarted, hfrom, huntil⟩
      · have hnone := h.fresh _ a ha (Or.inr haccepted)
        exact absurd (hnone.symm.trans hstarted) (by simp)
    · obtain ⟨started, hsome⟩ := Option.ne_none_iff_exists'.mp hstarted
      refine ⟨a, started, ha, hsome, ?_, Nat.le_of_eq htoday⟩
      rw [htoday]
      exact date_mono (hpast _ a started ha hsome)
  · intro i a' ha' hs
    rcases hmoves.to_get ha' with ⟨a, ha, hmove⟩ | ⟨-, hnew⟩
    · have hfresh := h.fresh i a ha
      cases hmove with
      | stay => exact hfresh hs
      | accept happlied => exact hfresh (Or.inl happlied)
      | _ => simp at hs
    · exact hnew.started
  · intro i a' ha' hs
    rcases hmoves.to_get ha' with ⟨a, ha, hmove⟩ | ⟨-, hnew⟩
    · have hrunning := h.running i a ha
      cases hmove with
      | stay => exact hrunning hs
      | start hs => simp
      | submit hfrom =>
          refine hrunning ?_
          rcases List.mem_cons.mp hfrom with hp | hc
          · exact Or.inl hp
          · exact Or.inr (Or.inr (List.mem_singleton.mp hc))
      | sendBack hsubmitted => exact hrunning (Or.inr (Or.inl hsubmitted))
      | _ => simp at hs
    · rw [hnew.applied] at hs
      simp at hs

/-- A session is added, of a day that had none, to a test that has started. -/
def Db.AddsSession (now : Time) (db db' : Db) : Prop :=
  ∃ k t, db'.testingSessions = db.testingSessions.insert k t ∧ t.sessionDate = Time.date now
    ∧ (∀ i x, db.testingSessions.get? i = some x →
        ¬(x.assignmentId = t.assignmentId ∧ x.sessionDate = t.sessionDate))
    ∧ ∃ a, db'.assignments.get? t.assignmentId = some a
      ∧ (a.status = .inProgress ∨ a.status = .changesRequested)

theorem startAssignment_session {id testerId : Uuid} :
    Yields (startAssignment id testerId) Db.AddsSession := by
  intro now db n r c db' h hf
  simp only [startAssignment, alone_bind, getAssignment_ok, alone_raiseIf, alone_utcnow, alone_add,
    alone_uuid4, addAuditEvent_ok, alone_flush, alone_pure, and_assoc, exists_and_left,
    exists_eq_left, exists_const, List.nil_append, List.cons_append, not_not, applyAll_cons,
    applyAll_nil] at h
  obtain ⟨a, ha, -, haccepted, -, hv, -, -, rfl⟩ := h
  simp only [Flushes, applyAll_nil] at hf
  simp only [insertTestingSession, firstViolated_cons, Table.any_eq_false] at hv
  subst hf
  have hrow := Table.get?_modify_self.trans (congrArg (Option.map fun a : Assignment =>
    { a with status := .inProgress, startedAt := some now }) ha)
  refine ⟨_, _, rfl, rfl, fun i x hx => ?_, _, hrow, Or.inl rfl⟩
  simpa using hv.2.1 i x hx

theorem recordTestingSession_session {id testerId : Uuid} {payload : TestingSessionCreate} :
    Yields (recordTestingSession id testerId payload) Db.AddsSession := by
  intro now db n r c db' h hf
  simp only [recordTestingSession, alone_bind, alone_query, selectForUpdate_ok, alone_orRaise,
    alone_raiseIf, alone_utcnow, alone_add, alone_uuid4, addAuditEvent_ok, alone_flush, alone_pure,
    and_assoc, exists_and_left, exists_eq_left, exists_const, List.nil_append, applyAll_cons,
    applyAll_nil, not_not] at h
  obtain ⟨a, ha, -, hstatus, -, hv, -, rfl⟩ := h
  simp only [Flushes, applyAll_cons, applyAll_nil] at hf
  simp only [insertTestingSession, firstViolated_cons, Table.any_eq_false] at hv
  rw [hf.2]
  refine ⟨_, _, rfl, rfl, fun i x hx => ?_, a, ha, by simpa using hstatus⟩
  simpa using hv.2.1 i x hx

theorem SessionInv.add (h : SessionInv now db)
    (hmoves : MovesAll request now db.assignments db'.assignments)
    (hadds : db.AddsSession now db') : SessionInv now db' := by
  obtain ⟨k, t, hsessions, htoday, hfirst, a', ha', hstatus⟩ := hadds
  refine h.step hmoves ?_ ?_
  · intro i x hx
    rw [hsessions] at hx
    rcases Table.get?_insert_cases hx with hold | ⟨-, rfl, -⟩
    · exact Or.inl hold
    · refine Or.inr ⟨htoday, a', ha', ?_⟩
      -- the test runs now, so it was started before or is started by this request
      rcases hmoves.to_get ha' with ⟨a, ha, hmove⟩ | ⟨-, hnew⟩
      · rcases hmove.started with hsame | ⟨-, hnow, -⟩
        · rw [hsame]
          have hrunning := h.running _ a ha
          have hfresh := h.fresh _ a ha
          cases hmove with
          | stay => exact hrunning (by rcases hstatus with hs | hs <;> simp [hs])
          | start hs => exact absurd (hsame.trans (hfresh (Or.inr hs))) (by simp)
          | sendBack hs => exact hrunning (Or.inr (Or.inl hs))
          | _ => simp at hstatus
        · rw [hnow]
          simp
      · rw [hnew.applied] at hstatus
        simp at hstatus
  · intro i j x x' hi hj hsame hday
    rw [hsessions] at hi hj
    rcases Table.get?_insert_cases hi with hi₀ | ⟨rfl, rfl, -⟩
    · rcases Table.get?_insert_cases hj with hj₀ | ⟨rfl, rfl, -⟩
      · exact h.daily i j x x' hi₀ hj₀ hsame hday
      · exact absurd ⟨hsame, hday⟩ (hfirst i x hi₀)
    · rcases Table.get?_insert_cases hj with hj₀ | ⟨rfl, rfl, -⟩
      · exact absurd ⟨hsame.symm, hday.symm⟩ (hfirst j x' hj₀)
      · rfl

theorem sessionInv_commit {s : Service} (hs : Reachable settings s) (h : SessionInv now s.db)
    (hok : (handle settings user request).commit.alone now s.db n = .ok (u, db', n')) :
    SessionInv now db' := by
  obtain ⟨after, sent, henacts, hdone⟩ := reachable_enacts hs hok
  have hmoves := henacts.moves
  rw [← hdone.roster] at hmoves
  by_cases hsessions : .testingSessions ∈ request.relations
  · obtain ⟨c, halone, hf, -⟩ := commit_alone.mp hok
    have hadds : s.db.AddsSession now db' := by
      cases request with
      | start id =>
          exact yields_active (yields_discard startAssignment_session) now _ _ _ _ _ halone hf
      | recordSession id payload =>
          exact yields_active (yields_validated fun p _ =>
            yields_discard recordTestingSession_session) now _ _ _ _ _ halone hf
      | _ => exact absurd hsessions (by simp [Request.relations])
    exact h.add hmoves hadds
  · have hsame : db'.testingSessions = s.db.testingSessions := by
      refine commit_keeps hok fun r hr w hw t => ?_
      cases hw <;> first | rfl | exact absurd hr hsessions
    refine h.step hmoves ?_ ?_
    · rw [hsame]
      exact fun k t ht => Or.inl ht
    · rw [hsame]
      exact h.daily

/-- In every run whose clock never goes back, the sessions are in order at the end. -/
theorem sessionInv_run {requests : List (Time × CurrentUser × Request)} {t : Time}
    (hclock : (requests.map Prod.fst).Pairwise (· ≤ ·)) (hend : ∀ r ∈ requests, r.1 ≤ t) :
    SessionInv t (Service.init.run settings requests).db := by
  have hempty : SessionInv 0 Service.init.db := by
    refine ⟨?_, ?_, ?_, ?_, ?_⟩
    · exact fun k x hx => absurd hx (by simp [Service.init, Db.empty])
    · exact fun i j x x' hi => absurd hi (by simp [Service.init, Db.empty])
    · exact fun i a started ha => absurd ha (by simp [Service.init, Db.empty])
    · exact fun i a ha => absurd ha (by simp [Service.init, Db.empty])
    · exact fun i a ha => absurd ha (by simp [Service.init, Db.empty])
  refine timed_invariant SessionInv .init (List.pairwise_cons.mpr ⟨?_, hclock⟩) hend (Nat.zero_le t)
    hempty (fun _ _ _ ht h => h.later ht) ?_
  · exact fun x _ => Nat.zero_le x
  · exact fun s now user request u db nextId hs hinv hok => sessionInv_commit hs hinv hok

/-- **As many days have passed as there are sessions.** -/
theorem SessionInv.days (h : SessionInv now db) {id : Uuid} {a : Assignment} {started : Time}
    (ha : db.assignments.get? id = some a) (hstarted : a.startedAt = some started) :
    db.testingSessions.count (fun t => t.assignmentId = id)
      ≤ Time.date now + 1 - Time.date started := by
  let sessions := db.testingSessions.where' fun _ t => t.assignmentId = id
  have hmem : ∀ r ∈ sessions, db.testingSessions.get? r.1 = some r.2 ∧ r.2.assignmentId = id := by
    intro r hr
    obtain ⟨hrow, hid⟩ := Table.mem_where'.mp hr
    exact ⟨hrow, by simpa using hid⟩
  have hnodup : (sessions.map fun r => r.2.sessionDate).Nodup := by
    refine List.Nodup.map_on ?_ (List.Nodup.filter _ db.testingSessions.nodup.of_map)
    intro r hr r' hr' hday
    obtain ⟨hrow, hid⟩ := hmem r hr
    obtain ⟨hrow', hid'⟩ := hmem r' hr'
    have hkey := h.daily r.1 r'.1 r.2 r'.2 hrow hrow' (hid.trans hid'.symm) hday
    rw [hkey] at hrow
    exact Prod.ext hkey (Option.some.inj (hrow.symm.trans hrow'))
  have hsub : (sessions.map fun r => r.2.sessionDate)
      ⊆ List.range' (Time.date started) (Time.date now + 1 - Time.date started) := by
    intro day hday
    obtain ⟨r, hr, rfl⟩ := List.mem_map.mp hday
    obtain ⟨hrow, hid⟩ := hmem r hr
    obtain ⟨a', started', ha', hstarted', hfrom, huntil⟩ := h.spent r.1 r.2 hrow
    rw [hid] at ha'
    obtain rfl := Option.some.inj (ha.symm.trans ha')
    obtain rfl := Option.some.inj (hstarted.symm.trans hstarted')
    rw [List.mem_range'_1]
    omega
  have hlength := (List.subperm_of_subset hnodup hsub).length_le
  rw [List.length_map, List.length_range'] at hlength
  have hcount : sessions.length = db.testingSessions.count fun t => t.assignmentId = id := by
    rw [Table.count, List.countP_eq_length_filter]
    rfl
  omega

/-! ## Submissions -/

/-- A new submission has been submitted. -/
theorem submitted_request
    (hok : (handle settings user request).commit.alone now db n = .ok (u, db', n')) {k : Uuid}
    {e : EvidenceSubmission} (hbefore : db.evidenceSubmissions.get? k = none)
    (hafter : db'.evidenceSubmissions.get? k = some e) :
    ∃ id payload, request = .submit id payload := by
  by_contra hnot
  have hother : ∀ id payload, request ≠ .submit id payload :=
    fun id payload hrequest => hnot ⟨id, payload, hrequest⟩
  obtain ⟨e₀, he₀, -⟩ := submissions_before hok hother k e hafter
  exact absurd (hbefore.symm.trans he₀) (by simp)

/-- What `create_submission` has checked of the contract and the sessions. -/
def Db.AllowsSubmission (id : Uuid) (now : Time) (db : Db) : Prop :=
  ∃ a k started, db.assignments.get? id = some a ∧ db.contractOf a.campaignId = some k
    ∧ (a.status = .inProgress ∨ a.status = .changesRequested) ∧ a.startedAt = some started
    ∧ started + k.2.minimumDurationDays * oneDay ≤ now
    ∧ k.2.requiredSessions ≤ db.testingSessions.count fun t => t.assignmentId = id

theorem createSubmission_allowed {id testerId : Uuid} {payload : SubmissionCreate} :
    Yields (createSubmission id testerId payload) fun now db _ => db.AllowsSubmission id now := by
  intro now db n r c db' h hf
  simp only [createSubmission, alone_bind, alone_query, selectForUpdate_ok, alone_orRaise,
    alone_raiseIf, contractForAssignment_ok, alone_utcnow, and_assoc, exists_and_left,
    exists_eq_left, not_not] at h
  obtain ⟨a, ha, -, hstatus, -, -, k, hk, -, started, hstarted, hlate, hmany, -⟩ := h
  refine ⟨a, k.1, started, ha, hk, by simpa using hstatus, hstarted, ?_, ?_⟩
  · exact Nat.le_of_not_lt hlate
  · exact Nat.le_of_not_lt hmany

/-- A new submission is for the assignment of the request. -/
theorem createSubmission_for {id testerId : Uuid} {payload : SubmissionCreate} :
    Yields (createSubmission id testerId payload) fun _ db db' =>
      ∀ k e, db'.evidenceSubmissions.get? k = some e → db.evidenceSubmissions.get? k = none →
        e.assignmentId = id := by
  intro now db n r c db' h hf
  have hkeeps : ∀ {w : Write}, Keeps Db.evidenceSubmissions w → Preserves (fun t : Db =>
      ∀ k e, t.evidenceSubmissions.get? k = some e → db.evidenceSubmissions.get? k = none →
        e.assignmentId = id) w := by
    intro w hw
    refine preserves_of_keeps fun t ht => ?_
    rw [hw t]
    exact ht
  have hinsert : ∀ k e, e.assignmentId = id → Preserves (fun t : Db =>
      ∀ k e, t.evidenceSubmissions.get? k = some e → db.evidenceSubmissions.get? k = none →
        e.assignmentId = id) (insertEvidenceSubmission k e) := by
    intro i e he
    refine preserves_of_keeps fun t ht k e' he' hnone => ?_
    rcases Table.get?_insert_cases he' with hold | ⟨-, rfl, -⟩
    · exact ht k e' hold hnone
    · exact he
  have honly : Only (Preserves _) (createSubmission id testerId payload) :=
    only_createSubmission hinsert (fun _ _ => hkeeps fun _ => rfl)
      (fun _ => hkeeps fun _ => rfl) (fun _ => hkeeps fun _ => rfl) fun _ _ => hkeeps fun _ => rfl
  refine (honly.confined.preserves h (by simp) ?_).2 db' hf
  exact fun k e he hnone => absurd (hnone.symm.trans he) (by simp)

/-! ## The rules -/

/-- What the rules of the locked contract come to for work that is submitted at time `t`. -/
structure Db.Participates (db : Db) (id : Uuid) (t : Time) (a : Assignment) (started : Time)
    (contract : TestingContract) : Prop where
  row : db.assignments.get? id = some a
  startedAt : a.startedAt = some started
  /-- The contract is the only one of the campaign, and it is locked. -/
  locked : ∃ i, db.testingContracts.get? i = some contract ∧ contract.campaignId = a.campaignId
    ∧ contract.status = .locked
    ∧ ∀ j other, db.testingContracts.get? j = some other → other.campaignId = a.campaignId → j = i
  duration : started + contract.minimumDurationDays * oneDay ≤ t
  sessions : ∀ i x, db.testingSessions.get? i = some x → x.assignmentId = id →
    Time.date started ≤ x.sessionDate ∧ x.sessionDate ≤ Time.date t
  distinct : ∀ i j x x', db.testingSessions.get? i = some x → db.testingSessions.get? j = some x' →
    x.assignmentId = id → x'.assignmentId = id → x.sessionDate = x'.sessionDate → i = j
  days : Time.date started + (contract.requiredSessions - 1) ≤ Time.date t

/-- What `create_submission` checks implies the rules. -/
theorem participates_of_allowed {s : Service} (hs : Reachable settings s)
    (h : SessionInv now s.db) {id : Uuid} (hallowed : s.db.AllowsSubmission id now) :
    ∃ a started contract, a.status ≠ .accepted ∧ s.db.Participates id now a started contract := by
  obtain ⟨a, k, started, ha, hk, hstatus, hstarted, hduration, hmany⟩ := hallowed
  obtain ⟨hrow, hid⟩ := Table.find?_eq_some hk
  have hfor : k.2.campaignId = a.campaignId := by simpa using hid
  have hcontracts := contractInv_reachable hs
  obtain ⟨x, hx, hd, -⟩ := (ledgerInv_possible (reachable_possible hs)).assigned id a ha
  have hrunning : a.status ≠ .accepted := by rcases hstatus with hs | hs <;> simp [hs]
  refine ⟨a, started, k.2, hrunning, ha, hstarted, ⟨k.1, hrow, hfor, ?_, ?_⟩, hduration, ?_, ?_, ?_⟩
  · exact hcontracts.locked k.1 k.2 x hrow (hfor ▸ hx) hd
  · exact fun j other hj hsame => hcontracts.once j k.1 other k.2 hj hrow (hsame.trans hfor.symm)
  · intro i y hy hof
    obtain ⟨a', started', ha', hstarted', hfrom, huntil⟩ := h.spent i y hy
    rw [hof] at ha'
    obtain rfl := Option.some.inj (ha.symm.trans ha')
    obtain rfl := Option.some.inj (hstarted.symm.trans hstarted')
    exact ⟨hfrom, huntil⟩
  · exact fun i j y y' hi hj hof hof' => h.daily i j y y' hi hj (hof.trans hof'.symm)
  · have hdays := h.days ha hstarted
    have hpast := date_mono (h.past id a started ha hstarted)
    omega

/--
**The participation rules of the contract bind every submission.** In every run
whose clock never goes back, when a request at time `t` leaves a submission that
was not there, the locked contract's minimum duration has passed, sessions were
held on distinct days since the start, and the days they need have passed.
-/
theorem participation_enforced (settings : Settings)
    (requests : List (Time × CurrentUser × Request))
    (hclock : (requests.map Prod.fst).Pairwise (· ≤ ·)) (t : Time) (hnow : ∀ r ∈ requests, r.1 ≤ t)
    (user : CurrentUser) (request : Request) (k : Uuid) (e : EvidenceSubmission)
    (hbefore : (Service.init.run settings requests).db.evidenceSubmissions.get? k = none)
    (hafter : ((Service.init.run settings requests).serve settings t user
      request).db.evidenceSubmissions.get? k = some e) :
    ∃ a started contract, ((Service.init.run settings requests).serve settings t user
      request).db.Participates e.assignmentId t a started contract := by
  have hs : Reachable settings (Service.init.run settings requests) := reachable_run .init requests
  have hsessions : SessionInv t (Service.init.run settings requests).db := sessionInv_run hclock hnow
  generalize Service.init.run settings requests = s at *
  unfold Service.serve at hafter ⊢
  split at hafter
  · rename_i u db nextId hok
    obtain ⟨id, payload, rfl⟩ := submitted_request hok hbefore hafter
    obtain ⟨c, halone, hf, -⟩ := commit_alone.mp hok
    have hallowed : s.db.AllowsSubmission id t :=
      yields_active (yields_validated fun p _ => yields_discard createSubmission_allowed)
        t _ _ _ _ _ halone hf
    have hfor : e.assignmentId = id :=
      yields_active (yields_validated fun p _ => yields_discard createSubmission_for)
        t _ _ _ _ _ halone hf k e hafter hbefore
    obtain ⟨a, started, contract, hrunning, hrules⟩ := participates_of_allowed hs hsessions hallowed
    -- the request changes neither contracts nor sessions, nor when the test started
    have hkeeps : (db.testingContracts, db.testingSessions)
        = (s.db.testingContracts, s.db.testingSessions) := by
      refine commit_keeps (π := fun d : Db => (d.testingContracts, d.testingSessions)) hok
        fun r hr w hw d => ?_
      cases hw <;> first | rfl | simp [Request.relations] at hr
    obtain ⟨hcontracts, hsame⟩ := Prod.mk.inj hkeeps
    obtain ⟨after, sent, henacts, hdone⟩ := reachable_enacts hs hok
    have hmoves := henacts.moves
    rw [← hdone.roster] at hmoves
    obtain ⟨a', ha', hmove⟩ := hmoves.of_get hrules.row
    have hcampaign : a'.campaignId = a.campaignId := by cases hmove <;> rfl
    have hstarted : a'.startedAt = some started := by
      rcases hmove.started with hsame | ⟨haccepted, -⟩
      · exact hsame.trans hrules.startedAt
      · exact absurd haccepted hrunning
    subst hfor
    refine ⟨a', started, contract, ha', hstarted, ?_, hrules.duration, ?_, ?_, hrules.days⟩
    · rw [hcontracts, hcampaign]
      exact hrules.locked
    · rw [hsame]
      exact hrules.sessions
    · rw [hsame]
      exact hrules.distinct
  · exact absurd (hbefore.symm.trans hafter) (by simp)

/-- A contract that asks for two sessions in at least one day. -/
def unhurriedCampaign : CampaignLaunch :=
  { benchCampaign with
    contract := { benchCampaign.contract with minimumDurationDays := 1, requiredSessions := 2 } }

/-- The test of assignment 6 starts on one day and goes on the next. -/
def unhurriedRun : List (Time × CurrentUser × Request) :=
  [(0, ⟨1, none⟩, .saveProfile { username := "owner", displayName := "Owner" }),
   (0, ⟨2, none⟩, .saveProfile { username := "first", displayName := "First" }),
   (0, ⟨1, none⟩, .launchCampaign unhurriedCampaign), (0, ⟨2, none⟩, .apply 2 {}),
   (0, ⟨1, none⟩, .accept 6), (0, ⟨2, none⟩, .start 6), (oneDay, ⟨2, none⟩, .recordSession 6 {})]

/-- Evidence for the only task, which is number 4. -/
def unhurriedEvidence : SubmissionCreate where
  summary := "I found a bench and sat on it"
  items := [{ taskId := some 4, kind := .note, note := some "It is green" }]

theorem participation_enforced_unhurried :
    ∃ e a started contract, ((Service.init.run benchSettings unhurriedRun).serve benchSettings
        oneDay ⟨2, none⟩ (.submit 6 unhurriedEvidence)).db.evidenceSubmissions.get? 11 = some e
      ∧ ((Service.init.run benchSettings unhurriedRun).serve benchSettings oneDay ⟨2, none⟩
        (.submit 6 unhurriedEvidence)).db.Participates e.assignmentId oneDay a started contract := by
  obtain ⟨hbefore, hafter⟩ :
      (Service.init.run benchSettings unhurriedRun).db.evidenceSubmissions.contains 11 = false
        ∧ ((Service.init.run benchSettings unhurriedRun).serve benchSettings oneDay ⟨2, none⟩
          (.submit 6 unhurriedEvidence)).db.evidenceSubmissions.contains 11 = true := by
    decide +kernel
  obtain ⟨e, he⟩ := Table.contains_eq_true.mp hafter
  obtain ⟨a, started, contract, hrules⟩ := participation_enforced benchSettings unhurriedRun
    (by decide) oneDay (by decide) ⟨2, none⟩ (.submit 6 unhurriedEvidence) 11 e
    (Table.contains_eq_false.mp hbefore) he
  exact ⟨e, a, started, contract, he, hrules⟩

end TestExchange
