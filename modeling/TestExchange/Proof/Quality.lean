import TestExchange.Model.Quality
import TestExchange.Proof.Coverage
import TestExchange.Proof.Participation
import TestExchange.Refine.Coverage

/-!
# The quality check agrees with the gate

The gate looks at a submission once, when it is sent; the quality check looks at
what is stored, at any time later. They agree, because nothing that the gate
looked at can change afterwards: a contract somebody works on is locked, and no
request writes to an item or to what it is linked to.
-/

namespace TestExchange

open Txn Txn.Session

/-- Every stored item has something in it. -/
def Db.Filled (db : Db) : Prop :=
  ∀ m item, db.evidenceItems.get? m = some item → item.hasContent = true

/-- Every submission covers the campaign it is for. -/
def Db.Covered (db : Db) : Prop :=
  ∀ k e, db.evidenceSubmissions.get? k = some e →
    ∃ a, db.assignments.get? e.assignmentId = some a ∧ db.Covers k a.campaignId

variable {settings : Settings} {user : CurrentUser} {request : Request} {now n n' : Nat}
  {db db' : Db} {u : Unit}

/-! ## Content -/

theorem filled_commit (h : db.Filled)
    (hok : (handle settings user request).commit.alone now db n = .ok (u, db', n')) :
    db'.Filled := by
  refine (handle_within request).invariant Db.Filled hok h ?_
  rintro w t ⟨r, -, hw⟩ hv ht
  cases hw with
  | insertEvidenceItem =>
      intro m item hitem
      simp only [insertEvidenceItem, firstViolated_cons] at hv
      rcases Table.get?_insert_cases hitem with hold | ⟨-, rfl, -⟩
      · exact ht m item hold
      · have hgiven := hv.2.1
        unfold EvidenceItem.hasContent
        cases hkey : item.storageKey <;> cases hurl : item.externalUrl <;>
          cases hnote : item.note <;> simp_all
  | deleteContractTasks =>
      intro m item hitem
      obtain ⟨old, hold, rfl⟩ := Option.map_eq_some_iff.mp (Table.get?_map.symm.trans hitem)
      exact ht m old hold
  | _ => exact ht

/-! ## Coverage -/

/-- Assignments stay with their campaigns. -/
theorem campaign_commit {s : Service} (hs : Reachable settings s)
    (hok : (handle settings user request).commit.alone now s.db n = .ok (u, db', n')) {id : Uuid}
    {a : Assignment} (ha : s.db.assignments.get? id = some a) :
    ∃ a', db'.assignments.get? id = some a' ∧ a'.campaignId = a.campaignId := by
  obtain ⟨after, sent, henacts, hdone⟩ := reachable_enacts hs hok
  have hmoves := henacts.moves
  rw [← hdone.roster] at hmoves
  obtain ⟨a', ha', hmove⟩ := hmoves.of_get ha
  refine ⟨a', ha', ?_⟩
  cases hmove <;> rfl

/-- What is submitted covers the campaign, and what was submitted before stays. -/
theorem createSubmission_covers {id testerId : Uuid} {payload : SubmissionCreate} :
    Yields (createSubmission id testerId payload) fun _ db db' => ∃ k e a,
      db'.evidenceSubmissions = db.evidenceSubmissions.insert k e ∧ e.assignmentId = id
        ∧ db.assignments.get? id = some a ∧ db'.Covers k a.campaignId
        ∧ ∀ i campaignId, db.Covers i campaignId → db'.Covers i campaignId := by
  intro now db n r c db' hok hf
  obtain ⟨k, e, hsubmissions, hof, hstored⟩ := createSubmission_stores now db n r c db' hok hf
  obtain ⟨a, contract, ha, hcontract, hgate⟩ := createSubmission_gated hok
  have hkept : Only (Keeps fun t : Db => (t.testingContracts, t.contractTasks))
      (createSubmission id testerId payload) := by
    refine only_createSubmission ?_ ?_ ?_ ?_ ?_
    · exact fun _ _ _ _ => rfl
    · exact fun _ _ _ => rfl
    · exact fun _ _ => rfl
    · exact fun _ _ => rfl
    · exact fun _ _ _ => rfl
  obtain ⟨t, ht, hsame⟩ := hkept.flushes hok hf
  rw [applyAll_nil] at ht
  rw [ht] at hsame
  obtain ⟨hcontracts, htasks⟩ := Prod.mk.inj hsame
  refine ⟨k, e, a, hsubmissions, hof, ha, ?_, fun i campaignId hcovers => ?_⟩
  · obtain ⟨hrow, hfor⟩ := Table.find?_eq_some hcontract
    refine ⟨contract.1, contract.2, hcontracts ▸ hrow, by simpa using hfor,
      fun j task hj hin hreq => ?_⟩
    rw [htasks] at hj
    have hmem : (j, task) ∈ db.tasksOf contract.1 := Table.mem_where'.mpr ⟨hj, by simpa using hin⟩
    obtain ⟨item, hitem, hlink⟩ := hgate.required (j, task) hmem hreq
    obtain ⟨m, hm⟩ := hstored item hitem
    exact ⟨m, item.item k, hm, rfl, hlink⟩
  · have hall : Only (Preserves fun t => t.Covers i campaignId)
        (createSubmission id testerId payload) := by
      refine only_createSubmission ?_ ?_ ?_ ?_ ?_
      · exact fun _ _ _ => covers_keeps fun _ => rfl
      · exact fun _ _ => preserves_of_keeps fun t ht => covers_insertEvidenceItem ht
      · exact fun _ => covers_keeps fun _ => rfl
      · exact fun _ => covers_event
      · exact fun _ _ => covers_keeps fun _ => rfl
    exact (hall.confined.preserves hok (fun w hw => absurd hw List.not_mem_nil) hcovers).2 db' hf

/-- A request that writes none of the submissions keeps what covers an open campaign. -/
theorem covered_of_covers {s : Service} (hs : Reachable settings s) (h : s.db.Covered)
    (hok : (handle settings user request).commit.alone now s.db n = .ok (u, db', n'))
    (hother : ∀ id payload, request ≠ .submit id payload)
    (hcovers : ∀ k campaignId x, s.db.campaigns.get? campaignId = some x → x.status ≠ .draft →
      s.db.Covers k campaignId → db'.Covers k campaignId) : db'.Covered := by
  intro k e he
  obtain ⟨e₀, he₀, hsame⟩ := submissions_before hok hother k e he
  obtain ⟨a, ha, hcovered⟩ := h k e₀ he₀
  obtain ⟨x, hx, hopen, -⟩ := (ledgerInv_possible (reachable_possible hs)).assigned _ a ha
  obtain ⟨a', ha', hfor⟩ := campaign_commit hs hok ha
  rw [hsame] at ha'
  refine ⟨a', ha', ?_⟩
  rw [hfor]
  exact hcovers k a.campaignId x hx hopen hcovered

theorem covered_commit {s : Service} (hs : Reachable settings s) (h : s.db.Covered)
    (hok : (handle settings user request).commit.alone now s.db n = .ok (u, db', n')) :
    db'.Covered := by
  obtain ⟨c, halone, hf, -⟩ := commit_alone.mp hok
  by_cases hsubmit : ∃ id payload, request = .submit id payload
  · obtain ⟨id, payload, rfl⟩ := hsubmit
    obtain ⟨k, e, a, hsubmissions, hof, ha, hnew, hold⟩ :=
      yields_active (yields_validated fun p _ => yields_discard createSubmission_covers)
        now s.db n u c db' halone hf
    intro i e' he'
    rw [hsubmissions] at he'
    have hstays : ∀ j b, s.db.assignments.get? j = some b → db'.Covers i b.campaignId →
        ∃ b', db'.assignments.get? j = some b' ∧ db'.Covers i b'.campaignId := by
      intro j b hb hcovers
      obtain ⟨b', hb', hfor⟩ := campaign_commit hs hok hb
      exact ⟨b', hb', hfor ▸ hcovers⟩
    rcases Table.get?_insert_cases he' with hbefore | ⟨rfl, rfl, -⟩
    · obtain ⟨b, hb, hcovers⟩ := h i e' hbefore
      exact hstays _ b hb (hold i b.campaignId hcovers)
    · rw [hof]
      exact hstays id a ha hnew
  · have hother : ∀ id payload, request ≠ .submit id payload :=
      fun id payload hrequest => hsubmit ⟨id, payload, hrequest⟩
    refine covered_of_covers hs h hok hother fun k campaignId x hx hopen hcovers => ?_
    by_cases hcontracts : .testingContracts ∈ request.relations
    · cases request with
      | launchCampaign payload =>
          exact yields_active (P := fun _ db db' => ∀ x, db.campaigns.get? campaignId = some x →
              x.status ≠ .draft → db.Covers k campaignId → db'.Covers k campaignId)
            (yields_validated fun p _ => yields_discard fun now db n r c db' hok hf x hx hopen h =>
              launchCampaign_covers hx hopen h hok hf) now s.db n u c db' halone hf x hx hopen
            hcovers
      | saveContract id payload =>
          refine yields_active (P := fun _ db db' => ∀ x, db.campaigns.get? campaignId = some x →
              x.status ≠ .draft → db.Covers k campaignId → db'.Covers k campaignId)
            (yields_validated fun p _ => fun now db n r c db' hok hf x hx hopen h => ?_)
            now s.db n u c db' halone hf x hx hopen hcovers
          simp only [discard, alone_bind, getContract_ok, alone_pure] at hok
          obtain ⟨a, c₁, hm, _, c₂, ⟨_, _, rfl⟩, _, rfl⟩ := hok
          obtain ⟨hpending, -⟩ := upsertContract_ok [] hm
          rw [Flushes, hpending, applyAll_nil] at hf
          rw [hf]
          exact upsertContract_covers [] hx hopen h hm
      | publishCampaign id =>
          exact yields_active (P := fun _ db db' => db.Covers k campaignId → db'.Covers k campaignId)
            (yields_discard fun now db n r c db' hok hf h => publishCampaign_covers h hok hf)
            now s.db n u c db' halone hf hcovers
      | _ => exact absurd hcontracts (by simp [Request.relations])
    · have htasks : .contractTasks ∉ request.relations := by
        cases request <;> simp [Request.relations] at hcontracts ⊢
      have hitems : .evidenceItems ∉ request.relations := by
        cases request <;> simp [Request.relations] at hsubmit ⊢
      refine hcovers.of_coverage (commit_keeps hok fun r hr w hw t => ?_)
      cases hw <;> first
        | rfl | exact absurd hr hcontracts | exact absurd hr htasks | exact absurd hr hitems

/-- **The gate's checks hold of what is stored**, for good. -/
theorem coverage_reachable {s : Service} (h : Reachable settings s) :
    s.db.Filled ∧ s.db.Covered := by
  refine reachable_invariant (fun db => db.Filled ∧ db.Covered) h ⟨?_, ?_⟩ ?_
  · exact fun m item hitem => absurd hitem (by simp [Db.empty])
  · exact fun k e he => absurd he (by simp [Db.empty])
  · intro s now user request u db nextId hs hinv hok
    exact ⟨filled_commit hinv.1 hok, covered_commit hs hinv.2 hok⟩

/-! ## The check -/

/-- The check of this code is there and passed. -/
def QualityCheckRead.passes (r : QualityCheckRead) (code : String) : Bool :=
  r.checks.any fun item => item.code = code && item.status = .passed

/-- What a quality check may say about a submission that got through the gate. -/
structure QualityCheckRead.Agrees (r : QualityCheckRead) (e : EvidenceSubmission) : Prop where
  codes : r.checks.map (·.code)
    = ["required_task_coverage", "evidence_content", "summary_specificity", "concrete_observation"]
  coverage : r.passes "required_task_coverage" = true
  content : r.passes "evidence_content" = true
  score : r.score = 50 ∨ r.score = 75 ∨ r.score = 100
  reviewed : r.status = .alreadyReviewed ↔ e.status ≠ .submitted
  /-- Until it is reviewed only the summary and the observations count. -/
  pending : e.status = .submitted → r.status =
    if r.passes "summary_specificity" && r.passes "concrete_observation" then .readyForReview
    else .needsAttention

/-- The reply to the two people an assignment is between. -/
def Db.qualityCheck (db : Db) (lower : String → String) (k : Uuid) (e : EvidenceSubmission)
    (contractId : Uuid) : QualityCheckRead :=
  let checks := qualityChecks lower e (db.itemsOf k)
    (((sortTasks (db.tasksOf contractId)).filter (·.2.evidenceRequired)).map Prod.fst)
  { submissionId := k
    assignmentId := e.assignmentId
    submissionVersion := e.version
    submissionStatus := e.status
    status :=
      if e.status ≠ .submitted then .alreadyReviewed
      else if checks.any (·.status = .flagged) then .needsAttention
      else .readyForReview
    score := qualityScore checks
    checks
    disclaimer :=
      "Advisory only: this check never approves, rejects, or transfers credits. The campaign owner or a moderator makes the final decision." }

section Returns

variable {lower : String → String} {k userId : Uuid} {e : EvidenceSubmission} {a : Assignment}
  {x : Campaign} {c : Conn}

theorem getSubmission_returns (he : c.db.evidenceSubmissions.get? k = some e)
    (ha : c.db.assignments.get? e.assignmentId = some a)
    (hx : c.db.campaigns.get? a.campaignId = some x)
    (huser : userId = a.testerId ∨ userId = x.ownerId) :
    (getSubmission k userId).alone now c = .ok ((e, c.db.itemsOf k), c) := by
  have hparty : ¬(userId ≠ a.testerId ∧ userId ≠ x.ownerId) := by
    rcases huser with h | h
    · exact fun hneither => hneither.1 h
    · exact fun hneither => hneither.2 h
  simp only [getSubmission, alone_bind, alone_query, alone_orRaise, getAssignment_ok,
    requireAssignmentParticipant_ok, alone_pure, and_assoc, exists_and_left, exists_eq_left]
  exact ⟨e, he, a, ha, x, hx, hparty, rfl, trivial⟩

theorem buildSubmissionQualityCheck_returns {contract : Uuid × TestingContract}
    (he : c.db.evidenceSubmissions.get? k = some e)
    (ha : c.db.assignments.get? e.assignmentId = some a)
    (hx : c.db.campaigns.get? a.campaignId = some x)
    (hcontract : c.db.contractOf a.campaignId = some contract)
    (huser : userId = a.testerId ∨ userId = x.ownerId) :
    (buildSubmissionQualityCheck lower k userId).alone now c
      = .ok (c.db.qualityCheck lower k e contract.1, c) := by
  have hread : (getSubmission k userId).alone now c = .ok ((e, c.db.itemsOf k), c) :=
    getSubmission_returns he ha hx huser
  refine alone_bind.mpr ⟨(e, c.db.itemsOf k), c, hread, ?_⟩
  simp only [alone_bind, alone_query, alone_orRaise, getAssignment_ok, alone_pure, and_assoc,
    exists_and_left, exists_eq_left]
  refine ⟨a, ha, contract.1, ?_, rfl, trivial⟩
  rw [hcontract]
  rfl

end Returns

/-- With linked tasks and filled items the first two of the four checks pass. -/
theorem qualityChecks_agree (lower : String → String) (e : EvidenceSubmission)
    {items : List (Uuid × EvidenceItem)} {required : List Uuid}
    (hlinked : ∀ taskId ∈ required, taskId ∈ items.filterMap (·.2.taskId))
    (hfilled : ∀ item ∈ items, item.2.hasContent = true) :
    ∃ summary observation,
      (qualityChecks lower e items required).map (fun item => (item.code, item.status))
      = [("required_task_coverage", .passed), ("evidence_content", .passed),
        ("summary_specificity", summary), ("concrete_observation", observation)] := by
  have huncovered : required.filter (fun taskId => taskId ∉ items.filterMap (·.2.taskId)) = [] := by
    refine List.filter_eq_nil_iff.mpr fun taskId htask => ?_
    simpa using hlinked taskId htask
  have hcontent : (items.all fun item =>
      item.2.storageKey.isSome || item.2.externalUrl.isSome || item.2.note.isSome) = true :=
    List.all_eq_true.mpr hfilled
  unfold qualityChecks check
  dsimp only
  rw [huncovered, hcontent]
  exact ⟨_, _, rfl⟩

/-- What follows from the first two checks. -/
theorem agrees_of_checks {r : QualityCheckRead} {e : EvidenceSubmission}
    {summary observation : CheckStatus}
    (hchecks : r.checks.map (fun item => (item.code, item.status))
      = [("required_task_coverage", .passed), ("evidence_content", .passed),
        ("summary_specificity", summary), ("concrete_observation", observation)])
    (hscore : r.score = qualityScore r.checks)
    (hstatus : r.status = if e.status ≠ .submitted then .alreadyReviewed
      else if r.checks.any (·.status = .flagged) then .needsAttention else .readyForReview) :
    r.Agrees e := by
  have hpasses : ∀ code, r.passes code = ([("required_task_coverage", .passed),
      ("evidence_content", .passed), ("summary_specificity", summary),
      ("concrete_observation", observation)] : List (String × CheckStatus)).any
        fun item => item.1 = code && item.2 = .passed := by
    intro code
    rw [← hchecks, List.any_map]
    rfl
  have hflagged : r.checks.any (·.status = .flagged)
      = (summary = .flagged || observation = .flagged : Bool) := by
    have hany : r.checks.any (·.status = .flagged)
        = (r.checks.map fun item => (item.code, item.status)).any (·.2 = .flagged) := by
      rw [List.any_map]
      rfl
    rw [hany, hchecks]
    simp
  have hcount : qualityScore r.checks = ([CheckStatus.passed, .passed, summary, observation].countP
      (· = .passed)) * 100 / 4 := by
    have hstatuses : r.checks.map (·.status) = [.passed, .passed, summary, observation] := by
      have hmap := congrArg (List.map Prod.snd) hchecks
      rwa [List.map_map] at hmap
    have hlength : r.checks.length = 4 := by
      have hlen := congrArg List.length hchecks
      rwa [List.length_map] at hlen
    unfold qualityScore
    rw [← hstatuses, List.countP_map, hlength]
    rfl
  refine ⟨?_, ?_, ?_, ?_, ?_, ?_⟩
  · have hcodes := congrArg (List.map Prod.fst) hchecks
    rwa [List.map_map] at hcodes
  · rw [hpasses]
    rfl
  · rw [hpasses]
    rfl
  · rw [hscore, hcount]
    cases summary <;> cases observation <;> decide
  · rw [hstatus]
    by_cases hs : e.status = .submitted
    · rw [if_neg (not_not.mpr hs)]
      split <;> simp [hs]
    · simp [hs]
  · intro hs
    rw [hstatus, if_neg (not_not.mpr hs), hflagged, hpasses, hpasses]
    cases summary <;> cases observation <;> decide

/--
**The quality check agrees with the gate**: asked by either participant, at any
time after it was sent, it finds the tasks covered and the items filled.
-/
theorem quality_check_agrees (settings : Settings) (s : Service) (h : Reachable settings s)
    (k : Uuid) (e : EvidenceSubmission) (he : s.db.evidenceSubmissions.get? k = some e) :
    ∃ a x, s.db.assignments.get? e.assignmentId = some a
      ∧ s.db.campaigns.get? a.campaignId = some x
      ∧ ∀ (lower : String → String) (userId : Uuid) (now : Time) (next : Nat),
        userId = a.testerId ∨ userId = x.ownerId →
        ∃ r, (buildSubmissionQualityCheck lower k userId).alone now ⟨s.db, [], next⟩
            = .ok (r, ⟨s.db, [], next⟩) ∧ r.Agrees e := by
  obtain ⟨hfilled, hcovered⟩ := coverage_reachable h
  obtain ⟨a, ha, i, contract, hcontract, hfor, hall⟩ := hcovered k e he
  obtain ⟨x, hx, -⟩ := (ledgerInv_possible (reachable_possible h)).assigned _ a ha
  obtain ⟨found, hfound⟩ : ∃ found, s.db.contractOf a.campaignId = some found := by
    cases hnone : s.db.contractOf a.campaignId with
    | some found => exact ⟨found, rfl⟩
    | none =>
        have hnot := Table.find?_eq_none.mp hnone i contract hcontract
        exact absurd hfor (by simpa using hnot)
  obtain ⟨hrow, hown⟩ := Table.find?_eq_some hfound
  have hsame : found.1 = i :=
    (contractInv_reachable h).once found.1 i found.2 contract hrow hcontract
      ((by simpa using hown : found.2.campaignId = a.campaignId).trans hfor.symm)
  refine ⟨a, x, ha, hx, fun lower userId now next huser =>
    ⟨_, buildSubmissionQualityCheck_returns he ha hx hfound huser, ?_⟩⟩
  have hitems : ∀ item ∈ s.db.itemsOf k, item.2.hasContent = true := by
    intro item hitem
    obtain ⟨hget, -⟩ := Table.mem_where'.mp hitem
    exact hfilled item.1 item.2 hget
  have hlinked : ∀ taskId ∈ ((sortTasks (s.db.tasksOf found.1)).filter
      (·.2.evidenceRequired)).map Prod.fst, taskId ∈ (s.db.itemsOf k).filterMap (·.2.taskId) := by
    intro taskId htask
    obtain ⟨task, hmem, rfl⟩ := List.mem_map.mp htask
    obtain ⟨hsorted, hreq⟩ := List.mem_filter.mp hmem
    have hof := (List.perm_insertionSort _ _).mem_iff.mp hsorted
    obtain ⟨hget, hin⟩ := Table.mem_where'.mp hof
    have hin : task.2.contractId = i := (by simpa using hin : task.2.contractId = found.1).trans hsame
    obtain ⟨m, item, hitem, hsub, hlink⟩ := hall task.1 task.2 hget hin hreq
    have hitemOf : (m, item) ∈ s.db.itemsOf k := Table.mem_where'.mpr ⟨hitem, by simpa using hsub⟩
    exact List.mem_filterMap.mpr ⟨(m, item), hitemOf, hlink⟩
  obtain ⟨summary, observation, hchecks⟩ := qualityChecks_agree lower e hlinked hitems
  exact agrees_of_checks hchecks rfl rfl

theorem quality_check_agrees_bench : ∃ e r, benchService.db.evidenceSubmissions.get? 12 = some e
    ∧ (buildSubmissionQualityCheck String.toLower 12 2).alone 0 ⟨benchService.db, [], 0⟩
      = .ok (r, ⟨benchService.db, [], 0⟩) ∧ r.Agrees e := by
  obtain ⟨e, he⟩ := Option.isSome_iff_exists.mp
    (by decide +kernel : (benchService.db.evidenceSubmissions.get? 12).isSome = true)
  obtain ⟨a, x, ha, -, hreply⟩ := quality_check_agrees benchSettings benchService
    benchService_reachable 12 e he
  have htester : (benchService.db.evidenceSubmissions.get? 12).all fun e =>
      (benchService.db.assignments.get? e.assignmentId).all (·.testerId = 2) := by decide +kernel
  rw [he, Option.all_some, ha, Option.all_some, decide_eq_true_eq] at htester
  obtain ⟨r, hrun, hagrees⟩ := hreply String.toLower 2 0 0 (Or.inl htester.symm)
  exact ⟨e, r, he, hrun, hagrees⟩

end TestExchange
