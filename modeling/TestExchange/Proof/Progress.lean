import TestExchange.Proof.Failures
import TestExchange.Proof.Saves
import TestExchange.Refine.Granted
import TestExchange.Txn.Plans

/-!
# Work can be finished

No test that has a place gets stuck. From every state requests lead to, its
tester and the owner of its campaign can finish it on their own: a session a day,
evidence for every task once the contract allows it, and an approval that pays.
What could stand in the way are the contract, whose tasks might not fit into a
submission, and whatever a service looks up on its way.
-/

namespace TestExchange

open Txn Txn.Session Exchange

variable {settings : Settings} {user : CurrentUser} {request : Request} {now n n' : Nat}
  {db db' : Db} {c : Conn} {u : Unit} {s : Service} {id k : Uuid} {a : Assignment} {x : Campaign}

/-! ## Contracts that can be fulfilled -/

/-- Every open campaign has a contract, and no contract asks for more than fits into a submission. -/
structure Db.Fulfillable (db : Db) : Prop where
  agreed : ∀ i y, db.campaigns.get? i = some y → y.status ≠ .draft →
    ∃ k t, db.testingContracts.get? k = some t ∧ t.campaignId = i
  answerable : ∀ k, (db.tasksOf k).length ≤ 25

theorem ContractUpsert.parse_tasks {p q : ContractUpsert} (h : p.parse = some q) :
    q.tasks.length ≤ 25 := by
  unfold ContractUpsert.parse at h
  dsimp only at h
  split at h
  · rename_i hc
    obtain rfl := Option.some.inj h
    simp only [Bool.and_eq_true, within, decide_eq_true_eq] at hc
    exact hc.1.2.2
  · exact absurd h (by simp)

theorem CampaignLaunch.parse_tasks {p q : CampaignLaunch} (h : p.parse = some q) :
    q.contract.tasks.length ≤ 25 := by
  unfold CampaignLaunch.parse at h
  split at h
  · rename_i hcontract
    obtain rfl := Option.some.inj h
    exact ContractUpsert.parse_tasks hcontract
  · exact absurd h (by simp)

/-- A new campaign is a draft. -/
theorem Db.Fulfillable.created {payload : CampaignCreate} {ownerId : Uuid} (h : db.Fulfillable) :
    ((insertCampaign n (payload.campaign ownerId)).effect db).Fulfillable where
  agreed := by
    intro i y hy hd
    rcases Table.get?_insert_cases hy with hold | ⟨-, rfl, -⟩
    · exact h.agreed i y hold hd
    · exact absurd rfl hd
  answerable := h.answerable

/-- A save leaves a contract where there was one, with the tasks of its payload. -/
theorem Db.Fulfillable.saved {payload : ContractUpsert} (h : db.Fulfillable)
    (hreplaces : Replaces db n id k payload db') (hcampaigns : db'.campaigns = db.campaigns)
    (htasks : payload.tasks.length ≤ 25) : db'.Fulfillable where
  agreed := by
    intro i y hy hd
    rw [hcampaigns] at hy
    obtain ⟨j, t, ht, hfor⟩ := h.agreed i y hy hd
    by_cases hj : j = k
    · subst hj
      refine ⟨j, _, hreplaces.contract, ?_⟩
      rcases hreplaces.place with ⟨hnone, -⟩ | ⟨t', hfound⟩
      · exact absurd (hnone.symm.trans ht) (by simp)
      · obtain ⟨ht', hid⟩ := Table.find?_eq_some hfound
        obtain rfl := Option.some.inj (ht'.symm.trans ht)
        rw [saved_campaignId]
        exact (of_decide_eq_true hid).symm.trans hfor
    · exact ⟨j, t, (hreplaces.others j hj).1.trans ht, hfor⟩
  answerable := by
    intro j
    by_cases hj : j = k
    · obtain ⟨m, -, hrows⟩ := hreplaces.tasks
      have hlength : (taskRows k m 0 payload.tasks).length = payload.tasks.length := by
        rw [← List.length_map Prod.snd, taskRows_tasks, List.length_mapIdx]
      rw [hj, hrows, hlength]
      exact htasks
    · rw [(hreplaces.others j hj).2]
      exact h.answerable j

/-- A campaign opens with the contract that is locked. -/
theorem Db.Fulfillable.published {ownerId : Uuid} {r : Uuid × Campaign} (h : db.Fulfillable)
    (hok : (publishCampaign id ownerId).alone now ⟨db, [], n⟩ = .ok (r, c)) (hf : Flushes c db') :
    db'.Fulfillable := by
  rcases publishCampaign_locks hok hf with ⟨rfl, -⟩ | ⟨k, hk, hcampaigns, hcontracts, htasks⟩
  · exact h
  obtain ⟨hrow, hfor⟩ := Table.find?_eq_some hk
  -- locking a contract leaves it where it is
  have hstays : ∀ j t, db.testingContracts.get? j = some t →
      ∃ t', db'.testingContracts.get? j = some t' ∧ t'.campaignId = t.campaignId := by
    intro j t ht
    rw [hcontracts, Table.get?_modify]
    split
    · rename_i hj
      rw [← hj, ht]
      exact ⟨_, rfl, rfl⟩
    · exact ⟨t, ht, rfl⟩
  have hagreed : ∀ i j t, db.testingContracts.get? j = some t → t.campaignId = i →
      ∃ j t, db'.testingContracts.get? j = some t ∧ t.campaignId = i := by
    intro i j t ht hi
    obtain ⟨t', ht', hsame⟩ := hstays j t ht
    exact ⟨j, t', ht', hsame.trans hi⟩
  refine ⟨fun i y hy hd => ?_, fun j => ?_⟩
  · rw [hcampaigns] at hy
    rcases Table.get?_modify_cases hy with ⟨rfl, -⟩ | ⟨-, hold⟩
    · exact hagreed i k.1 k.2 hrow (of_decide_eq_true hfor)
    · obtain ⟨j, t, ht, hi⟩ := h.agreed i y hold hd
      exact hagreed i j t ht hi
  · rw [Db.tasksOf, htasks]
    exact h.answerable j

/-- A launch is a creation, a save and a publication. -/
theorem Db.Fulfillable.launched {ownerId : Uuid} {payload : CampaignLaunch} {r : Uuid × Campaign}
    (h : db.Fulfillable) (hok : (launchCampaign ownerId payload).alone now ⟨db, [], n⟩ = .ok (r, c))
    (hf : Flushes c db') (hplaced : db.TasksPlaced) (hfresh : db.Fresh n)
    (htasks : payload.contract.tasks.length ≤ 25) : db'.Fulfillable := by
  simp only [launchCampaign, alone_bind] at hok
  obtain ⟨k, c₁, hcreate, _, c₂, hsave, hpublish⟩ := hok
  obtain ⟨-, hknown, hplaced₁, hfresh₁⟩ := createCampaign_same 0 hcreate
  obtain ⟨rfl, hnew, rfl⟩ := createCampaign_ok hcreate
  have hsavable := upsertContract_savable [campaignEvent ownerId "campaign.created" n []] hsave hknown
    (hplaced₁ hplaced) (hfresh₁ hfresh)
  obtain ⟨j, c', hsave', hpending, hreplaces⟩ := upsertContract_replaces now payload.contract
    [campaignEvent ownerId "campaign.created" n []] hsavable (by simp [campaignEvent])
  obtain ⟨-, rfl⟩ := Prod.mk.inj (Except.ok.inj (hsave.symm.trans hsave'))
  obtain ⟨-, details, he⟩ := upsertContract_ok [campaignEvent ownerId "campaign.created" n []] hsave
  have hcampaigns : c₂.db.campaigns = _ := congrArg Exchange.campaigns he
  have hc₂ : c₂ = ⟨c₂.db, [], c₂.next⟩ := by rw [← hpending]
  rw [hc₂] at hpublish
  exact (h.created.saved hreplaces hcampaigns htasks).published hpublish hf

theorem fulfillable_commit (hs : Reachable settings s) (h : s.db.Fulfillable)
    (hok : (handle settings user request).commit.alone now s.db s.nextId = .ok (u, db', n')) :
    db'.Fulfillable := by
  by_cases hwrites : .testingContracts ∈ request.relations
  · obtain ⟨c, halone, hf, -⟩ := commit_alone.mp hok
    cases request with
    | saveContract j p =>
        obtain ⟨k, payload, hparse, -, hreplaces⟩ := saveContract_replaces hs hok
        refine h.saved hreplaces (commit_keeps hok fun r hr w hw t => ?_)
          (ContractUpsert.parse_tasks hparse)
        cases hw <;> first | rfl | simp [Request.relations] at hr
    | launchCampaign payload =>
        simp only [handle, discard, validated, alone_bind, getActiveUser_ok, alone_orRaise,
          alone_pure, and_assoc, exists_and_left, exists_eq_left, exists_const] at halone
        obtain ⟨-, p, hparse, r, c₁, hlaunch, -, rfl⟩ := halone
        exact h.launched hlaunch hf (tasksPlaced_reachable hs) (fresh_reachable hs)
          (CampaignLaunch.parse_tasks hparse)
    | publishCampaign j =>
        simp only [handle, discard, alone_bind, getActiveUser_ok, alone_pure, and_assoc,
          exists_and_left, exists_eq_left, exists_const] at halone
        obtain ⟨-, r, c₁, hpublish, -, rfl⟩ := halone
        exact h.published hpublish hf
    | _ => exact absurd hwrites (by simp [Request.relations])
  · obtain ⟨hcontracts, htasks⟩ := Prod.mk.inj (keeps_contracts hok hwrites)
    refine ⟨fun i y hy hd => ?_, fun k => ?_⟩
    · obtain ⟨c, halone, hf, -⟩ := commit_alone.mp hok
      obtain ⟨actions, hacts, hrun⟩ := handle_acts request now s.db s.nextId u c db' halone hf
      obtain ⟨y', hy', hd'⟩ := opened_runs hrun (fun z hz i hpublish => by
        have hz := hacts z hz
        subst hpublish
        cases request <;> simp [Request.acts, Request.relations] at hz hwrites) hy hd
      rw [hcontracts]
      exact h.agreed i y' hy' hd'
    · rw [Db.tasksOf, htasks]
      exact h.answerable k

theorem fulfillable_reachable (h : Reachable settings s) : s.db.Fulfillable := by
  refine reachable_invariant Db.Fulfillable h ⟨?_, ?_⟩ ?_
  · exact fun i y hy => absurd hy (by simp [Db.empty])
  · exact fun k => Nat.zero_le 25
  · exact fun s now user request u db nextId hs hdb hok => fulfillable_commit hs hdb hok

/-! ## Work under way -/

/-- What the work on an assignment leaves alone until it is paid. -/
def Db.setting (db : Db) : Table Profile × Table Campaign × Table TestingContract × Table ContractTask
    × Table Dispute × Table CreditAccount :=
  (db.profiles, db.campaigns, db.testingContracts, db.contractTasks, db.disputes, db.creditAccounts)

/-- The requests with which a test is carried out. -/
def Request.IsWork : Request → Prop
  | .accept _ | .start _ | .recordSession _ _ | .submit _ _ => True
  | _ => False

theorem setting_kept (hrequest : request.IsWork)
    (hok : (handle settings user request).commit.alone now db n = .ok (u, db', n')) :
    db'.setting = db.setting := by
  refine commit_keeps hok fun r hr w hw t => ?_
  cases hw <;> first | rfl | (cases request <;> simp [Request.relations, Request.IsWork] at hr hrequest)

/-- A test that its tester and its owner can carry out, with no moderator at work. -/
structure Db.Engages (db : Db) (id : Uuid) (a : Assignment) (x : Campaign)
    (contract : Uuid × TestingContract) : Prop where
  works : db.Works id a x
  agreed : db.contractOf a.campaignId = some contract
  tester : ¬db.Suspended a.testerId
  owner : ¬db.Suspended x.ownerId
  calm : db.activeDispute id = none

/-- The test at time `now`, with an assignment that satisfies `p`, in an otherwise unchanged setting. -/
structure Underway (settings : Settings) (start : Db) (id : Uuid) (a : Assignment)
    (p : Assignment → Prop) (now : Time) (s : Service) : Prop where
  reachable : Reachable settings s
  timely : SessionInv now s.db
  setting : s.db.setting = start.setting
  row : ∃ b, s.db.assignments.get? id = some b ∧ b.testerId = a.testerId
    ∧ b.campaignId = a.campaignId ∧ p b

/-- Serve one call. -/
def Service.move (settings : Settings) (s : Service) (now : Time) (call : CurrentUser × Request) :
    Service := s.serve settings now call.1 call.2

theorem run_eq_play {requests : List (Time × CurrentUser × Request)} :
    s.run settings requests = play (Service.move settings) s requests := by
  induction requests generalizing s with
  | nil => rfl
  | cons r rest ih => exact ih

theorem serve_of_ok (hok : (handle settings user request).commit.alone now s.db s.nextId
    = .ok (u, db', n')) : s.serve settings now user request = ⟨db', n'⟩ := by
  rw [Service.serve, hok]

variable {start : Db} {p q : Assignment → Prop} {t : Time} {contract : Uuid × TestingContract}

/-- One more call of the work. -/
theorem Underway.step (h : Underway settings start id a p now s) (ht : now ≤ t)
    (hrequest : request.IsWork)
    (hok : (handle settings user request).commit.alone t s.db s.nextId = .ok (u, db', n'))
    (hrow : ∀ b, s.db.assignments.get? id = some b → p b →
      ∃ b', db'.assignments.get? id = some b' ∧ b'.testerId = b.testerId
        ∧ b'.campaignId = b.campaignId ∧ q b') :
    Underway settings start id a q t (s.serve settings t user request) := by
  have hreachable := h.reachable.tail t user request
  rw [serve_of_ok hok] at hreachable ⊢
  obtain ⟨b, hb, htester, hcampaign, hp⟩ := h.row
  obtain ⟨b', hb', htester', hcampaign', hq⟩ := hrow b hb hp
  exact ⟨hreachable, sessionInv_commit h.reachable (h.timely.later ht) hok,
    (setting_kept hrequest hok).trans h.setting,
    b', hb', htester'.trans htester, hcampaign'.trans hcampaign, hq⟩

/-- The test is still one that can be carried out. -/
theorem Underway.engages (h : Underway settings start id a p now s)
    (hstart : start.Engages id a x contract) :
    ∃ b, s.db.Engages id b x contract ∧ b.testerId = a.testerId ∧ b.campaignId = a.campaignId ∧ p b
      ∧ s.db.tasksOf contract.1 = start.tasksOf contract.1
      ∧ s.db.exchange.balance a.testerId = start.exchange.balance a.testerId := by
  obtain ⟨b, hb, htester, hcampaign, hp⟩ := h.row
  obtain ⟨hprofiles, hcampaigns, hcontracts, htasks, hdisputes, haccounts⟩ :
      s.db.profiles = start.profiles ∧ s.db.campaigns = start.campaigns
        ∧ s.db.testingContracts = start.testingContracts ∧ s.db.contractTasks = start.contractTasks
        ∧ s.db.disputes = start.disputes ∧ s.db.creditAccounts = start.creditAccounts := by
    simpa [Db.setting] using h.setting
  refine ⟨b, ⟨⟨hb, ?_⟩, ?_, ?_, ?_, ?_⟩, htester, hcampaign, hp, ?_, ?_⟩
  · rw [hcampaigns, hcampaign]
    exact hstart.works.hc
  · rw [Db.contractOf, hcontracts, hcampaign]
    exact hstart.agreed
  · rw [Db.Suspended, hprofiles, htester]
    exact hstart.tester
  · rw [Db.Suspended, hprofiles]
    exact hstart.owner
  · rw [Db.activeDispute, hdisputes]
    exact hstart.calm
  · rw [Db.tasksOf, htasks]
    rfl
  · show (s.db.creditAccounts.get? a.testerId).elim 0 (·.balance) = _
    rw [haccounts]
    rfl

/-! ## One call after the other -/

/-- The tester or the owner calls. -/
def Party (a : Assignment) (x : Campaign) (call : CurrentUser × Request) : Prop :=
  call.1.id = a.testerId ∨ call.1.id = x.ownerId

/-- The assignment is being tested, since some time before `t`. -/
def Assignment.Runs (t : Time) (a : Assignment) : Prop :=
  a.status ∈ [AssignmentStatus.inProgress, .changesRequested]
    ∧ ∃ started, a.startedAt = some started ∧ started ≤ t

/-- The assignment has moved on. -/
theorem moved_on {r : Roster} {f : Assignment → Assignment} {b : Assignment}
    (h : db'.assignments = (r.modifyAssignment id f).assignments) (hb : r.assignments.get? id = some b)
    (htester : (f b).testerId = b.testerId) (hcampaign : (f b).campaignId = b.campaignId)
    (hq : q (f b)) :
    ∃ b', db'.assignments.get? id = some b' ∧ b'.testerId = b.testerId
      ∧ b'.campaignId = b.campaignId ∧ q b' := by
  refine ⟨f b, ?_, htester, hcampaign, hq⟩
  rw [h, Roster.modifyAssignment, Table.get?_modify_self, hb]
  rfl

/-- The sessions recorded for the assignment. -/
def Db.sessionCount (db : Db) (id : Uuid) : Nat := db.testingSessions.count fun t => t.assignmentId = id

theorem recordTestingSession_counts {testerId : Uuid} {payload : TestingSessionCreate} :
    Yields (recordTestingSession id testerId payload) fun _ db db' =>
      db'.sessionCount id = db.sessionCount id + 1 := by
  intro now db n r c db' h hf
  simp only [recordTestingSession, alone_bind, alone_query, selectForUpdate_ok, alone_orRaise,
    alone_raiseIf, alone_utcnow, alone_add, alone_uuid4, addAuditEvent_ok, alone_flush, alone_pure,
    and_assoc, exists_and_left, exists_eq_left, exists_const, List.nil_append, applyAll_cons,
    applyAll_nil, not_not] at h
  obtain ⟨a, ha, -, -, -, hv, -, rfl⟩ := h
  simp only [Flushes, applyAll_cons, applyAll_nil] at hf
  simp only [insertTestingSession, firstViolated_cons, Table.contains_eq_false] at hv
  rw [hf.2]
  exact (Table.count_insert hv.1).trans (by simp [Db.sessionCount])

theorem date_days {j : Nat} : Time.date (t + j * oneDay) = Time.date t + j :=
  Nat.add_mul_div_right t j (by decide)

/-! ### What is handed in -/

/-- A note on a task, or on the whole test. -/
def noteOn (taskId : Option Uuid) : EvidenceItemCreate where
  taskId := taskId
  kind := .note
  note := some "Carried out."

/-- Evidence for each of the tasks. -/
def reportOn (tasks : List (Uuid × ContractTask)) : SubmissionCreate where
  summary := "Carried out as the contract asks."
  items := noteOn none :: tasks.map fun task => noteOn (some task.1)

theorem noteOn_stripped {taskId : Option Uuid} : (noteOn taskId).strip = noteOn taskId := by
  have hnote : strip "Carried out." = "Carried out." := by decide +kernel
  simp [noteOn, EvidenceItemCreate.strip, hnote]

theorem noteOn_ok {taskId : Option Uuid} : (noteOn taskId).ok = true := by
  have hnote : optionalWithin 8000 (some "Carried out.") = true := by decide +kernel
  exact hnote

theorem reportOn_notes {tasks : List (Uuid × ContractTask)} {item : EvidenceItemCreate}
    (h : item ∈ (reportOn tasks).items) : ∃ taskId, item = noteOn taskId := by
  rcases List.mem_cons.mp h with rfl | h
  · exact ⟨none, rfl⟩
  · obtain ⟨task, -, rfl⟩ := List.mem_map.mp h
    exact ⟨_, rfl⟩

theorem reportOn_tasks {tasks : List (Uuid × ContractTask)} :
    (reportOn tasks).items.filterMap (·.taskId) = tasks.map Prod.fst := by
  simp only [reportOn, List.filterMap_cons, noteOn, List.filterMap_map]
  show List.filterMap (fun task => some task.1) tasks = tasks.map Prod.fst
  exact congrFun List.filterMap_eq_map' tasks

/-- The report on a contract fits the schema. -/
theorem reportOn_parse {tasks : List (Uuid × ContractTask)} (h : tasks.length ≤ 25) :
    (reportOn tasks).parse = some (reportOn tasks) := by
  have hsummary : strip (reportOn tasks).summary = (reportOn tasks).summary := by
    show strip "Carried out as the contract asks." = "Carried out as the contract asks."
    decide +kernel
  have hfits : lengthWithin 20 8000 (reportOn tasks).summary = true := by
    show lengthWithin 20 8000 "Carried out as the contract asks." = true
    decide +kernel
  have hitems : (reportOn tasks).items.map EvidenceItemCreate.strip = (reportOn tasks).items := by
    refine (List.map_congr_left fun item hitem => ?_).trans (List.map_id _)
    obtain ⟨taskId, rfl⟩ := reportOn_notes hitem
    exact noteOn_stripped
  have hok : (reportOn tasks).items.all EvidenceItemCreate.ok = true := by
    refine List.all_eq_true.mpr fun item hitem => ?_
    obtain ⟨taskId, rfl⟩ := reportOn_notes hitem
    exact noteOn_ok
  have hlength : within 1 50 (reportOn tasks).items.length = true := by
    simp only [within, reportOn, List.length_cons, List.length_map, Bool.and_eq_true, decide_eq_true_eq]
    omega
  unfold SubmissionCreate.parse
  simp only [hsummary, hfits, hitems, hok, hlength, Bool.and_self, if_true]
/-- The owner's verdict. -/
def approval : ReviewCreate := ⟨.approved, "As the contract asks."⟩

theorem approval_parse : approval.parse = some approval := by
  have hstrip : strip "As the contract asks." = "As the contract asks." := by decide +kernel
  have hlength : lengthWithin 5 8000 "As the contract asks." = true := by decide +kernel
  simp only [approval, ReviewCreate.parse, hstrip, hlength, if_true]

/-! ### The stages -/

section Stages

variable (hstart : start.Engages id a x contract)

include hstart

/-- The owner accepts. -/
theorem accepting (h : Underway settings start id a (fun b => b.status = .applied) now s)
    (hpublished : x.status = .published) (hroom : s.db.occupiedSlots a.campaignId < x.targetTesters) :
    Attains (Service.move settings) (Party a x) now now 1
      (Underway settings start id a (fun b => b.status = .accepted) now) s := by
  obtain ⟨b, hengages, -, hcampaign, happlied, -⟩ := h.engages hstart
  obtain ⟨r, db', n', hok⟩ : ∃ r db' n', (handle settings ⟨x.ownerId, none⟩ (.accept id)).commit.alone
      now s.db s.nextId = .ok (r, db', n') :=
    GoesThrough.commits (ends_activeUser hengages.owner (acceptAssignment_goesThrough
      (orderly_reachable h.reachable) hengages.works hpublished happlied (hcampaign ▸ hroom)))
  refine attains_move (m := (⟨x.ownerId, none⟩, .accept id)) (Nat.le_refl now) (Or.inr rfl)
    (h.step (Nat.le_refl now) trivial hok fun c hc _ => ?_)
  obtain ⟨after, sent, henacts, hdone⟩ := reachable_enacts h.reachable hok
  have hassignments : db'.assignments = after.assignments := congrArg Roster.assignments hdone.roster
  cases henacts with
  | quiet hquiet => exact hquiet.elim
  | drafting hdrafting => exact hdrafting.elim
  | accept _ _ _ _ =>
      exact moved_on hassignments hc rfl rfl rfl

/-- The tester starts. -/
theorem starting (h : Underway settings start id a (fun b => b.status = .accepted) now s) :
    Attains (Service.move settings) (Party a x) now now 1
      (Underway settings start id a (Assignment.Runs now) now) s := by
  obtain ⟨b, hengages, htester, -, haccepted, -⟩ := h.engages hstart
  have hsound := sound_reachable h.reachable
  obtain ⟨r, db', n', hok⟩ : ∃ r db' n', (handle settings ⟨b.testerId, none⟩ (.start id)).commit.alone
      now s.db s.nextId = .ok (r, db', n') :=
    GoesThrough.commits (ends_activeUser hengages.tester (startAssignment_goesThrough hsound.orderly
      hengages.works.ha haccepted (hsound.idle id b hengages.works.ha haccepted)))
  refine attains_move (m := (⟨b.testerId, none⟩, .start id)) (Nat.le_refl now) (Or.inl htester)
    (h.step (Nat.le_refl now) trivial hok fun c hc _ => ?_)
  obtain ⟨after, sent, henacts, hdone⟩ := reachable_enacts h.reachable hok
  have hassignments : db'.assignments = after.assignments := congrArg Roster.assignments hdone.roster
  cases henacts with
  | quiet hquiet => exact hquiet.elim
  | drafting hdrafting => exact hdrafting.elim
  | start _ _ _ =>
      exact moved_on hassignments hc rfl rfl ⟨List.mem_cons_self, now, rfl, Nat.le_refl now⟩

/-- The tester records a session on the next day. -/
theorem recording {j : Nat}
    (h : Underway settings start id a (Assignment.Runs now) (now + j * oneDay) s ∧ j ≤ s.db.sessionCount id) :
    Attains (Service.move settings) (Party a x) (now + j * oneDay) (now + (j + 1) * oneDay) 1
      (fun s => Underway settings start id a (Assignment.Runs now) (now + (j + 1) * oneDay) s
        ∧ j + 1 ≤ s.db.sessionCount id) s := by
  obtain ⟨h, hcount⟩ := h
  obtain ⟨b, hengages, htester, -, hruns, -⟩ := h.engages hstart
  have hlater : now + j * oneDay ≤ now + (j + 1) * oneDay := by
    rw [Nat.succ_mul]
    omega
  have hfree : ∀ k y, s.db.testingSessions.get? k = some y → y.assignmentId = id →
      y.sessionDate ≠ Time.date (now + (j + 1) * oneDay) := by
    intro k y hy _ hday
    obtain ⟨-, -, -, -, -, huntil⟩ := h.timely.spent k y hy
    rw [hday, date_days, date_days] at huntil
    omega
  obtain ⟨r, db', n', hok⟩ : ∃ r db' n',
      (handle settings ⟨b.testerId, none⟩ (.recordSession id ⟨none⟩)).commit.alone
        (now + (j + 1) * oneDay) s.db s.nextId = .ok (r, db', n') :=
    GoesThrough.commits (ends_activeBody hengages.tester (q := ⟨none⟩) rfl
      (recordTestingSession_goesThrough (orderly_reachable h.reachable) hengages.works.ha hruns.1 hfree))
  refine attains_move (m := (⟨b.testerId, none⟩, .recordSession id ⟨none⟩)) hlater (Or.inl htester)
    ⟨h.step hlater trivial hok fun c hc hp => ?_, ?_⟩
  · have hassignments : db'.assignments = s.db.assignments := by
      refine commit_keeps hok fun r hr w hw t => ?_
      cases hw <;> first | rfl | simp [Request.relations] at hr
    exact ⟨c, hassignments ▸ hc, rfl, rfl, hp⟩
  · obtain ⟨c, halone, hf, -⟩ := commit_alone.mp hok
    have hone : db'.sessionCount id = s.db.sessionCount id + 1 :=
      yields_active (yields_validated fun p _ => yields_discard recordTestingSession_counts) _ _ _ _ _ _
        halone hf
    show j + 1 ≤ (s.serve settings _ _ _).db.sessionCount id
    rw [serve_of_ok hok, hone]
    exact Nat.succ_le_succ hcount

/-- The tester submits evidence, once the contract allows it. -/
theorem submitting {d : Time} (h : Underway settings start id a (Assignment.Runs now) t s) (ht : t ≤ d)
    (hlate : now + contract.2.minimumDurationDays * oneDay ≤ d)
    (hmany : contract.2.requiredSessions ≤ s.db.sessionCount id) :
    Attains (Service.move settings) (Party a x) t d 1
      (Underway settings start id a (fun b => b.status = .submitted) d) s := by
  obtain ⟨b, hengages, htester, -, ⟨hrunning, started, hstarted, hfirst⟩, -⟩ := h.engages hstart
  have hduration : started + contract.2.minimumDurationDays * oneDay ≤ d :=
    Nat.le_trans (Nat.add_le_add_right hfirst _) hlate
  have hnotes : ∀ item ∈ (reportOn (s.db.tasksOf contract.1)).items,
      item.storageKey = none ∧ item.note ≠ none := by
    intro item hitem
    obtain ⟨taskId, rfl⟩ := reportOn_notes hitem
    exact ⟨rfl, by simp [noteOn]⟩
  obtain ⟨r, db', n', hok⟩ : ∃ r db' n',
      (handle settings ⟨b.testerId, none⟩ (.submit id (reportOn (s.db.tasksOf contract.1)))).commit.alone
        d s.db s.nextId = .ok (r, db', n') :=
    GoesThrough.commits (ends_activeBody hengages.tester
      (reportOn_parse ((fulfillable_reachable h.reachable).answerable contract.1))
      (createSubmission_goesThrough (orderly_reachable h.reachable) hengages.works hrunning
        hengages.agreed hstarted hduration hmany hnotes reportOn_tasks))
  refine attains_move (m := (⟨b.testerId, none⟩, .submit id _)) ht (Or.inl htester)
    (h.step ht trivial hok fun c hc _ => ?_)
  obtain ⟨after, sent, henacts, hdone⟩ := reachable_enacts h.reachable hok
  have hassignments : db'.assignments = after.assignments := congrArg Roster.assignments hdone.roster
  cases henacts with
  | quiet hquiet => exact hquiet.elim
  | drafting hdrafting => exact hdrafting.elim
  | submit _ _ _ _ => exact moved_on hassignments hc rfl rfl rfl

/-- The test is approved, and the tester has been paid. -/
def Concluded (start : Db) (id : Uuid) (a : Assignment) (x : Campaign) (s : Service) : Prop :=
  (∃ b, s.db.assignments.get? id = some b ∧ b.status = .approved)
    ∧ s.db.exchange.balance a.testerId = start.exchange.balance a.testerId + x.rewardCredits

omit hstart in
/-- Submitted work has a submission that waits for the owner. -/
theorem awaiting (hs : Reachable settings s) {b : Assignment} (hengages : s.db.Engages id b x contract)
    (hsubmitted : b.status = .submitted) : ∃ k e, s.db.Awaits k id e b x := by
  have hsteps := (caseInv_possible (reachable_possible hs)).inStep id b hengages.works.ha
  have hone : 1 ≤ latestIn s.db.evidenceSubmissions id :=
    hsteps.submitted (by rw [hsubmitted]; decide)
  obtain ⟨k, e, he, hof, hversion⟩ := hsteps.exists_version ⟨hone, Nat.le_refl _⟩
  have hpending : e.status = .submitted := by
    have hlatest := hsteps.latest k e he hof hversion
    rw [hsubmitted] at hlatest
    exact (Option.some.inj hlatest).symm
  refine ⟨k, e, he, hof, hengages.works, hpending, hsubmitted, hengages.calm,
    (sound_reachable hs).pending k e he hpending, unrewarded hs hengages.works.ha ?_⟩
  rw [hsubmitted]
  decide

/-- The owner approves. -/
theorem approving (h : Underway settings start id a (fun b => b.status = .submitted) t s) :
    Attains (Service.move settings) (Party a x) t t 1 (Concluded start id a x) s := by
  obtain ⟨b, hengages, htester, -, hsubmitted, -, hbalance⟩ := h.engages hstart
  obtain ⟨k, e, hawaits⟩ := awaiting h.reachable hengages hsubmitted
  have hledger := ledgerInv_possible (reachable_possible h.reachable)
  obtain ⟨x', hx', hdraft, -⟩ := hledger.assigned id b hengages.works.ha
  obtain rfl := Option.some.inj ((show s.db.campaigns.get? _ = _ from hx').symm.trans hengages.works.hc)
  have happroves : Ends (handle settings ⟨x'.ownerId, none⟩ (.review k approval)) t
      ⟨s.db, [], s.nextId⟩ (fun _ c => Ready b.campaignId x'.ownerId [b.testerId, x'.ownerId] c
        ∧ Rewarded s.db id b x' x'.ownerId c.db.money) fun _ => False :=
    ends_activeBody hengages.owner approval_parse (createReview_approves
      (orderly_reachable h.reachable) hawaits (terms_positive h.reachable hengages.works.hc hdraft).2
      (hledger.booked.solvent b.testerId))
  obtain ⟨r, db', n', hok, hpaid⟩ := (returns_iff_ends.mpr happroves).calm
    (P := fun v : Desk => Rewarded s.db id b x' x'.ownerId (v.ledger, v.accounts))
  refine attains_move (m := (⟨x'.ownerId, none⟩, .review k approval)) (Nat.le_refl t) (Or.inr rfl) ?_
  show Concluded start id a x' (s.serve settings t ⟨x'.ownerId, none⟩ (.review k approval))
  rw [serve_of_ok hok]
  refine ⟨?_, ?_⟩
  · obtain ⟨after, sent, henacts, hdone⟩ := reachable_enacts h.reachable hok
    have hassignments : db'.assignments = after.assignments := congrArg Roster.assignments hdone.roster
    cases henacts with
    | quiet hquiet => exact hquiet.elim
    | drafting hdrafting => exact hdrafting.elim
    | review he hw _ _ _ _ _ =>
        obtain rfl := Option.some.inj (hawaits.he.symm.trans he)
        rw [if_pos (show approval.decision = .approved from rfl), settle_assignments, hawaits.hof]
          at hassignments
        obtain ⟨b', hb', -, -, happroved⟩ := moved_on (q := fun b => b.status = .approved) hassignments
          hengages.works.ha rfl rfl rfl
        exact ⟨b', hb', happroved⟩
  · have hpays : Pays s.db db' id b x' := Rewarded.pays hpaid
    rw [← hbalance, ← htester]
    exact hpays.balance

/-- **A test that runs is finished** as soon as its contract allows it. -/
theorem finishing (h : Underway settings start id a (Assignment.Runs now) now s) :
    Attains (Service.move settings) (Party a x) now
      (now + max contract.2.requiredSessions contract.2.minimumDurationDays * oneDay)
      (contract.2.requiredSessions + 1 + 1) (Concluded start id a x) s := by
  let clock (j : Nat) : Time := now + j * oneDay
  have hmono : ∀ {i j}, i ≤ j → clock i ≤ clock j :=
    fun hij => Nat.add_le_add_left (Nat.mul_le_mul_right oneDay hij) now
  have hsessions : Attains (Service.move settings) (Party a x) (clock 0) (clock contract.2.requiredSessions)
      contract.2.requiredSessions (fun s => Underway settings start id a (Assignment.Runs now)
        (clock contract.2.requiredSessions) s ∧ contract.2.requiredSessions ≤ s.db.sessionCount id) s :=
    attains_ticks (P := fun j s => Underway settings start id a (Assignment.Runs now) (clock j) s
      ∧ j ≤ s.db.sessionCount id) (fun j => hmono (Nat.le_succ j)) (fun j s hj => recording hstart hj)
      ⟨by simpa [clock] using h, Nat.zero_le _⟩ contract.2.requiredSessions
  have hfirst : clock 0 = now := by simp [clock]
  have hlast : clock contract.2.requiredSessions
      ≤ clock (max contract.2.requiredSessions contract.2.minimumDurationDays) :=
    hmono (Nat.le_max_left _ _)
  have hlate : now + contract.2.minimumDurationDays * oneDay
      ≤ clock (max contract.2.requiredSessions contract.2.minimumDurationDays) :=
    hmono (Nat.le_max_right _ _)
  have hsubmitted := hsessions.trans (hmono (Nat.zero_le _)) hlast fun s' hs' =>
    submitting hstart hs'.1 hlast hlate hs'.2
  have hall := hsubmitted.trans (hmono (Nat.zero_le _)) (Nat.le_refl _) fun s' hs' => approving hstart hs'
  rw [hfirst] at hall
  exact hall

end Stages

/-- The statuses of an assignment that is over. -/
def overStatuses : List AssignmentStatus := [.approved, .rejected, .cancelled]

/--
**No test that has a place gets stuck.** However the service got to its present
state, at whatever times up to `now`: a test that is not over, with no moderator
at work on it, can be brought to its approval by calls of its tester and its owner
alone, as long as neither is suspended. They need at most one call for each session the
contract asks for and four more, and no more days than the contract asks for sessions or
for testing; and the tester is paid exactly the reward. Only an application needs a place.
-/
theorem work_finishes (settings : Settings) (requests : List (Time × CurrentUser × Request))
    (s : Service) (hs : s = Service.init.run settings requests)
    (hclock : (requests.map Prod.fst).Pairwise (· ≤ ·)) (now : Time) (hnow : ∀ r ∈ requests, r.1 ≤ now)
    (id : Uuid) (a : Assignment) (x : Campaign) (hw : s.db.Works id a x)
    (hopen : a.status ∉ overStatuses)
    (hroom : a.status = .applied → x.status = .published
      ∧ s.db.occupiedSlots a.campaignId < x.targetTesters)
    (hcalm : s.db.activeDispute id = none) (htester : ¬s.db.Suspended a.testerId)
    (howner : ¬s.db.Suspended x.ownerId) :
    ∃ contract, s.db.contractOf a.campaignId = some contract
      ∧ ∃ more : List (Time × CurrentUser × Request),
        more.length ≤ contract.2.requiredSessions + 4
        ∧ (more.map Prod.fst).Pairwise (· ≤ ·)
        ∧ (∀ r ∈ more, now ≤ r.1
            ∧ r.1 ≤ now + max contract.2.requiredSessions contract.2.minimumDurationDays * oneDay
            ∧ (r.2.1.id = a.testerId ∨ r.2.1.id = x.ownerId))
        ∧ Concluded s.db id a x (s.run settings more) := by
  have hreachable : Reachable settings s := hs ▸ reachable_run .init requests
  have htimely : SessionInv now s.db := hs ▸ sessionInv_run hclock hnow
  have hledger := ledgerInv_possible (reachable_possible hreachable)
  obtain ⟨x', hx', hdraft, -⟩ := hledger.assigned id a hw.ha
  obtain rfl := Option.some.inj ((show s.db.campaigns.get? _ = _ from hx').symm.trans hw.hc)
  obtain ⟨k, terms, hterms, hfor⟩ := (fulfillable_reachable hreachable).agreed a.campaignId x' hw.hc hdraft
  obtain ⟨contract, hagreed⟩ : ∃ contract, s.db.contractOf a.campaignId = some contract :=
    ⟨_, (contractOf_eq_some (contractInv_reachable hreachable)).mpr ⟨hterms, hfor⟩⟩
  have hengages : s.db.Engages id a x' contract := ⟨hw, hagreed, htester, howner, hcalm⟩
  have hat : ∀ p : Assignment → Prop, p a → Underway settings s.db id a p now s :=
    fun p hp => ⟨hreachable, htimely, rfl, a, hw.ha, rfl, rfl, hp⟩
  have hle : now ≤ now + max contract.2.requiredSessions contract.2.minimumDurationDays * oneDay :=
    Nat.le_add_right _ _
  have hattains : Attains (Service.move settings) (Party a x') now
      (now + max contract.2.requiredSessions contract.2.minimumDurationDays * oneDay)
      (contract.2.requiredSessions + 4) (Concluded s.db id a x') s := by
    have hruns (hrunning : a.status = .inProgress ∨ a.status = .changesRequested) :
        Underway settings s.db id a (Assignment.Runs now) now s := by
      have hstarted : a.startedAt ≠ none := htimely.running id a hw.ha (by
        rcases hrunning with hs | hs <;> simp [hs])
      obtain ⟨started, hsome⟩ := Option.ne_none_iff_exists'.mp hstarted
      exact hat _ ⟨by simpa using hrunning, started, hsome, htimely.past id a started hw.ha hsome⟩
    have hfinish := fun s' (hs' : Underway settings s.db id a (Assignment.Runs now) now s') =>
      finishing hengages hs'
    have hstart := fun s' (hs' : Underway settings s.db id a (fun b => b.status = .accepted) now s') =>
      (starting hengages hs').trans (Nat.le_refl now) hle hfinish
    cases hstatus : a.status with
    | applied =>
        obtain ⟨hpublished, hplace⟩ := hroom hstatus
        exact ((accepting hengages (hat _ hstatus) hpublished hplace).trans (Nat.le_refl now) hle
          hstart).mono (Nat.le_refl _) (by omega) fun _ h => h
    | accepted => exact (hstart s (hat _ hstatus)).mono (Nat.le_refl _) (by omega) fun _ h => h
    | inProgress =>
        exact (hfinish s (hruns (Or.inl hstatus))).mono (Nat.le_refl _) (by omega) fun _ h => h
    | changesRequested =>
        exact (hfinish s (hruns (Or.inr hstatus))).mono (Nat.le_refl _) (by omega) fun _ h => h
    | submitted => exact (approving hengages (hat _ hstatus)).mono hle (by omega) fun _ h => h
    | approved => exact absurd (by simp [hstatus, overStatuses]) hopen
    | rejected => exact absurd (by simp [hstatus, overStatuses]) hopen
    | cancelled => exact absurd (by simp [hstatus, overStatuses]) hopen
  obtain ⟨more, hlength, hsorted, hcalls, hconcluded⟩ := hattains
  rw [← run_eq_play] at hconcluded
  exact ⟨_, hagreed, more, hlength, hsorted, hcalls, hconcluded⟩

theorem work_finishes_bench :
    ∃ a x contract, appliedService.db.Works 8 a x ∧ a.status = .applied
      ∧ appliedService.db.contractOf 4 = some contract
      ∧ ∃ more : List (Time × CurrentUser × Request),
          more.length ≤ contract.2.requiredSessions + 4
          ∧ Concluded appliedService.db 8 a x (appliedService.run benchSettings more) := by
  have hrow : (appliedService.db.assignments.get? 8).map
      (fun a => (a.status, a.campaignId, a.testerId)) = some (.applied, 4, 2) := by decide +kernel
  have hcampaign : (appliedService.db.campaigns.get? 4).map
      (fun x => (x.status, x.targetTesters, x.ownerId)) = some (.published, 1, 1) := by decide +kernel
  obtain ⟨a, ha, hvalues⟩ := Option.map_eq_some_iff.mp hrow
  obtain ⟨x, hx, hvalues'⟩ := Option.map_eq_some_iff.mp hcampaign
  simp only [Prod.mk.injEq] at hvalues hvalues'
  obtain ⟨hstatus, hof, htester⟩ := hvalues
  obtain ⟨hpublished, htarget, howner⟩ := hvalues'
  have hworks : appliedService.db.Works 8 a x := ⟨ha, hof ▸ hx⟩
  have hcalm : ∀ u ∈ [1, 2], ¬appliedService.db.Suspended u := by
    rintro u hu ⟨p, hp, hsuspended⟩
    have hall : ∀ u ∈ [1, 2],
        (appliedService.db.profiles.get? u).map (·.isSuspended) = some false := by decide +kernel
    have hnot := hall u hu
    rw [hp] at hnot
    exact absurd (Option.some.inj hnot) (by simp [hsuspended])
  have hroom : appliedService.db.occupiedSlots 4 = 0 := by decide +kernel
  obtain ⟨contract, hagreed, more, hlength, -, -, hconcluded⟩ :=
    work_finishes benchSettings (benchLaunch ++ benchTests.take 1) appliedService rfl (by decide) 0
      (by decide) 8 a x hworks (by simp [hstatus, overStatuses])
      (fun _ => ⟨hpublished, by rw [hof, hroom, htarget]; exact Nat.one_pos⟩)
      (by decide +kernel) (htester ▸ hcalm 2 (by simp)) (howner ▸ hcalm 1 (by simp))
  exact ⟨a, x, contract, hworks, hstatus, hof ▸ hagreed, more, hlength, hconcluded⟩

end TestExchange
