import TestExchange.Proof.Replacement

/-!
# The saves of a run

What a run of requests saves for a campaign is the list of payloads that its
owner sent while it was a draft and that fit their schema. All of them are
stored, each in the place of the one before, and whatever else the run contains
leaves the contract of the campaign alone as long as the campaign is a draft.
-/

namespace TestExchange

open Txn Txn.Session Exchange

variable {settings : Settings} {user : CurrentUser} {request : Request} {now n n' : Nat}
  {db db' : Db} {s : Service} {u : Unit} {id k : Uuid} {payload : ContractUpsert}
  {requests more : List (Time × CurrentUser × Request)}

/-- The account may use the API, and the campaign is its draft. -/
def Db.MaySave (db : Db) (userId campaignId : Uuid) : Prop :=
  db.Admits userId
    ∧ ∃ c ∈ db.campaigns.get? campaignId, c.ownerId = userId ∧ c.status = .draft

instance {userId campaignId : Uuid} : Decidable (db.MaySave userId campaignId) :=
  inferInstanceAs (Decidable (¬ (∃ p ∈ db.profiles.get? userId, p.isSuspended = true)
    ∧ ∃ c ∈ db.campaigns.get? campaignId, c.ownerId = userId ∧ c.status = .draft))

/-- What the request saves for the campaign. -/
def Request.saving (db : Db) (campaignId userId : Uuid) : Request → Option ContractUpsert
  | .saveContract id payload =>
      if id = campaignId ∧ db.MaySave userId id then payload.parse else none
  | _ => none

/-- The payloads the requests save for the campaign, in order. -/
def Service.saves (settings : Settings) (campaignId : Uuid) (s : Service) :
    List (Time × CurrentUser × Request) → List ContractUpsert
  | [] => []
  | (now, user, request) :: rest =>
      (request.saving s.db campaignId user.id).toList
        ++ (s.serve settings now user request).saves settings campaignId rest

theorem run_append : s.run settings (requests ++ more)
    = (s.run settings requests).run settings more := by
  induction requests generalizing s with
  | nil => rfl
  | cons r rest ih => exact ih

theorem saves_append : s.saves settings id (requests ++ more)
    = s.saves settings id requests ++ (s.run settings requests).saves settings id more := by
  induction requests generalizing s with
  | nil => rfl
  | cons r rest ih =>
      obtain ⟨now, user, request⟩ := r
      rw [List.cons_append, Service.saves, Service.saves, ih, List.append_assoc]
      rfl

theorem saving_eq_some (h : request.saving db id user.id = some payload) :
    ∃ p, request = .saveContract id p ∧ p.parse = some payload ∧ db.MaySave user.id id := by
  cases request with
  | saveContract campaignId p =>
      simp only [Request.saving, Option.ite_none_right_eq_some] at h
      obtain ⟨⟨rfl, hmay⟩, hparse⟩ := h
      exact ⟨p, rfl, hparse, hmay⟩
  | _ => exact absurd h (by simp [Request.saving])

/-! ## One request -/

/-- A save that is counted goes through. -/
theorem saveContract_commits (now : Nat) {p : ContractUpsert} (hs : Reachable settings s)
    (hmay : s.db.MaySave user.id id) (hparse : p.parse = some payload)
    (hopen : ∀ k x, s.db.contractOf id = some (k, x) → x.status ≠ .locked) :
    ∃ k db' n', (handle settings user (.saveContract id p)).commit.alone now s.db s.nextId
        = .ok ((), db', n') ∧ Replaces s.db s.nextId id k payload db' := by
  obtain ⟨hadmits, x, hx, howner, hdraft⟩ := hmay
  have hknown : s.db.Knows user.id := howner ▸ owned_reachable hs id x hx
  have hsavable : Savable s.db s.nextId id user.id :=
    ⟨⟨x, hx, howner, hdraft⟩, hknown, tasksPlaced_reachable hs, fresh_reachable hs, hopen⟩
  obtain ⟨k, c, hsave, hpending, hreplaces⟩ :=
    upsertContract_replaces now payload [] hsavable (by simp)
  -- the contract can be read back
  obtain ⟨found, hfound⟩ : ∃ found, c.db.contractOf id = some found := by
    cases hnone : c.db.contractOf id with
    | none =>
        have hother := Table.find?_eq_none.mp hnone k _ hreplaces.contract
        exact absurd saved_campaignId (by simpa using hother)
    | some found => exact ⟨found, rfl⟩
  refine ⟨k, c.db, c.next, commit_alone.mpr ⟨c, ?_, by rw [hpending]; rfl, rfl⟩, hreplaces⟩
  simp only [handle, validated, discard, alone_bind, getActiveUser_ok, alone_orRaise, alone_pure,
    getContract_ok, and_assoc, exists_and_left, exists_eq_left, exists_const]
  exact ⟨hadmits, payload, hparse, _, c, hsave,
    ⟨found, sortTasks (c.db.tasksOf found.1)⟩, hfound, rfl, trivial, rfl⟩

/-- A save that goes through is counted, and replaces the contract. -/
theorem saveContract_replaces {p : ContractUpsert} (hs : Reachable settings s)
    (hok : (handle settings user (.saveContract id p)).commit.alone now s.db s.nextId
      = .ok (u, db', n')) :
    ∃ k payload, p.parse = some payload ∧ s.db.MaySave user.id id
      ∧ Replaces s.db s.nextId id k payload db' := by
  obtain ⟨c, halone, hf, -⟩ := commit_alone.mp hok
  simp only [handle, validated, discard, alone_bind, getActiveUser_ok, alone_orRaise, alone_pure,
    getContract_ok, and_assoc, exists_and_left, exists_eq_left, exists_const] at halone
  obtain ⟨hadmits, payload, hparse, r, c₁, hsave, -, -, -, -, rfl⟩ := halone
  obtain ⟨x, hx, howner, hdraft⟩ : ∃ x, s.db.campaigns.get? id = some x ∧ x.ownerId = user.id
      ∧ x.status = .draft := by
    have hfound := hsave
    simp only [upsertContract, alone_bind, getCampaign_ok, requireCampaignOwner_ok, alone_raiseIf,
      and_assoc, exists_and_left, exists_eq_left, exists_const] at hfound
    obtain ⟨x, hx, howner, hdraft, -⟩ := hfound
    exact ⟨x, hx, howner, not_not.mp hdraft⟩
  have hsavable := upsertContract_savable [] hsave (howner ▸ owned_reachable hs id x hx)
    (tasksPlaced_reachable hs) (fresh_reachable hs)
  obtain ⟨k, c', hsave', hpending, hreplaces⟩ :=
    upsertContract_replaces now payload [] hsavable (by simp)
  obtain ⟨-, rfl⟩ := Prod.mk.inj (Except.ok.inj (hsave.symm.trans hsave'))
  rw [hpending] at hf
  obtain rfl := applyAll_nil.mp hf
  exact ⟨k, payload, hparse, ⟨hadmits, x, hx, howner, hdraft⟩, hreplaces⟩

/-- The campaign is a draft, if it is there. -/
def Db.Unpublished (db : Db) (campaignId : Uuid) : Prop :=
  ∀ c, db.campaigns.get? campaignId = some c → c.status = .draft

/-- What is a draft at the end of a run was one, or was not there, before. -/
theorem unpublished_before (h : (s.run settings requests).db.Unpublished id) :
    s.db.Unpublished id := by
  induction requests generalizing s with
  | nil => exact h
  | cons r rest ih =>
      obtain ⟨now, user, request⟩ := r
      have hlater : (s.serve settings now user request).db.Unpublished id := ih h
      intro c hc
      by_contra hd
      obtain ⟨actions, -, hrun⟩ := @serve_refines settings user s now request
      obtain ⟨c', hc', -, hstays⟩ := campaign_stays_runs hrun hc
      exact hstays hd (hlater c' hc')

/-- A publication of the campaign ends its draft. -/
theorem publishCampaign_ends {ownerId : Uuid} {c : Conn} {r : Uuid × Campaign}
    (hok : (publishCampaign id ownerId).alone now ⟨db, [], n⟩ = .ok (r, c)) (hf : Flushes c db')
    (hthere : ∃ x, db.campaigns.get? id = some x) : ¬ db'.Unpublished id := by
  intro hdraft
  rcases publishCampaign_locks hok hf with ⟨rfl, x, hx, hpublished⟩ | ⟨k, -, hcampaigns, -⟩
  · exact absurd (hpublished.symm.trans (hdraft x hx)) (by decide)
  · obtain ⟨x, hx⟩ := hthere
    have hx' := hdraft { x with status := .published, publishedAt := some now } (by
      rw [hcampaigns, Table.get?_modify_self, hx]
      rfl)
    exact absurd hx' (by simp)

theorem createCampaign_same (id : Uuid) {ownerId : Uuid} {payload : CampaignCreate} {c : Conn}
    {r : Uuid × Campaign} (h : (createCampaign ownerId payload).alone now ⟨db, [], n⟩ = .ok (r, c)) :
    SameContract id db c.db ∧ c.db.Knows ownerId ∧ (db.TasksPlaced → c.db.TasksPlaced)
      ∧ (db.Fresh n → c.db.Fresh c.next) := by
  have hknown := createCampaign_known h
  obtain ⟨-, -, rfl⟩ := createCampaign_ok h
  exact ⟨.of_eq rfl rfl, hknown, fun h => ⟨h.belong, h.apart⟩,
    fun h => Db.Fresh.later ⟨h.contracts, h.tasks⟩ (Nat.le_succ n)⟩

/-- A launch saves the contract of its own campaign, which it publishes. -/
theorem launchCampaign_same {ownerId : Uuid} {payload : CampaignLaunch} {c : Conn}
    {r : Uuid × Campaign}
    (hok : (launchCampaign ownerId payload).alone now ⟨db, [], n⟩ = .ok (r, c))
    (hf : Flushes c db') (hdraft : db'.Unpublished id) (hplaced : db.TasksPlaced)
    (hfresh : db.Fresh n) : SameContract id db db' := by
  simp only [launchCampaign, alone_bind] at hok
  obtain ⟨k, c₁, hcreate, _, c₂, hsave, hpublish⟩ := hok
  obtain ⟨hsame, hknown, hplaced₁, hfresh₁⟩ := createCampaign_same id hcreate
  obtain ⟨rfl, hnew, rfl⟩ := createCampaign_ok hcreate
  have hsavable := upsertContract_savable
    [campaignEvent ownerId "campaign.created" n []] hsave hknown (hplaced₁ hplaced)
    (hfresh₁ hfresh)
  obtain ⟨j, c', hsave', hpending, hreplaces⟩ :=
    upsertContract_replaces now payload.contract
      [campaignEvent ownerId "campaign.created" n []] hsavable (by
        intro e he
        rw [List.mem_singleton.mp he]
        rfl)
  obtain ⟨-, rfl⟩ := Prod.mk.inj (Except.ok.inj (hsave.symm.trans hsave'))
  have hc₂ : c₂ = ⟨c₂.db, [], c₂.next⟩ := by rw [← hpending]
  rw [hc₂] at hpublish
  have hne : id ≠ n := by
    rintro rfl
    refine publishCampaign_ends hpublish hf ?_ hdraft
    obtain ⟨-, details, he⟩ :=
      upsertContract_ok [campaignEvent ownerId "campaign.created" id []] hsave
    have hcampaigns := congrArg Exchange.campaigns he
    exact ⟨_, (congrArg (·.get? id) hcampaigns).trans (Table.get?_insert_self hnew)⟩
  exact (hsame.trans (hreplaces.same hne)).trans (publishCampaign_same hpublish hf hne)

/-- **What is not a save of the campaign leaves its contract alone**, while it is a draft. -/
theorem sameContract_commit (hs : Reachable settings s)
    (hok : (handle settings user request).commit.alone now s.db s.nextId = .ok (u, db', n'))
    (hdraft : db'.Unpublished id) (hsaving : request.saving s.db id user.id = none) :
    SameContract id s.db db' := by
  by_cases hwrites : .testingContracts ∈ request.relations
  · cases request with
    | saveContract j p =>
        obtain ⟨k, payload, hparse, hmay, hreplaces⟩ := saveContract_replaces hs hok
        refine hreplaces.same ?_
        rintro rfl
        simp [Request.saving, hmay, hparse] at hsaving
    | launchCampaign payload =>
        obtain ⟨c, halone, hf, -⟩ := commit_alone.mp hok
        simp only [handle, discard, validated, alone_bind, getActiveUser_ok, alone_orRaise,
          alone_pure, and_assoc, exists_and_left, exists_eq_left, exists_const] at halone
        obtain ⟨-, p, -, r, c₁, hlaunch, -, rfl⟩ := halone
        exact launchCampaign_same hlaunch hf hdraft (tasksPlaced_reachable hs) (fresh_reachable hs)
    | publishCampaign j =>
        obtain ⟨c, halone, hf, -⟩ := commit_alone.mp hok
        simp only [handle, discard, alone_bind, getActiveUser_ok, alone_pure, and_assoc,
          exists_and_left, exists_eq_left, exists_const] at halone
        obtain ⟨-, r, c₁, hpublish, -, rfl⟩ := halone
        refine publishCampaign_same hpublish hf ?_
        rintro rfl
        have hthere : ∃ x, s.db.campaigns.get? id = some x := by
          have hfound := hpublish
          simp only [publishCampaign, alone_bind, selectForUpdate_ok, alone_orRaise, and_assoc,
            exists_and_left, exists_eq_left] at hfound
          obtain ⟨x, hx, -⟩ := hfound
          exact ⟨x, hx⟩
        exact publishCampaign_ends hpublish hf hthere hdraft
    | _ => exact absurd hwrites (by simp [Request.relations])
  · obtain ⟨hcontracts, htasks⟩ := Prod.mk.inj (keeps_contracts hok hwrites)
    exact .of_eq hcontracts htasks

/-! ## What the saves leave -/

/-- A contract as the saves have left it: its terms are those of the last one. -/
structure SavedContract where
  id : Uuid
  /-- The tasks are numbered from this one on. -/
  firstTask : Uuid
  version : Nat
  terms : ContractUpsert

/-- The contract of the campaign is this one. -/
structure SavedContract.In (x : SavedContract) (db : Db) (campaignId : Uuid) : Prop where
  row : db.contractOf campaignId
    = some (x.id, { x.terms.contract campaignId with version := x.version })
  tasks : db.tasksOf x.id = taskRows x.id x.firstTask 0 x.terms.tasks

/-- The campaign has this contract, or none. -/
def Db.Holds (db : Db) (campaignId : Uuid) : Option SavedContract → Prop
  | none => db.contractOf campaignId = none
  | some x => x.In db campaignId

variable {x : SavedContract} {o o' o₁ : Option SavedContract} {terms rest : List ContractUpsert}

theorem SameContract.holds (h : SameContract id db db') (hdb : ContractInv db)
    (hdb' : ContractInv db') (ho : db.Holds id o) : db'.Holds id o := by
  have hsame := h.contractOf hdb hdb'
  cases o with
  | none => exact hsame.trans ho
  | some x =>
      obtain ⟨hrow, htasks⟩ := ho
      obtain ⟨hx, hid⟩ := (contractOf_eq_some hdb).mp hrow
      exact ⟨hsame.trans hrow, (h.tasks _ _ hid hx).trans htasks⟩

theorem Db.Holds.open (h : db.Holds id o) {y : TestingContract}
    (hy : db.contractOf id = some (k, y)) : y.status ≠ .locked := by
  cases o with
  | none => exact absurd (hy.symm.trans h) (by simp)
  | some x =>
      obtain ⟨-, rfl⟩ := Prod.mk.inj (Option.some.inj (hy.symm.trans h.row))
      exact nofun

/-- How often the contract was saved. -/
def versionOf : Option SavedContract → Nat
  | none => 0
  | some x => x.version

/-- Setting the terms of a payload leaves the contract of that payload. -/
theorem set_contract {old : ContractUpsert} {v w : Nat} :
    payload.set { old.contract id with version := v } { old.contract id with version := w }
      = { payload.contract id with version := w } := by
  simp only [ContractUpsert.set, ContractUpsert.contract, setIfChanged_self]

/-- **A save leaves the contract of its payload**, in the place of the one before. -/
theorem Replaces.holds (h : Replaces db n id k payload db') (hdb' : ContractInv db')
    (ho : db.Holds id o) :
    ∃ x : SavedContract, x.In db' id ∧ x.terms = payload ∧ x.version = versionOf o + 1 ∧ n ≤ x.firstTask
      ∧ ∀ y ∈ o, x.id = y.id := by
  obtain ⟨m, hm, htasks⟩ := h.tasks
  have hrow := (contractOf_eq_some hdb').mpr ⟨h.contract, saved_campaignId⟩
  refine ⟨⟨k, m, versionOf o + 1, payload⟩, ⟨hrow.trans ?_, htasks⟩, rfl, rfl, hm, ?_⟩
  · cases o with
    | none =>
        have hnone : db.contractOf id = none := ho
        rw [hnone]
        rfl
    | some x =>
        rw [ho.row]
        exact congrArg (fun z => some (k, z)) set_contract
  · intro y hy
    obtain rfl : o = some y := hy
    rcases h.place with ⟨-, hnone⟩ | ⟨z, hz⟩
    · exact absurd (hnone.symm.trans ho.row) (by simp)
    · exact (Prod.mk.inj (Option.some.inj (hz.symm.trans ho.row))).1

/-! ## Runs -/

/-- The saves lead from the one contract to the other, with tasks numbered from `n` on. -/
structure Follows (o : Option SavedContract) (n : Nat) (terms : List ContractUpsert)
    (o' : Option SavedContract) : Prop where
  quiet : terms = [] → o' = o
  saved : ∀ last ∈ terms.getLast?, ∃ x, o' = some x ∧ x.terms = last
    ∧ x.version = versionOf o + terms.length ∧ n ≤ x.firstTask ∧ ∀ y ∈ o, x.id = y.id

theorem Follows.refl : Follows o n [] o := ⟨fun _ => rfl, by simp⟩

theorem Follows.earlier (h : Follows o n' terms o') (hle : n ≤ n') : Follows o n terms o' := by
  refine ⟨h.quiet, fun last hlast => ?_⟩
  obtain ⟨x, hx, hterms, hversion, hfirst, hid⟩ := h.saved last hlast
  exact ⟨x, hx, hterms, hversion, Nat.le_trans hle hfirst, hid⟩

/-- One more save at the front. -/
theorem Follows.cons (h : Follows (some x) n' rest o') (hle : n ≤ n') (hfirst : n ≤ x.firstTask)
    (hversion : x.version = versionOf o + 1) (hid : ∀ y ∈ o, x.id = y.id) :
    Follows o n (x.terms :: rest) o' := by
  refine ⟨fun hnil => absurd hnil (by simp), fun last hlast => ?_⟩
  cases rest with
  | nil =>
      obtain rfl : x.terms = last := by simpa using hlast
      exact ⟨x, h.quiet rfl, rfl, hversion, hfirst, hid⟩
  | cons terms rest =>
      rw [List.getLast?_cons_cons] at hlast
      obtain ⟨z, hz, hterms, hcount, hnew, hsame⟩ := h.saved last hlast
      refine ⟨z, hz, hterms, ?_, Nat.le_trans hle hnew, fun y hy => ?_⟩
      · have hone : versionOf (some x) = versionOf o + 1 := hversion
        rw [hcount, hone]
        simp only [List.length_cons]
        omega
      · exact (hsame x rfl).trans (hid y hy)

/-- **What one request leaves of the contract**, saved or not. -/
theorem serve_holds (hs : Reachable settings s)
    (hdraft : (s.serve settings now user request).db.Unpublished id) (ho : s.db.Holds id o) :
    ∃ o₁, (s.serve settings now user request).db.Holds id o₁
      ∧ ∀ rest o', Follows o₁ (s.serve settings now user request).nextId rest o' →
        Follows o s.nextId ((request.saving s.db id user.id).toList ++ rest) o' := by
  have hinv := contractInv_reachable hs
  have hinv' := contractInv_reachable (hs.tail now user request)
  have hle : s.nextId ≤ (s.serve settings now user request).nextId := by
    unfold Service.serve
    split
    · rename_i hok
      exact Program.alone_next_le hok
    · exact Nat.le_refl _
  cases hsaving : request.saving s.db id user.id with
  | some payload =>
      obtain ⟨p, rfl, hparse, hmay⟩ := saving_eq_some hsaving
      obtain ⟨k, db', n', hok, hreplaces⟩ :=
        saveContract_commits now hs hmay hparse fun _ _ hy => ho.open hy
      have hserve : s.serve settings now user (.saveContract id p) = ⟨db', n'⟩ := by
        rw [Service.serve, hok]
      rw [hserve] at hinv' hle ⊢
      obtain ⟨x, hx, rfl, hversion, hfirst, hid⟩ := hreplaces.holds hinv' ho
      exact ⟨some x, hx, fun rest o' h => h.cons hle hfirst hversion hid⟩
  | none =>
      refine ⟨o, ?_, fun rest o' h => h.earlier hle⟩
      unfold Service.serve at hdraft hinv' ⊢
      split at hdraft
      · rename_i hok
        rw [hok] at hinv'
        exact (sameContract_commit hs hok hdraft hsaving).holds hinv hinv' ho
      · exact ho

/-- **What a run leaves of the contract**, as long as its campaign is a draft. -/
theorem run_holds (hs : Reachable settings s)
    (hdraft : (s.run settings requests).db.Unpublished id) (ho : s.db.Holds id o) :
    ∃ o', (s.run settings requests).db.Holds id o'
      ∧ Follows o s.nextId (s.saves settings id requests) o' := by
  induction requests generalizing s o with
  | nil => exact ⟨o, ho, .refl⟩
  | cons r rest ih =>
      obtain ⟨now, user, request⟩ := r
      obtain ⟨o₁, ho₁, hfollows⟩ := serve_holds hs (unpublished_before hdraft) ho
      obtain ⟨o', ho', hrest⟩ := ih (hs.tail now user request) hdraft ho₁
      exact ⟨o', ho', hfollows _ _ hrest⟩

/-! ## Saving replaces -/

/-- After the requests, the contract of the campaign is that of the last payload saved. -/
structure ContractReplaced (settings : Settings) (requests : List (Time × CurrentUser × Request))
    (campaignId : Uuid) (last : ContractUpsert) (k : Uuid) (tasks : List (Uuid × ContractTask)) :
    Prop where
  /-- `get_contract` answers with the terms, the number of saves and the tasks. -/
  answer : ∀ now n,
    (getContract campaignId).alone now ⟨(Service.init.run settings requests).db, [], n⟩
      = .ok (((k, { last.contract campaignId with
          version := (Service.init.saves settings campaignId requests).length }), tasks),
          ⟨(Service.init.run settings requests).db, [], n⟩)
  /-- The tasks are those of the payload, in its order. -/
  listed : tasks.map Prod.snd = last.tasks.mapIdx fun i task => task.task k i
  /-- The campaign has no other contract. -/
  only : ∀ i x, (Service.init.run settings requests).db.testingContracts.get? i = some x →
    x.campaignId = campaignId → i = k
  /-- Earlier saves were of the same row. -/
  same : ∀ before after, requests = before ++ after →
    Service.init.saves settings campaignId before ≠ [] →
    ∃ x, (Service.init.run settings before).db.contractOf campaignId = some (k, x)
  /-- No task is one of an earlier save. -/
  new : ∀ before after, requests = before ++ after →
    (Service.init.saves settings campaignId before).length
      < (Service.init.saves settings campaignId requests).length →
    ∀ t ∈ tasks, (Service.init.run settings before).db.contractTasks.get? t.1 = none

/-- The saves up to some request of the run lead to the contract stored there. -/
theorem saved_before (requests : List (Time × CurrentUser × Request))
    (hdraft : (Service.init.run settings requests).db.Unpublished id) :
    ∃ o, (Service.init.run settings requests).db.Holds id o
      ∧ Follows none 0 (Service.init.saves settings id requests) o :=
  run_holds .init hdraft rfl

theorem SavedContract.In.id_eq {y : SavedContract} (hx : x.In db id) (hy : y.In db id) :
    x.id = y.id :=
  (Prod.mk.inj (Option.some.inj (hx.row.symm.trans hy.row))).1

theorem contract_replaced {last : ContractUpsert}
    (hdraft : (Service.init.run settings requests).db.Unpublished id)
    (hlast : last ∈ (Service.init.saves settings id requests).getLast?) :
    ∃ k tasks, ContractReplaced settings requests id last k tasks := by
  have hreach : Reachable settings (Service.init.run settings requests) := reachable_run .init requests
  obtain ⟨o, ho, hfollows⟩ := saved_before requests hdraft
  obtain ⟨x, rfl, rfl, hversion, -, -⟩ := hfollows.saved last hlast
  have hcount : x.version = (Service.init.saves settings id requests).length :=
    hversion.trans (Nat.zero_add _)
  refine ⟨x.id, taskRows x.id x.firstTask 0 x.terms.tasks, ?_, ?_, ?_, ?_, ?_⟩
  · intro now n
    refine getContract_ok.mpr ⟨?_, ?_, rfl⟩
    · rw [← hcount]
      exact ho.row
    · show _ = sortTasks ((Service.init.run settings requests).db.tasksOf x.id)
      rw [ho.tasks, sortTasks_taskRows]
  · rw [taskRows_tasks]
    simp only [Nat.zero_add]
  · intro i y hy hid
    have hfound := (contractOf_eq_some (contractInv_reachable hreach)).mpr ⟨hy, hid⟩
    exact (Prod.mk.inj (Option.some.inj (hfound.symm.trans ho.row))).1
  · intro before after hsplit hsaved
    subst hsplit
    rw [run_append] at hdraft ho
    obtain ⟨o₁, ho₁, hfollows₁⟩ := saved_before before (unpublished_before hdraft)
    obtain ⟨y, rfl, -⟩ := hfollows₁.saved _ (List.getLast?_eq_some_getLast hsaved)
    obtain ⟨o₂, ho₂, hfollows₂⟩ := run_holds (reachable_run .init before) hdraft ho₁
    suffices hid : x.id = y.id by
      rw [hid]
      exact ⟨_, ho₁.row⟩
    by_cases hquiet : (Service.init.run settings before).saves settings id after = []
    · obtain rfl := hfollows₂.quiet hquiet
      exact ho.id_eq ho₂
    · obtain ⟨z, rfl, -, -, -, hsame⟩ := hfollows₂.saved _ (List.getLast?_eq_some_getLast hquiet)
      exact (ho.id_eq ho₂).trans (hsame y rfl)
  · intro before after hsplit hfewer t ht
    subst hsplit
    rw [run_append] at hdraft ho
    have hbefore : Reachable settings (Service.init.run settings before) := reachable_run .init before
    obtain ⟨o₁, ho₁, -⟩ := saved_before before (unpublished_before hdraft)
    obtain ⟨o₂, ho₂, hfollows₂⟩ := run_holds hbefore hdraft ho₁
    have hsaved : (Service.init.run settings before).saves settings id after ≠ [] := by
      intro hnil
      rw [saves_append, hnil, List.append_nil] at hfewer
      exact Nat.lt_irrefl _ hfewer
    obtain ⟨z, rfl, -, -, hfirst, -⟩ := hfollows₂.saved _ (List.getLast?_eq_some_getLast hsaved)
    -- the tasks listed are those the later saves have stored
    rw [← ho.tasks, ho.id_eq ho₂, ho₂.tasks] at ht
    obtain ⟨-, hid, -⟩ := mem_taskRows ht
    exact (fresh_reachable hbefore).tasks.free (Nat.le_trans hfirst hid)

/--
**Saving a contract replaces it exactly.** While a campaign is a draft, its
contract is the one row of its first save, with the terms and the tasks of the
last one, however the lists of tasks have grown, shrunk or changed their order.
Every save goes through and leaves the contracts of other campaigns alone, and
in no state do two tasks share a position.
-/
theorem saving_replaces (settings : Settings) (requests : List (Time × CurrentUser × Request))
    (campaignId : Uuid) (c : Campaign)
    (hc : (Service.init.run settings requests).db.campaigns.get? campaignId = some c)
    (hdraft : c.status = .draft) :
    (∀ last ∈ (Service.init.saves settings campaignId requests).getLast?,
      ∃ k tasks, ContractReplaced settings requests campaignId last k tasks)
    ∧ ∀ before after, requests = before ++ after →
      (Service.init.run settings before).db.TasksPlaced
      ∧ ∀ now user request rest payload, after = (now, user, request) :: rest →
        request.saving (Service.init.run settings before).db campaignId user.id = some payload →
        ∃ db' n', (handle settings user request).commit.alone now
            (Service.init.run settings before).db (Service.init.run settings before).nextId
            = .ok ((), db', n')
          ∧ ∀ other, other ≠ campaignId →
            SameContract other (Service.init.run settings before).db db' := by
  have hunpublished : (Service.init.run settings requests).db.Unpublished campaignId := by
    intro x hx
    rw [← Option.some.inj (hc.symm.trans hx)]
    exact hdraft
  refine ⟨fun last hlast => contract_replaced hunpublished hlast, fun before after hsplit => ?_⟩
  subst hsplit
  rw [run_append] at hunpublished
  have hbefore : Reachable settings (Service.init.run settings before) := reachable_run .init before
  refine ⟨tasksPlaced_reachable hbefore, ?_⟩
  rintro now user request rest payload rfl hsaving
  obtain ⟨p, rfl, hparse, hmay⟩ := saving_eq_some hsaving
  obtain ⟨o, ho, -⟩ := saved_before before (unpublished_before hunpublished)
  obtain ⟨k, db', n', hok, hreplaces⟩ :=
    saveContract_commits now hbefore hmay hparse fun _ _ hy => ho.open hy
  exact ⟨db', n', hok, fun other hne => hreplaces.same hne⟩

/-- A draft whose contract is saved twice, then with its tasks in another order and one more. -/
def benchSaves : List (Time × CurrentUser × Request) :=
  [(0, ⟨1, none⟩, .saveProfile { username := "owner", displayName := "Owner" }),
   (0, ⟨1, none⟩, .createCampaign benchCampaign.campaign),
   (0, ⟨1, none⟩, .saveContract 1 { benchCampaign.contract with
      tasks := [{ title := "Find", instructions := "Find a bench" },
        { title := "Rest", instructions := "Sit on the bench" }] }),
   (0, ⟨1, none⟩, .saveContract 1 { benchCampaign.contract with
      tasks := [{ title := "Rest", instructions := "Sit on the bench" },
        { title := "Find", instructions := "Find a bench" },
        { title := "Leave", instructions := "Leave the bench" }] })]

set_option maxRecDepth 4000 in
theorem saving_replaces_bench :
    (Service.init.saves benchSettings 1 benchSaves).map (fun p => p.tasks.map (·.title))
        = [["Find", "Rest"], ["Rest", "Find", "Leave"]]
      ∧ ∃ last k tasks, ContractReplaced benchSettings benchSaves 1 last k tasks := by
  obtain ⟨hdraft, hsaves⟩ :
      ((Service.init.run benchSettings benchSaves).db.campaigns.get? 1).map (·.status) = some .draft
        ∧ (Service.init.saves benchSettings 1 benchSaves).map (fun p => p.tasks.map (·.title))
          = [["Find", "Rest"], ["Rest", "Find", "Leave"]] := by decide +kernel
  obtain ⟨c, hc, hstatus⟩ := Option.map_eq_some_iff.mp hdraft
  have hsome : Service.init.saves benchSettings 1 benchSaves ≠ [] := by
    intro hnil
    rw [hnil] at hsaves
    exact absurd hsaves (by simp)
  exact ⟨hsaves, _, (saving_replaces benchSettings benchSaves 1 c hc hstatus).1 _
    (List.getLast?_eq_some_getLast hsome)⟩

end TestExchange
