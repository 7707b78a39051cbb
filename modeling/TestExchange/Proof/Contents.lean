import TestExchange.Proof.References
import TestExchange.Refine.Contracts
import TestExchange.Spec.Campaigns
import TestExchange.Txn.Issued

/-!
# Contracts and their tasks in the database

What holds of the tables in every reachable state: the owner of a campaign has a
profile, a task belongs to a contract that is there and has its position to
itself, and the identifiers of contracts and tasks are below the next one.
-/

namespace TestExchange

open Txn Txn.Session Exchange

variable {settings : Settings} {user : CurrentUser} {request : Request} {now n n' : Nat}
  {db db' : Db} {u : Unit} {c : Conn} {s : Service}

/-! ## Owners -/

/-- The owner of every campaign has a profile. -/
def Db.Owned (db : Db) : Prop := ∀ id c, db.campaigns.get? id = some c → db.Knows c.ownerId

theorem createCampaign_known {ownerId : Uuid} {payload : CampaignCreate} {r : Uuid × Campaign}
    (h : (createCampaign ownerId payload).alone now ⟨db, [], n⟩ = .ok (r, c)) :
    db.Knows ownerId := by
  obtain ⟨p, c₁, hprofile, -⟩ := alone_bind.mp h
  exact ⟨p, (getProfile_ok.mp hprofile).1⟩

/-- The campaign a creation inserts belongs to somebody known. -/
theorem owned_insert {ownerId : Uuid} {payload : CampaignCreate} (h : db.Owned)
    (hknown : db.Knows ownerId) :
    ((insertCampaign n (payload.campaign ownerId)).effect db).Owned := by
  intro id x hx
  rcases Table.get?_insert_cases hx with hold | ⟨-, rfl, -⟩
  · exact h id x hold
  · exact hknown

/-- Nobody's profile goes away, and no campaign changes hands. -/
theorem Db.Owned.later (h : db.Owned) (hfrom : db.campaigns.From Forward db'.campaigns)
    (hstays : ∀ u, db.Knows u → db'.Knows u) : db'.Owned := by
  intro id x' hx'
  obtain ⟨x, hx, hforward⟩ := hfrom id x' hx'
  rw [hforward.1]
  exact hstays _ (h id x hx)

theorem launchCampaign_owners {ownerId : Uuid} {payload : CampaignLaunch} {r : Uuid × Campaign}
    (h : db.Owned) (hok : (launchCampaign ownerId payload).alone now ⟨db, [], n⟩ = .ok (r, c))
    (hf : Flushes c db') (hstays : ∀ u, db.Knows u → db'.Knows u) : db'.Owned := by
  simp only [launchCampaign, alone_bind] at hok
  obtain ⟨k, c₁, hcreate, _, c₂, hsave, hpublish⟩ := hok
  have hknown := createCampaign_known hcreate
  obtain ⟨rfl, hnew, rfl⟩ := createCampaign_ok hcreate
  obtain ⟨hpending, details, he⟩ :=
    upsertContract_ok [campaignEvent ownerId "campaign.created" n []] hsave
  have hc₂ : c₂ = ⟨c₂.db, [], c₂.next⟩ := by rw [← hpending]
  rw [hc₂] at hpublish
  obtain ⟨actions, hactions, hrun⟩ :=
    publishCampaign_takes (g := 0) n ownerId _ _ _ _ _ _ hpublish hf
  have hfrom := campaign_before_runs hrun fun x hx id hmake => by
    rw [hactions x hx] at hmake
    exact absurd hmake (by simp)
  have hsame : c₂.db.campaigns
      = db.campaigns.insert n (payload.campaign.campaign ownerId) :=
    congrArg Exchange.campaigns he
  intro id x' hx'
  obtain ⟨x, hx, hforward⟩ := hfrom id x' hx'
  have hx₂ : c₂.db.campaigns.get? id = some x := hx
  rw [hsame] at hx₂
  rw [hforward.1]
  rcases Table.get?_insert_cases hx₂ with hold | ⟨-, rfl, -⟩
  · exact hstays _ (h id x hold)
  · exact hstays _ hknown

theorem owned_commit (h : db.Owned)
    (hok : (handle settings user request).commit.alone now db n = .ok (u, db', n')) :
    db'.Owned := by
  have hstays : ∀ u, db.Knows u → db'.Knows u := fun u hu => stays_profiles.commit hok hu
  obtain ⟨c, halone, hf, -⟩ := commit_alone.mp hok
  by_cases hmakes : ∃ id, request.acts user.id (.createCampaign id)
  · cases request with
    | createCampaign payload =>
        simp only [handle, discard, validated, alone_bind, alone_orRaise, alone_pure] at halone
        obtain ⟨_, _, hactive, p, _, ⟨-, rfl⟩, r, c₁, hcreate, -, rfl⟩ := halone
        obtain ⟨-, rfl⟩ := getActiveUser_ok.mp hactive
        have hknown := createCampaign_known hcreate
        obtain ⟨-, -, rfl⟩ := createCampaign_ok hcreate
        simp only [applyAll_cons, applyAll_nil] at hf
        rw [hf.2]
        exact owned_insert h hknown
    | launchCampaign payload =>
        simp only [handle, discard, validated, alone_bind, alone_orRaise, alone_pure] at halone
        obtain ⟨_, _, hactive, p, _, ⟨-, rfl⟩, r, c₁, hlaunch, -, rfl⟩ := halone
        obtain ⟨-, rfl⟩ := getActiveUser_ok.mp hactive
        exact launchCampaign_owners h hlaunch hf hstays
    | _ => exact absurd hmakes (by simp [Request.acts])
  · obtain ⟨actions, hacts, hrun⟩ := commit_acts hok
    refine h.later (campaign_before_runs hrun fun x hx id hmake => ?_) hstays
    exact hmakes ⟨id, hmake ▸ hacts x hx⟩

theorem owned_reachable (h : Reachable settings s) : s.db.Owned :=
  reachable_invariant Db.Owned h (fun id x hx => absurd hx (by simp [Db.empty]))
    fun _ _ _ _ _ _ _ _ hdb hok => owned_commit hdb hok

/-! ## Positions -/

/-- Every task belongs to a contract, and has its position there to itself. -/
structure Db.TasksPlaced (db : Db) : Prop where
  belong : ∀ i t, db.contractTasks.get? i = some t →
    ∃ k, db.testingContracts.get? t.contractId = some k
  apart : ∀ i j t t', db.contractTasks.get? i = some t → db.contractTasks.get? j = some t' →
    t.contractId = t'.contractId → t.position = t'.position → i = j

/-- A write that only adds contracts, or changes them. -/
theorem Db.TasksPlaced.contracts {t : Table TestingContract} (h : db.TasksPlaced)
    (ht : ∀ k, (∃ x, db.testingContracts.get? k = some x) → ∃ x, t.get? k = some x) :
    Db.TasksPlaced { db with testingContracts := t } :=
  ⟨fun i task hi => ht _ (h.belong i task hi), h.apart⟩

theorem Db.TasksPlaced.effect {r : Relation} {w : Write} (h : db.TasksPlaced)
    (hw : WritesTo r w) (hv : w.violates db = none) : Db.TasksPlaced (w.effect db) := by
  cases hw with
  | insertTestingContract => exact h.contracts fun k hk => stays_insert hk
  | writeTestingContract => exact h.contracts fun k hk => stays_modify hk
  | @insertContractTask id task =>
      simp only [insertContractTask, firstViolated_cons, Table.any_eq_false,
        decide_eq_false_iff_not, Bool.and_eq_false_iff, Bool.not_eq_false',
        Table.contains_eq_true] at hv
      obtain ⟨-, hplace, hcontract, -⟩ := hv
      have hfree : ∀ i t, db.contractTasks.get? i = some t → t.contractId = task.contractId →
          t.position ≠ task.position := by
        intro i t hi hsame
        rcases hplace i t hi with hother | hpos
        · exact absurd hsame hother
        · exact hpos
      refine ⟨fun i t hi => ?_, fun i j t t' hi hj hsame hpos => ?_⟩
      · rcases Table.get?_insert_cases hi with hold | ⟨-, rfl, -⟩
        · exact h.belong i t hold
        · exact hcontract
      · rcases Table.get?_insert_cases hi with hi₀ | ⟨hik, hit, -⟩
        · rcases Table.get?_insert_cases hj with hj₀ | ⟨hjk, hjt, -⟩
          · exact h.apart i j t t' hi₀ hj₀ hsame hpos
          · rw [hjt] at hsame hpos
            exact absurd hpos (hfree i t hi₀ hsame)
        · rcases Table.get?_insert_cases hj with hj₀ | ⟨hjk, hjt, -⟩
          · rw [hit] at hsame hpos
            exact absurd hpos.symm (hfree j t' hj₀ hsame.symm)
          · exact hik.trans hjk.symm
  | deleteContractTasks =>
      exact ⟨fun i t hi => h.belong i t (Table.get?_of_erase hi).2, fun i j t t' hi hj =>
        h.apart i j t t' (Table.get?_of_erase hi).2 (Table.get?_of_erase hj).2⟩
  | _ => exact ⟨h.belong, h.apart⟩

/-- **No two tasks share a place**, in any reachable state. -/
theorem tasksPlaced_reachable (h : Reachable settings s) : s.db.TasksPlaced := by
  refine reachable_invariant Db.TasksPlaced h ?_ ?_
  · exact ⟨fun i t hi => absurd hi (by simp [Db.empty]),
      fun i j t t' hi => absurd hi (by simp [Db.empty])⟩
  · intro s now user request u db nextId _ hdb hok
    refine (handle_within request).invariant Db.TasksPlaced hok hdb ?_
    rintro w t ⟨r, -, hw⟩ hv ht
    exact ht.effect hw hv

/-! ## Identifiers -/

/-- A write that stores contracts and tasks only under identifiers below `n`. -/
def Numbering (n : Nat) (w : Write) : Prop :=
  Issues Db.testingContracts n w ∧ Issues Db.contractTasks n w

theorem numbering_widens : Widens Numbering :=
  fun n n' w hle h => ⟨issues_widens n n' w hle h.1, issues_widens n n' w hle h.2⟩

theorem numbering_of_keeps {w : Write}
    (h : Keeps (fun db : Db => (db.testingContracts, db.contractTasks)) w) : Numbering n w :=
  ⟨issues_of_keeps fun t => congrArg Prod.fst (h t), issues_of_keeps fun t => congrArg Prod.snd (h t)⟩

theorem numbering_insertContract {k : Uuid} {x : TestingContract} (h : k < n) :
    Numbering n (insertTestingContract k x) :=
  ⟨issues_of_insert h fun _ => rfl, issues_of_keeps fun _ => rfl⟩

theorem numbering_writeContract {k : Uuid} {f : TestingContract → TestingContract} :
    Numbering n (writeTestingContract k f) :=
  ⟨issues_of_modify fun _ => rfl, issues_of_keeps fun _ => rfl⟩

theorem numbering_insertTask {k : Uuid} {t : ContractTask} (h : k < n) :
    Numbering n (insertContractTask k t) :=
  ⟨issues_of_keeps fun _ => rfl, issues_of_insert h fun _ => rfl⟩

theorem numbering_deleteTasks {ids : List Uuid} : Numbering n (deleteContractTasks ids) :=
  ⟨issues_of_keeps fun _ => rfl, issues_of_erase fun _ => rfl⟩

section Draws

variable {α : Type} {m : Session α}

theorem draws_numbering (h : Only (fun w => ∀ n, Numbering n w) m) : Draws Numbering m :=
  h.draws numbering_widens fun n _ hw => hw n

/-- What touches neither contracts nor tasks. -/
theorem numbering_around (h : Only (Keeps fun db : Db => (db.testingContracts, db.contractTasks)) m) :
    Draws Numbering m :=
  h.draws numbering_widens fun _ _ hw => numbering_of_keeps hw

theorem draws_saveContract {id : Uuid} {payload : ContractUpsert}
    {found : Option (Uuid × TestingContract)} : Draws Numbering (saveContract id payload found) := by
  cases found with
  | none =>
      exact draws_queue numbering_widens (fun _ _ h => numbering_insertContract h)
        fun k => draws_numbering (only_flush.bind fun _ => only_pure)
  | some k =>
      exact (draws_numbering only_raiseIf).bind numbering_widens fun _ =>
        (draws_numbering (only_add fun _ => numbering_writeContract)).bind numbering_widens fun _ =>
        (draws_numbering only_queryForUpdate).bind numbering_widens fun _ =>
        (draws_execute fun _ => numbering_deleteTasks).bind numbering_widens fun _ =>
        draws_numbering only_pure

theorem draws_addTasks {k : Uuid} {tasks : List ContractTaskInput} {position : Nat} :
    Draws Numbering (addTasks k position tasks) := by
  induction tasks generalizing position with
  | nil => exact draws_numbering only_pure
  | cons task tasks ih =>
      exact draws_queue numbering_widens (fun _ _ h => numbering_insertTask h) fun _ => ih

theorem draws_upsertContract {id ownerId : Uuid} {payload : ContractUpsert} :
    Draws Numbering (upsertContract id ownerId payload) := by
  refine (draws_numbering only_getCampaign).bind numbering_widens fun _ =>
    (draws_numbering only_requireCampaignOwner).bind numbering_widens fun _ =>
    (draws_numbering only_raiseIf).bind numbering_widens fun _ =>
    (draws_numbering only_query).bind numbering_widens fun _ =>
    draws_saveContract.bind numbering_widens fun _ => draws_addTasks.bind numbering_widens fun _ => ?_
  exact numbering_around ((only_addAuditEvent fun _ => rfl).bind fun _ =>
    only_flush.bind fun _ => only_pure)

theorem draws_createCampaign {ownerId : Uuid} {payload : CampaignCreate} :
    Draws Numbering (createCampaign ownerId payload) :=
  numbering_around (only_getProfile.bind fun _ => only_query.bind fun _ => only_raiseIf.bind fun _ =>
    only_uuid4.bind fun _ => (only_add fun _ => rfl).bind fun _ => only_flush.bind fun _ =>
    (only_addAuditEvent fun _ => rfl).bind fun _ => only_pure)

theorem draws_publishCampaign {id ownerId : Uuid} : Draws Numbering (publishCampaign id ownerId) := by
  refine draws_numbering (only_publishCampaign ?_ ?_ ?_ ?_ ?_ ?_)
  · exact fun _ _ => numbering_of_keeps fun _ => rfl
  · exact fun _ _ _ => numbering_writeContract
  · exact fun _ _ _ => numbering_of_keeps fun _ => rfl
  · exact fun _ _ _ => numbering_of_keeps fun _ => rfl
  · exact fun _ _ => numbering_of_keeps fun _ => rfl
  · exact fun _ _ => numbering_of_keeps fun _ => rfl

theorem draws_launchCampaign {ownerId : Uuid} {payload : CampaignLaunch} :
    Draws Numbering (launchCampaign ownerId payload) :=
  draws_createCampaign.bind numbering_widens fun _ =>
    draws_upsertContract.bind numbering_widens fun _ => draws_publishCampaign

end Draws

/-- The identifiers of contracts and tasks are below `n`. -/
structure Db.Fresh (db : Db) (n : Nat) : Prop where
  contracts : Issued Db.testingContracts n db
  tasks : Issued Db.contractTasks n db

theorem Db.Fresh.later (h : db.Fresh n) (hle : n ≤ n') : db.Fresh n' :=
  ⟨h.contracts.later hle, h.tasks.later hle⟩

theorem Db.Fresh.effect {w : Write} (h : db.Fresh n) (hw : Numbering n w) :
    Db.Fresh (w.effect db) n :=
  ⟨h.contracts.effect hw.1, h.tasks.effect hw.2⟩

theorem draws_fresh {α : Type} {m : Session α} {a : α} (h : Draws Numbering m)
    (hok : m.commit.alone now db n = .ok (a, db', n')) (hdb : db.Fresh n) : db'.Fresh n' :=
  h.invariant (fun n (db : Db) => db.Fresh n) hok hdb (fun _ _ _ hle hs => hs.later hle)
    fun _ _ _ hw _ hs => hs.effect hw

theorem draws_activeUser {α : Type} {m : Session α} (h : Draws Numbering m) :
    Draws Numbering (getActiveUser user >>= fun _ => m) :=
  (draws_numbering only_getActiveUser).bind numbering_widens fun _ => h

theorem draws_body {α β : Type} {o : Option β} {m : β → Session α}
    (h : ∀ b, Draws Numbering (m b)) : Draws Numbering (validated o >>= m) :=
  (draws_numbering only_orRaise).bind numbering_widens h

theorem draws_effect {α : Type} {m : Session α} (h : Draws Numbering m) :
    Draws Numbering (discard m) :=
  h.bind numbering_widens fun _ => draws_numbering only_pure

/-- Only requests that write contracts change them, or tasks. -/
theorem keeps_contracts
    (hok : (handle settings user request).commit.alone now db n = .ok (u, db', n'))
    (hwrites : .testingContracts ∉ request.relations) :
    (db'.testingContracts, db'.contractTasks) = (db.testingContracts, db.contractTasks) := by
  refine commit_keeps (π := fun db : Db => (db.testingContracts, db.contractTasks)) hok ?_
  intro r hr w hw t
  cases hw with
  | insertTestingContract => exact absurd hr hwrites
  | writeTestingContract => exact absurd hr hwrites
  | insertContractTask => cases request <;> simp [Request.relations] at hr hwrites
  | deleteContractTasks => cases request <;> simp [Request.relations] at hr hwrites
  | _ => rfl

theorem fresh_commit (h : db.Fresh n)
    (hok : (handle settings user request).commit.alone now db n = .ok (u, db', n')) :
    db'.Fresh n' := by
  by_cases hwrites : .testingContracts ∈ request.relations
  · cases request with
    | launchCampaign payload =>
        exact draws_fresh (draws_activeUser (draws_body fun _ => draws_effect draws_launchCampaign))
          hok h
    | saveContract id payload =>
        refine draws_fresh (draws_activeUser (draws_body fun _ =>
          draws_upsertContract.bind numbering_widens fun _ => draws_effect ?_)) hok h
        exact draws_numbering only_getContract
    | publishCampaign id =>
        exact draws_fresh (draws_activeUser (draws_effect draws_publishCampaign)) hok h
    | _ => exact absurd hwrites (by simp [Request.relations])
  · obtain ⟨hcontracts, htasks⟩ := Prod.mk.inj (keeps_contracts hok hwrites)
    have hkept : db'.Fresh n :=
      ⟨fun k x hx => h.contracts k x (hcontracts ▸ hx), fun k t ht => h.tasks k t (htasks ▸ ht)⟩
    exact hkept.later (Program.alone_next_le hok)

/-- **The next identifier is free** for a contract and for a task, in any reachable state. -/
theorem fresh_reachable (h : Reachable settings s) : s.db.Fresh s.nextId := by
  induction h with
  | init => exact ⟨fun k x hx => absurd hx (by simp [Service.init, Db.empty]),
      fun k t ht => absurd ht (by simp [Service.init, Db.empty])⟩
  | @tail s hs now user request ih =>
      unfold Service.serve
      split
      · rename_i db nextId hok
        exact fresh_commit ih hok
      · exact ih

end TestExchange
