import TestExchange.Model.Reading
import TestExchange.Proof.Settlement
import TestExchange.Refine.Descent

/-!
# Advertised means joinable

A campaign is advertised while it is published and has a tester slot left. The
listing asks for that in one query, the public page in two, and applying,
accepting and resuming each ask again. They agree in every reachable state: no
two campaigns share a slug, and nothing but these checks can stop an applicant
with a profile or an owner with an application to answer.
-/

namespace TestExchange

open Txn Txn.Session Exchange

variable {settings : Settings} {user : CurrentUser} {request : Request} {now n n' : Nat}
  {db db' : Db} {u : Unit}

/-! ## Slugs -/

/-- No two campaigns have the same slug. -/
def Db.Slugged (db : Db) : Prop :=
  ∀ i j c d, db.campaigns.get? i = some c → db.campaigns.get? j = some d → c.slug = d.slug → i = j

theorem Db.Slugged.descends (h : db.Slugged)
    (hfrom : db.campaigns.From Campaign.SameSlug db'.campaigns) : db'.Slugged := by
  intro i j c d hc hd hslug
  obtain ⟨c₀, hc₀, hsame⟩ := hfrom i c hc
  obtain ⟨d₀, hd₀, hsame'⟩ := hfrom j d hd
  exact h i j c₀ d₀ hc₀ hd₀ (hsame.trans (hslug.trans hsame'.symm))

/-- A new campaign has a slug nobody has. -/
theorem createCampaign_slugs {ownerId : Uuid} {payload : CampaignCreate} {r : Uuid × Campaign}
    {c : Conn} (h : db.Slugged)
    (hok : (createCampaign ownerId payload).alone now ⟨db, [], n⟩ = .ok (r, c)) : c.db.Slugged := by
  simp only [createCampaign, alone_bind, getProfile_ok, alone_query, alone_raiseIf, alone_uuid4,
    alone_add, addAuditEvent_ok, alone_flush, alone_pure, and_assoc, exists_and_left,
    exists_eq_left, exists_const, List.nil_append, applyAll_cons, applyAll_nil] at hok
  obtain ⟨_, _, hfree, _, _, rfl⟩ := hok
  have hnone := Table.any_eq_false.mp (Bool.not_eq_true _ ▸ hfree)
  intro i j x y hx hy hslug
  rcases Table.get?_insert_cases hx with hold | ⟨rfl, rfl, -⟩
  · rcases Table.get?_insert_cases hy with hold' | ⟨rfl, rfl, -⟩
    · exact h i j x y hold hold' hslug
    · have hother : ¬x.slug = payload.slug := of_decide_eq_false (hnone i x hold)
      exact absurd hslug hother
  · rcases Table.get?_insert_cases hy with hold' | ⟨rfl, -, -⟩
    · have hother : ¬y.slug = payload.slug := of_decide_eq_false (hnone j y hold')
      exact absurd hslug.symm hother
    · rfl

theorem launchCampaign_slugs {ownerId : Uuid} {payload : CampaignLaunch} {r : Uuid × Campaign}
    {c : Conn} (h : db.Slugged)
    (hok : (launchCampaign ownerId payload).alone now ⟨db, [], n⟩ = .ok (r, c)) (hf : Flushes c db') :
    db'.Slugged := by
  simp only [launchCampaign, alone_bind] at hok
  obtain ⟨k, c₁, hcreate, _, c₂, hsave, hpublish⟩ := hok
  have hcreated := createCampaign_slugs h hcreate
  obtain ⟨rfl, -, rfl⟩ := createCampaign_ok hcreate
  obtain ⟨hpending, details, he⟩ :=
    upsertContract_ok [campaignEvent ownerId "campaign.created" n []] hsave
  have hsaved : c₂.db.Slugged := by
    refine hcreated.descends (.of_eq sameSlug_refl ?_)
    exact congrArg Exchange.campaigns he
  have hc₂ : c₂ = ⟨c₂.db, [], c₂.next⟩ := by rw [← hpending]
  rw [hc₂] at hpublish
  obtain ⟨actions, hactions, hrun⟩ :=
    publishCampaign_takes (g := 0) n ownerId _ _ _ _ _ _ hpublish hf
  refine hsaved.descends (campaigns_descend hrun fun x hx id hmake => ?_)
  rw [hactions x hx] at hmake
  exact absurd hmake (by simp)

theorem slugged_commit (h : db.Slugged)
    (hok : (handle settings user request).commit.alone now db n = .ok (u, db', n')) :
    db'.Slugged := by
  by_cases hcreate : ∃ payload, request = .createCampaign payload
  · obtain ⟨payload, rfl⟩ := hcreate
    obtain ⟨c, halone, hf, -⟩ := commit_alone.mp hok
    have hkeeps : Yields (handle settings user (.createCampaign payload)) fun _ db db' =>
        db.Slugged → db'.Slugged := by
      refine yields_active (yields_validated fun p _ => yields_discard ?_)
      intro now db n r c db' hok hf hdb
      have hcreated := createCampaign_slugs hdb hok
      obtain ⟨-, -, rfl⟩ := createCampaign_ok hok
      simp only [Flushes, applyAll_cons, applyAll_nil] at hf
      rw [hf.2]
      exact hcreated
    exact hkeeps now db n u c db' halone hf h
  · by_cases hlaunch : ∃ payload, request = .launchCampaign payload
    · obtain ⟨payload, rfl⟩ := hlaunch
      obtain ⟨c, halone, hf, -⟩ := commit_alone.mp hok
      have hkeeps : Yields (handle settings user (.launchCampaign payload)) fun _ db db' =>
          db.Slugged → db'.Slugged := by
        refine yields_active (yields_validated fun p _ => yields_discard ?_)
        exact fun _ _ _ _ _ _ hok hf hdb => launchCampaign_slugs hdb hok hf
      exact hkeeps now db n u c db' halone hf h
    · exact h.descends (campaigns_before hok (fun p hp => hcreate ⟨p, hp⟩)
        fun p hp => hlaunch ⟨p, hp⟩)

theorem slugged_reachable {s : Service} (h : Reachable settings s) : s.db.Slugged := by
  refine reachable_invariant Db.Slugged h ?_ ?_
  · exact fun i j c d hc => absurd hc (by simp [Db.empty])
  · exact fun s now user request u db nextId _ hdb hok => slugged_commit hdb hok

/-! ## Applicants -/

/-- Every assignment is one somebody with a profile applied for, under an identifier below `n`. -/
def Db.Applied (db : Db) (n : Nat) : Prop :=
  ∀ i a, db.assignments.get? i = some a → i < n ∧ db.Knows a.testerId

theorem applied_commit (h : db.Applied n)
    (hok : (handle settings user request).commit.alone now db n = .ok (u, db', n')) :
    db'.Applied n' := by
  have hknows : ∀ v, db.Knows v → db'.Knows v := fun v hv => stays_profiles.commit hok hv
  have hlater := Program.alone_next_le hok
  by_cases happly : ∃ id payload, request = .apply id payload
  · obtain ⟨campaignId, payload, rfl⟩ := happly
    obtain ⟨c, halone, hf, rfl⟩ := commit_alone.mp hok
    simp only [handle, validated, discard, alone_bind, getActiveUser_ok, alone_orRaise, alone_pure,
      and_assoc, exists_and_left, exists_eq_left] at halone
    obtain ⟨-, -, p, -, r, _, hrun, -, rfl⟩ := halone
    obtain ⟨profile, x, hprofile, -, -, -, -, hnext, -, he⟩ := applyToCampaign_ok hrun hf
    have hrows := congrArg Exchange.assignments he
    intro i a ha
    have hinserted := (congrArg (fun t : Table Assignment => t.get? i) hrows).symm.trans ha
    rcases Table.get?_insert_cases hinserted with hold | ⟨rfl, rfl, -⟩
    · obtain ⟨hlt, hknown⟩ := h i a hold
      exact ⟨Nat.lt_of_lt_of_le hlt hlater, hknows _ hknown⟩
    · exact ⟨hnext, hknows _ ⟨profile, hprofile⟩⟩
  · have hfrom := assignments_before hok fun id payload hr => happly ⟨id, payload, hr⟩
    intro i a ha
    obtain ⟨a₀, ha₀, -, htester⟩ := hfrom i a ha
    obtain ⟨hlt, hknown⟩ := h i a₀ ha₀
    rw [← htester]
    exact ⟨Nat.lt_of_lt_of_le hlt hlater, hknows _ hknown⟩

theorem applied_reachable {s : Service} (h : Reachable settings s) : s.db.Applied s.nextId := by
  induction h with
  | init => exact fun i a ha => absurd ha (by simp [Service.init, Db.empty])
  | @tail s hs now user request ih =>
      unfold Service.serve
      split
      · rename_i db nextId hok
        exact applied_commit ih hok
      · exact ih

/-! ## The listing and the page -/

/-- The campaign is in the listing of public campaigns. -/
def Db.Lists (db : Db) (now : Time) (id : Uuid) : Prop :=
  ∃ listing, (∀ n, listPublicCampaigns.alone now ⟨db, [], n⟩ = .ok (listing, ⟨db, [], n⟩))
    ∧ id ∈ listing.map Prod.fst

/-- Published, and fewer testers taken on than wanted. -/
structure Db.Recruits (db : Db) (id : Uuid) (c : Campaign) : Prop where
  published : c.status = .published
  room : db.occupiedSlots id < c.targetTesters

section Shown

variable {id : Uuid} {x : Campaign}

theorem isOpen_iff : db.isOpen id x = true ↔ db.Recruits id x := by
  unfold Db.isOpen
  rw [Bool.and_eq_true, decide_eq_true_iff, decide_eq_true_iff]
  exact ⟨fun h => ⟨h.1, h.2⟩, fun h => ⟨h.published, h.room⟩⟩

/-- The correlated subquery selects the campaigns that recruit. -/
theorem lists_iff (hx : db.campaigns.get? id = some x) : db.Lists now id ↔ db.Recruits id x := by
  constructor
  · rintro ⟨listing, hrun, hmem⟩
    obtain ⟨rfl, -⟩ := alone_query.mp (hrun 0)
    obtain ⟨⟨i, y⟩, hy, rfl⟩ := List.mem_map.mp hmem
    rw [List.mem_insertionSort, Table.mem_where'] at hy
    rw [← Option.some.inj (hx.symm.trans hy.1)] at hy
    exact isOpen_iff.mp hy.2
  · intro hopen
    refine ⟨(db.campaigns.where' db.isOpen).insertionSort fun c d =>
      d.2.publishedAt.getD 0 ≤ c.2.publishedAt.getD 0, fun _ => rfl,
      List.mem_map.mpr ⟨(id, x), ?_, rfl⟩⟩
    rw [List.mem_insertionSort, Table.mem_where']
    exact ⟨hx, isOpen_iff.mpr hopen⟩

/-- The page shows a campaign that recruits, since its slug leads to no other. -/
theorem publicCampaign_iff (hslug : db.Slugged) (hx : db.campaigns.get? id = some x) :
    (publicCampaign x.slug).alone now ⟨db, [], n⟩ = .ok ((id, x), ⟨db, [], n⟩)
      ↔ db.Recruits id x := by
  simp only [publicCampaign, alone_bind, alone_query, alone_orRaise, alone_raiseIf, alone_pure,
    and_assoc, exists_and_left, exists_eq_left, exists_const]
  constructor
  · rintro ⟨r, hfind, hroom, hr, _⟩
    rw [← hr] at hfind hroom
    obtain ⟨-, hshown⟩ := Table.find?_eq_some hfind
    rw [Bool.and_eq_true, decide_eq_true_iff, decide_eq_true_iff] at hshown
    exact ⟨hshown.2, not_le.mp hroom⟩
  · intro hopen
    refine ⟨(id, x), ?_, not_le.mpr hopen.room, rfl, trivial⟩
    cases hfind : db.campaigns.find? fun _ c => c.slug = x.slug && c.status = .published with
    | none =>
        have hnone := Table.find?_eq_none.mp hfind id x hx
        simp [hopen.published] at hnone
    | some r =>
        obtain ⟨i, y⟩ := r
        obtain ⟨hy, hshown⟩ := Table.find?_eq_some hfind
        rw [Bool.and_eq_true, decide_eq_true_iff] at hshown
        obtain rfl := hslug i id y x hy hx hshown.1
        rw [Option.some.inj (hy.symm.trans hx)]

end Shown

/-! ## Taking part -/

section Joining

variable {id i testerId : Uuid} {x : Campaign} {a : Assignment} {people : List Uuid}

/-- An applicant with a profile gets in if the campaign recruits and they have not applied before. -/
theorem applyToCampaign_returns {payload : AssignmentApply} (htester : db.Knows testerId)
    (hx : db.campaigns.get? id = some x) (hopen : db.Recruits id x) (howner : x.ownerId ≠ testerId)
    (hfirst : ∀ i a, db.assignments.get? i = some a → ¬(a.campaignId = id ∧ a.testerId = testerId))
    (hfree : db.assignments.get? n = none)
    (hready : Ready id x.ownerId [testerId, x.ownerId] ⟨db, [], n⟩) :
    ∃ r db' n', (applyToCampaign id testerId payload).commit.alone now db n = .ok (r, db', n') := by
  obtain ⟨p, hp⟩ := htester
  have hnone : (db.assignments.find? fun _ a => a.campaignId = id && a.testerId = testerId)
      = none := by
    refine Table.find?_eq_none.mpr fun i a ha => ?_
    simpa using hfirst i a ha
  have hnew : ¬(db.assignments.find? fun _ a => a.campaignId = id && a.testerId = testerId).isSome
      = true := by simp [hnone]
  have hviolates : (insertAssignment n ⟨id, testerId, payload.applicationNote, .applied, none, none,
      none, none⟩).violates db = none := by
    simp only [insertAssignment, firstViolated_cons, firstViolated_nil, and_true]
    refine ⟨Table.contains_eq_false.mpr hfree, Table.any_eq_false.mpr (Table.find?_eq_none.mp hnone),
      ?_, Db.Knows.contains ⟨p, hp⟩⟩
    rw [Bool.not_eq_false', Table.contains_eq_true]
    exact ⟨x, hx⟩
  have hall : Returns (applyToCampaign id testerId payload) now ⟨db, [], n⟩ fun _ c =>
      Ready id x.ownerId [testerId, x.ownerId] c ∧ True := by
    unfold applyToCampaign
    refine Returns.bind (Q := fun _ c => c = ⟨db, [], n⟩)
      ⟨p, _, getProfile_ok.mpr ⟨hp, rfl⟩, rfl⟩ ?_
    rintro _ _ rfl
    simp only [Returns, selectForUpdate, alone_queryForUpdate_bind, hx, alone_orRaise_bind,
      alone_raiseIf_bind (not_not.mpr hopen.published), alone_raiseIf_bind howner,
      alone_query_bind, alone_raiseIf_bind hnew, alone_raiseIf_bind (not_le.mpr hopen.room),
      alone_uuid4_bind, alone_add_bind, List.nil_append]
    refine (returns_flush (Q := fun _ c => Ready id x.ownerId [testerId, x.ownerId] c)
      (applyAll_cons.mpr ⟨hviolates, rfl⟩) ?_).bind ?_
    · exact calm_start hready.holds.succ
    rintro _ c₁ hready₁
    simp only [Returns, addAuditEvent, testerDisplayName, alone_add_bind, alone_query_bind]
    have hknown := hready₁.holds.known testerId List.mem_cons_self
    refine (addNotification_returns (hready₁.add (passes_event rfl hknown)) ?_).bind ?_
    · exact List.mem_cons_of_mem _ List.mem_cons_self
    rintro _ c₂ ⟨hready₂, -⟩
    exact returns_pure ⟨hready₂, trivial⟩
  obtain ⟨r, db', n', hok, -⟩ := hall.calm (P := fun _ => True)
  exact ⟨r, db', n', hok⟩

/-- The owner of a campaign that recruits can accept an application. -/
theorem acceptAssignment_returns (ha : db.assignments.get? i = some a) (happlied : a.status = .applied)
    (hx : db.campaigns.get? a.campaignId = some x) (hopen : db.Recruits a.campaignId x)
    (hready : Ready a.campaignId x.ownerId [a.testerId, x.ownerId] ⟨db, [], n⟩) :
    ∃ r db' n', (acceptAssignment i x.ownerId).commit.alone now db n = .ok (r, db', n') := by
  have hall : Returns (acceptAssignment i x.ownerId) now ⟨db, [], n⟩ fun _ c =>
      Ready a.campaignId x.ownerId [a.testerId, x.ownerId] c ∧ True := by
    unfold acceptAssignment
    simp only [Returns, selectForUpdate, alone_query_bind, ha, Option.map_some, alone_orRaise_bind,
      alone_queryForUpdate_bind, hx, requireCampaignOwner,
      alone_raiseIf_bind (not_not.mpr (rfl : x.ownerId = x.ownerId)),
      alone_raiseIf_bind (not_not.mpr hopen.published), alone_raiseIf_bind (not_not.mpr happlied),
      alone_raiseIf_bind (not_le.mpr hopen.room), alone_utcnow_bind, alone_add_bind, addAuditEvent]
    have howner := hready.holds.known x.ownerId (List.mem_cons_of_mem _ List.mem_cons_self)
    refine (addNotification_returns ((hready.add passes_assignment).add (passes_event rfl howner))
      List.mem_cons_self).bind ?_
    rintro _ c₁ ⟨hready₁, -⟩
    refine hready₁.flushed.bind ?_
    rintro _ c₂ ⟨hready₂, -⟩
    exact returns_pure ⟨hready₂, trivial⟩
  obtain ⟨r, db', n', hok, -⟩ := hall.calm (P := fun _ => True)
  exact ⟨r, db', n', hok⟩

/-- What resuming has checked, and what it does. -/
theorem resume_ok {ownerId : Uuid} {r : Uuid × Campaign} {c : Conn}
    (hx : db.campaigns.get? id = some x)
    (h : (transitionCampaign id ownerId .resume).alone now ⟨db, [], n⟩ = .ok (r, c))
    (hf : Flushes c db') :
    db.occupiedSlots id < x.targetTesters
      ∧ db'.campaigns = db.campaigns.modify id (fun c => { c with status := .published })
      ∧ db'.assignments = db.assignments := by
  simp only [transitionCampaign, performTransition, completeIfClosed, alone_bind, selectForUpdate_ok,
    alone_orRaise, requireCampaignOwner_ok, alone_raiseIf, alone_query, alone_add, addAuditEvent_ok,
    alone_flush, alone_pure, if_neg (show TransitionAction.resume ≠ .close by decide), and_assoc,
    exists_and_left, exists_eq_left, exists_const, List.nil_append, List.cons_append, applyAll_cons,
    applyAll_nil] at h
  obtain ⟨y, hy, -, -, hroom, -, -, -, rfl⟩ := h
  rw [Flushes, applyAll_nil] at hf
  obtain rfl := Option.some.inj (hx.symm.trans hy)
  subst hf
  exact ⟨not_le.mp hroom, rfl, rfl⟩

/-- The owner of a paused campaign can resume it if it has a slot left. -/
theorem resume_returns (hx : db.campaigns.get? id = some x) (hpaused : x.status = .paused)
    (hroom : db.occupiedSlots id < x.targetTesters)
    (hready : Ready id x.ownerId [x.ownerId] ⟨db, [], n⟩) :
    ∃ r db' n', (transitionCampaign id x.ownerId .resume).commit.alone now db n
      = .ok (r, db', n') := by
  have hall : Returns (transitionCampaign id x.ownerId .resume) now ⟨db, [], n⟩ fun _ c =>
      Ready id x.ownerId [x.ownerId] c ∧ True := by
    unfold transitionCampaign
    simp only [Returns, selectForUpdate, alone_queryForUpdate_bind, hx, alone_orRaise_bind,
      requireCampaignOwner, alone_raiseIf_bind (not_not.mpr (rfl : x.ownerId = x.ownerId))]
    have hstatus : Returns (performTransition id x x.ownerId .resume) now ⟨db, [], n⟩ fun _ c =>
        Ready id x.ownerId [x.ownerId] c := by
      unfold performTransition
      simp only [Returns, alone_raiseIf_bind (not_not.mpr hpaused), alone_query_bind,
        alone_raiseIf_bind (not_le.mpr hroom), alone_add_bind]
      exact returns_pure (hready.add (passes_campaign fun _ => rfl))
    refine hstatus.bind ?_
    rintro status c₁ hready₁
    have howner := hready₁.holds.known x.ownerId List.mem_cons_self
    simp only [Returns, addAuditEvent, alone_add_bind, completeIfClosed,
      if_neg (show TransitionAction.resume ≠ .close by decide)]
    refine (returns_pure (Q := fun _ c => Ready id x.ownerId [x.ownerId] c)
      (hready₁.add (passes_event rfl howner))).bind ?_
    rintro completed c₂ hready₂
    refine hready₂.flushed.bind ?_
    rintro _ c₃ ⟨hready₃, -⟩
    exact returns_pure ⟨hready₃, trivial⟩
  obtain ⟨r, db', n', hok, -⟩ := hall.calm (P := fun _ => True)
  exact ⟨r, db', n', hok⟩

end Joining

/-! ## In every reachable state -/

section Reached

variable {s : Service} {id : Uuid} {c : Campaign} {people : List Uuid}

/-- The people concerned have profiles, and nothing is queued. -/
theorem ready_reachable (h : Reachable settings s) (hc : s.db.campaigns.get? id = some c)
    (hpeople : ∀ u ∈ people, s.db.Knows u) : Ready id c.ownerId people ⟨s.db, [], s.nextId⟩ := by
  refine calm_start ⟨hpeople, numbered_reachable h, ?_⟩
  show (s.db.campaigns.get? id).map (·.ownerId) = some c.ownerId
  rw [hc]
  rfl

/-- Run alone at that time, the service commits what it did. -/
def Service.Succeeds {α : Type} (s : Service) (now : Time) (m : Session α) : Prop :=
  ∃ r db n, m.commit.alone now s.db s.nextId = .ok (r, db, n)

theorem apply_succeeds_iff (h : Reachable settings s) (hc : s.db.campaigns.get? id = some c)
    {testerId : Uuid} {payload : AssignmentApply} (htester : s.db.Knows testerId)
    (howner : testerId ≠ c.ownerId)
    (hfirst : ∀ i a, s.db.assignments.get? i = some a →
      ¬(a.campaignId = id ∧ a.testerId = testerId)) :
    s.Succeeds now (applyToCampaign id testerId payload) ↔ s.db.Recruits id c := by
  constructor
  · rintro ⟨r, db, n, hok⟩
    obtain ⟨conn, halone, hf, -⟩ := commit_alone.mp hok
    obtain ⟨_, x, -, hx, hpublished, -, hroom, -⟩ := applyToCampaign_ok halone hf
    rw [← Option.some.inj (hc.symm.trans hx)] at hpublished hroom
    exact ⟨hpublished, hroom⟩
  · intro hopen
    have hdraft : c.status ≠ .draft := by simp [hopen.published]
    have hfree : s.db.assignments.get? s.nextId = none := by
      by_contra hsome
      obtain ⟨a, ha⟩ := Option.ne_none_iff_exists'.mp hsome
      exact absurd (applied_reachable h s.nextId a ha).1 (Nat.lt_irrefl _)
    refine applyToCampaign_returns htester hc hopen howner.symm hfirst hfree
      (ready_reachable h hc ?_)
    intro u hu
    rcases List.mem_cons.mp hu with rfl | hu
    · exact htester
    · rw [List.mem_singleton.mp hu]
      exact owner_knows h hc hdraft

theorem accept_succeeds_iff (h : Reachable settings s) (hc : s.db.campaigns.get? id = some c)
    {i : Uuid} {a : Assignment} (ha : s.db.assignments.get? i = some a) (hof : a.campaignId = id)
    (happlied : a.status = .applied) :
    s.Succeeds now (acceptAssignment i c.ownerId) ↔ s.db.Recruits id c := by
  subst hof
  constructor
  · rintro ⟨r, db, n, hok⟩
    obtain ⟨conn, halone, hf, -⟩ := commit_alone.mp hok
    obtain ⟨a', x, ha', -, hx, -, hpublished, hroom, -⟩ := acceptAssignment_ok halone hf
    rw [← Option.some.inj (ha.symm.trans ha')] at hx hroom
    rw [← Option.some.inj (hc.symm.trans hx)] at hpublished hroom
    exact ⟨hpublished, hroom⟩
  · intro hopen
    have hdraft : c.status ≠ .draft := by simp [hopen.published]
    refine acceptAssignment_returns ha happlied hc hopen (ready_reachable h hc ?_)
    intro u hu
    rcases List.mem_cons.mp hu with rfl | hu
    · exact (applied_reachable h i a ha).2
    · rw [List.mem_singleton.mp hu]
      exact owner_knows h hc hdraft

theorem resume_succeeds_iff (h : Reachable settings s) (hc : s.db.campaigns.get? id = some c)
    (hpaused : c.status = .paused) :
    s.Succeeds now (transitionCampaign id c.ownerId .resume)
      ↔ s.db.occupiedSlots id < c.targetTesters := by
  constructor
  · rintro ⟨r, db, n, hok⟩
    obtain ⟨conn, halone, hf, -⟩ := commit_alone.mp hok
    exact (resume_ok hc halone hf).1
  · intro hroom
    refine resume_returns hc hpaused hroom (ready_reachable h hc ?_)
    intro u hu
    rw [List.mem_singleton.mp hu]
    exact owner_knows h hc (by simp [hpaused])

/-- A campaign that has been resumed is listed; one that could not be is still paused. -/
theorem resume_lists (hc : s.db.campaigns.get? id = some c) (hpaused : c.status = .paused) :
    s.Succeeds now (transitionCampaign id c.ownerId .resume)
      ↔ (databaseAfter s.db ((transitionCampaign id c.ownerId .resume).commit.alone now s.db
          s.nextId)).Lists now id := by
  cases hrun : (transitionCampaign id c.ownerId .resume).commit.alone now s.db s.nextId with
  | error e =>
      refine iff_of_false ?_ ?_
      · rintro ⟨r, db, n, hok⟩
        rw [hrun] at hok
        exact absurd hok (by simp)
      · intro hlisted
        have hpublished := ((lists_iff hc).mp hlisted).published
        rw [hpaused] at hpublished
        exact absurd hpublished (by decide)
  | ok result =>
      obtain ⟨r, db, n⟩ := result
      obtain ⟨conn, halone, hf, -⟩ := commit_alone.mp hrun
      obtain ⟨hroom, hcampaigns, hassignments⟩ := resume_ok hc halone hf
      refine iff_of_true ⟨r, db, n, hrun⟩ ?_
      have hresumed : db.campaigns.get? id = some { c with status := .published } := by
        rw [hcampaigns, Table.get?_modify_self, hc]
        rfl
      have hslots : db.occupiedSlots id = s.db.occupiedSlots id := by
        unfold Db.occupiedSlots
        rw [hassignments]
      exact (lists_iff hresumed).mpr ⟨rfl, hslots ▸ hroom⟩

end Reached

/-- What the listing of public campaigns says about one of them. -/
structure Advertised (s : Service) (now : Time) (id : Uuid) (c : Campaign) : Prop where
  /-- The page for its slug shows it if it is listed, and not otherwise. -/
  page : s.db.Lists now id ↔
    (publicCampaign c.slug).alone now ⟨s.db, [], s.nextId⟩
      = .ok ((id, c), ⟨s.db, [], s.nextId⟩)
  apply : ∀ u payload, s.db.Knows u → u ≠ c.ownerId →
    (∀ i a, s.db.assignments.get? i = some a → ¬(a.campaignId = id ∧ a.testerId = u)) →
    (s.Succeeds now (applyToCampaign id u payload) ↔ s.db.Lists now id)
  accept : ∀ i a, s.db.assignments.get? i = some a → a.campaignId = id → a.status = .applied →
    (s.Succeeds now (acceptAssignment i c.ownerId) ↔ s.db.Lists now id)
  /-- Resuming works if there is a slot left, and that is when the campaign is listed afterwards. -/
  resume : c.status = .paused →
    (s.Succeeds now (transitionCampaign id c.ownerId .resume)
        ↔ s.db.occupiedSlots id < c.targetTesters)
      ∧ (s.Succeeds now (transitionCampaign id c.ownerId .resume)
        ↔ (databaseAfter s.db ((transitionCampaign id c.ownerId .resume).commit.alone now s.db
            s.nextId)).Lists now id)

/--
**Advertised means joinable.** In every reachable state, a campaign is listed
exactly if its page shows it, if anybody with a profile who does not own it and
has not applied yet can apply, and if its owner can accept the applications
there are. A paused one can be resumed exactly if that gets it listed.
-/
theorem advertised_joinable (settings : Settings) (s : Service) (h : Reachable settings s)
    (now : Time) (id : Uuid) (c : Campaign) (hc : s.db.campaigns.get? id = some c) :
    Advertised s now id c where
  page := (lists_iff hc).trans (publicCampaign_iff (slugged_reachable h) hc).symm
  apply := fun _ _ htester howner hfirst =>
    (apply_succeeds_iff h hc htester howner hfirst).trans (lists_iff hc).symm
  accept := fun _ _ ha hof happlied =>
    (accept_succeeds_iff h hc ha hof happlied).trans (lists_iff hc).symm
  resume := fun hpaused => ⟨resume_succeeds_iff h hc hpaused, resume_lists hc hpaused⟩

theorem advertised_joinable_bench : ∃ c, appliedService.db.campaigns.get? 4 = some c
    ∧ appliedService.db.Lists 0 4 ∧ Advertised appliedService 0 4 c := by
  have hopen : (appliedService.db.campaigns.get? 4).any (appliedService.db.isOpen 4) = true := by
    decide +kernel
  obtain ⟨c, hc, hrecruits⟩ := (Option.any_eq_true _ _).mp hopen
  exact ⟨c, hc, (lists_iff hc).mpr (isOpen_iff.mp hrecruits),
    advertised_joinable benchSettings appliedService (reachable_run .init _) 0 4 c hc⟩

end TestExchange
