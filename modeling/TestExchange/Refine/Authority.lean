import TestExchange.Refine.Entitled

/-!
# Services ask before they write

Each service, started from a database it is entitled to have got to: the checks
in front establish the caller's part in the rows, and the writes that follow are
allowed under it. A launch is three services in one request, so those of a
campaign under construction start where another one has left off.
-/

namespace TestExchange

open Txn Txn.Session

variable {settings : Settings} {db t : Db} {u id : Uuid} {α β : Type} {now n : Nat} {c : Conn}

/-- What the session does is within what the user may do in `db`. -/
abbrev Heeds (settings : Settings) (db : Db) (u : Uuid) {α : Type} (m : Session α) (now : Nat)
    (c : Conn) : Prop := EndsWell True m now c fun _ => Abides (Entitled settings db u)

/-- The rest of a request, which has only writes that are allowed. -/
theorem heeds_rest {m : Session α} (h : Confined (Allowed settings db u) m)
    (hc : Abides (Entitled settings db u) c) : Heeds settings db u m now c :=
  h.abides hc fun _ _ => trivial

/-- The rest of a request that has not written anything yet. -/
theorem heeds_first {m : Session α} (h : Only (Allowed settings db u) m) :
    Heeds settings db u m now ⟨db, [], n⟩ :=
  heeds_rest h.confined (abides_start (.refl settings db u))

/-- A part of a request that has only such writes. -/
theorem heeds_then {m : Session α} {f : α → Session β} (h : Only (Allowed settings db u) m)
    (hc : Abides (Entitled settings db u) c)
    (hf : ∀ a c', Abides (Entitled settings db u) c' → Heeds settings db u (f a) now c') :
    Heeds settings db u (m >>= f) now c :=
  (heeds_rest h.confined hc).bind fun a c' hc' => hf a c' hc'

theorem heeds_done {a : α} : Heeds settings db u (pure a : Session α) now ⟨db, [], n⟩ :=
  ends_pure (abides_start (.refl settings db u))

/-! ## Shared pieces -/

section Pieces

theorem only_allowedEvent {action entityType : String} {k : Uuid} {details : List (String × Json)} :
    Only (Allowed settings db u) (addAuditEvent (some u) action entityType k details) :=
  only_addAuditEvent (allowed_event rfl)

theorem only_allowedNotice {x : Notification} (hx : x.readAt = none)
    (hto : x.userId = u ∨ db.Tells settings u x.userId) :
    Only (Allowed settings db u) (addNotification x) :=
  only_addNotification fun _ => allowed_notification hx hto

theorem only_allowedCredit {change : CreditChange} (hmay : db.MayCredit settings u change.userId)
    (hdue : ∀ k, (change.entry k).DueTo settings db u) :
    Only (Allowed settings db u) (recordCreditEntry change) :=
  only_recordCreditEntry (allowed_openAccount hmay) (fun _ => allowed_writeAccount hmay)
    fun k => allowed_entry (hdue k)

theorem only_allowedCompletion {x : Campaign} (h : db.OwnsOrNew u id ∨ db.Settles settings u id) :
    Only (Allowed settings db u) (maybeCompleteCampaign id x u) := by
  refine only_query.bind fun _ => Only.bind ?_ fun _ => ?_
  · unfold closedWorkSettled
    split
    · exact only_query.bind fun _ => only_query.bind fun _ => only_pure
    · exact only_pure
  · split
    · exact (only_add (allowed_complete h)).bind fun _ => only_allowedEvent.bind fun _ => only_pure
    · exact only_pure

/-- What was queued, written and recorded is returned. -/
theorem only_allowedRecord {a : α} {w : Write} {action entityType : String} {k : Uuid}
    {details : List (String × Json)} (hw : Allowed settings db u w) :
    Only (Allowed settings db u) (do
      add w
      addAuditEvent (some u) action entityType k details
      flush
      pure a) :=
  (only_add hw).bind fun _ => only_allowedEvent.bind fun _ => only_flush.bind fun _ => only_pure

theorem Db.Owns.orNew {k : Uuid} (h : db.Owns u k) : db.OwnsOrNew u k := by
  obtain ⟨c, hc, howner⟩ := h
  intro d hd
  rw [hc] at hd
  cases hd
  exact howner

/-- Who owns the campaign now owned it before, or has just created it. -/
theorem owner_now {x : Campaign} (h : Entitled settings db u t)
    (hx : t.campaigns.get? id = some x) : x.ownerId = u ∨ db.Owns x.ownerId id := by
  cases hbefore : db.campaigns.get? id with
  | none => exact .inl (h.campaigns.of_none hbefore hx)
  | some y =>
      rcases h.campaigns.of_some hbefore hx with rfl | ⟨howner, -⟩
      · exact .inr ⟨_, hbefore, rfl⟩
      · exact .inr ⟨y, hbefore, howner.symm⟩

/-- Who pays for an assignment tells its tester. -/
theorem tells_tester {a : Assignment} (ha : db.assignments.get? id = some a)
    (hpays : db.Pays settings u id) : a.testerId = u ∨ db.Tells settings u a.testerId :=
  .inr (.inl ⟨id, a, ha, .inl rfl, .inr hpays⟩)

/-- The tester, or who judges the assignment, tells the owner of its campaign. -/
theorem tells_owner {a : Assignment} {x : Campaign} (ha : db.assignments.get? id = some a)
    (hpart : a.testerId = u ∨ db.Pays settings u id) (h : Entitled settings db u t)
    (hx : t.campaigns.get? a.campaignId = some x) :
    x.ownerId = u ∨ db.Tells settings u x.ownerId := by
  rcases owner_now h hx with hself | howns
  · exact .inl hself
  · exact .inr (.inl ⟨id, a, ha, .inr howns, hpart⟩)

end Pieces

/-! ## Accounts -/

section Accounts

theorem ensureCreditAccount_allowed : Only (Allowed settings db u) (ensureCreditAccount u) :=
  only_ensureCreditAccount (allowed_openAccount (.inl rfl))

theorem creditBalance_heeds : Heeds settings db u (creditBalance u) now ⟨db, [], n⟩ :=
  heeds_first (only_getProfile.bind fun _ => ensureCreditAccount_allowed.bind fun _ => only_pure)

theorem grantSignupCredits_allowed (hnew : db.profiles.get? u = none) :
    Only (Allowed settings db u) (grantSignupCredits settings.signupCreditGrant u) := by
  have hgrant : ∀ k, ((signupGrantEntry settings.signupCreditGrant u).entry k).DueTo settings db u :=
    fun _ => ⟨rfl, .inl ⟨rfl, rfl, rfl, hnew⟩⟩
  unfold grantSignupCredits
  split
  · exact (only_allowedCredit (.inl rfl) hgrant).bind fun _ => only_pure
  · exact only_pure

theorem upsertProfile_heeds {email : Option String} {payload : ProfileUpsert} :
    Heeds settings db u (upsertProfile settings u email payload) now ⟨db, [], n⟩ := by
  refine ends_query_bind (endsWell_raiseIf_bind (by decide) fun _ => ends_query_bind ?_)
  cases hget : db.profiles.get? u with
  | none =>
      refine heeds_first (only_raiseIf.bind fun _ => Only.bind ?_ fun state => ?_)
      · refine only_queryForUpdate.bind fun found => ?_
        cases found with
        | some state => exact only_pure
        | none =>
            exact only_query.bind fun _ => (only_add (allowed_openSeats hget)).bind fun _ =>
              only_flush.bind fun _ => only_pure
      · exact only_raiseIf.bind fun _ => (only_add (allowed_takeSeat hget)).bind fun _ =>
          (only_add (allowed_insertProfile rfl)).bind fun _ => only_flush.bind fun _ =>
          ensureCreditAccount_allowed.bind fun _ => (grantSignupCredits_allowed hget).bind fun _ =>
          only_allowedEvent.bind fun _ => only_flush.bind fun _ => only_pure
  | some profile =>
      exact heeds_first (only_allowedRecord (allowed_saveProfile fun _ => ⟨rfl, rfl, rfl⟩))

theorem joinWaitlist_heeds {email : String} :
    Heeds settings db u (joinWaitlist email) now ⟨db, [], n⟩ := by
  have hread : Confined (Allowed settings db u)
      (query fun db => db.waitlistEntries.find? fun _ e => e.email = email) := only_query.confined
  refine heeds_rest (hread.bind fun existing => ?_) (abides_start (.refl settings db u))
  cases existing with
  | some entry => exact only_pure.confined
  | none =>
      refine only_uuid4.confined.bind fun id =>
        (confined_executeNested allowed_insertWaitlistEntry).bind fun conflict => ?_
      cases conflict with
      | none => exact only_pure.confined
      | some error => exact hread.bind fun _ => only_orRaise.confined

theorem suspendParticipant_heeds {reason : String} (hm : u ∈ settings.moderatorUserIds) :
    Heeds settings db u (suspendParticipant id u reason) now ⟨db, [], n⟩ := by
  refine endsWell_raiseIf_bind (by decide) fun hself => ?_
  exact heeds_first (only_selectForUpdate.bind fun _ => only_orRaise.bind fun _ =>
    only_utcnow.bind fun _ => only_allowedRecord
    (allowed_moderate hm (fun _ => ⟨rfl, rfl, rfl, rfl, rfl⟩) fun _ _ => hself))

theorem restoreParticipant_heeds (hm : u ∈ settings.moderatorUserIds) :
    Heeds settings db u (restoreParticipant id u) now ⟨db, [], n⟩ :=
  heeds_first (only_selectForUpdate.bind fun _ => only_orRaise.bind fun _ => only_allowedRecord
    (allowed_moderate hm (fun _ => ⟨rfl, rfl, rfl, rfl, rfl⟩) fun _ hs => absurd hs (by simp)))

theorem markNotificationRead_heeds :
    Heeds settings db u (markNotificationRead id u) now ⟨db, [], n⟩ := by
  refine ends_select_bind (endsWell_orRaise_bind (by decide) fun x hx =>
    endsWell_raiseIf_bind (by decide) fun hmine => ?_)
  split
  · exact heeds_done
  · rename_i hunread
    exact heeds_first (only_utcnow.bind fun _ =>
      (only_add (allowed_read hx (not_not.mp hmine) hunread)).bind fun _ =>
      only_flush.bind fun _ => only_pure)

theorem markAllNotificationsRead_heeds :
    Heeds settings db u (markAllNotificationsRead u) now ⟨db, [], n⟩ := by
  refine ends_utcnow_bind (ends_queryForUpdate_bind ?_)
  refine heeds_rest (confined_execute (allowed_readAll ?_)) (abides_start (.refl settings db u))
  intro i hi
  obtain ⟨r, hr, rfl⟩ := List.mem_map.mp hi
  obtain ⟨hget, hp⟩ := Table.mem_where'.mp hr
  simp only [Bool.and_eq_true, decide_eq_true_eq, Option.isNone_iff_eq_none] at hp
  exact ⟨r.2, hget, hp.1, hp.2⟩

end Accounts

/-! ## Campaigns -/

section Campaigns

theorem createCampaign_allowed {payload : CampaignCreate} :
    Only (Allowed settings db u) (createCampaign u payload) :=
  only_getProfile.bind fun _ => only_query.bind fun _ => only_raiseIf.bind fun _ =>
    only_uuid4.bind fun _ => (only_add (allowed_insertCampaign rfl)).bind fun _ =>
    only_flush.bind fun _ => only_allowedEvent.bind fun _ => only_pure

/-- Whose campaign it is now, it was before if it was there. -/
theorem ownsOrNew_now {x : Campaign} (h : Entitled settings db u c.db)
    (hx : c.db.campaigns.get? id = some x) (hu : x.ownerId = u) : db.OwnsOrNew u id := by
  intro y hy
  rcases h.campaigns.of_some hy hx with rfl | ⟨howner, -⟩
  · exact hu
  · exact howner.symm.trans hu

/-- The same for the contract of such a campaign. -/
theorem ownsContract_now {k : Uuid} {x : TestingContract} (h : Entitled settings db u c.db)
    (hx : c.db.testingContracts.get? k = some x) (hown : db.OwnsOrNew u x.campaignId) :
    db.OwnsContract u k := by
  intro y hy
  rcases h.contracts.of_some hy hx with rfl | ⟨hsame, -⟩
  · exact hown
  · rw [← hsame]
    exact hown

theorem updateCampaign_heeds {payload : CampaignUpdate} :
    Heeds settings db u (updateCampaign id u payload) now ⟨db, [], n⟩ := by
  refine endsWell_getCampaign_bind fun x hx => endsWell_raiseIf_bind (by decide) fun howner => ?_
  have hown : db.OwnsOrNew u id := Db.Owns.orNew ⟨x, hx, not_not.mp howner⟩
  exact heeds_first (only_raiseIf.bind fun _ => only_allowedRecord (allowed_patchCampaign hown))

theorem contractOf_some {t : Db} {r : Uuid × TestingContract} (h : t.contractOf id = some r) :
    t.testingContracts.get? r.1 = some r.2 ∧ r.2.campaignId = id := by
  obtain ⟨hget, hcampaign⟩ := Table.find?_eq_some h
  exact ⟨hget, of_decide_eq_true hcampaign⟩

theorem saveContract_heeds {payload : ContractUpsert} {found : Option (Uuid × TestingContract)}
    (hc : Abides (Entitled settings db u) c) (hown : db.OwnsOrNew u id)
    (hfound : c.db.contractOf id = found) :
    EndsWell True (saveContract id payload found) now c fun r c' =>
      Abides (Entitled settings db u) c' ∧ db.OwnsContract u r.1 := by
  cases found with
  | none =>
      have hinsert : Allowed settings db u
          (insertTestingContract c.next (payload.contract id)) := allowed_insertContract hown
      have hqueue : Abides (Entitled settings db u) ({ c with next := c.next + 1 } : Conn) :=
        ⟨hc.holds, hc.queued⟩
      refine ends_uuid4_bind (ends_add_bind ((hqueue.add hinsert).ends_flush_bind ?_ ?_))
      · intro t ht happly
        refine ends_pure ⟨abides_start ht, ?_⟩
        -- the new contract is there now, so if it was there before it is the same one
        obtain ⟨t', -, hlast⟩ := applyAll_append.mp happly
        obtain ⟨hv, hnil⟩ := applyAll_cons.mp hlast
        obtain rfl := applyAll_nil.mp hnil
        exact ownsContract_now (c := ⟨_, [], c.next⟩) ht
          (Table.get?_insert_self (free_of_accepted hv)) hown
      · exact fun _ _ => trivial
  | some k =>
      obtain ⟨hget, hcampaign⟩ := contractOf_some hfound
      have hcontract : db.OwnsContract u k.1 :=
        ownsContract_now hc.holds hget (by rw [hcampaign]; exact hown)
      refine endsWell_raiseIf_bind (by decide) fun _ => ends_add_bind (ends_queryForUpdate_bind ?_)
      have hdelete : Allowed settings db u
          (deleteContractTasks ((c.db.tasksOf k.1).map Prod.fst)) := by
        refine allowed_deleteTasks fun i hi t ht => ?_
        obtain ⟨r, hr, rfl⟩ := List.mem_map.mp hi
        obtain ⟨hnow, hof⟩ := Table.mem_where'.mp hr
        rcases hc.holds.tasks.of_some ht hnow with hsame | ⟨howns, -⟩
        · rw [← hsame]
          unfold Db.OwnsTask
          rw [of_decide_eq_true hof]
          exact hcontract
        · exact howns
      have hset : Allowed settings db u (writeTestingContract k.1 fun current =>
          payload.set k.2 { current with version := k.2.version + 1 }) :=
        allowed_writeContract hcontract fun _ => rfl
      exact (ends_execute rfl ⟨hdelete c.db rfl hc.holds, (hc.add hset).queued⟩).bind
        fun _ _ h => ends_pure ⟨h, hcontract⟩

theorem upsertContract_heeds {payload : ContractUpsert} (hc : Abides (Entitled settings db u) c) :
    Heeds settings db u (upsertContract id u payload) now c := by
  refine endsWell_getCampaign_bind fun x hx => endsWell_raiseIf_bind (by decide) fun howner =>
    endsWell_raiseIf_bind (by decide) fun _ => ends_query_bind ?_
  have hown := ownsOrNew_now hc.holds hx (not_not.mp howner)
  refine (saveContract_heeds hc hown rfl).bind ?_
  rintro r c' ⟨hc', hcontract⟩
  refine heeds_rest (Only.confined ?_) hc'
  exact (only_addTasks fun _ _ _ => allowed_insertTask hcontract).bind fun _ =>
    only_allowedEvent.bind fun _ => only_flush.bind fun _ => only_pure

theorem publishCampaign_heeds (hc : Abides (Entitled settings db u) c) :
    Heeds settings db u (publishCampaign id u) now c := by
  refine ends_select_bind (endsWell_orRaise_bind (by decide) fun x hx =>
    endsWell_raiseIf_bind (by decide) fun howner => ?_)
  have hown := ownsOrNew_now hc.holds hx (not_not.mp howner)
  split
  · exact ends_pure hc
  · refine endsWell_raiseIf_bind (by decide) fun _ =>
      Ends.bind (Q := fun r c' => db.OwnsContract u r.1.1 ∧ c' = c) ?_ ?_
    · refine ends_query_bind (endsWell_orRaise_bind (by decide) fun k hk =>
        ends_query_bind (ends_pure ⟨?_, rfl⟩))
      obtain ⟨hget, hcampaign⟩ := contractOf_some hk
      exact ownsContract_now hc.holds hget (by rw [hcampaign]; exact hown)
    · rintro r _ ⟨hcontract, rfl⟩
      have hspend : (postingEntry id x u).delta ≤ 0 := by
        show -(x.requiredCredits : Int) ≤ 0
        omega
      have hposting : ∀ k, ((postingEntry id x u).entry k).DueTo settings db u :=
        fun _ => ⟨rfl, .inr (.inl ⟨rfl, rfl, hspend, id, rfl, hown⟩)⟩
      refine heeds_rest (Only.confined ?_) hc
      exact only_raiseIf.bind fun _ => (only_allowedCredit (.inl rfl) hposting).bind fun _ =>
        only_utcnow.bind fun _ =>
        (only_add (allowed_editCampaign hown keepsCampaign_publish)).bind fun _ =>
        (only_add (allowed_writeContract hcontract fun _ => by rfl)).bind fun _ =>
        only_allowedEvent.bind fun _ => only_flush.bind fun _ => only_pure

theorem launchCampaign_heeds {payload : CampaignLaunch} :
    Heeds settings db u (launchCampaign u payload) now ⟨db, [], n⟩ :=
  (heeds_first createCampaign_allowed).bind fun _ _ hcreated =>
    (upsertContract_heeds hcreated).bind fun _ _ hsaved => publishCampaign_heeds hsaved

/-- The applications to the user's campaign are declined. -/
theorem declinePending_allowed {x : Campaign} {at' : Time} {rest : List (Uuid × Assignment)}
    (h : ∀ r ∈ rest, db.assignments.get? r.1 = some r.2 ∧ db.Owns u r.2.campaignId) :
    Only (Allowed settings db u) (declinePending x u at' rest) := by
  induction rest with
  | nil => exact only_pure
  | cons r rest ih =>
      obtain ⟨hget, howns⟩ := h r List.mem_cons_self
      have hdecline : Allowed settings db u (writeAssignment r.1 fun a =>
          { a with status := .cancelled, completedAt := some at' }) :=
        allowed_assignment (s := .cancelled) hget (.inr (.inl ⟨howns, by decide⟩))
          ⟨fun _ => rfl, fun _ => rfl, fun _ => rfl, fun _ => rfl⟩
      exact (only_add hdecline).bind fun _ => only_allowedEvent.bind fun _ =>
        (only_allowedNotice rfl (tells_tester hget (.inl ⟨_, hget, howns⟩))).bind fun _ =>
        ih fun s hs => h s (List.mem_cons_of_mem _ hs)

theorem performTransition_heeds {x : Campaign} {action : TransitionAction} (howns : db.Owns u id) :
    Heeds settings db u (performTransition id x u action) now ⟨db, [], n⟩ := by
  have hedit : ∀ {f : Campaign → Campaign}, KeepsCampaign f →
      Only (Allowed settings db u) (add (writeCampaign id f)) :=
    fun hf => only_add (allowed_editCampaign howns.orNew hf)
  cases action with
  | pause =>
      exact heeds_first (only_raiseIf.bind fun _ =>
        (hedit keepsCampaign_status).bind fun _ => only_pure)
  | resume =>
      exact heeds_first (only_raiseIf.bind fun _ => only_query.bind fun _ => only_raiseIf.bind
        fun _ => (hedit keepsCampaign_status).bind fun _ => only_pure)
  | close =>
      refine endsWell_raiseIf_bind (by decide) fun _ => ends_add_bind (ends_queryForUpdate_bind ?_)
      have hclosed : Allowed settings db u
          (writeCampaign id fun c => { c with status := .cancelled }) :=
        allowed_editCampaign howns.orNew keepsCampaign_status
      refine heeds_rest (Only.confined (only_utcnow.bind fun _ =>
        (declinePending_allowed ?_).bind fun _ => only_pure))
        ((abides_start (.refl settings db u)).add hclosed)
      intro r hr
      obtain ⟨hget, hp⟩ := Table.mem_where'.mp hr
      simp only [Bool.and_eq_true, decide_eq_true_eq] at hp
      exact ⟨hget, by rw [hp.1]; exact howns⟩

theorem transitionCampaign_heeds {action : TransitionAction} :
    Heeds settings db u (transitionCampaign id u action) now ⟨db, [], n⟩ := by
  refine ends_select_bind (endsWell_orRaise_bind (by decide) fun x hx =>
    endsWell_raiseIf_bind (by decide) fun howner => ?_)
  have howns : db.Owns u id := ⟨x, hx, not_not.mp howner⟩
  refine (performTransition_heeds howns).bind fun status c hc => heeds_rest (Only.confined ?_) hc
  refine only_allowedEvent.bind fun _ => Only.bind ?_ fun _ => only_flush.bind fun _ => only_pure
  unfold completeIfClosed
  split
  · exact only_allowedCompletion (.inl howns.orNew)
  · exact only_pure

end Campaigns

/-! ## Assignments -/

section Assignments

/-- The status of an assignment is decided, and nothing else about it but its times. -/
theorem givesStatus_at {s : AssignmentStatus} {accepted started submitted completed : Assignment → Option Time} :
    GivesStatus s fun a =>
      { a with
        status := s, acceptedAt := accepted a, startedAt := started a, submittedAt := submitted a,
        completedAt := completed a } :=
  ⟨fun _ => rfl, fun _ => rfl, fun _ => rfl, fun _ => rfl⟩

theorem applyToCampaign_heeds {payload : AssignmentApply} :
    Heeds settings db u (applyToCampaign id u payload) now ⟨db, [], n⟩ := by
  refine endsWell_getProfile_bind fun _ _ => ends_select_bind (endsWell_orRaise_bind (by decide)
    fun x hx => endsWell_raiseIf_bind (by decide) fun hopen =>
    endsWell_raiseIf_bind (by decide) fun hother => ?_)
  have hinsert : ∀ k note, Allowed settings db u (insertAssignment k ⟨id, u, note, .applied, none, none, none, none⟩) :=
    fun k note => allowed_insertAssignment rfl rfl hx (not_not.mp hopen) hother
  have hto : x.ownerId = u ∨ db.Tells settings u x.ownerId :=
    .inr (.inr ⟨id, x, hx, not_not.mp hopen, rfl⟩)
  exact heeds_first (only_query.bind fun _ => only_raiseIf.bind fun _ => only_query.bind fun _ =>
    only_raiseIf.bind fun _ => only_uuid4.bind fun _ => (only_add (hinsert _ _)).bind fun _ =>
    only_flush.bind fun _ => only_allowedEvent.bind fun _ => only_testerDisplayName.bind fun _ =>
    (only_allowedNotice rfl hto).bind fun _ => only_pure)

theorem acceptAssignment_heeds :
    Heeds settings db u (acceptAssignment id u) now ⟨db, [], n⟩ := by
  refine ends_query_bind (endsWell_orRaise_bind (by decide) fun campaignId hcampaign =>
    ends_select_bind (endsWell_orRaise_bind (by decide) fun x hx =>
    endsWell_raiseIf_bind (by decide) fun howner => endsWell_raiseIf_bind (by decide) fun _ =>
    ends_select_bind (endsWell_orRaise_bind (by decide) fun a ha => ?_)))
  have howns : db.Owns u a.campaignId := by
    rw [ha] at hcampaign
    cases hcampaign
    exact ⟨x, hx, not_not.mp howner⟩
  have haccept : ∀ at', Allowed settings db u (writeAssignment id fun a =>
      { a with status := .accepted, acceptedAt := some at' }) :=
    fun _ => allowed_assignment ha (.inr (.inl ⟨howns, by decide⟩)) givesStatus_at
  exact heeds_first (only_raiseIf.bind fun _ => only_query.bind fun _ => only_raiseIf.bind fun _ =>
    only_utcnow.bind fun _ => (only_add (haccept _)).bind fun _ => only_allowedEvent.bind fun _ =>
    (only_allowedNotice rfl (tells_tester ha (.inl ⟨a, ha, howns⟩))).bind fun _ =>
    only_flush.bind fun _ => only_pure)

theorem declineAssignment_heeds :
    Heeds settings db u (declineAssignment id u) now ⟨db, [], n⟩ := by
  refine ends_select_bind (endsWell_orRaise_bind (by decide) fun a ha =>
    endsWell_getCampaign_bind fun x hx => endsWell_raiseIf_bind (by decide) fun howner => ?_)
  have howns : db.Owns u a.campaignId := ⟨x, hx, not_not.mp howner⟩
  have hdecline : ∀ at', Allowed settings db u (writeAssignment id fun a =>
      { a with status := .cancelled, completedAt := some at' }) :=
    fun _ => allowed_assignment ha (.inr (.inl ⟨howns, by decide⟩)) givesStatus_at
  exact heeds_first (only_raiseIf.bind fun _ => only_utcnow.bind fun _ =>
    (only_add (hdecline _)).bind fun _ => only_allowedEvent.bind fun _ =>
    (only_allowedNotice rfl (tells_tester ha (.inl ⟨a, ha, howns⟩))).bind fun _ =>
    only_flush.bind fun _ => only_pure)

theorem withdrawAssignment_heeds :
    Heeds settings db u (withdrawAssignment id u) now ⟨db, [], n⟩ := by
  refine ends_select_bind (endsWell_orRaise_bind (by decide) fun a ha =>
    endsWell_raiseIf_bind (by decide) fun hmine => endsWell_raiseIf_bind (by decide) fun _ =>
    ends_select_bind (endsWell_orRaise_bind (by decide) fun x hx => ?_))
  have htester : a.testerId = u := not_not.mp hmine
  have hwithdraw : ∀ at', Allowed settings db u (writeAssignment id fun a =>
      { a with status := .cancelled, completedAt := some at' }) :=
    fun _ => allowed_assignment ha (.inl ⟨htester, by decide⟩) givesStatus_at
  have hsettles : db.Settles settings u a.campaignId := ⟨id, a, ha, rfl, .inl htester⟩
  have hto := tells_owner ha (.inl htester) (.refl settings db u) hx
  exact heeds_first (only_utcnow.bind fun _ => (only_add (hwithdraw _)).bind fun _ =>
    only_allowedEvent.bind fun _ => only_testerDisplayName.bind fun _ =>
    (only_allowedNotice rfl hto).bind fun _ => (only_allowedCompletion (.inr hsettles)).bind
    fun _ => only_flush.bind fun _ => only_pure)

theorem startAssignment_heeds :
    Heeds settings db u (startAssignment id u) now ⟨db, [], n⟩ := by
  refine endsWell_getAssignment_bind fun a ha => endsWell_raiseIf_bind (by decide) fun hmine => ?_
  have htester : a.testerId = u := not_not.mp hmine
  have hstart : ∀ at', Allowed settings db u (writeAssignment id fun a =>
      { a with status := .inProgress, startedAt := some at' }) :=
    fun _ => allowed_assignment ha (.inl ⟨htester, by decide⟩) givesStatus_at
  exact heeds_first (only_raiseIf.bind fun _ => only_utcnow.bind fun _ =>
    (only_add (hstart _)).bind fun _ => only_uuid4.bind fun _ =>
    (only_add (allowed_insertSession ⟨a, ha, htester⟩)).bind fun _ => only_allowedEvent.bind fun _ =>
    only_flush.bind fun _ => only_pure)

theorem recordTestingSession_heeds {payload : TestingSessionCreate} :
    Heeds settings db u (recordTestingSession id u payload) now ⟨db, [], n⟩ := by
  refine ends_select_bind (endsWell_orRaise_bind (by decide) fun a ha =>
    endsWell_raiseIf_bind (by decide) fun hmine => ?_)
  exact heeds_first (only_raiseIf.bind fun _ => only_utcnow.bind fun _ => only_query.bind fun _ =>
    only_raiseIf.bind fun _ => only_uuid4.bind fun _ =>
    (only_add (allowed_insertSession ⟨a, ha, not_not.mp hmine⟩)).bind fun _ =>
    only_flush.bind fun _ => only_allowedEvent.bind fun _ => only_pure)

/-- The items come after their submission, which was not there before. -/
theorem createSubmission_heeds {payload : SubmissionCreate} :
    Heeds settings db u (createSubmission id u payload) now ⟨db, [], n⟩ := by
  refine ends_select_bind (endsWell_orRaise_bind (by decide) fun a ha =>
    endsWell_raiseIf_bind (by decide) fun hmine => endsWell_raiseIf_bind (by decide) fun _ =>
    Ends.bind (Q := fun _ c => c = ⟨db, [], n⟩) ?_ ?_)
  · exact ends_query_bind (endsWell_orRaise_bind (by decide) fun _ _ =>
      ends_query_bind (ends_pure rfl))
  rintro ⟨contract, tasks⟩ _ rfl
  have htester : a.testerId = u := not_not.mp hmine
  refine ends_utcnow_bind (endsWell_orRaise_bind (by decide) fun _ _ =>
    endsWell_raiseIf_bind (by decide) fun _ => ends_query_bind (endsWell_raiseIf_bind (by decide)
    fun _ => endsWell_raiseIf_bind (by decide) fun _ => endsWell_raiseIf_bind (by decide) fun _ =>
    checkItems_endsWell.bind ?_))
  rintro _ _ ⟨-, rfl⟩
  refine ends_query_bind (ends_uuid4_bind (ends_utcnow_bind (ends_add_bind
    (ends_flush_one_bind (fun _ _ _ => trivial) fun hv => ?_))))
  have hnew : db.evidenceSubmissions.get? n = none := free_of_accepted hv
  have hinsert : Allowed settings db u (insertEvidenceSubmission n
      { assignmentId := id, version := db.latestVersion id + 1, summary := payload.summary,
        submittedAt := now }) := allowed_insertSubmission ⟨a, ha, htester⟩ rfl
  have hsubmit : ∀ at', Allowed settings db u (writeAssignment id fun a =>
      { a with status := .submitted, submittedAt := some at' }) :=
    fun _ => allowed_assignment ha (.inl ⟨htester, by decide⟩) givesStatus_at
  refine heeds_then (only_addItems fun _ _ => allowed_insertItem hnew)
    (abides_start (hinsert db hv (.refl settings db u))) fun _ _ hc =>
    heeds_then only_utcnow hc fun _ _ hc => heeds_then (only_add (hsubmit _)) hc fun _ _ hc =>
    heeds_then only_allowedEvent hc fun _ _ hc => endsWell_getCampaign_bind fun x hx => ?_
  -- the campaign is read after the writes, but its owner is the one it had before
  have hto := tells_owner ha (.inl htester) hc.holds hx
  exact heeds_rest (only_testerDisplayName.bind fun _ => (only_allowedNotice rfl hto).bind
    fun _ => only_flush.bind fun _ => only_pure).confined hc

end Assignments

/-! ## Decisions and messages -/

section Decisions

/-- What a decision takes: the work it is about, and who pays for it. -/
structure Db.Deciding (db : Db) (settings : Settings) (u submissionId assignmentId : Uuid)
    (a : Assignment) (x : Campaign) : Prop where
  submission : ∃ e, db.evidenceSubmissions.get? submissionId = some e ∧ e.assignmentId = assignmentId
  assignment : db.assignments.get? assignmentId = some a
  campaign : db.campaigns.get? a.campaignId = some x
  pays : db.Pays settings u assignmentId

namespace Db.Deciding

variable {submissionId : Uuid} {a : Assignment} {x : Campaign}

theorem settled (h : db.Deciding settings u submissionId id a x) {s : AssignmentStatus}
    (hs : s ∈ [AssignmentStatus.approved, .rejected]) : db.MayDecide settings u id a s := by
  rcases h.pays with ⟨b, hb, howns⟩ | hjudges
  · rw [h.assignment] at hb
    cases hb
    refine .inr (.inl ⟨howns, ?_⟩)
    simp only [List.mem_cons, List.not_mem_nil, or_false] at hs ⊢
    tauto
  · exact .inr (.inr ⟨hjudges, hs⟩)

theorem submissionAllowed (h : db.Deciding settings u submissionId id a x) {s : SubmissionStatus}
    (hs : s ∈ [SubmissionStatus.approved, .rejected]) :
    Allowed settings db u (writeEvidenceSubmission submissionId fun e => { e with status := s }) := by
  obtain ⟨e, he, hof⟩ := h.submission
  refine allowed_submission he ?_
  rw [hof]
  rcases h.pays with hhosts | hjudges
  · refine .inl ⟨hhosts, ?_⟩
    simp only [List.mem_cons, List.not_mem_nil, or_false] at hs ⊢
    tauto
  · exact .inr ⟨hjudges, hs⟩

theorem completes (h : db.Deciding settings u submissionId id a x) :
    db.OwnsOrNew u a.campaignId ∨ db.Settles settings u a.campaignId := by
  rcases h.pays with ⟨b, hb, howns⟩ | hjudges
  · rw [h.assignment] at hb
    cases hb
    exact .inl howns.orNew
  · exact .inr ⟨id, a, h.assignment, rfl, .inr hjudges⟩

/-- The reward of the tester, and of nobody else. -/
theorem rewardAllowed (h : db.Deciding settings u submissionId id a x) {note : String} :
    Only (Allowed settings db u) (recordCreditEntry (rewardEntry id a x note u)) :=
  only_allowedCredit (.inr ⟨id, a, h.assignment, rfl, h.pays⟩) fun _ =>
    ⟨rfl, .inr (.inr ⟨rfl, id, a, x, h.assignment, rfl, h.campaign, rfl, h.pays⟩)⟩

/-- The work is approved and paid for. -/
theorem approval (h : db.Deciding settings u submissionId id a x) {note : String} :
    Only (Allowed settings db u) (do
      let now ← utcnow
      add (writeEvidenceSubmission submissionId fun e => { e with status := .approved })
      add (writeAssignment id fun a => { a with status := .approved, completedAt := some now })
      let _ ← recordCreditEntry (rewardEntry id a x note u)
      flush
      let _ ← maybeCompleteCampaign a.campaignId x u
      pure ()) := by
  have happrove : ∀ at', Allowed settings db u (writeAssignment id fun a =>
      { a with status := .approved, completedAt := some at' }) :=
    fun _ => allowed_assignment h.assignment (h.settled (by decide)) givesStatus_at
  exact only_utcnow.bind fun _ => (only_add (h.submissionAllowed (by decide))).bind fun _ =>
    (only_add (happrove _)).bind fun _ => h.rewardAllowed.bind fun _ => only_flush.bind fun _ =>
    (only_allowedCompletion h.completes).bind fun _ => only_pure

end Db.Deciding

/-- An owner's decision about work he hosts. -/
theorem applyDecision_allowed {submissionId : Uuid} {a : Assignment} {x : Campaign}
    {decision : ReviewDecision} (h : db.Deciding settings u submissionId id a x)
    (howns : db.Owns u a.campaignId) :
    Only (Allowed settings db u) (applyDecision submissionId id a x u decision) := by
  have hdecide : ∀ s, s ∈ [AssignmentStatus.changesRequested, .rejected] →
      Allowed settings db u (writeAssignment id fun a => { a with status := s }) := by
    intro s hs
    refine allowed_assignment h.assignment (.inr (.inl ⟨howns, ?_⟩)) givesStatus_at
    simp only [List.mem_cons, List.not_mem_nil, or_false] at hs ⊢
    tauto
  obtain ⟨e, he, hof⟩ := h.submission
  have hhosts : db.Hosts u e.assignmentId := ⟨a, by rw [hof]; exact h.assignment, howns⟩
  cases decision with
  | approved => exact h.approval
  | changesRequested =>
      exact (only_add (allowed_submission he (.inl ⟨hhosts, by decide⟩))).bind fun _ =>
        only_add (hdecide _ (by decide))
  | rejected =>
      exact (only_add (allowed_submission he (.inl ⟨hhosts, by decide⟩))).bind fun _ =>
        only_add (hdecide _ (by decide))

theorem createReview_heeds {submissionId : Uuid} {payload : ReviewCreate} :
    Heeds settings db u (createReview submissionId u payload) now ⟨db, [], n⟩ := by
  refine ends_query_bind (endsWell_orRaise_bind (by decide) fun assignmentId hof =>
    ends_select_bind (ends_orRaise_bind (fun _ _ => trivial) fun a ha =>
    ends_select_bind (endsWell_orRaise_bind (by decide) fun e he =>
    ends_select_bind (endsWell_orRaise_bind (by decide) fun x hx =>
    endsWell_raiseIf_bind (by decide) fun howner => ?_))))
  rw [he] at hof
  cases hof
  have howns : db.Owns u a.campaignId := ⟨x, hx, not_not.mp howner⟩
  have hhosts : db.Hosts u e.assignmentId := ⟨a, ha, howns⟩
  have hdeciding : db.Deciding settings u submissionId e.assignmentId a x :=
    ⟨⟨e, he, rfl⟩, ha, hx, .inl hhosts⟩
  exact heeds_first (only_query.bind fun _ => only_raiseIf.bind fun _ => only_raiseIf.bind fun _ =>
    only_raiseIf.bind fun _ => only_uuid4.bind fun _ =>
    (only_add (allowed_insertReview rfl he hhosts)).bind fun _ => only_flush.bind fun _ =>
    (applyDecision_allowed hdeciding howns).bind fun _ => only_allowedEvent.bind fun _ =>
    (only_allowedNotice rfl (tells_tester ha (.inl hhosts))).bind fun _ =>
    only_flush.bind fun _ => only_pure)

theorem addMessage_heeds {payload : MessageCreate} :
    Heeds settings db u (addMessage id u payload) now ⟨db, [], n⟩ := by
  refine endsWell_getAssignment_bind fun a ha => endsWell_participant_bind fun x hx hu => ?_
  have hpart : db.Tests u id ∨ db.Hosts u id := by
    rcases hu with htester | howner
    · exact .inl ⟨a, ha, htester.symm⟩
    · exact .inr ⟨a, ha, x, hx, howner.symm⟩
  refine heeds_then only_uuid4 (abides_start (.refl settings db u)) fun _ _ hc =>
    heeds_then (only_add (allowed_insertMessage rfl hpart)) hc fun _ _ hc =>
    heeds_then only_flush hc fun _ _ hc => heeds_then only_allowedEvent hc fun _ _ hc =>
    endsWell_getCampaign_bind fun y hy => ?_
  have hto : (if u = a.testerId then y.ownerId else a.testerId) = u
      ∨ db.Tells settings u (if u = a.testerId then y.ownerId else a.testerId) := by
    split
    · rename_i htester
      exact tells_owner ha (.inl htester.symm) hc.holds hy
    · rename_i hother
      exact tells_tester ha (.inl ⟨a, ha, x, hx, (hu.resolve_left hother).symm⟩)
  exact heeds_rest ((only_allowedNotice rfl hto).bind fun _ => only_pure).confined hc

theorem only_checkEscalation {a : Assignment} {e : EvidenceSubmission} :
    Only (Allowed settings db u) (checkEscalation a e) := by
  unfold checkEscalation
  split
  · exact only_raiseIf.bind fun _ => only_contractForAssignment.bind fun _ =>
      only_utcnow.bind fun _ => only_raiseIf
  · exact only_raiseIf

theorem openDispute_heeds {payload : DisputeCreate} :
    Heeds settings db u (openDispute id u payload) now ⟨db, [], n⟩ := by
  refine ends_select_bind (endsWell_orRaise_bind (by decide) fun a ha =>
    endsWell_participant_bind fun _ _ _ => endsWell_raiseIf_bind (by decide) fun hmine => ?_)
  have htests : db.Tests u id := ⟨a, ha, not_not.mp hmine⟩
  refine heeds_then only_raiseIf (abides_start (.refl settings db u)) fun _ _ hc =>
    heeds_then only_orRaise hc fun _ _ hc => heeds_then only_query hc fun _ _ hc =>
    heeds_then only_orRaise hc fun _ _ hc => heeds_then only_raiseIf hc fun _ _ hc =>
    heeds_then only_checkEscalation hc fun _ _ hc => heeds_then only_query hc fun _ _ hc =>
    heeds_then only_raiseIf hc fun _ _ hc => heeds_then only_uuid4 hc fun _ _ hc =>
    heeds_then (only_add (allowed_insertDispute htests)) hc fun _ _ hc =>
    heeds_then only_flush hc fun _ _ hc => heeds_then only_allowedEvent hc fun _ _ hc =>
    endsWell_getCampaign_bind fun x hx => ?_
  have hto := tells_owner ha (.inl (not_not.mp hmine)) hc.holds hx
  exact heeds_rest ((only_allowedNotice rfl hto).bind fun _ => only_pure).confined hc

theorem claimDispute_heeds (hm : u ∈ settings.moderatorUserIds) :
    Heeds settings db u (claimDispute id u) now ⟨db, [], n⟩ := by
  refine ends_select_bind (endsWell_orRaise_bind (by decide) fun d hd => ?_)
  split
  · exact endsWell_raiseIf_bind (by decide) fun _ => heeds_done
  · refine endsWell_raiseIf_bind (by decide) fun hopen => ?_
    exact heeds_first (only_utcnow.bind fun _ =>
      only_allowedRecord (allowed_claim hm hd (not_not.mp hopen)))

/-- A moderator's decision about work whose dispute is his. -/
theorem applyRemedy_heeds {d : Dispute} {a : Assignment} {payload : DisputeResolve}
    (hjudges : db.Judges settings u d.assignmentId)
    (ha : db.assignments.get? d.assignmentId = some a) :
    Heeds settings db u (applyRemedy d a u payload) now ⟨db, [], n⟩ := by
  have hdeciding : ∀ {k e x}, db.evidenceSubmissions.get? k = some e →
      e.assignmentId = d.assignmentId → db.campaigns.get? a.campaignId = some x →
      db.Deciding settings u k d.assignmentId a x :=
    fun he hof hx => ⟨⟨_, he, hof⟩, ha, hx, .inr hjudges⟩
  unfold applyRemedy
  split
  · refine endsWell_orRaise_bind (by decide) fun submissionId _ => endsWell_raiseIf_bind (by decide)
      fun _ => ends_select_bind (disputedSubmission_endsWell.bind ?_)
    rintro e _ ⟨⟨he, hof⟩, rfl⟩
    exact ends_select_bind (endsWell_orRaise_bind (by decide) fun x hx =>
      heeds_first (hdeciding he hof hx).approval)
  · split
    · refine endsWell_raiseIf_bind (by decide) fun _ => endsWell_orRaise_bind (by decide)
        fun submissionId _ => ends_query_bind (disputedSubmission_endsWell.bind ?_)
      rintro e _ ⟨⟨he, hof⟩, rfl⟩
      have hsubmission : Allowed settings db u
          (writeEvidenceSubmission submissionId fun e => { e with status := .rejected }) :=
        allowed_submission he (.inr ⟨by rw [hof]; exact hjudges, by decide⟩)
      have hreject : ∀ at', Allowed settings db u (writeAssignment d.assignmentId fun a =>
          { a with status := .rejected, completedAt := some at' }) :=
        fun _ => allowed_assignment ha (.inr (.inr ⟨hjudges, by decide⟩)) givesStatus_at
      exact heeds_first (only_utcnow.bind fun _ => (only_add hsubmission).bind fun _ =>
        only_add (hreject _))
    · exact heeds_done

theorem resolveDispute_heeds {payload : DisputeResolve} (hm : u ∈ settings.moderatorUserIds) :
    Heeds settings db u (resolveDispute id u payload) now ⟨db, [], n⟩ := by
  refine ends_select_bind (endsWell_orRaise_bind (by decide) fun d hd =>
    endsWell_raiseIf_bind (by decide) fun hclaimed => endsWell_raiseIf_bind (by decide) fun hmine =>
    ends_select_bind (endsWell_orRaise_bind (by decide) fun a ha => ?_))
  have hstatus := not_not.mp hclaimed
  have hassigned := not_not.mp hmine
  have hjudges : db.Judges settings u d.assignmentId := ⟨hm, id, d, hd, rfl, hstatus, hassigned⟩
  refine (applyRemedy_heeds hjudges ha).bind fun _ _ hc => heeds_then only_utcnow hc fun _ _ hc =>
    heeds_then (only_add (allowed_resolve hm hd hstatus hassigned)) hc fun _ _ hc =>
    heeds_then only_allowedEvent hc fun _ _ hc => endsWell_getCampaign_bind fun x hx => ?_
  have htester := tells_tester ha (.inr hjudges)
  have howner := tells_owner ha (.inr (.inr hjudges)) hc.holds hx
  exact heeds_rest ((only_allowedNotice rfl htester).bind fun _ =>
    (only_allowedNotice rfl howner).bind fun _ => only_flush.bind fun _ => only_pure).confined hc

theorem moderatorEvidenceUrl_heeds {settings' : Settings} {evidenceId : Uuid}
    {answer : SigningAnswer} :
    Heeds settings db u (moderatorEvidenceUrl settings' id evidenceId u answer) now ⟨db, [], n⟩ := by
  refine heeds_first (only_query.bind fun _ => only_query.bind fun _ => only_query.bind fun _ =>
    only_orRaise.bind fun _ => only_orRaise.bind fun _ => only_orRaise.bind fun _ =>
    only_raiseIf.bind fun _ => only_orRaise.bind fun _ => only_raiseIf.bind fun _ =>
    Only.bind ?_ fun _ => only_allowedEvent.bind fun _ => only_flush.bind fun _ => only_pure)
  unfold signStorageEvidence
  split
  · exact only_orRaise.bind fun _ => only_raiseIf.bind fun _ => only_pure
  · exact only_raise

end Decisions

/-! ## Requests -/

/-- **Whatever a request does, its caller may do.** -/
theorem handle_heeds {user : CurrentUser} {request : Request} :
    Heeds settings db user.id (handle settings user request) now ⟨db, [], n⟩ := by
  cases request with
  | saveProfile payload => exact endsWell_activeBody fun _ q _ => upsertProfile_heeds
  | waitlist payload => exact endsWell_body fun q _ => endsWell_discard joinWaitlist_heeds
  | balance => exact endsWell_activeUser creditBalance_heeds
  | createCampaign payload =>
      exact endsWell_activeBody fun _ q _ => heeds_first createCampaign_allowed
  | launchCampaign payload => exact endsWell_activeBody fun _ q _ => launchCampaign_heeds
  | updateCampaign id payload => exact endsWell_activeBody fun _ q _ => updateCampaign_heeds
  | saveContract id payload =>
      refine endsWell_activeInput fun _ q _ => ?_
      exact (upsertContract_heeds (abides_start (.refl settings db user.id))).bind fun _ _ hsaved =>
        endsWell_discard (heeds_rest only_getContract.confined hsaved)
  | publishCampaign id =>
      exact endsWell_activeUser (publishCampaign_heeds (abides_start (.refl settings db user.id)))
  | transitionCampaign id action => exact endsWell_activeUser transitionCampaign_heeds
  | apply id payload => exact endsWell_activeBody fun _ q _ => applyToCampaign_heeds
  | accept id => exact endsWell_activeUser acceptAssignment_heeds
  | decline id => exact endsWell_activeUser declineAssignment_heeds
  | withdraw id => exact endsWell_activeUser withdrawAssignment_heeds
  | start id => exact endsWell_activeUser startAssignment_heeds
  | recordSession id payload => exact endsWell_activeBody fun _ q _ => recordTestingSession_heeds
  | submit id payload => exact endsWell_activeBody fun _ q _ => createSubmission_heeds
  | review id payload => exact endsWell_activeBody fun _ q _ => createReview_heeds
  | message id payload => exact endsWell_activeBody fun _ q _ => addMessage_heeds
  | openDispute id payload => exact endsWell_activeBody fun _ q _ => openDispute_heeds
  | claimDispute id => exact endsWell_moderator fun hm => claimDispute_heeds hm.2
  | resolveDispute id payload =>
      exact endsWell_moderatorBody fun hm q _ => resolveDispute_heeds hm.2
  | evidenceUrl disputeId evidenceId answer =>
      exact endsWell_moderator fun _ => moderatorEvidenceUrl_heeds
  | suspend id payload => exact endsWell_moderatorBody fun hm q _ => suspendParticipant_heeds hm.2
  | restore id => exact endsWell_moderator fun hm => restoreParticipant_heeds hm.2
  | readNotification id => exact endsWell_activeUser markNotificationRead_heeds
  | readAllNotifications => exact endsWell_activeUser markAllNotificationsRead_heeds

end TestExchange
