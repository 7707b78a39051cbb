import TestExchange.Model.Requests
import TestExchange.Spec.Accepted
import TestExchange.Spec.Widths

/-!
# The services write what fits

One lemma per service: given a payload within its bounds, everything the service
registers fits, since what it has read does.
-/

namespace TestExchange

open Txn Txn.Session

/-! ## Joining

Joining is looked at for any condition on the database, given that its writes keep it.
-/

section Joining

variable {I : Nat → Db → Prop} {bound n : Nat} {userId : Uuid}

theorem upholds_ensureCreditAccount (h : Safe I n (insertCreditAccount userId ⟨0⟩)) :
    Upholds I bound n (ensureCreditAccount userId) fun k _ => k = n ∧ True := by
  refine upholds_query_bind fun _ _ => ?_
  split
  · exact upholds_pure ⟨rfl, trivial⟩
  · exact upholds_add_bind h (upholds_flush_bind (upholds_pure ⟨rfl, trivial⟩))

/-- What recording the change writes keeps the condition. -/
structure SafeChange (I : Nat → Db → Prop) (n : Nat) (change : CreditChange) : Prop where
  account : Safe I n (insertCreditAccount change.userId ⟨0⟩)
  balance : ∀ balance, Safe I n (writeCreditAccount change.userId balance)
  entry : ∀ transactionId, Safe I n (insertCreditLedgerEntry (change.entry transactionId))

theorem upholds_recordCreditEntry {change : CreditChange} (h : SafeChange I n change) :
    Upholds I bound n (recordCreditEntry change) fun _ _ => True := by
  refine upholds_query_bind fun _ _ => ?_
  split
  · exact upholds_pure trivial
  · refine upholds_raiseIf_bind fun _ => ?_
    have haccount : Upholds I bound n (getCreditAccountForUpdate change.userId)
        fun k _ => k = n ∧ True := by
      refine upholds_queryForUpdate_bind fun _ _ => ?_
      split
      · exact upholds_pure ⟨rfl, trivial⟩
      · exact upholds_ensureCreditAccount h.account
    refine haccount.bind fun k account _ hk => hk.1 ▸ upholds_raiseIf_bind fun _ => ?_
    refine upholds_add_bind (h.balance _) (upholds_uuid4_bind fun _ => ?_)
    refine upholds_add_bind ((h.entry _).later (Nat.le_succ n)) ?_
    exact upholds_flush_bind (upholds_pure trivial)

theorem upholds_lockBetaState (h : ∀ state, Safe I n (insertBetaProgramState state)) :
    Upholds I bound n lockBetaState fun k _ => k = n ∧ True := by
  refine upholds_queryForUpdate_bind fun _ _ => ?_
  split
  · exact upholds_pure ⟨rfl, trivial⟩
  · exact upholds_query_bind fun _ _ => upholds_add_bind (h _)
      (upholds_flush_bind (upholds_pure ⟨rfl, trivial⟩))

/-- What saving the profile writes keeps the condition. -/
structure SafeSave (I : Nat → Db → Prop) (n : Nat) (settings : Settings) (userId : Uuid)
    (email : Option String) (payload : ProfileUpsert) : Prop where
  counter : ∀ state, Safe I n (insertBetaProgramState state)
  seat : ∀ state, Safe I n (writeBetaProgramState state)
  created : Safe I n (insertProfile userId (payload.profile email))
  updated : ∀ username loaded,
    Safe I n (writeSavedProfile userId username payload.username (payload.set email loaded))
  grant : SafeChange I n (signupGrantEntry settings.signupCreditGrant userId)
  event : ∀ action, action.length ≤ 120 →
    Safe I n (insertAuditEvent ⟨some userId, action, "profile", userId, []⟩)

theorem upholds_upsertProfile {settings : Settings} {email : Option String}
    {payload : ProfileUpsert} (h : SafeSave I n settings userId email payload) :
    Upholds I bound n (upsertProfile settings userId email payload) fun _ _ => True := by
  refine upholds_query_bind fun _ _ => upholds_raiseIf_bind fun _ =>
    upholds_query_bind fun _ _ => ?_
  split
  · refine upholds_raiseIf_bind fun _ => (upholds_lockBetaState h.counter).bind
      fun k state _ hk => hk.1 ▸ upholds_raiseIf_bind fun _ => ?_
    refine upholds_add_bind (h.seat _) (upholds_add_bind h.created (upholds_flush_bind ?_))
    refine (upholds_ensureCreditAccount h.grant.account).bind fun k _ _ hk => hk.1 ▸ ?_
    have hgrant : Upholds I bound n (grantSignupCredits settings.signupCreditGrant userId)
        fun _ _ => True := by
      unfold grantSignupCredits
      split
      · exact (upholds_recordCreditEntry h.grant).bind fun _ _ _ _ => upholds_pure trivial
      · exact upholds_pure trivial
    refine hgrant.bind fun k _ hle _ => ?_
    exact upholds_add_bind ((h.event _ (by decide)).later hle)
      (upholds_flush_bind (upholds_pure trivial))
  · exact upholds_add_bind (h.updated _ _) (upholds_add_bind (h.event _ (by decide))
      (upholds_flush_bind (upholds_pure trivial)))

end Joining

/-! ## What is kept -/

/-- Whatever the session writes keeps the strings within their columns. -/
abbrev Tidy {α : Type} (n : Nat) (m : Session α) (post : Nat → α → Prop) : Prop :=
  Upholds Kept uuidBound n m post

section Helpers

variable {α β : Type} {n : Nat} {id userId : Uuid} {post : Nat → β → Prop}

/-- A part that draws no identifier comes first. -/
theorem Tidy.first {m : Session α} {f : α → Session β} {p : α → Prop}
    (h : Tidy n m fun k a => k = n ∧ p a) (hf : ∀ a, p a → Tidy n (f a) post) :
    Tidy n (m >>= f) post := h.bind fun _ a _ ⟨hk, ha⟩ => hk ▸ hf a ha

theorem tidy_event_bind {actorId : Option Uuid} {action entityType : String}
    {details : List (String × Json)} {g : Unit → Session β} (haction : action.length ≤ 120)
    (htype : entityType.length ≤ 80) (h : Tidy n (g ()) post) :
    Tidy n (addAuditEvent actorId action entityType id details >>= g) post :=
  upholds_add_bind (safe_insertAuditEvent ⟨haction, htype⟩) h

theorem tidy_selectForUpdate_bind {table : Db → Table α} {lock : Uuid → Lock}
    {f : Option α → Session β} (h : ∀ db, Kept n db → Tidy n (f ((table db).get? id)) post) :
    Tidy n (selectForUpdate table lock id >>= f) post := upholds_queryForUpdate_bind h

theorem tidy_getProfile : Tidy n (getProfile id) fun k _ => k = n ∧ True :=
  upholds_query_bind fun _ _ => upholds_orRaise fun _ _ => ⟨rfl, trivial⟩

/-- A stored campaign. -/
structure Stored (c : Campaign) (campaignId : Uuid) : Prop where
  fits : c.Fits
  id : campaignId < uuidBound
  target : c.targetTesters ≤ 100

theorem Kept.stored {db : Db} (h : Kept n db) {c : Campaign} (hc : db.campaigns.get? id = some c) :
    Stored c id := by
  obtain ⟨hid, htarget⟩ := h.campaignTerms id c hc
  exact ⟨h.campaigns id c hc, Nat.lt_of_lt_of_le hid h.bounded, htarget⟩

theorem Kept.assignment_lt {db : Db} (h : Kept n db) {a : Assignment}
    (ha : db.assignments.get? id = some a) : id < uuidBound :=
  Nat.lt_of_lt_of_le (h.assignmentIds id a ha) h.bounded

theorem tidy_getCampaign : Tidy n (getCampaign id) fun k c => k = n ∧ Stored c id :=
  upholds_query_bind fun _ hs => upholds_orRaise fun _ hc => ⟨rfl, hs.stored hc⟩

theorem tidy_getAssignment : Tidy n (getAssignment id) fun k _ => k = n ∧ id < uuidBound :=
  upholds_query_bind fun _ hs => upholds_orRaise fun _ ha => ⟨rfl, hs.assignment_lt ha⟩

theorem tidy_requireCampaignOwner {c : Campaign} :
    Tidy n (requireCampaignOwner c userId) fun k _ => k = n ∧ True :=
  upholds_raiseIf fun _ => ⟨rfl, trivial⟩

theorem tidy_requireAssignmentParticipant {a : Assignment} :
    Tidy n (requireAssignmentParticipant a userId) fun k _ => k = n ∧ True :=
  tidy_getCampaign.first fun _ _ => upholds_raiseIf_bind fun _ => upholds_pure ⟨rfl, trivial⟩

theorem tidy_testerDisplayName {a : Assignment} :
    Tidy n (testerDisplayName a) fun k name => k = n ∧ name.length ≤ 100 := by
  refine upholds_query fun db hdb => ⟨rfl, ?_⟩
  cases hp : db.profiles.get? a.testerId with
  | none => exact Nat.zero_le _
  | some p => exact (hdb.profiles a.testerId p hp).displayName

theorem tidy_contractForAssignment {a : Assignment} :
    Tidy n (contractForAssignment a) fun k _ => k = n ∧ True :=
  upholds_query_bind fun _ _ => upholds_orRaise_bind fun _ _ =>
    upholds_query_bind fun _ _ => upholds_pure ⟨rfl, trivial⟩

theorem tidy_getContract : Tidy n (getContract id) fun k _ => k = n ∧ True :=
  upholds_query_bind fun _ _ => upholds_orRaise_bind fun _ _ =>
    upholds_query_bind fun _ _ => upholds_pure ⟨rfl, trivial⟩

theorem tidy_addNotification {x : Notification} (hx : x.Fits) :
    Tidy n (addNotification x) fun _ _ => True := by
  refine upholds_query_bind fun _ _ => ?_
  split
  · exact upholds_pure trivial
  · refine upholds_uuid4_bind fun _ => ?_
    exact upholds_add_bind (safe_insertNotification hx) (upholds_flush trivial)

theorem tidy_ensureCreditAccount : Tidy n (ensureCreditAccount userId) fun k _ => k = n ∧ True :=
  upholds_ensureCreditAccount (safe_other fun _ => ⟨_, _, _, _, _, rfl⟩)

/-- The ledger entry of the change fits. -/
structure CreditChange.Fits (change : CreditChange) : Prop where
  referenceType : ∀ s ∈ change.referenceType, s.length ≤ 80
  note : ∀ s ∈ change.note, s.length ≤ 500
  idempotencyKey : change.idempotencyKey.length ≤ 200

theorem CreditChange.Fits.entry {change : CreditChange} (h : change.Fits) {transactionId : Uuid} :
    (change.entry transactionId).Fits := ⟨h.referenceType, h.note, h.idempotencyKey⟩

theorem CreditChange.Fits.safe {change : CreditChange} (h : change.Fits) : SafeChange Kept n change where
  account := safe_other fun _ => ⟨_, _, _, _, _, rfl⟩
  balance _ := safe_other fun _ => ⟨_, _, _, _, _, rfl⟩
  entry _ := safe_insertCreditLedgerEntry h.entry

theorem tidy_recordCreditEntry {change : CreditChange} (h : change.Fits) :
    Tidy n (recordCreditEntry change) fun _ _ => True := upholds_recordCreditEntry h.safe

/-- A campaign whose status changes. -/
theorem safe_moveCampaign {f : Campaign → Campaign}
    (hf : ∀ c, ∃ status publishedAt, f c = { c with status := status, publishedAt := publishedAt }) :
    Safe Kept n (writeCampaign id f) := by
  refine safe_writeCampaign (fun c hc => ?_) fun c => ?_
  · obtain ⟨_, _, hfc⟩ := hf c
    rw [hfc]
    exact ⟨hc.name, hc.slug, hc.category, hc.publicSummary, hc.publicTesterRequirements,
      hc.minimumVersion⟩
  · obtain ⟨_, _, hfc⟩ := hf c
    rw [hfc]

theorem tidy_maybeCompleteCampaign {c : Campaign} :
    Tidy n (maybeCompleteCampaign id c userId) fun k _ => k = n ∧ True := by
  have hsettled : Tidy n (closedWorkSettled id c) fun k _ => k = n ∧ True := by
    unfold closedWorkSettled
    split
    · exact upholds_query_bind fun _ _ => upholds_query_bind fun _ _ =>
        upholds_pure ⟨rfl, trivial⟩
    · exact upholds_pure ⟨rfl, trivial⟩
  refine upholds_query_bind fun _ _ => hsettled.first fun settled _ => ?_
  split
  · refine upholds_add_bind (safe_moveCampaign fun _ => ⟨_, _, rfl⟩) ?_
    exact tidy_event_bind (by decide) (by decide) (upholds_pure ⟨rfl, trivial⟩)
  · exact upholds_pure ⟨rfl, trivial⟩

end Helpers

/-! ## Profiles and campaigns -/

/-- A column of a saved profile holds what was sent or what was there. -/
theorem Profile.Columns.set {P : Nat → String → Prop} {payload : ProfileUpsert}
    {email : Option String} (h : (payload.profile email).Columns P) {loaded p : Profile}
    (hp : p.Columns P) : (payload.set email loaded p).Columns P where
  email := setIfChanged_cases (P := fun o : Option String => ∀ s ∈ o, P 320 s) h.email hp.email
  username := setIfChanged_cases (P := P 40) h.username hp.username
  displayName := setIfChanged_cases (P := P 100) h.displayName hp.displayName
  bio := setIfChanged_cases (P := fun o : Option String => ∀ s ∈ o, P 500 s) h.bio hp.bio
  avatarUrl := setIfChanged_cases (P := fun o : Option String => ∀ s ∈ o, P 500 s)
    h.avatarUrl hp.avatarUrl
  suspensionReason := hp.suspensionReason

section Services

variable {n : Nat} {id userId : Uuid} {settings : Settings}

theorem signupGrant_fits {grant : Nat} (huser : userId < uuidBound) :
    (signupGrantEntry grant userId).Fits := by
  have hkey : (idempotencyKey "profile" userId "signup-grant").length ≤ 200 :=
    key_fits huser (by decide) (by decide)
  refine ⟨fun s hs => ?_, fun s hs => ?_, hkey⟩
  · rw [← Option.some.inj hs]
    decide
  · rw [← Option.some.inj hs]
    decide

theorem tidy_upsertProfile {email : Option String} {payload : ProfileUpsert}
    (huser : userId < uuidBound) (hp : (payload.profile email).Fits) :
    Tidy n (upsertProfile settings userId email payload) fun _ _ => True :=
  upholds_upsertProfile
    { counter := fun _ => safe_other fun _ => ⟨_, _, _, _, _, rfl⟩
      seat := fun _ => safe_other fun _ => ⟨_, _, _, _, _, rfl⟩
      created := safe_insertProfile hp
      updated := fun _ _ => safe_writeSavedProfile fun _ hfits => hp.set hfits
      grant := (signupGrant_fits huser).safe
      event := fun _ haction => safe_insertAuditEvent
        ⟨haction, (by decide : "profile".length ≤ 80)⟩ }

theorem tidy_joinWaitlist {email : String} : Tidy n (joinWaitlist email) fun _ _ => True := by
  refine upholds_query_bind fun _ _ => ?_
  split
  · exact upholds_pure trivial
  · refine upholds_uuid4_bind fun _ => ?_
    refine upholds_executeNested_bind (safe_other fun _ => ⟨_, _, _, _, _, rfl⟩) fun e => ?_
    cases e with
    | none => exact upholds_pure trivial
    | some e => exact upholds_query_bind fun _ _ => upholds_orRaise fun _ _ => trivial

theorem tidy_creditBalance : Tidy n (creditBalance userId) fun _ _ => True :=
  tidy_getProfile.first fun _ _ => tidy_ensureCreditAccount.first fun _ _ => upholds_pure trivial

theorem tidy_suspendParticipant {moderatorId : Uuid} {reason : String} (h : reason.length ≤ 500) :
    Tidy n (suspendParticipant id moderatorId reason) fun _ _ => True := by
  refine upholds_raiseIf_bind fun _ => tidy_selectForUpdate_bind fun _ _ =>
    upholds_orRaise_bind fun _ _ => upholds_utcnow_bind fun now => ?_
  refine upholds_add_bind (safe_writeProfile fun p hp => ?_) ?_
  · refine ⟨hp.email, hp.username, hp.displayName, hp.bio, hp.avatarUrl, fun s hs => ?_⟩
    rw [← Option.some.inj hs]
    exact h
  · exact tidy_event_bind (by decide) (by decide) (upholds_flush_bind (upholds_pure trivial))

theorem tidy_restoreParticipant {moderatorId : Uuid} :
    Tidy n (restoreParticipant id moderatorId) fun _ _ => True := by
  refine tidy_selectForUpdate_bind fun _ _ => upholds_orRaise_bind fun _ _ => ?_
  refine upholds_add_bind (safe_writeProfile fun p hp => ?_) ?_
  · exact ⟨hp.email, hp.username, hp.displayName, hp.bio, hp.avatarUrl, fun s hs => by cases hs⟩
  · exact tidy_event_bind (by decide) (by decide) (upholds_flush_bind (upholds_pure trivial))

theorem tidy_createCampaign {payload : CampaignCreate} (hp : payload.Bounded) :
    Tidy n (createCampaign userId payload) fun _ _ => True := by
  refine tidy_getProfile.first fun _ _ => upholds_query_bind fun _ _ =>
    upholds_raiseIf_bind fun _ => upholds_uuid4_bind fun _ => ?_
  have hcampaign : (payload.campaign userId).Fits :=
    ⟨hp.name, hp.slug, hp.category, hp.publicSummary, hp.publicTesterRequirements,
      hp.minimumVersion⟩
  refine upholds_add_bind
    (safe_insertCampaign (Nat.lt_succ_self n) hcampaign hp.targetTesters) (upholds_flush_bind ?_)
  exact tidy_event_bind (by decide) (by decide) (upholds_pure trivial)

theorem CampaignUpdate.Bounded.set {payload : CampaignUpdate} (hp : payload.Bounded)
    {loaded c : Campaign} (hc : c.Fits) : (payload.set loaded c).Fits where
  name := PatchField.set_cases (P := fun s : String => s.length ≤ 120)
    (fun _ ha => lengthWithin_le (PatchField.of_all hp.name ha)) hc.name
  slug := hc.slug
  category := PatchField.set_cases (P := fun s : String => s.length ≤ 80)
    (fun _ ha => lengthWithin_le (PatchField.of_all hp.category ha)) hc.category
  publicSummary := PatchField.set_cases (P := fun s : String => s.length ≤ 800)
    (fun _ ha => lengthWithin_le (PatchField.of_all hp.publicSummary ha)) hc.publicSummary
  publicTesterRequirements := PatchField.set_cases (P := fun s : String => s.length ≤ 800)
    (fun _ ha => lengthWithin_le (PatchField.of_all hp.publicTesterRequirements ha))
    hc.publicTesterRequirements
  minimumVersion := PatchField.setNullable_cases (P := fun s : String => s.length ≤ 80)
    (fun _ ha => lengthWithin_le (PatchField.of_all hp.minimumVersion ha)) hc.minimumVersion

theorem tidy_updateCampaign {payload : CampaignUpdate} (hp : payload.Bounded) :
    Tidy n (updateCampaign id userId payload) fun _ _ => True := by
  refine tidy_getCampaign.first fun c _ => tidy_requireCampaignOwner.first fun _ _ =>
    upholds_raiseIf_bind fun _ => ?_
  have hpatch : Safe Kept n (patchCampaign id payload c) := by
    refine safe_modifyCampaign (fun _ => rfl) (fun d hd => hp.set hd) fun d hd => ?_
    exact PatchField.set_cases (P := fun k : Nat => k ≤ 100)
      (fun _ ha => within_le (PatchField.of_all hp.targetTesters ha)) hd
  refine upholds_add_bind hpatch ?_
  exact tidy_event_bind (by decide) (by decide) (upholds_flush_bind (upholds_pure trivial))

/-! ## Contracts and publication -/

theorem tidy_addTasks {contractId : Uuid} {position : Nat} {tasks : List ContractTaskInput}
    (h : ∀ t ∈ tasks, t.title.length ≤ 160) :
    Tidy n (addTasks contractId position tasks) fun _ _ => True := by
  induction tasks generalizing n position with
  | nil => exact upholds_pure trivial
  | cons task tasks ih =>
      refine upholds_uuid4_bind fun _ => ?_
      have htask : (task.task contractId position).Fits := h task List.mem_cons_self
      refine upholds_add_bind (safe_insertContractTask htask) ?_
      exact ih fun t ht => h t (List.mem_cons_of_mem _ ht)

theorem tidy_saveContract {payload : ContractUpsert} {existing : Option (Uuid × TestingContract)} :
    Tidy n (saveContract id payload existing) fun _ _ => True := by
  match existing with
  | none =>
      refine upholds_uuid4_bind fun _ => ?_
      refine upholds_add_bind (safe_other fun _ => ⟨_, _, _, _, _, rfl⟩) ?_
      exact upholds_flush_bind (upholds_pure trivial)
  | some (contractId, contract) =>
      refine upholds_raiseIf_bind fun _ => ?_
      refine upholds_add_bind (safe_other fun _ => ⟨_, _, _, _, _, rfl⟩) ?_
      refine upholds_queryForUpdate_bind fun _ _ => ?_
      exact upholds_execute_bind safe_deleteContractTasks (upholds_pure trivial)

theorem tidy_upsertContract {payload : ContractUpsert}
    (h : ∀ t ∈ payload.tasks, t.title.length ≤ 160) :
    Tidy n (upsertContract id userId payload) fun _ _ => True := by
  refine tidy_getCampaign.first fun _ _ => tidy_requireCampaignOwner.first fun _ _ =>
    upholds_raiseIf_bind fun _ => upholds_query_bind fun _ _ => ?_
  refine tidy_saveContract.bind fun _ contract _ _ => (tidy_addTasks h).bind fun _ _ _ _ => ?_
  exact tidy_event_bind (by decide) (by decide) (upholds_flush_bind (upholds_pure trivial))

theorem tidy_publishCampaign : Tidy n (publishCampaign id userId) fun _ _ => True := by
  refine tidy_selectForUpdate_bind fun db hdb => upholds_orRaise_bind fun c hc =>
    tidy_requireCampaignOwner.first fun _ _ => ?_
  have hstored : Stored c id := hdb.stored hc
  split
  · exact upholds_pure trivial
  refine upholds_raiseIf_bind fun _ => tidy_getContract.first fun contract _ =>
    upholds_raiseIf_bind fun _ => ?_
  have hentry : (postingEntry id c userId).Fits := by
    have hkey : (idempotencyKey "campaign" id "posting").length ≤ 200 :=
      key_fits hstored.id (by decide) (by decide)
    refine ⟨fun s hs => ?_, fun s hs => ?_, hkey⟩
    · rw [← Option.some.inj hs]
      decide
    · rw [← Option.some.inj hs]
      exact posting_fits hstored.fits hstored.target
  refine (tidy_recordCreditEntry hentry).bind fun _ _ _ _ => upholds_utcnow_bind fun now => ?_
  refine upholds_add_bind (safe_moveCampaign fun _ => ⟨_, _, rfl⟩) ?_
  refine upholds_add_bind (safe_other fun _ => ⟨_, _, _, _, _, rfl⟩) ?_
  exact tidy_event_bind (by decide) (by decide) (upholds_flush_bind (upholds_pure trivial))

theorem tidy_launchCampaign {payload : CampaignLaunch} (hc : payload.campaign.Bounded)
    (ht : ∀ t ∈ payload.contract.tasks, t.title.length ≤ 160) :
    Tidy n (launchCampaign userId payload) fun _ _ => True :=
  (tidy_createCampaign hc).bind fun _ _ _ _ => (tidy_upsertContract ht).bind fun _ _ _ _ =>
    tidy_publishCampaign

/-! ## Recruitment and assignments -/

/-- A notification about a campaign: the title is made of its name. -/
theorem campaign_notification_fits {c : Campaign} (hc : c.Fits) {recipient entityId : Uuid}
    {kind lead body entityType key : String} (hkind : kind.length ≤ 80) (hlead : lead.length ≤ 40)
    (hbody : body.length ≤ 500) (htype : entityType.length ≤ 80) (hkey : key.length ≤ 200) :
    Notification.Fits
      { userId := recipient, kind := kind, title := toString lead ++ toString c.name, body := body
        entityType := entityType, entityId := entityId, idempotencyKey := key } :=
  ⟨hkind, title_fits hc hlead, hbody, htype, hkey⟩

theorem tidy_declinePending {c : Campaign} (hc : c.Fits) {now : Time}
    {pending : List (Uuid × Assignment)} (hids : ∀ r ∈ pending, r.1 < uuidBound) :
    Tidy n (declinePending c userId now pending) fun _ _ => True := by
  induction pending generalizing n with
  | nil => exact upholds_pure trivial
  | cons r rest ih =>
      refine upholds_add_bind (safe_writeAssignment fun _ => rfl) ?_
      refine tidy_event_bind (by decide) (by decide) ?_
      have hkey : (idempotencyKey "assignment" r.1 "recruitment-closed-notification").length ≤ 200 :=
        key_fits (hids r List.mem_cons_self) (by decide) (by decide)
      refine (tidy_addNotification (campaign_notification_fits hc (by decide) (by decide)
        (by decide) (by decide) hkey)).bind fun _ _ _ _ => ?_
      exact ih fun q hq => hids q (List.mem_cons_of_mem _ hq)

theorem tidy_performTransition {c : Campaign} (hc : c.Fits) {action : TransitionAction} :
    Tidy n (performTransition id c userId action) fun _ _ => True := by
  cases action with
  | pause =>
      refine upholds_raiseIf_bind fun _ => ?_
      exact upholds_add_bind (safe_moveCampaign fun _ => ⟨_, _, rfl⟩) (upholds_pure trivial)
  | resume =>
      refine upholds_raiseIf_bind fun _ => upholds_query_bind fun _ _ =>
        upholds_raiseIf_bind fun _ => ?_
      exact upholds_add_bind (safe_moveCampaign fun _ => ⟨_, _, rfl⟩) (upholds_pure trivial)
  | close =>
      refine upholds_raiseIf_bind fun _ => ?_
      refine upholds_add_bind (safe_moveCampaign fun _ => ⟨_, _, rfl⟩) ?_
      refine upholds_queryForUpdate_bind fun db hdb => upholds_utcnow_bind fun now => ?_
      refine (tidy_declinePending hc fun r hr => ?_).bind fun _ _ _ _ => upholds_pure trivial
      obtain ⟨ha, -⟩ := Table.mem_where'.mp hr
      exact hdb.assignment_lt ha

theorem tidy_completeIfClosed {c : Campaign} {action : TransitionAction} :
    Tidy n (completeIfClosed id c userId action) fun k _ => k = n ∧ True := by
  unfold completeIfClosed
  split
  · exact tidy_maybeCompleteCampaign
  · exact upholds_pure ⟨rfl, trivial⟩

theorem tidy_transitionCampaign {action : TransitionAction} :
    Tidy n (transitionCampaign id userId action) fun _ _ => True := by
  refine tidy_selectForUpdate_bind fun db hdb => upholds_orRaise_bind fun c hc =>
    tidy_requireCampaignOwner.first fun _ _ => ?_
  refine (tidy_performTransition (hdb.stored hc).fits).bind fun _ status _ _ => ?_
  have haction : action.auditAction.length ≤ 120 := by cases action <;> decide
  refine tidy_event_bind haction (by decide) ?_
  exact tidy_completeIfClosed.first fun _ _ => upholds_flush_bind (upholds_pure trivial)

theorem tidy_applyToCampaign {payload : AssignmentApply}
    (h : ∀ s ∈ payload.applicationNote, s.length ≤ 1000) :
    Tidy n (applyToCampaign id userId payload) fun _ _ => True := by
  refine tidy_getProfile.first fun _ _ => tidy_selectForUpdate_bind fun db hdb =>
    upholds_orRaise_bind fun c hc => upholds_raiseIf_bind fun _ => upholds_raiseIf_bind fun _ =>
    upholds_query_bind fun _ _ => upholds_raiseIf_bind fun _ => upholds_query_bind fun _ _ =>
    upholds_raiseIf_bind fun _ => upholds_uuid4_bind fun hdrawn => ?_
  refine upholds_add_bind (safe_insertAssignment (Nat.lt_succ_self n) h) (upholds_flush_bind ?_)
  refine tidy_event_bind (by decide) (by decide) (tidy_testerDisplayName.first fun name hname => ?_)
  have hkey : (idempotencyKey "assignment" n "application-notification").length ≤ 200 :=
    key_fits hdrawn (by decide) (by decide)
  refine (tidy_addNotification (campaign_notification_fits (hdb.stored hc).fits (by decide)
    (by decide) (body_fits hname (by decide)) (by decide) hkey)).bind fun _ _ _ _ => ?_
  exact upholds_pure trivial

theorem tidy_acceptAssignment : Tidy n (acceptAssignment id userId) fun _ _ => True := by
  refine upholds_query_bind fun _ _ => upholds_orRaise_bind fun campaignId _ =>
    tidy_selectForUpdate_bind fun db hdb => upholds_orRaise_bind fun c hc =>
    tidy_requireCampaignOwner.first fun _ _ => upholds_raiseIf_bind fun _ =>
    tidy_selectForUpdate_bind fun db' hdb' => upholds_orRaise_bind fun a ha =>
    upholds_raiseIf_bind fun _ => upholds_query_bind fun _ _ => upholds_raiseIf_bind fun _ =>
    upholds_utcnow_bind fun now => ?_
  refine upholds_add_bind (safe_writeAssignment fun _ => rfl) ?_
  refine tidy_event_bind (by decide) (by decide) ?_
  have hkey : (idempotencyKey "assignment" id "accepted-notification").length ≤ 200 :=
    key_fits (hdb'.assignment_lt ha) (by decide) (by decide)
  refine (tidy_addNotification (campaign_notification_fits (hdb.stored hc).fits (by decide)
    (by decide) (by decide) (by decide) hkey)).bind fun _ _ _ _ => ?_
  exact upholds_flush_bind (upholds_pure trivial)

theorem tidy_declineAssignment : Tidy n (declineAssignment id userId) fun _ _ => True := by
  refine tidy_selectForUpdate_bind fun db hdb => upholds_orRaise_bind fun a ha =>
    tidy_getCampaign.first fun c hc => tidy_requireCampaignOwner.first fun _ _ =>
    upholds_raiseIf_bind fun _ => upholds_utcnow_bind fun now => ?_
  refine upholds_add_bind (safe_writeAssignment fun _ => rfl) ?_
  refine tidy_event_bind (by decide) (by decide) ?_
  have hkey : (idempotencyKey "assignment" id "declined-notification").length ≤ 200 :=
    key_fits (hdb.assignment_lt ha) (by decide) (by decide)
  refine (tidy_addNotification (campaign_notification_fits hc.fits (by decide) (by decide)
    (by decide) (by decide) hkey)).bind fun _ _ _ _ => ?_
  exact upholds_flush_bind (upholds_pure trivial)

theorem tidy_withdrawAssignment : Tidy n (withdrawAssignment id userId) fun _ _ => True := by
  refine tidy_selectForUpdate_bind fun db hdb => upholds_orRaise_bind fun a ha =>
    upholds_raiseIf_bind fun _ => upholds_raiseIf_bind fun _ =>
    tidy_selectForUpdate_bind fun db' hdb' => upholds_orRaise_bind fun c hc =>
    upholds_utcnow_bind fun now => ?_
  refine upholds_add_bind (safe_writeAssignment fun _ => rfl) ?_
  refine tidy_event_bind (by decide) (by decide) (tidy_testerDisplayName.first fun name hname => ?_)
  have hkey : (idempotencyKey "assignment" id "withdrawn-notification").length ≤ 200 :=
    key_fits (hdb.assignment_lt ha) (by decide) (by decide)
  refine (tidy_addNotification (campaign_notification_fits (hdb'.stored hc).fits (by decide)
    (by decide) (body_fits hname (by decide)) (by decide) hkey)).bind fun _ _ _ _ => ?_
  exact tidy_maybeCompleteCampaign.first fun _ _ => upholds_flush_bind (upholds_pure trivial)

/-! ## Testing -/

theorem tidy_startAssignment : Tidy n (startAssignment id userId) fun _ _ => True := by
  refine tidy_getAssignment.first fun a _ => upholds_raiseIf_bind fun _ =>
    upholds_raiseIf_bind fun _ => upholds_utcnow_bind fun now => ?_
  refine upholds_add_bind (safe_writeAssignment fun _ => rfl) (upholds_uuid4_bind fun _ => ?_)
  refine upholds_add_bind (safe_insertTestingSession fun s hs => ?_) ?_
  · rw [← Option.some.inj hs]
    decide
  · exact tidy_event_bind (by decide) (by decide) (upholds_flush_bind (upholds_pure trivial))

theorem tidy_recordTestingSession {payload : TestingSessionCreate}
    (h : ∀ s ∈ payload.note, s.length ≤ 1000) :
    Tidy n (recordTestingSession id userId payload) fun _ _ => True := by
  refine tidy_selectForUpdate_bind fun _ _ => upholds_orRaise_bind fun _ _ =>
    upholds_raiseIf_bind fun _ => upholds_raiseIf_bind fun _ => upholds_utcnow_bind fun now =>
    upholds_query_bind fun _ _ => upholds_raiseIf_bind fun _ => upholds_uuid4_bind fun _ => ?_
  refine upholds_add_bind (safe_insertTestingSession h) (upholds_flush_bind ?_)
  exact tidy_event_bind (by decide) (by decide) (upholds_pure trivial)

theorem tidy_validateStorageKey {storageKey : String} :
    Tidy n (validateStorageKey id storageKey) fun k _ => k = n ∧ True :=
  upholds_raiseIf fun _ => ⟨rfl, trivial⟩

theorem tidy_checkItems {items : List EvidenceItemCreate} :
    Tidy n (checkItems id items) fun k _ => k = n ∧ True := by
  induction items with
  | nil => exact upholds_pure ⟨rfl, trivial⟩
  | cons item items ih =>
      refine upholds_raiseIf_bind fun _ => ?_
      cases item.storageKey with
      | none => exact ih
      | some storageKey => exact tidy_validateStorageKey.first fun _ _ => ih

/-- What the submitted item stores fits. -/
structure EvidenceItemCreate.Fits (item : EvidenceItemCreate) : Prop where
  storageKey : ∀ s ∈ item.storageKey, s.length ≤ 500
  externalUrl : ∀ url ∈ item.externalUrl, url.str.length ≤ 1000

theorem tidy_addItems {submissionId : Uuid} {items : List EvidenceItemCreate}
    (h : ∀ item ∈ items, item.Fits) : Tidy n (addItems submissionId items) fun _ _ => True := by
  induction items generalizing n with
  | nil => exact upholds_pure trivial
  | cons item items ih =>
      refine upholds_uuid4_bind fun _ => ?_
      have hitem : (item.item submissionId).Fits :=
        ⟨(h item List.mem_cons_self).storageKey,
          Option.forall_mem_map.mpr (h item List.mem_cons_self).externalUrl⟩
      refine upholds_add_bind (safe_insertEvidenceItem hitem) ?_
      exact ih fun i hi => h i (List.mem_cons_of_mem _ hi)

/-- The latest version is the version of some submission, or `0`. -/
theorem Kept.latestVersion_le {db : Db} (h : Kept n db) : db.latestVersion id ≤ n := by
  have hfold : ∀ (l : List (Uuid × EvidenceSubmission)) (v : Nat), v ≤ n →
      (∀ e ∈ l, e.2.version ≤ n) → l.foldl (fun v e => max v e.2.version) v ≤ n := by
    intro l
    induction l with
    | nil => exact fun v hv _ => hv
    | cons e l ih =>
        intro v hv hl
        have he : e.2.version ≤ n := hl e List.mem_cons_self
        exact ih _ (Nat.max_le.mpr ⟨hv, he⟩) fun f hf => hl f (List.mem_cons_of_mem _ hf)
  refine hfold _ 0 (Nat.zero_le n) fun e he => ?_
  obtain ⟨hget, -⟩ := Table.mem_where'.mp he
  exact h.versions e.1 e.2 hget

theorem tidy_createSubmission {payload : SubmissionCreate} (h : ∀ item ∈ payload.items, item.Fits) :
    Tidy n (createSubmission id userId payload) fun _ _ => True := by
  refine tidy_selectForUpdate_bind fun _ _ => upholds_orRaise_bind fun a _ =>
    upholds_raiseIf_bind fun _ => upholds_raiseIf_bind fun _ =>
    tidy_contractForAssignment.first fun contract _ => upholds_utcnow_bind fun now =>
    upholds_orRaise_bind fun startedAt _ => upholds_raiseIf_bind fun _ =>
    upholds_query_bind fun _ _ => upholds_raiseIf_bind fun _ => upholds_raiseIf_bind fun _ =>
    upholds_raiseIf_bind fun _ => tidy_checkItems.first fun _ _ => ?_
  refine upholds_query_bind fun db hdb => upholds_uuid4_bind fun hdrawn =>
    upholds_utcnow_bind fun insertedAt => ?_
  have hversion : db.latestVersion id + 1 ≤ n + 1 := Nat.succ_le_succ hdb.latestVersion_le
  refine upholds_add_bind (safe_insertEvidenceSubmission hversion) (upholds_flush_bind ?_)
  refine (tidy_addItems h).bind fun _ _ _ _ => upholds_utcnow_bind fun submittedAt => ?_
  refine upholds_add_bind (safe_writeAssignment fun _ => rfl) ?_
  refine tidy_event_bind (by decide) (by decide) ?_
  refine tidy_getCampaign.first fun c hc => tidy_testerDisplayName.first fun name hname => ?_
  have hkey : (idempotencyKey "submission" n "owner-notification").length ≤ 200 :=
    key_fits hdrawn (by decide) (by decide)
  have hbody := version_fits hname (Nat.le_trans hversion hdrawn)
  refine (tidy_addNotification (campaign_notification_fits hc.fits (by decide) (by decide)
    hbody (by decide) hkey)).bind fun _ _ _ _ => ?_
  exact upholds_flush_bind (upholds_pure trivial)

/-! ## Reviews, messages, disputes -/

theorem reward_fits {a : Assignment} {c : Campaign} {note : String} (hid : id < uuidBound)
    (hnote : note.length ≤ 500) : (rewardEntry id a c note userId).Fits := by
  have hkey : (idempotencyKey "assignment" id "reward").length ≤ 200 :=
    key_fits hid (by decide) (by decide)
  refine ⟨fun s hs => ?_, fun s hs => ?_, hkey⟩
  · rw [← Option.some.inj hs]
    decide
  · rw [← Option.some.inj hs]
    exact hnote

/-- The note on a reward names the campaign. -/
theorem note_fits {lead : String} {c : Campaign} (hc : c.Fits) (hlead : lead.length ≤ 40) :
    (toString lead ++ toString c.name).length ≤ 500 :=
  Nat.le_trans (title_fits hc hlead) (by omega)

theorem tidy_applyDecision {submissionId : Uuid} {a : Assignment} {c : Campaign}
    {decision : ReviewDecision} (hid : id < uuidBound) (hc : c.Fits) :
    Tidy n (applyDecision submissionId id a c userId decision) fun _ _ => True := by
  cases decision with
  | approved =>
      refine upholds_utcnow_bind fun now => ?_
      refine upholds_add_bind (safe_writeEvidenceSubmission fun _ => rfl) ?_
      refine upholds_add_bind (safe_writeAssignment fun _ => rfl) ?_
      refine (tidy_recordCreditEntry (reward_fits hid (note_fits hc (by decide)))).bind
        fun _ _ _ _ => upholds_flush_bind ?_
      exact tidy_maybeCompleteCampaign.first fun _ _ => upholds_pure trivial
  | changesRequested =>
      refine upholds_add_bind (safe_writeEvidenceSubmission fun _ => rfl) ?_
      exact upholds_add (safe_writeAssignment fun _ => rfl) trivial
  | rejected =>
      refine upholds_add_bind (safe_writeEvidenceSubmission fun _ => rfl) ?_
      exact upholds_add (safe_writeAssignment fun _ => rfl) trivial

theorem review_notification_fits {c : Campaign} (hc : c.Fits) {recipient entityId : Uuid}
    {decision : ReviewDecision} {notes key : String} (hkey : key.length ≤ 200) :
    Notification.Fits
      { userId := recipient, kind := "submission_reviewed"
        title := s!"Your {c.name} submission was {spaced decision.value}"
        body := firstChars 500 notes, entityType := "submission", entityId := entityId
        idempotencyKey := key } := by
  have hkind : "submission_reviewed".length ≤ 80 := by decide
  have htype : "submission".length ≤ 80 := by decide
  exact ⟨hkind, reviewed_fits hc decision, firstChars_fits, htype, hkey⟩

theorem tidy_createReview {payload : ReviewCreate} :
    Tidy n (createReview id userId payload) fun _ _ => True := by
  refine upholds_query_bind fun _ _ => upholds_orRaise_bind fun assignmentId _ =>
    tidy_selectForUpdate_bind fun db hdb => upholds_orRaise_bind fun a ha =>
    tidy_selectForUpdate_bind fun _ _ => upholds_orRaise_bind fun _ _ =>
    tidy_selectForUpdate_bind fun db' hdb' => upholds_orRaise_bind fun c hc =>
    tidy_requireCampaignOwner.first fun _ _ => upholds_query_bind fun _ _ =>
    upholds_raiseIf_bind fun _ => upholds_raiseIf_bind fun _ => upholds_raiseIf_bind fun _ =>
    upholds_uuid4_bind fun hdrawn => ?_
  have hstored : Stored c a.campaignId := hdb'.stored hc
  refine upholds_add_bind (safe_other fun _ => ⟨_, _, _, _, _, rfl⟩) (upholds_flush_bind ?_)
  refine (tidy_applyDecision (hdb.assignment_lt ha) hstored.fits).bind fun _ _ _ _ => ?_
  have haction : payload.decision.auditAction.length ≤ 120 := by cases payload.decision <;> decide
  refine tidy_event_bind haction (by decide) ?_
  have hkey : (idempotencyKey "review" n "tester-notification").length ≤ 200 :=
    key_fits hdrawn (by decide) (by decide)
  refine (tidy_addNotification (review_notification_fits hstored.fits hkey)).bind
    fun _ _ _ _ => ?_
  exact upholds_flush_bind (upholds_pure trivial)

theorem tidy_addMessage {payload : MessageCreate} (h : payload.body.length ≤ 4000) :
    Tidy n (addMessage id userId payload) fun _ _ => True := by
  refine tidy_getAssignment.first fun a _ => tidy_requireAssignmentParticipant.first fun _ _ =>
    upholds_uuid4_bind fun hdrawn => ?_
  refine upholds_add_bind (safe_insertMessage h) (upholds_flush_bind ?_)
  refine tidy_event_bind (by decide) (by decide) (tidy_getCampaign.first fun c hc => ?_)
  have hkey : (idempotencyKey "message" n "recipient-notification").length ≤ 200 :=
    key_fits hdrawn (by decide) (by decide)
  refine (tidy_addNotification (campaign_notification_fits hc.fits (by decide) (by decide)
    firstChars_fits (by decide) hkey)).bind fun _ _ _ _ => ?_
  exact upholds_pure trivial

theorem tidy_checkEscalation {a : Assignment} {e : EvidenceSubmission} :
    Tidy n (checkEscalation a e) fun k _ => k = n ∧ True := by
  unfold checkEscalation
  split
  · exact upholds_raiseIf_bind fun _ => tidy_contractForAssignment.first fun _ _ =>
      upholds_utcnow_bind fun _ => upholds_raiseIf fun _ => ⟨rfl, trivial⟩
  · exact upholds_raiseIf fun _ => ⟨rfl, trivial⟩

theorem tidy_openDispute {payload : DisputeCreate} :
    Tidy n (openDispute id userId payload) fun _ _ => True := by
  refine tidy_selectForUpdate_bind fun _ _ => upholds_orRaise_bind fun a _ =>
    tidy_requireAssignmentParticipant.first fun _ _ => upholds_raiseIf_bind fun _ =>
    upholds_raiseIf_bind fun _ => upholds_orRaise_bind fun submissionId _ =>
    upholds_query_bind fun _ _ => upholds_orRaise_bind fun e _ => upholds_raiseIf_bind fun _ =>
    tidy_checkEscalation.first fun _ _ => upholds_query_bind fun _ _ =>
    upholds_raiseIf_bind fun _ => upholds_uuid4_bind fun hdrawn => ?_
  refine upholds_add_bind (safe_insertDispute (Nat.lt_succ_self n)) (upholds_flush_bind ?_)
  refine tidy_event_bind (by decide) (by decide) (tidy_getCampaign.first fun c hc => ?_)
  have hkey : (idempotencyKey "dispute" n "owner-notification").length ≤ 200 :=
    key_fits hdrawn (by decide) (by decide)
  refine (tidy_addNotification (campaign_notification_fits hc.fits (by decide) (by decide)
    firstChars_fits (by decide) hkey)).bind fun _ _ _ _ => ?_
  exact upholds_pure trivial

/-! ## Moderation -/

theorem tidy_claimDispute : Tidy n (claimDispute id userId) fun _ _ => True := by
  refine tidy_selectForUpdate_bind fun _ _ => upholds_orRaise_bind fun d _ => ?_
  split
  · exact upholds_raiseIf_bind fun _ => upholds_pure trivial
  · refine upholds_raiseIf_bind fun _ => upholds_utcnow_bind fun now => ?_
    refine upholds_add_bind safe_writeDispute ?_
    exact tidy_event_bind (by decide) (by decide) (upholds_flush_bind (upholds_pure trivial))

theorem tidy_disputedSubmission {submission : Option EvidenceSubmission} :
    Tidy n (disputedSubmission id submission) fun k _ => k = n ∧ True :=
  upholds_orRaise_bind fun _ _ => upholds_raiseIf_bind fun _ => upholds_pure ⟨rfl, trivial⟩

theorem tidy_rejectOverdue {d : Dispute} {payload : DisputeResolve} :
    Tidy n (rejectOverdue d payload) fun _ _ => True := by
  refine upholds_raiseIf_bind fun _ => upholds_orRaise_bind fun submissionId _ =>
    upholds_query_bind fun _ _ => tidy_disputedSubmission.first fun _ _ =>
    upholds_utcnow_bind fun now => ?_
  refine upholds_add_bind (safe_writeEvidenceSubmission fun _ => rfl) ?_
  exact upholds_add (safe_writeAssignment fun _ => rfl) trivial

theorem tidy_awardTester {d : Dispute} {a : Assignment} (hid : d.assignmentId < uuidBound) :
    Tidy n (awardTester d a userId) fun _ _ => True := by
  refine upholds_orRaise_bind fun submissionId _ => upholds_raiseIf_bind fun _ =>
    tidy_selectForUpdate_bind fun _ _ => tidy_disputedSubmission.first fun _ _ =>
    tidy_selectForUpdate_bind fun db hdb => upholds_orRaise_bind fun c hc =>
    upholds_utcnow_bind fun now => ?_
  refine upholds_add_bind (safe_writeEvidenceSubmission fun _ => rfl) ?_
  refine upholds_add_bind (safe_writeAssignment fun _ => rfl) ?_
  have hnote : s!"Moderator-approved test for {c.name}".length ≤ 500 :=
    note_fits (hdb.stored hc).fits (by decide)
  refine (tidy_recordCreditEntry (reward_fits hid hnote)).bind
    fun _ _ _ _ => upholds_flush_bind ?_
  exact tidy_maybeCompleteCampaign.first fun _ _ => upholds_pure trivial

theorem tidy_applyRemedy {d : Dispute} {a : Assignment} {payload : DisputeResolve}
    (hid : d.assignmentId < uuidBound) :
    Tidy n (applyRemedy d a userId payload) fun _ _ => True := by
  unfold applyRemedy
  split
  · exact tidy_awardTester hid
  · split
    · exact tidy_rejectOverdue
    · exact upholds_pure trivial

theorem resolution_fits {c : Campaign} (hc : c.Fits) (hid : id < uuidBound)
    {payload : DisputeResolve} {recipient : Uuid} {audience : String}
    (haudience : audience.length ≤ 10) :
    (resolutionNotification id c payload recipient audience).Fits := by
  refine campaign_notification_fits hc (by decide) (by decide) firstChars_fits (by decide) ?_
  refine key_fits hid (by decide) ?_
  have hrest : "-resolution-notification".length = 24 := by decide
  have hsame : ∀ t : String, toString t = t := fun _ => rfl
  simp only [String.length_append, hsame]
  omega

theorem tidy_resolveDispute {payload : DisputeResolve} :
    Tidy n (resolveDispute id userId payload) fun _ _ => True := by
  refine tidy_selectForUpdate_bind fun db hdb => upholds_orRaise_bind fun d hd =>
    upholds_raiseIf_bind fun _ => upholds_raiseIf_bind fun _ =>
    tidy_selectForUpdate_bind fun db' hdb' => upholds_orRaise_bind fun a ha => ?_
  have hid : id < uuidBound := Nat.lt_of_lt_of_le (hdb.disputeIds id d hd) hdb.bounded
  refine (tidy_applyRemedy (hdb'.assignment_lt ha)).bind fun _ _ _ _ =>
    upholds_utcnow_bind fun now => upholds_add_bind safe_writeDispute ?_
  have haction : payload.outcome.auditAction.length ≤ 120 := by cases payload.outcome <;> decide
  refine tidy_event_bind haction (by decide) (tidy_getCampaign.first fun c hc => ?_)
  refine (tidy_addNotification (resolution_fits hc.fits hid (by decide))).bind fun _ _ _ _ => ?_
  refine (tidy_addNotification (resolution_fits hc.fits hid (by decide))).bind fun _ _ _ _ => ?_
  exact upholds_flush_bind (upholds_pure trivial)

theorem tidy_signStorageEvidence {storageKey : String} {answer : SigningAnswer} :
    Tidy n (signStorageEvidence settings storageKey answer) fun k _ => k = n ∧ True := by
  unfold signStorageEvidence
  split
  · exact upholds_orRaise_bind fun _ _ => upholds_raiseIf_bind fun _ =>
      upholds_pure ⟨rfl, trivial⟩
  · exact upholds_raise

theorem tidy_moderatorEvidenceUrl {evidenceId : Uuid} {answer : SigningAnswer} :
    Tidy n (moderatorEvidenceUrl settings id evidenceId userId answer) fun _ _ => True := by
  refine upholds_query_bind fun _ _ => upholds_query_bind fun _ _ => upholds_query_bind fun _ _ =>
    upholds_orRaise_bind fun _ _ => upholds_orRaise_bind fun _ _ => upholds_orRaise_bind fun _ _ =>
    upholds_raiseIf_bind fun _ => upholds_orRaise_bind fun _ _ =>
    tidy_validateStorageKey.first fun _ _ => tidy_signStorageEvidence.first fun _ _ => ?_
  exact tidy_event_bind (by decide) (by decide) (upholds_flush_bind (upholds_pure trivial))

theorem tidy_markNotificationRead : Tidy n (markNotificationRead id userId) fun _ _ => True := by
  refine tidy_selectForUpdate_bind fun _ _ => upholds_orRaise_bind fun m _ =>
    upholds_raiseIf_bind fun _ => ?_
  split
  · exact upholds_pure trivial
  · refine upholds_utcnow_bind fun now => ?_
    exact upholds_add_bind safe_writeNotification (upholds_flush_bind (upholds_pure trivial))

theorem tidy_markAllNotificationsRead :
    Tidy n (markAllNotificationsRead userId) fun _ _ => True :=
  upholds_utcnow_bind fun _ => upholds_queryForUpdate_bind fun _ _ =>
    upholds_execute safe_writeNotificationsRead trivial

end Services

/-! ## Requests -/

/-- The strings the schemas let through without regard to their columns fit them. -/
def Request.Short (user : CurrentUser) : Request → Prop
  | .saveProfile payload =>
      (∀ s ∈ user.email, s.length ≤ 320)
        ∧ ∀ q ∈ payload.parse, ∀ url ∈ q.avatarUrl, url.str.length ≤ 500
  | .submit _ payload =>
      ∀ q ∈ payload.parse, ∀ item ∈ q.items, ∀ url ∈ item.externalUrl, url.str.length ≤ 1000
  | _ => True

instance (user : CurrentUser) (request : Request) : Decidable (request.Short user) :=
  match request with
  | .saveProfile payload =>
      inferInstanceAs (Decidable ((∀ s ∈ user.email, s.length ≤ 320)
        ∧ ∀ q ∈ payload.parse, ∀ url ∈ q.avatarUrl, url.str.length ≤ 500))
  | .submit _ payload =>
      inferInstanceAs (Decidable
        (∀ q ∈ payload.parse, ∀ item ∈ q.items, ∀ url ∈ item.externalUrl, url.str.length ≤ 1000))
  | .waitlist _ | .balance | .createCampaign _ | .launchCampaign _ | .updateCampaign _ _
  | .saveContract _ _ | .publishCampaign _ | .transitionCampaign _ _ | .apply _ _ | .accept _
  | .decline _ | .withdraw _ | .start _ | .recordSession _ _ | .review _ _ | .message _ _
  | .openDispute _ _ | .claimDispute _ | .resolveDispute _ _ | .evidenceUrl _ _ _
  | .suspend _ _ | .restore _ | .readNotification _ | .readAllNotifications =>
      inferInstanceAs (Decidable True)

section Requests

variable {n : Nat} {settings : Settings} {user : CurrentUser}

theorem tidy_getActiveUser : Tidy n (getActiveUser user) fun k _ => k = n ∧ True :=
  upholds_query_bind fun _ _ => upholds_raiseIf fun _ => ⟨rfl, trivial⟩

theorem tidy_getModerator : Tidy n (getModerator settings user) fun k _ => k = n ∧ True :=
  tidy_getActiveUser.first fun _ _ => upholds_raiseIf fun _ => ⟨rfl, trivial⟩

theorem tidy_discard {α : Type} {m : Session α} (h : Tidy n m fun _ _ => True) :
    Tidy n (discard m) fun _ _ => True := h.bind fun _ _ _ _ => upholds_pure trivial

theorem tidy_active {α : Type} {m : Session α} (h : Tidy n m fun _ _ => True) :
    Tidy n (getActiveUser user >>= fun _ => discard m) fun _ _ => True :=
  tidy_getActiveUser.first fun _ _ => tidy_discard h

theorem tidy_validated {β : Type} {o : Option β} {f : β → Session Unit}
    (h : ∀ q, o = some q → Tidy n (f q) fun _ _ => True) :
    Tidy n (getActiveUser user >>= fun _ => validated o >>= f) fun _ _ => True :=
  tidy_getActiveUser.first fun _ _ => upholds_orRaise_bind h

theorem tidy_activeBody {α β : Type} {o : Option β} {m : β → Session α}
    (h : ∀ q, o = some q → Tidy n (m q) fun _ _ => True) :
    Tidy n (getActiveUser user >>= fun _ => validated o >>= fun q => discard (m q))
      fun _ _ => True :=
  tidy_validated fun q hq => tidy_discard (h q hq)

theorem tidy_moderator {α : Type} {m : Session α} (h : Tidy n m fun _ _ => True) :
    Tidy n (getModerator settings user >>= fun _ => discard m) fun _ _ => True :=
  tidy_getModerator.first fun _ _ => tidy_discard h

theorem tidy_moderatorBody {α β : Type} {o : Option β} {m : β → Session α}
    (h : ∀ q, o = some q → Tidy n (m q) fun _ _ => True) :
    Tidy n (getModerator settings user >>= fun _ => validated o >>= fun q => discard (m q))
      fun _ _ => True :=
  tidy_getModerator.first fun _ _ => upholds_orRaise_bind fun q hq => tidy_discard (h q hq)

theorem EvidenceItemCreate.Fits.of_ok {item : EvidenceItemCreate} (hok : item.ok = true)
    (hshort : ∀ url ∈ item.externalUrl, url.str.length ≤ 1000) : item.Fits := by
  unfold EvidenceItemCreate.ok at hok
  rw [Bool.and_eq_true, Bool.and_eq_true] at hok
  exact ⟨optionalWithin_le hok.1.1, hshort⟩

/-- **A request writes what fits**, if what its schema does not bound is short. -/
theorem handle_tidy (huser : user.id < uuidBound) {request : Request}
    (hshort : request.Short user) : Tidy n (handle settings user request) fun _ _ => True := by
  cases request with
  | saveProfile payload =>
      refine tidy_activeBody fun q hq => tidy_upsertProfile huser ?_
      obtain ⟨husername, hdisplay, hbio⟩ := ProfileUpsert.parse_bounded hq
      exact ⟨hshort.1, husername, hdisplay, hbio, Option.forall_mem_map.mpr (hshort.2 q hq),
        fun s hs => by cases hs⟩
  | waitlist payload =>
      exact upholds_orRaise_bind fun _ _ => tidy_discard tidy_joinWaitlist
  | balance => exact tidy_active tidy_creditBalance
  | createCampaign payload =>
      exact tidy_activeBody fun _ hq => tidy_createCampaign (CampaignCreate.parse_bounded hq)
  | launchCampaign payload =>
      refine tidy_activeBody fun q hq => ?_
      obtain ⟨hcampaign, htasks⟩ := CampaignLaunch.parse_bounded hq
      exact tidy_launchCampaign hcampaign htasks
  | updateCampaign id payload =>
      exact tidy_activeBody fun _ hq => tidy_updateCampaign (CampaignUpdate.parse_bounded hq)
  | saveContract id payload =>
      refine tidy_validated fun q hq => ?_
      refine (tidy_upsertContract (ContractUpsert.parse_bounded hq)).bind fun _ _ _ _ => ?_
      exact tidy_getContract.first fun _ _ => upholds_pure trivial
  | publishCampaign id => exact tidy_active tidy_publishCampaign
  | transitionCampaign id action => exact tidy_active tidy_transitionCampaign
  | apply id payload =>
      exact tidy_activeBody fun _ hq => tidy_applyToCampaign (AssignmentApply.parse_bounded hq)
  | accept id => exact tidy_active tidy_acceptAssignment
  | decline id => exact tidy_active tidy_declineAssignment
  | withdraw id => exact tidy_active tidy_withdrawAssignment
  | start id => exact tidy_active tidy_startAssignment
  | recordSession id payload =>
      exact tidy_activeBody fun _ hq =>
        tidy_recordTestingSession (TestingSessionCreate.parse_bounded hq)
  | submit id payload =>
      refine tidy_activeBody fun q hq => tidy_createSubmission fun item hitem => ?_
      exact .of_ok (SubmissionCreate.parse_items hq item hitem) (hshort q hq item hitem)
  | review id payload => exact tidy_activeBody fun _ _ => tidy_createReview
  | message id payload =>
      exact tidy_activeBody fun _ hq => tidy_addMessage (MessageCreate.parse_bounded hq)
  | openDispute id payload => exact tidy_activeBody fun _ _ => tidy_openDispute
  | claimDispute id => exact tidy_moderator tidy_claimDispute
  | resolveDispute id payload => exact tidy_moderatorBody fun _ _ => tidy_resolveDispute
  | evidenceUrl disputeId evidenceId answer =>
      exact tidy_moderator tidy_moderatorEvidenceUrl
  | suspend id payload =>
      exact tidy_moderatorBody fun _ hq =>
        tidy_suspendParticipant (ParticipantSuspension.parse_bounded hq)
  | restore id => exact tidy_moderator tidy_restoreParticipant
  | readNotification id => exact tidy_active tidy_markNotificationRead
  | readAllNotifications => exact tidy_active tidy_markAllNotificationsRead

end Requests

end TestExchange
