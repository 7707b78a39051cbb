import TestExchange.Concurrent.Footprints
import TestExchange.Proof.Lifecycle

/-!
# Slots under concurrency

Everything that testers and owners do to the assignments of a campaign short of
a moderator's award, interleaved. Slots are counted and given out under the lock
of the campaign row, and whatever else touches an assignment locks it first,
except for `start`. In runs where the `UPDATE` of a start finds the assignment
still in a slot, a campaign never has more occupied slots than it asked for
testers.
-/

namespace TestExchange

open Txn Txn.Session Txn.World

/-- The requests that move assignments, by the users who may send them. -/
inductive SlotRequest where
  | apply (campaignId testerId : Uuid) (payload : AssignmentApply)
  | accept (assignmentId ownerId : Uuid)
  | decline (assignmentId ownerId : Uuid)
  | withdraw (assignmentId testerId : Uuid)
  | start (assignmentId testerId : Uuid)
  | submit (assignmentId testerId : Uuid) (payload : SubmissionCreate)
  | review (submissionId reviewerId : Uuid) (payload : ReviewCreate)
  | transition (campaignId ownerId : Uuid) (action : TransitionAction)

/-- The service behind each request. -/
def SlotRequest.service : SlotRequest → Session Unit
  | .apply campaignId testerId payload => discard (applyToCampaign campaignId testerId payload)
  | .accept assignmentId ownerId => discard (acceptAssignment assignmentId ownerId)
  | .decline assignmentId ownerId => discard (declineAssignment assignmentId ownerId)
  | .withdraw assignmentId testerId => discard (withdrawAssignment assignmentId testerId)
  | .start assignmentId testerId => discard (startAssignment assignmentId testerId)
  | .submit assignmentId testerId payload =>
      discard (createSubmission assignmentId testerId payload)
  | .review submissionId reviewerId payload =>
      discard (createReview submissionId reviewerId payload)
  | .transition campaignId ownerId action => discard (transitionCampaign campaignId ownerId action)

/-- The transaction of each request. -/
def SlotRequest.program (request : SlotRequest) : Program Db Lock Failure Unit :=
  request.service.commit

/-- What happens in the database while assignments move. -/
abbrev SlotWorld := World Db Lock Failure SlotRequest

/-- The assignment that a start updates is still in a slot. -/
def slotStillHeld (x : Landing Db Lock Failure SlotRequest) : Bool :=
  match x.request with
  | .start _ _ => (x.write.rows x.view).all fun
      | .assignment id =>
          (x.db.assignments.get? id).all fun a => a.status ∈ occupiedAssignmentStatuses
      | _ => true
  | _ => true

/-- **No more occupied slots than the campaign asked for testers.** -/
def WithinCapacity (campaignId : Uuid) (db : Db) : Prop :=
  ∀ c, db.campaigns.get? campaignId = some c → db.occupiedSlots campaignId ≤ c.targetTesters

/-- The assignment uses up a slot of the campaign. -/
def Assignment.holdsSlot (campaignId : Uuid) (a : Assignment) : Bool :=
  a.campaignId = campaignId && a.status ∈ occupiedAssignmentStatuses

/--
How assignments may move from `db` to `db'`: only `p` may get into a slot, only
rows that are `held` change, and none leaves its campaign.
-/
structure SlotFrame (campaignId : Uuid) (p : Uuid → Prop) (held : List Lock) (db db' : Db) :
    Prop where
  target : (db'.campaigns.get? campaignId).map (·.targetTesters)
    = (db.campaigns.get? campaignId).map (·.targetTesters)
  rows : ∀ id, .assignment id ∉ held → db'.assignments.get? id = db.assignments.get? id
  moved : ∀ id a, db.assignments.get? id = some a →
    ∃ a', db'.assignments.get? id = some a' ∧ a'.campaignId = a.campaignId
  slots : ∀ id a', db'.assignments.get? id = some a' → a'.holdsSlot campaignId = true → ¬p id →
    ∃ a, db.assignments.get? id = some a ∧ a.holdsSlot campaignId = true

/-- What a commit may do: get an assignment into a slot only with the campaign locked. -/
def SlotGuar (campaignId : Uuid) (locks : List Lock) (db db' : Db) : Prop :=
  SlotFrame campaignId (fun _ => .campaign campaignId ∈ locks) locks db db'

/-- What the transactions agree on. -/
def slotProtocol (campaignId : Uuid) : Protocol Db Lock Failure SlotRequest where
  Inv := WithinCapacity campaignId
  Guar := SlotGuar campaignId
  cond := slotStillHeld

variable {campaignId id k : Uuid} {p q : Uuid → Prop} {held : List Lock} {db db' : Db}

theorem SlotFrame.refl (db : Db) : SlotFrame campaignId p held db db where
  target := rfl
  rows := fun _ _ => rfl
  moved := fun _ a ha => ⟨a, ha, rfl⟩
  slots := fun _ a ha hslot _ => ⟨a, ha, hslot⟩

theorem SlotFrame.trans {db₁ db₂ db₃ : Db} (h : SlotFrame campaignId p held db₁ db₂)
    (h' : SlotFrame campaignId p held db₂ db₃) : SlotFrame campaignId p held db₁ db₃ where
  target := h'.target.trans h.target
  rows := fun id hid => (h'.rows id hid).trans (h.rows id hid)
  moved := by
    intro id a ha
    obtain ⟨a₂, ha₂, hsame₂⟩ := h.moved id a ha
    obtain ⟨a₃, ha₃, hsame₃⟩ := h'.moved id a₂ ha₂
    exact ⟨a₃, ha₃, hsame₃.trans hsame₂⟩
  slots := by
    intro id a ha hslot hp
    obtain ⟨a₂, ha₂, hslot₂⟩ := h'.slots id a ha hslot hp
    exact h.slots id a₂ ha₂ hslot₂ hp

theorem SlotFrame.weaken (h : SlotFrame campaignId p held db db') (hpq : ∀ id, p id → q id) :
    SlotFrame campaignId q held db db' :=
  { h with slots := fun id a ha hslot hq => h.slots id a ha hslot fun hp => hq (hpq id hp) }

/-- Whoever is in a slot already needs no permission. -/
theorem SlotFrame.occupied {a : Assignment} (h : SlotFrame campaignId (· = id) held db db')
    (ha : db.assignments.get? id = some a) (hstatus : a.status ∈ occupiedAssignmentStatuses) :
    SlotFrame campaignId q held db db' where
  target := h.target
  rows := h.rows
  moved := h.moved
  slots := by
    intro i a' ha' hslot _
    by_cases hi : i = id
    · subst hi
      obtain ⟨a'', ha'', hsame⟩ := h.moved i a ha
      obtain rfl := Option.some.inj (ha'.symm.trans ha'')
      simp only [Assignment.holdsSlot, Bool.and_eq_true, decide_eq_true_eq] at hslot
      exact ⟨a, ha, by simp [Assignment.holdsSlot, ← hsame, hslot.1, hstatus]⟩
    · exact h.slots i a' ha' hslot hi

/-- Without new slots the capacity is kept. -/
theorem WithinCapacity.kept (h : WithinCapacity campaignId db)
    (hf : SlotFrame campaignId (fun _ => False) held db db') : WithinCapacity campaignId db' := by
  intro c' hc'
  have htarget := hf.target
  rw [hc'] at htarget
  obtain ⟨c, hc, hsame⟩ := Option.map_eq_some_iff.mp htarget.symm
  have hcount : db'.occupiedSlots campaignId ≤ db.occupiedSlots campaignId :=
    Table.count_le_count fun i a' ha' hslot => hf.slots i a' ha' hslot id
  have hle := h c hc
  dsimp only at hsame
  omega

/-- One new slot is fine while there is room. -/
theorem withinCapacity_of_room {n : Nat} (hf : SlotFrame campaignId (· = id) held db db')
    (htarget : (db.campaigns.get? campaignId).map (·.targetTesters) = some n)
    (hroom : db.occupiedSlots campaignId < n) : WithinCapacity campaignId db' := by
  intro c' hc'
  have hkept := hf.target
  rw [hc', htarget] at hkept
  have hn := Option.some.inj hkept
  have hcount : db'.occupiedSlots campaignId ≤ db.occupiedSlots campaignId + 1 :=
    Table.count_le_count_succ fun i a' hi ha' hslot => hf.slots i a' ha' hslot hi
  dsimp only at hn
  omega

/-! ## What a transaction may keep to itself -/

theorem stable_assignment {o : Option Assignment} (h : .assignment id ∈ held) :
    (slotProtocol campaignId).Stable held fun db => db.assignments.get? id = o := by
  intro locks s s' hl _ _ hg hs
  exact (hg.rows id (hl _ h)).trans hs

/-- Nobody leaves a campaign. -/
theorem stable_campaignId :
    (slotProtocol campaignId).Stable held fun db =>
      ∃ a, db.assignments.get? id = some a ∧ a.campaignId = k := by
  intro locks s s' _ _ _ hg hs
  obtain ⟨a, ha, hk⟩ := hs
  obtain ⟨a', ha', hsame⟩ := hg.moved id a ha
  exact ⟨a', ha', hsame.trans hk⟩

theorem stable_target {o : Option Nat} :
    (slotProtocol campaignId).Stable held fun db =>
      (db.campaigns.get? campaignId).map (·.targetTesters) = o := by
  intro locks s s' _ _ _ hg hs
  exact hg.target.trans hs

/-- While the campaign is locked, nobody else gets into a slot. -/
theorem stable_room {n : Nat} (h : .campaign campaignId ∈ held) :
    (slotProtocol campaignId).Stable held fun db => db.occupiedSlots campaignId < n := by
  intro locks s s' hl _ _ hg hs
  have hcount : s'.occupiedSlots campaignId ≤ s.occupiedSlots campaignId :=
    Table.count_le_count fun i a' ha' hslot => hg.slots i a' ha' hslot (hl _ h)
  omega

/-! ## Kinds of writes -/

/-- A write after which at most `p` can have got into a slot. -/
def SlotWrite (campaignId : Uuid) (p : Uuid → Prop) (w : Write) : Prop :=
  ∀ (db s : Db) (held : List Lock), (∀ l ∈ w.rows s, l ∈ held) →
    SlotFrame campaignId p held db (w.effect db)

theorem effects_slotWrites {ws : List Write} (h : ∀ w ∈ ws, SlotWrite campaignId p w)
    (hheld : ∀ w ∈ ws, ∃ s, ∀ l ∈ w.rows s, l ∈ held) (db : Db) :
    SlotFrame campaignId p held db (effects ws db) := by
  induction ws generalizing db with
  | nil => exact .refl db
  | cons w ws ih =>
      obtain ⟨s, hs⟩ := hheld w List.mem_cons_self
      have hw := h w List.mem_cons_self db s held hs
      exact hw.trans (ih (fun v hv => h v (List.mem_cons_of_mem _ hv))
        (fun v hv => hheld v (List.mem_cons_of_mem _ hv)) (w.effect db))

theorem slotWrite_of_eq {w : Write}
    (h : ∀ db : Db, (w.effect db).campaigns = db.campaigns
      ∧ (w.effect db).assignments = db.assignments) : SlotWrite campaignId p w := by
  intro db s held _
  obtain ⟨hcampaigns, hassignments⟩ := h db
  refine ⟨by rw [hcampaigns], fun _ _ => by rw [hassignments], ?_, ?_⟩
  · intro i a ha
    exact ⟨a, by rw [hassignments]; exact ha, rfl⟩
  · intro i a ha hslot _
    exact ⟨a, by rw [← hassignments]; exact ha, hslot⟩

/-- A change of a campaign that keeps its target. -/
theorem slotWrite_campaign {f : Campaign → Campaign}
    (hf : ∀ c, (f c).targetTesters = c.targetTesters) :
    SlotWrite campaignId p (writeCampaign k f) := by
  intro db s held _
  refine ⟨?_, fun _ _ => rfl, fun _ a ha => ⟨a, ha, rfl⟩, fun _ a ha hslot _ => ⟨a, ha, hslot⟩⟩
  show ((db.campaigns.modify k f).get? campaignId).map _ = _
  rw [Table.get?_modify]
  split
  · rename_i hk
    subst hk
    rw [Option.map_map]
    exact congrArg (fun g => Option.map g _) (funext hf)
  · rfl

/-- A change of an assignment that may get it into a slot, or else takes it out of one. -/
theorem slotWrite_assignment {f : Assignment → Assignment}
    (hf : ∀ a, (f a).campaignId = a.campaignId)
    (hp : p id ∨ ∀ a, (f a).status ∉ occupiedAssignmentStatuses) :
    SlotWrite campaignId p (writeAssignment id f) := by
  intro db s held hheld
  refine ⟨rfl, ?_, ?_, ?_⟩
  · intro i hi
    refine Table.get?_modify_ne ?_
    rintro rfl
    exact hi (hheld _ (List.mem_singleton_self _))
  · intro i a ha
    show ∃ a', (db.assignments.modify id f).get? i = some a' ∧ _
    rw [Table.get?_modify]
    split
    · rename_i hi
      subst hi
      exact ⟨f a, by rw [ha]; rfl, hf a⟩
    · exact ⟨a, ha, rfl⟩
  · intro i a' ha' hslot hnot
    rcases Table.get?_modify_cases ha' with ⟨rfl, a, _, rfl⟩ | ⟨_, ha⟩
    · rcases hp with hp | hp
      · exact absurd hp hnot
      · simp only [Assignment.holdsSlot, Bool.and_eq_true, decide_eq_true_eq] at hslot
        exact absurd hslot.2 (hp a)
    · exact ⟨a', ha, hslot⟩

/-- An application is not in a slot. -/
theorem slotWrite_insert {a : Assignment} (ha : a.status ∉ occupiedAssignmentStatuses) :
    SlotWrite campaignId p (insertAssignment id a) := by
  intro db s held hheld
  refine ⟨rfl, ?_, ?_, ?_⟩
  · intro i hi
    refine Table.get?_insert_ne ?_
    rintro rfl
    exact hi (hheld _ List.mem_cons_self)
  · intro i b hb
    exact ⟨b, Table.get?_insert_of_some hb, rfl⟩
  · intro i b hb hslot _
    rcases Table.get?_insert_cases hb with hb | ⟨_, rfl, _⟩
    · exact ⟨b, hb, hslot⟩
    · simp only [Assignment.holdsSlot, Bool.and_eq_true, decide_eq_true_eq] at hslot
      exact absurd hslot.2 ha

/-! ## Requests that fill no slot -/

section Quiet

variable {r : SlotRequest} {c : Ctx Db Lock Failure} {ws : List Write}

theorem view_of_sends {s₀ s : Db} (h : Sends ws (.start s₀) c) : c.view s = effects ws s := by
  rw [Ctx.view, h.writes]
  rfl

/-- A commit after which nobody else is in a slot. -/
theorem commits_unslotted {s₀ : Db}
    (h : Extends (SlotWrite campaignId fun _ => False) (.start s₀) c) :
    (slotProtocol campaignId).Commits c := by
  obtain ⟨ws, hws, hsent⟩ := h
  intro s hs _
  have hframe := effects_slotWrites hws hsent.locked s
  rw [view_of_sends hsent]
  exact ⟨hframe.weaken fun _ h => h.elim, hs.kept hframe⟩

/-- A whole request without a write that fills a slot. -/
theorem safe_unslotted {m : Session Unit}
    (h : Only (SlotWrite campaignId fun _ => False) m) : (slotProtocol campaignId).Safe r m.commit :=
  safe_commit fun _ _ => swp_finish h (by simp) fun _ => commits_unslotted

end Quiet

theorem only_discard {α : Type} {W : Write → Prop} {m : Session α} (h : Only W m) :
    Only W (discard m) := h.bind fun _ => only_pure

theorem applyToCampaign_unslotted {cid testerId : Uuid} {payload : AssignmentApply} :
    Only (SlotWrite campaignId p) (applyToCampaign cid testerId payload) := by
  refine only_getProfile.bind fun _ => only_selectForUpdate.bind fun _ => only_orRaise.bind fun _ =>
    only_raiseIf.bind fun _ => only_raiseIf.bind fun _ => only_query.bind fun _ =>
    only_raiseIf.bind fun _ => only_query.bind fun _ => only_raiseIf.bind fun _ =>
    only_uuid4.bind fun _ => (only_add (slotWrite_insert (by simp [occupiedAssignmentStatuses]))).bind
    fun _ => only_flush.bind fun _ => ?_
  exact (only_addAuditEvent (slotWrite_of_eq fun _ => ⟨rfl, rfl⟩)).bind fun _ =>
    only_testerDisplayName.bind fun _ =>
    (only_addNotification fun _ => slotWrite_of_eq fun _ => ⟨rfl, rfl⟩).bind fun _ => only_pure

theorem slotWrite_status {status : CampaignStatus} :
    SlotWrite campaignId p (writeCampaign k fun c => { c with status := status }) :=
  slotWrite_campaign fun _ => rfl

theorem slotWrite_cancel {now : Time} :
    SlotWrite campaignId p (writeAssignment id fun a =>
      { a with status := .cancelled, completedAt := some now }) :=
  slotWrite_assignment (fun _ => rfl) (Or.inr fun _ => by simp [occupiedAssignmentStatuses])

theorem only_complete {cid actorId : Uuid} {campaign : Campaign} :
    Only (SlotWrite campaignId p) (maybeCompleteCampaign cid campaign actorId) :=
  only_maybeCompleteCampaign slotWrite_status
    fun _ => slotWrite_of_eq fun _ => ⟨rfl, rfl⟩

theorem declineAssignment_unslotted {ownerId : Uuid} :
    Only (SlotWrite campaignId p) (declineAssignment id ownerId) := by
  refine only_selectForUpdate.bind fun _ => only_orRaise.bind fun _ => only_getCampaign.bind fun _ =>
    only_requireCampaignOwner.bind fun _ => only_raiseIf.bind fun _ => only_utcnow.bind fun _ => ?_
  refine (only_add slotWrite_cancel).bind fun _ => ?_
  exact (only_addAuditEvent (slotWrite_of_eq fun _ => ⟨rfl, rfl⟩)).bind fun _ =>
    (only_addNotification fun _ => slotWrite_of_eq fun _ => ⟨rfl, rfl⟩).bind fun _ =>
    only_flush.bind fun _ => only_pure

theorem withdrawAssignment_unslotted {testerId : Uuid} :
    Only (SlotWrite campaignId p) (withdrawAssignment id testerId) := by
  refine only_selectForUpdate.bind fun _ => only_orRaise.bind fun _ => only_raiseIf.bind fun _ =>
    only_raiseIf.bind fun _ => only_selectForUpdate.bind fun _ => only_orRaise.bind fun _ =>
    only_utcnow.bind fun _ => ?_
  refine (only_add slotWrite_cancel).bind fun _ => ?_
  exact (only_addAuditEvent (slotWrite_of_eq fun _ => ⟨rfl, rfl⟩)).bind fun _ =>
    only_testerDisplayName.bind fun _ =>
    (only_addNotification fun _ => slotWrite_of_eq fun _ => ⟨rfl, rfl⟩).bind fun _ =>
    only_complete.bind fun _ => only_flush.bind fun _ => only_pure

theorem transitionCampaign_unslotted {cid ownerId : Uuid} {action : TransitionAction} :
    Only (SlotWrite campaignId p) (transitionCampaign cid ownerId action) := by
  refine only_selectForUpdate.bind fun _ => only_orRaise.bind fun x =>
    only_requireCampaignOwner.bind fun _ => Only.bind ?_ fun status => ?_
  · cases action with
    | pause =>
        exact only_raiseIf.bind fun _ => (only_add slotWrite_status).bind fun _ =>
          only_pure
    | resume =>
        exact only_raiseIf.bind fun _ => only_query.bind fun _ => only_raiseIf.bind fun _ =>
          (only_add slotWrite_status).bind fun _ => only_pure
    | close =>
        refine only_raiseIf.bind fun _ => (only_add slotWrite_status).bind fun _ =>
          only_queryForUpdate.bind fun _ => only_utcnow.bind fun _ => Only.bind ?_ fun _ => only_pure
        exact only_declinePending
          (fun _ => slotWrite_cancel)
          (fun _ => slotWrite_of_eq fun _ => ⟨rfl, rfl⟩)
          fun _ _ => slotWrite_of_eq fun _ => ⟨rfl, rfl⟩
  · refine (only_addAuditEvent (slotWrite_of_eq fun _ => ⟨rfl, rfl⟩)).bind fun _ =>
      Only.bind ?_ fun _ => only_flush.bind fun _ => only_pure
    unfold completeIfClosed
    split
    · exact only_complete
    · exact only_pure

/-! ## Requests about an assignment that is in a slot -/

section Occupied

variable {r : SlotRequest} {c : Ctx Db Lock Failure}

/-- A commit that may have moved one assignment, which was in a slot anyway. -/
theorem commits_occupied {s₀ : Db} {ws : List Write} (hsent : Sends ws (.start s₀) c)
    (hws : ∀ w ∈ ws, SlotWrite campaignId (· = id) w)
    (hknown : ∀ s, c.known s →
      ∃ a, s.assignments.get? id = some a ∧ a.status ∈ occupiedAssignmentStatuses) :
    (slotProtocol campaignId).Commits c := by
  intro s hs hk
  have hframe := effects_slotWrites hws hsent.locked s
  obtain ⟨a, ha, hstatus⟩ := hknown s hk
  rw [view_of_sends hsent]
  exact ⟨hframe.occupied ha hstatus, hs.kept (hframe.occupied ha hstatus)⟩

/-- The rest of a request, once its assignment is locked in a slot. -/
theorem swp_occupied {α : Type} {s₀ : Db} {m : Session α} {a : Assignment} (hsent : Sends [] (.start s₀) c)
    (hknown : ∀ s, c.known s → s.assignments.get? id = some a)
    (hstatus : a.status ∈ occupiedAssignmentStatuses)
    (hm : Only (SlotWrite campaignId (· = id)) m) :
    swp (slotProtocol campaignId) r m
      (fun _ => swp (slotProtocol campaignId) r flush
        fun _ _ c => (slotProtocol campaignId).Commits c) [] c := by
  refine swp_finish hm (by simp) ?_
  rintro c' ⟨ws, hws, hsent'⟩
  exact commits_occupied (hsent.trans hsent') hws
    fun s hk => ⟨a, hknown s (hsent'.known s hk), hstatus⟩

end Occupied

/-- The lock on an assignment, taken first or after reads that are not relied upon. -/
theorem swp_lockAssignment {r : SlotRequest} {s₀ : Db} {c : Ctx Db Lock Failure} {error : Failure}
    {post : Assignment → List Write → Ctx Db Lock Failure → Prop} (hsent : Sends [] (.start s₀) c)
    (hpost : ∀ a c', Sends [] (.start s₀) c' →
      (∀ s, c'.known s → c.known s ∧ s.assignments.get? id = some a) →
      (∀ l ∈ c.held, l ∈ c'.held) → post a [] c') :
    swp (slotProtocol campaignId) r (selectForUpdate Db.assignments Lock.assignment id)
      (fun found => swp (slotProtocol campaignId) r (orRaise error found) post) [] c := by
  rw [selectForUpdate, swp_queryForUpdate]
  intro s _ _
  rw [view_of_sends hsent, effects_nil]
  simp only [swp_orRaise]
  cases ha : s.assignments.get? id with
  | none => exact .skip fun a h => absurd h (by simp)
  | some a =>
      refine .pick _ (stable_assignment (o := some a) ?_) ha ?_
      · rw [if_pos (Table.contains_eq_true.mpr ⟨a, ha⟩)]
        exact List.mem_append_left _ (List.mem_singleton_self _)
      · intro a' ha'
        obtain rfl := Option.some.inj ha'
        exact hpost a _ (hsent.trans (Sends.see.trans (Sends.hold.trans .learn))) (fun s hk => hk)
          fun l hl => List.mem_append_right _ hl

theorem createSubmission_safe {testerId : Uuid} {payload : SubmissionCreate} {r : SlotRequest} :
    (slotProtocol campaignId).Safe r (discard (createSubmission id testerId payload)).commit := by
  refine safe_commit fun s₀ _ => ?_
  unfold discard createSubmission
  rw [swp_bind, swp_bind]
  simp only [swp_bind (m := orRaise _ _)]
  refine swp_lockAssignment (.refl _) fun a c hsent hknown _ => ?_
  rw [swp_bind, swp_raiseIf]
  intro _
  rw [swp_bind, swp_raiseIf]
  intro hstatus
  have hoccupied : a.status ∈ occupiedAssignmentStatuses := by
    simp only [not_not, List.mem_cons, List.not_mem_nil, or_false] at hstatus
    rcases hstatus with hs | hs <;> simp [hs, occupiedAssignmentStatuses]
  refine swp_occupied hsent (fun s hk => (hknown s hk).2) hoccupied ?_
  refine only_contractForAssignment.bind fun _ => only_utcnow.bind fun _ => only_orRaise.bind fun _ =>
    only_raiseIf.bind fun _ => only_query.bind fun _ => only_raiseIf.bind fun _ =>
    only_raiseIf.bind fun _ => only_raiseIf.bind fun _ => only_checkItems.bind fun _ =>
    only_query.bind fun _ => only_uuid4.bind fun _ => only_utcnow.bind fun _ => ?_
  refine (only_add (slotWrite_of_eq fun _ => ⟨rfl, rfl⟩)).bind fun _ => only_flush.bind fun _ =>
    (only_addItems fun _ _ => slotWrite_of_eq fun _ => ⟨rfl, rfl⟩).bind fun _ =>
    only_utcnow.bind fun _ => ?_
  refine Only.bind (only_add (slotWrite_assignment ?_ (Or.inl rfl))) fun _ => ?_
  · exact fun _ => rfl
  exact (only_addAuditEvent (slotWrite_of_eq fun _ => ⟨rfl, rfl⟩)).bind fun _ =>
    only_getCampaign.bind fun _ => only_testerDisplayName.bind fun _ =>
    (only_addNotification fun _ => slotWrite_of_eq fun _ => ⟨rfl, rfl⟩).bind fun _ =>
    only_flush.bind fun _ => only_pure

theorem applyDecision_occupied {submissionId reviewerId : Uuid} {a : Assignment} {x : Campaign}
    {decision : ReviewDecision} :
    Only (SlotWrite campaignId (· = id)) (applyDecision submissionId id a x reviewerId decision) := by
  cases decision with
  | approved =>
      refine only_utcnow.bind fun _ => (only_add (slotWrite_of_eq fun _ => ⟨rfl, rfl⟩)).bind fun _ =>
        Only.bind (only_add (slotWrite_assignment ?_ (Or.inl rfl))) fun _ => ?_
      · exact fun _ => rfl
      exact (only_recordCreditEntry (slotWrite_of_eq fun _ => ⟨rfl, rfl⟩)
        (fun _ => slotWrite_of_eq fun _ => ⟨rfl, rfl⟩)
        fun _ => slotWrite_of_eq fun _ => ⟨rfl, rfl⟩).bind fun _ => only_flush.bind fun _ =>
        only_complete.bind fun _ => only_pure
  | changesRequested =>
      refine (only_add (slotWrite_of_eq fun _ => ⟨rfl, rfl⟩)).bind fun _ =>
        only_add (slotWrite_assignment ?_ (Or.inl rfl))
      exact fun _ => rfl
  | rejected =>
      refine (only_add (slotWrite_of_eq fun _ => ⟨rfl, rfl⟩)).bind fun _ =>
        only_add (slotWrite_assignment ?_ (Or.inl rfl))
      exact fun _ => rfl

theorem createReview_safe {submissionId reviewerId : Uuid} {payload : ReviewCreate}
    {r : SlotRequest} :
    (slotProtocol campaignId).Safe r (discard (createReview submissionId reviewerId payload)).commit := by
  refine safe_commit fun s₀ _ => ?_
  unfold discard createReview
  rw [swp_bind, swp_bind, swp_query]
  intro s₁ _ _
  refine .skip ?_
  rw [swp_bind, swp_orRaise]
  intro assignmentId _
  rw [swp_bind]
  simp only [swp_bind (m := orRaise _ _)]
  refine swp_lockAssignment .see fun a c hsent hknown _ => ?_
  rw [swp_bind, selectForUpdate, swp_queryForUpdate]
  intro s₂ _ _
  refine .skip ?_
  rw [swp_bind, swp_orRaise]
  intro submission _
  rw [swp_bind, selectForUpdate, swp_queryForUpdate]
  intro s₃ _ _
  refine .skip ?_
  rw [swp_bind, swp_orRaise]
  intro x _
  rw [swp_bind, requireCampaignOwner, swp_raiseIf]
  intro _
  rw [swp_bind, swp_query]
  intro s₄ _ _
  refine .skip ?_
  rw [swp_bind, swp_raiseIf]
  intro _
  rw [swp_bind, swp_raiseIf]
  intro _
  rw [swp_bind, swp_raiseIf]
  intro hstatus
  have hoccupied : a.status ∈ occupiedAssignmentStatuses := by
    simp [not_not.mp hstatus, occupiedAssignmentStatuses]
  refine swp_occupied (hsent.trans (Sends.see.trans (Sends.hold.trans (Sends.see.trans
    (Sends.hold.trans .see))))) (fun s hk => (hknown s hk).2) hoccupied ?_
  refine only_uuid4.bind fun _ => (only_add (slotWrite_of_eq fun _ => ⟨rfl, rfl⟩)).bind fun _ =>
    only_flush.bind fun _ => applyDecision_occupied.bind fun _ => ?_
  exact (only_addAuditEvent (slotWrite_of_eq fun _ => ⟨rfl, rfl⟩)).bind fun _ =>
    (only_addNotification fun _ => slotWrite_of_eq fun _ => ⟨rfl, rfl⟩).bind fun _ =>
    only_flush.bind fun _ => only_pure

theorem slotStillHeld_start {id testerId : Uuid} {seen view : Db} {f : Assignment → Assignment}
    {a : Assignment}
    (h : slotStillHeld ⟨.start id testerId, seen, view, db, writeAssignment id f⟩ = true)
    (ha : db.assignments.get? id = some a) : a.status ∈ occupiedAssignmentStatuses := by
  simpa [slotStillHeld, writeAssignment, ha] using h

/-- **A start keeps to the protocol** if its `UPDATE` finds the assignment in a slot. -/
theorem startAssignment_safe {testerId : Uuid} :
    (slotProtocol campaignId).Safe (.start id testerId)
      (discard (startAssignment id testerId)).commit := by
  refine safe_commit fun s₀ _ => ?_
  simp only [discard, startAssignment, getAssignment, addAuditEvent, swp_bind, swp_pure,
    swp_orRaise, swp_raiseIf, swp_utcnow, swp_uuid4, swp_add]
  rw [swp_query]
  intro s₁ _ _
  rw [Ctx.view_start]
  cases ha : s₁.assignments.get? id with
  | none => exact .skip fun a h => absurd h (by simp)
  | some a =>
      refine .pick _ (stable_campaignId (k := a.campaignId)) ⟨a, ha, rfl⟩ ?_
      intro _ _ _ _ now n
      simp only [swp_flush, List.nil_append, List.cons_append]
      rw [swp_sendAll_cons, swp_execute]
      intro s₂ _ hk₂ _ hcond
      obtain ⟨b, hb, _⟩ := hk₂.2
      have hoccupied := slotStillHeld_start hcond hb
      refine .pick _ (stable_assignment (o := some b) ?_) hb ?_
      · exact List.mem_append_left _ (List.mem_singleton_self _)
      refine swp_sendAll_sends fun c hc => ?_
      refine commits_occupied (Sends.see.trans (Sends.learn.trans
        (Sends.wrote.trans (Sends.learn.trans hc)))) ?_ fun s hk => ⟨b, (hc.known s hk).2, hoccupied⟩
      intro w hw
      simp only [List.nil_append, List.cons_append, List.mem_cons, List.not_mem_nil, or_false] at hw
      rcases hw with rfl | rfl | rfl
      · exact slotWrite_assignment (fun _ => rfl) (Or.inl rfl)
      · exact slotWrite_of_eq fun _ => ⟨rfl, rfl⟩
      · exact slotWrite_of_eq fun _ => ⟨rfl, rfl⟩

/-! ## Acceptance -/

/-- A commit that has filled a slot, with the campaign locked and room in it. -/
theorem commits_accepted {s₀ : Db} {c : Ctx Db Lock Failure} {n : Nat} {ws : List Write}
    (hsent : Sends ws (.start s₀) c) (hws : ∀ w ∈ ws, SlotWrite campaignId (· = id) w)
    (hheld : .campaign campaignId ∈ c.held)
    (hknown : ∀ s, c.known s → (s.campaigns.get? campaignId).map (·.targetTesters) = some n
      ∧ s.occupiedSlots campaignId < n) :
    (slotProtocol campaignId).Commits c := by
  intro s _ hk
  have hframe := effects_slotWrites hws hsent.locked s
  obtain ⟨htarget, hroom⟩ := hknown s hk
  rw [view_of_sends hsent]
  exact ⟨hframe.weaken fun _ _ => hheld, withinCapacity_of_room hframe htarget hroom⟩

/-- An acceptance into another campaign. -/
theorem commits_elsewhere {s₀ : Db} {c : Ctx Db Lock Failure} {ws : List Write}
    (hsent : Sends ws (.start s₀) c) (hws : ∀ w ∈ ws, SlotWrite campaignId (· = id) w)
    (hne : k ≠ campaignId)
    (hknown : ∀ s, c.known s → ∃ a, s.assignments.get? id = some a ∧ a.campaignId = k) :
    (slotProtocol campaignId).Commits c := by
  intro s hs hk
  have hframe := effects_slotWrites hws hsent.locked s
  obtain ⟨a, ha, hof⟩ := hknown s hk
  rw [view_of_sends hsent]
  have hnone : ∀ q, SlotFrame campaignId q c.held s (effects ws s) := by
    intro q
    refine { hframe with slots := fun i a' ha' hslot _ => ?_ }
    by_cases hi : i = id
    · subst hi
      obtain ⟨a'', ha'', hsame⟩ := hframe.moved i a ha
      obtain rfl := Option.some.inj (ha'.symm.trans ha'')
      simp only [Assignment.holdsSlot, Bool.and_eq_true, decide_eq_true_eq] at hslot
      exact absurd (hof.symm.trans (hsame.symm.trans hslot.1)) hne
    · exact hframe.slots i a' ha' hslot hi
  exact ⟨hnone _, hs.kept (hnone _)⟩

/-- The lock on the campaign, with what is known from then on if it is the one in question. -/
theorem swp_lockCampaign {r : SlotRequest} {s₀ : Db} {c : Ctx Db Lock Failure} {error : Failure}
    {post : Campaign → List Write → Ctx Db Lock Failure → Prop} (hsent : Sends [] (.start s₀) c)
    (hpost : ∀ x c', Sends [] (.start s₀) c' → (∀ s, c'.known s → c.known s) →
      .campaign k ∈ c'.held →
      (k = campaignId → ∀ s, c'.known s →
        (s.campaigns.get? campaignId).map (·.targetTesters) = some x.targetTesters) →
      post x [] c') :
    swp (slotProtocol campaignId) r (selectForUpdate Db.campaigns Lock.campaign k)
      (fun found => swp (slotProtocol campaignId) r (orRaise error found) post) [] c := by
  rw [selectForUpdate, swp_queryForUpdate]
  intro s _ _
  rw [view_of_sends hsent, effects_nil]
  simp only [swp_orRaise]
  cases hx : s.campaigns.get? k with
  | none => exact .skip fun a h => absurd h (by simp)
  | some x =>
      refine .pick _ (stable_target (o := (s.campaigns.get? campaignId).map (·.targetTesters))) rfl ?_
      intro x' hx'
      obtain rfl := Option.some.inj hx'
      refine hpost x _ (hsent.trans (Sends.see.trans (Sends.hold.trans .learn)))
        (fun s hk => hk.1) ?_ ?_
      · rw [if_pos (Table.contains_eq_true.mpr ⟨x, hx⟩)]
        exact List.mem_append_left _ (List.mem_singleton_self _)
      · rintro rfl t ht
        rw [ht.2, hx]
        rfl

/-- What an acceptance writes once it is decided. -/
theorem acceptance_only {actorId : Uuid} {n : Notification} {a : Assignment} :
    Only (SlotWrite campaignId (· = id)) (do
      let now ← utcnow
      let set (a : Assignment) : Assignment :=
        { a with status := .accepted, acceptedAt := some now }
      add (writeAssignment id set)
      addAuditEvent (some actorId) "assignment.accepted" "assignment" id []
      addNotification n
      flush
      pure (id, set a)) := by
  refine only_utcnow.bind fun _ =>
    Only.bind (only_add (slotWrite_assignment ?_ (Or.inl rfl))) fun _ => ?_
  · exact fun _ => rfl
  exact (only_addAuditEvent (slotWrite_of_eq fun _ => ⟨rfl, rfl⟩)).bind fun _ =>
    (only_addNotification fun _ => slotWrite_of_eq fun _ => ⟨rfl, rfl⟩).bind fun _ =>
    only_flush.bind fun _ => only_pure

/-- **An acceptance keeps to the protocol.** -/
theorem acceptAssignment_safe {ownerId : Uuid} {r : SlotRequest} :
    (slotProtocol campaignId).Safe r (discard (acceptAssignment id ownerId)).commit := by
  refine safe_commit fun s₀ _ => ?_
  unfold discard acceptAssignment
  rw [swp_bind, swp_bind, swp_query]
  intro s₁ _ _
  rw [Ctx.view_start]
  cases ha : s₁.assignments.get? id with
  | none => exact .skip (by rw [swp_bind, swp_orRaise]; exact fun _ h => absurd h (by simp))
  | some a =>
      -- an assignment never changes its campaign, so this may be read without a lock
      refine .pick _ (stable_campaignId (k := a.campaignId)) ⟨a, ha, rfl⟩ ?_
      rw [swp_bind, swp_orRaise]
      intro k hk
      obtain rfl := Option.some.inj hk
      rw [swp_bind]
      simp only [swp_bind (m := orRaise _ _)]
      refine swp_lockCampaign (Sends.see.trans .learn) fun x c hsent hk hheld htarget => ?_
      rw [swp_bind, requireCampaignOwner, swp_raiseIf]
      intro _
      rw [swp_bind, swp_raiseIf]
      intro _
      rw [swp_bind]
      simp only [swp_bind (m := orRaise _ _)]
      refine swp_lockAssignment hsent fun b c' hsent' hk' hheld' => ?_
      rw [swp_bind, swp_raiseIf]
      intro _
      rw [swp_bind, swp_query]
      intro s₅ _ _
      rw [view_of_sends hsent', effects_nil]
      by_cases hcid : a.campaignId = campaignId
      -- the campaign that is watched: its row is locked, so the count stays what it was
      · by_cases hroom : x.targetTesters ≤ s₅.occupiedSlots a.campaignId
        · exact .skip (by rw [swp_bind, swp_raiseIf]; exact fun h => absurd hroom h)
        · rw [not_le, hcid] at hroom
          refine .pick _ (stable_room (n := x.targetTesters) (hcid ▸ hheld' _ hheld)) hroom ?_
          rw [swp_bind, swp_raiseIf]
          intro _
          refine swp_finish (W := SlotWrite campaignId (· = id)) acceptance_only (by simp) ?_
          rintro c'' ⟨ws, hws, hsent''⟩
          refine commits_accepted (n := x.targetTesters)
            (hsent'.trans (Sends.see.trans (Sends.learn.trans hsent''))) hws
            (hsent''.held _ (hcid ▸ hheld' _ hheld)) fun s hs => ?_
          have hknown := hsent''.known s hs
          exact ⟨htarget hcid s (hk' s hknown.1).1, hknown.2⟩
      -- another campaign, whose slots do not count here
      · refine .skip ?_
        rw [swp_bind, swp_raiseIf]
        intro _
        refine swp_finish (W := SlotWrite campaignId (· = id)) acceptance_only (by simp) ?_
        rintro c'' ⟨ws, hws, hsent''⟩
        refine commits_elsewhere (hsent'.trans (Sends.see.trans hsent'')) hws hcid fun s hs => ?_
        exact (hk s (hk' s (hsent''.known s hs)).1).2

/-! ## Runs -/

theorem slotRequest_safe (request : SlotRequest) :
    (slotProtocol campaignId).Safe request request.program := by
  cases request with
  | apply cid testerId payload => exact safe_unslotted (only_discard applyToCampaign_unslotted)
  | accept id ownerId => exact acceptAssignment_safe
  | decline id ownerId => exact safe_unslotted (only_discard declineAssignment_unslotted)
  | withdraw id testerId => exact safe_unslotted (only_discard withdrawAssignment_unslotted)
  | start id testerId => exact startAssignment_safe
  | submit id testerId payload => exact createSubmission_safe
  | review id reviewerId payload => exact createReview_safe
  | transition cid ownerId action => exact safe_unslotted (only_discard transitionCampaign_unslotted)

/--
**A campaign is never overfilled** in a run in which every start takes effect on
an assignment that is in a slot.
-/
theorem capacity_kept {db : Db} (hdb : WithinCapacity campaignId db) (next : Nat)
    {acts : List (Act SlotRequest)} {w : SlotWorld}
    (h : Runs (World.Step SlotRequest.program slotStillHeld) (.idle db next) acts w) :
    WithinCapacity campaignId w.db :=
  (Protocol.good_runs (P := slotProtocol campaignId) slotRequest_safe
    (Protocol.good_idle hdb next) h).inv

/-! ## The gap -/

/-- The only slot is taken by the first tester, assignment 8; the second one waits, assignment 10. -/
def slotService : Service :=
  Service.init.run benchSettings
    (benchLaunch ++
      [(0, ⟨2, none⟩, .apply 4 {}), (0, ⟨3, none⟩, .apply 4 {}), (0, ⟨1, none⟩, .accept 8)])

/-- The campaign's target and its occupied slots. -/
def slotOutcome (db : Db) : Option Nat × Nat :=
  ((db.campaigns.get? 4).map (·.targetTesters), db.occupiedSlots 4)

theorem slotService_within : WithinCapacity 4 slotService.db := by
  intro c hc
  have hout : slotOutcome slotService.db = (some 1, 1) := by decide +kernel
  obtain ⟨htarget, hcount⟩ := Prod.mk.inj hout
  rw [hc] at htarget
  have hone := Option.some.inj htarget
  dsimp only at hone
  omega

/-- The first tester starts while the second one cannot be accepted. -/
def orderlyStart : List (Act SlotRequest) :=
  .start 1 (.start 8 2) :: moves 1 3 ++ .start 2 (.accept 10 1) :: moves 2 7 ++ moves 1 7

theorem capacity_kept_bench :
    ∃ w, (World.idle slotService.db slotService.nextId).runWhen SlotRequest.program slotStillHeld
        orderlyStart = some w ∧ WithinCapacity 4 w.db := by
  have hsome : ((World.idle slotService.db slotService.nextId).runWhen SlotRequest.program
      slotStillHeld orderlyStart).isSome = true := by decide +kernel
  obtain ⟨w, hw⟩ := Option.isSome_iff_exists.mp hsome
  exact ⟨w, hw, capacity_kept slotService_within _ (World.runs_iff_runWhen.mpr hw)⟩

/--
The first tester withdraws and the second one is accepted between the read and
the `UPDATE` of the first tester's start.
-/
def lateStart : List (Act SlotRequest) :=
  .start 1 (.start 8 2) :: moves 1 1 ++ .start 2 (.withdraw 8 2) :: moves 2 15
    ++ .start 3 (.accept 10 1) :: moves 3 15 ++ moves 1 9

/-- Two testers are in the only slot. -/
theorem campaign_overfilled :
    ¬∀ (campaignId : Uuid) (db : Db) (next : Nat) (acts : List (Act SlotRequest)) (w : SlotWorld),
      WithinCapacity campaignId db →
        (World.idle db next).run SlotRequest.program acts = some w →
          WithinCapacity campaignId w.db := by
  intro h
  have hrun : ((World.idle slotService.db slotService.nextId).run SlotRequest.program lateStart).map
      (fun w => slotOutcome w.db) = some (some 1, 2) := by decide +kernel
  obtain ⟨w, hw, hout⟩ := Option.map_eq_some_iff.mp hrun
  obtain ⟨htarget, hcount⟩ := Prod.mk.inj hout
  obtain ⟨c, hc, hone⟩ := Option.map_eq_some_iff.mp htarget
  have hle := h 4 slotService.db _ lateStart w slotService_within hw c hc
  omega

end TestExchange
