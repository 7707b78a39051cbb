import TestExchange.Refine.Relations
import TestExchange.Refine.Serve
import TestExchange.Txn.Issued

/-!
# Notifications are stored under identifiers drawn for them

The identifier of a new notification is drawn in the request that stores it, and
identifiers are never drawn twice. So every stored one is below the next, and the
primary key of a new notification is always free.
-/

namespace TestExchange

open Txn Txn.Session

/-- A write that stores notifications only under identifiers below `n`. -/
def Numbers (n : Nat) (w : Write) : Prop :=
  ∀ s k, (∃ m, (w.effect s).notifications.get? k = some m) →
    (∃ m, s.notifications.get? k = some m) ∨ k < n

theorem numbers_eq : Numbers = Issues Db.notifications := rfl

theorem numbers_widens : Widens Numbers := by
  rw [numbers_eq]
  exact issues_widens

theorem numbers_of_keeps {n : Nat} {w : Write} (h : Keeps Db.notifications w) : Numbers n w := by
  rw [numbers_eq]
  exact issues_of_keeps h

theorem numbers_insert {n k : Nat} {m : Notification} (h : k < n) :
    Numbers n (insertNotification k m) := by
  rw [numbers_eq]
  exact issues_of_insert h fun _ => rfl

section Draws

variable {α β : Type} {m : Session α} {f : α → Session β}

theorem draws_of_keeps (h : Only (Keeps Db.notifications) m) : Draws Numbers m :=
  h.draws numbers_widens fun _ _ hw => numbers_of_keeps hw

/-- What leaves the notifications alone may come first. -/
theorem draws_after (hm : Only (Keeps Db.notifications) m) (hf : ∀ a, Draws Numbers (f a)) :
    Draws Numbers (m >>= f) := (draws_of_keeps hm).bind numbers_widens hf

/-- What leaves the notifications alone may come last. -/
theorem draws_before (hm : Draws Numbers m) (hf : ∀ a, Only (Keeps Db.notifications) (f a)) :
    Draws Numbers (m >>= f) := hm.bind numbers_widens fun a => draws_of_keeps (hf a)

theorem draws_addNotification {n : Notification} : Draws Numbers (addNotification n) := by
  refine draws_after only_query fun existing => ?_
  cases existing with
  | some found => exact draws_of_keeps only_pure
  | none => exact draws_insert numbers_widens fun _ _ h => numbers_insert h

end Draws

theorem keeps_within {rs : List Relation} (hrs : Relation.notifications ∉ rs) {w : Write}
    (hw : Within rs w) : Keeps Db.notifications w := by
  obtain ⟨r, hr, hw⟩ := hw
  intro db
  cases hw with
  | insertNotification => exact absurd hr hrs
  | writeNotification => exact absurd hr hrs
  | writeNotificationsRead => exact absurd hr hrs
  | _ => rfl

theorem only_kept {α : Type} {rs : List Relation} {m : Session α} (h : Only (Within rs) m)
    (hrs : Relation.notifications ∉ rs) : Only (Keeps Db.notifications) m :=
  Emits.mono h fun _ hnew w hw => keeps_within hrs (hnew w hw)

section Services

variable {id userId : Uuid}

theorem kept_assignment {f : Assignment → Assignment} :
    Only (Keeps Db.notifications) (add (writeAssignment id f)) := only_add fun _ => rfl

theorem kept_event {actorId : Option Uuid} {action entityType : String}
    {details : List (String × Json)} :
    Only (Keeps Db.notifications) (addAuditEvent actorId action entityType id details) :=
  only_addAuditEvent fun _ => rfl

theorem kept_campaign {f : Campaign → Campaign} :
    Only (Keeps Db.notifications) (add (writeCampaign id f)) := only_add fun _ => rfl

theorem kept_completion {campaign : Campaign} :
    Only (Keeps Db.notifications) (maybeCompleteCampaign id campaign userId) :=
  only_maybeCompleteCampaign (fun _ => rfl) fun _ _ => rfl

theorem draws_declinePending {campaign : Campaign} {now : Time} {rest : List (Uuid × Assignment)} :
    Draws Numbers (declinePending campaign userId now rest) := by
  induction rest with
  | nil => exact draws_of_keeps only_pure
  | cons r rest ih =>
      exact draws_after kept_assignment fun _ => draws_after kept_event fun _ =>
        draws_addNotification.bind numbers_widens fun _ => ih

theorem draws_transitionCampaign {action : TransitionAction} :
    Draws Numbers (transitionCampaign id userId action) := by
  refine draws_after only_selectForUpdate fun _ => draws_after only_orRaise fun campaign =>
    draws_after only_requireCampaignOwner fun _ => draws_before ?_ fun status =>
    kept_event.bind fun _ => Only.bind ?_ fun _ => only_flush.bind fun _ => only_pure
  · cases action with
    | pause => exact draws_of_keeps (only_raiseIf.bind fun _ => kept_campaign.bind fun _ => only_pure)
    | resume =>
        exact draws_of_keeps (only_raiseIf.bind fun _ => only_query.bind fun _ =>
          only_raiseIf.bind fun _ => kept_campaign.bind fun _ => only_pure)
    | close =>
        exact draws_after only_raiseIf fun _ => draws_after kept_campaign fun _ =>
          draws_after only_queryForUpdate fun _ => draws_after only_utcnow fun _ =>
          draws_before draws_declinePending fun _ => only_pure
  · unfold completeIfClosed
    split
    · exact kept_completion
    · exact only_pure

theorem draws_applyToCampaign {payload : AssignmentApply} :
    Draws Numbers (applyToCampaign id userId payload) :=
  draws_after only_getProfile fun _ => draws_after only_selectForUpdate fun _ =>
    draws_after only_orRaise fun _ => draws_after only_raiseIf fun _ =>
    draws_after only_raiseIf fun _ => draws_after only_query fun _ =>
    draws_after only_raiseIf fun _ => draws_after only_query fun _ =>
    draws_after only_raiseIf fun _ => draws_after only_uuid4 fun _ =>
    draws_after (only_add fun _ => rfl) fun _ => draws_after only_flush fun _ =>
    draws_after kept_event fun _ => draws_after only_testerDisplayName fun _ =>
    draws_before draws_addNotification fun _ => only_pure

theorem draws_acceptAssignment : Draws Numbers (acceptAssignment id userId) :=
  draws_after only_query fun _ => draws_after only_orRaise fun _ =>
    draws_after only_selectForUpdate fun _ => draws_after only_orRaise fun _ =>
    draws_after only_requireCampaignOwner fun _ => draws_after only_raiseIf fun _ =>
    draws_after only_selectForUpdate fun _ => draws_after only_orRaise fun _ =>
    draws_after only_raiseIf fun _ => draws_after only_query fun _ =>
    draws_after only_raiseIf fun _ => draws_after only_utcnow fun _ =>
    draws_after kept_assignment fun _ => draws_after kept_event fun _ =>
    draws_before draws_addNotification fun _ => only_flush.bind fun _ => only_pure

theorem draws_declineAssignment : Draws Numbers (declineAssignment id userId) :=
  draws_after only_selectForUpdate fun _ => draws_after only_orRaise fun _ =>
    draws_after only_getCampaign fun _ => draws_after only_requireCampaignOwner fun _ =>
    draws_after only_raiseIf fun _ => draws_after only_utcnow fun _ =>
    draws_after kept_assignment fun _ => draws_after kept_event fun _ =>
    draws_before draws_addNotification fun _ => only_flush.bind fun _ => only_pure

theorem draws_withdrawAssignment : Draws Numbers (withdrawAssignment id userId) :=
  draws_after only_selectForUpdate fun _ => draws_after only_orRaise fun _ =>
    draws_after only_raiseIf fun _ => draws_after only_raiseIf fun _ =>
    draws_after only_selectForUpdate fun _ => draws_after only_orRaise fun _ =>
    draws_after only_utcnow fun _ => draws_after kept_assignment fun _ =>
    draws_after kept_event fun _ => draws_after only_testerDisplayName fun _ =>
    draws_before draws_addNotification fun _ => kept_completion.bind fun _ =>
    only_flush.bind fun _ => only_pure

theorem draws_createSubmission {payload : SubmissionCreate} :
    Draws Numbers (createSubmission id userId payload) :=
  draws_after only_selectForUpdate fun _ => draws_after only_orRaise fun _ =>
    draws_after only_raiseIf fun _ => draws_after only_raiseIf fun _ =>
    draws_after only_contractForAssignment fun _ => draws_after only_utcnow fun _ =>
    draws_after only_orRaise fun _ => draws_after only_raiseIf fun _ =>
    draws_after only_query fun _ => draws_after only_raiseIf fun _ =>
    draws_after only_raiseIf fun _ => draws_after only_raiseIf fun _ =>
    draws_after only_checkItems fun _ => draws_after only_query fun _ =>
    draws_after only_uuid4 fun _ => draws_after only_utcnow fun _ =>
    draws_after (only_add fun _ => rfl) fun _ => draws_after only_flush fun _ =>
    draws_after (only_addItems fun _ _ _ => rfl) fun _ => draws_after only_utcnow fun _ =>
    draws_after kept_assignment fun _ => draws_after kept_event fun _ =>
    draws_after only_getCampaign fun _ => draws_after only_testerDisplayName fun _ =>
    draws_before draws_addNotification fun _ => only_flush.bind fun _ => only_pure

theorem draws_createReview {payload : ReviewCreate} :
    Draws Numbers (createReview id userId payload) :=
  draws_after only_query fun _ => draws_after only_orRaise fun _ =>
    draws_after only_selectForUpdate fun _ => draws_after only_orRaise fun _ =>
    draws_after only_selectForUpdate fun _ => draws_after only_orRaise fun _ =>
    draws_after only_selectForUpdate fun _ => draws_after only_orRaise fun _ =>
    draws_after only_requireCampaignOwner fun _ => draws_after only_query fun _ =>
    draws_after only_raiseIf fun _ => draws_after only_raiseIf fun _ =>
    draws_after only_raiseIf fun _ => draws_after only_uuid4 fun _ =>
    draws_after (only_add fun _ => rfl) fun _ => draws_after only_flush fun _ =>
    draws_after (only_kept applyDecision_within (by decide)) fun _ =>
    draws_after kept_event fun _ => draws_before draws_addNotification fun _ =>
    only_flush.bind fun _ => only_pure

theorem draws_addMessage {payload : MessageCreate} :
    Draws Numbers (addMessage id userId payload) :=
  draws_after only_getAssignment fun _ => draws_after only_requireAssignmentParticipant fun _ =>
    draws_after only_uuid4 fun _ => draws_after (only_add fun _ => rfl) fun _ =>
    draws_after only_flush fun _ => draws_after kept_event fun _ =>
    draws_after only_getCampaign fun _ => draws_before draws_addNotification fun _ => only_pure

theorem draws_openDispute {payload : DisputeCreate} :
    Draws Numbers (openDispute id userId payload) := by
  refine draws_after only_selectForUpdate fun _ => draws_after only_orRaise fun _ =>
    draws_after only_requireAssignmentParticipant fun _ => draws_after only_raiseIf fun _ =>
    draws_after only_raiseIf fun _ => draws_after only_orRaise fun _ =>
    draws_after only_query fun _ => draws_after only_orRaise fun _ =>
    draws_after only_raiseIf fun _ => draws_after ?_ fun _ => ?_
  · unfold checkEscalation
    split
    · exact only_raiseIf.bind fun _ => only_contractForAssignment.bind fun _ =>
        only_utcnow.bind fun _ => only_raiseIf
    · exact only_raiseIf
  · exact draws_after only_query fun _ => draws_after only_raiseIf fun _ =>
      draws_after only_uuid4 fun _ => draws_after (only_add fun _ => rfl) fun _ =>
      draws_after only_flush fun _ => draws_after kept_event fun _ =>
      draws_after only_getCampaign fun _ => draws_before draws_addNotification fun _ => only_pure

theorem draws_resolveDispute {payload : DisputeResolve} :
    Draws Numbers (resolveDispute id userId payload) :=
  draws_after only_selectForUpdate fun _ => draws_after only_orRaise fun _ =>
    draws_after only_raiseIf fun _ => draws_after only_raiseIf fun _ =>
    draws_after only_selectForUpdate fun _ => draws_after only_orRaise fun _ =>
    draws_after (only_kept applyRemedy_within (by decide)) fun _ =>
    draws_after only_utcnow fun _ => draws_after (only_add fun _ => rfl) fun _ =>
    draws_after kept_event fun _ => draws_after only_getCampaign fun _ =>
    draws_addNotification.bind numbers_widens fun _ =>
    draws_before draws_addNotification fun _ => only_flush.bind fun _ => only_pure

end Services

section Requests

variable {settings : Settings} {user : CurrentUser}

theorem draws_active {α : Type} {m : Session α} (h : Draws Numbers m) :
    Draws Numbers (getActiveUser user >>= fun _ => discard m) :=
  draws_after only_getActiveUser fun _ => draws_before h fun _ => only_pure

theorem draws_activeBody {α β : Type} {o : Option β} {m : β → Session α}
    (h : ∀ b, Draws Numbers (m b)) :
    Draws Numbers (getActiveUser user >>= fun _ => validated o >>= fun b => discard (m b)) :=
  draws_after only_getActiveUser fun _ => draws_after only_orRaise fun b =>
    draws_before (h b) fun _ => only_pure

/-- A write that stores no new notification. -/
def StoresNone (w : Write) : Prop := ∀ n, Numbers n w

theorem storesNone_write {id : Uuid} {f : Notification → Notification} :
    StoresNone (writeNotification id f) := by
  intro n
  rw [numbers_eq]
  exact issues_of_modify fun _ => rfl

theorem storesNone_read {ids : List Uuid} {now : Time} :
    StoresNone (writeNotificationsRead ids now) := by
  intro n
  rw [numbers_eq]
  exact issues_of_map (f := fun i x => if i ∈ ids then { x with readAt := some now } else x)
    fun _ => rfl

theorem markNotificationRead_storesNone {id : Uuid} :
    Only StoresNone (markNotificationRead id user.id) := by
  refine only_selectForUpdate.bind fun _ => only_orRaise.bind fun n => only_raiseIf.bind fun _ => ?_
  split
  · exact only_pure
  · exact only_utcnow.bind fun _ => (only_add storesNone_write).bind fun _ =>
      only_flush.bind fun _ => only_pure

/-- The stored notifications have identifiers below `n`. -/
def Db.Numbered (db : Db) (n : Nat) : Prop := ∀ k m, db.notifications.get? k = some m → k < n

theorem numbered_iff {db : Db} {n : Nat} : db.Numbered n ↔ Issued Db.notifications n db := Iff.rfl

/-- Whatever the request, it draws the identifiers of what it stores, or stores nothing new. -/
theorem handle_draws (request : Request) :
    Draws Numbers (handle settings user request)
      ∨ ∃ W, (∀ w, W w → StoresNone w) ∧ Confined W (handle settings user request) := by
  -- most requests write to other tables
  by_cases hrs : Relation.notifications ∉ request.relations
  · exact Or.inr ⟨_, fun _ hw n => numbers_of_keeps (keeps_within hrs hw), handle_within request⟩
  cases request with
  | transitionCampaign id action => exact Or.inl (draws_active draws_transitionCampaign)
  | apply id payload => exact Or.inl (draws_activeBody fun _ => draws_applyToCampaign)
  | accept id => exact Or.inl (draws_active draws_acceptAssignment)
  | decline id => exact Or.inl (draws_active draws_declineAssignment)
  | withdraw id => exact Or.inl (draws_active draws_withdrawAssignment)
  | submit id payload => exact Or.inl (draws_activeBody fun _ => draws_createSubmission)
  | review id payload => exact Or.inl (draws_activeBody fun _ => draws_createReview)
  | message id payload => exact Or.inl (draws_activeBody fun _ => draws_addMessage)
  | openDispute id payload => exact Or.inl (draws_activeBody fun _ => draws_openDispute)
  | resolveDispute id payload =>
      exact Or.inl (draws_after only_getModerator fun _ => draws_after only_orRaise fun _ =>
        draws_before draws_resolveDispute fun _ => only_pure)
  | readNotification id =>
      exact Or.inr ⟨StoresNone, fun _ hw => hw,
        confined_active markNotificationRead_storesNone.confined⟩
  | readAllNotifications =>
      exact Or.inr ⟨StoresNone, fun _ hw => hw, confined_active
        (only_utcnow.confined.bind fun _ => only_queryForUpdate.confined.bind fun _ =>
          confined_execute storesNone_read)⟩
  | _ => exact absurd (by simp [Request.relations]) hrs

theorem numbered_commit {request : Request} {now n n' : Nat} {db db' : Db} {u : Unit}
    (hok : (handle settings user request).commit.alone now db n = .ok (u, db', n'))
    (hdb : db.Numbered n) : db'.Numbered n' := by
  rcases @handle_draws settings user request with h | ⟨W, hW, h⟩
  · rw [numbers_eq] at h
    exact numbered_iff.mpr (h.issued hok (numbered_iff.mp hdb))
  · have hkept : Issued Db.notifications n db' := h.invariant (Issued Db.notifications n) hok
      (numbered_iff.mp hdb) fun w _ hw _ hs => hs.effect (hW w hw n)
    exact numbered_iff.mpr (hkept.later (Program.alone_next_le hok))

/-- **The identifier of the next notification is free**, in every reachable state. -/
theorem numbered_reachable {s : Service} (h : Reachable settings s) : s.db.Numbered s.nextId := by
  induction h with
  | init => exact fun k m hm => absurd hm (by simp [Service.init, Db.empty])
  | @tail s hs now user request ih =>
      unfold Service.serve
      split
      · rename_i db nextId hok
        exact numbered_commit hok ih
      · exact ih

end Requests

end TestExchange
