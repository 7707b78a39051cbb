import TestExchange.Refine.Campaigns
import TestExchange.Refine.Workflow

/-!
# Serving requests refines the marketplace

Whatever the request, serving it takes the marketplace along steps, and only the
route that resolves a dispute takes the step that resolves it. So every state a
run of requests can reach describes a possible marketplace, and what is proved
about the steps holds of the service.
-/

namespace TestExchange

open Txn Txn.Session Exchange

/-- The steps a request can take. -/
def Request.performs : Request → Action → Prop
  | .resolveDispute disputeId _, x => x = .resolve disputeId ∨ ∃ id, x = .complete id
  | _, x => ∀ disputeId, x ≠ .resolve disputeId

variable {settings : Settings} {user : CurrentUser}

theorem getActiveUser_ok {now : Nat} {c c' : Conn} {u : Unit} :
    (getActiveUser user).alone now c = .ok (u, c')
      ↔ ¬(∃ p ∈ c.db.profiles.get? user.id, p.isSuspended = true) ∧ c' = c := by
  simp only [getActiveUser, alone_bind, alone_query, alone_raiseIf, and_assoc, exists_and_left,
    exists_eq_left]

theorem getModerator_ok {now : Nat} {c c' : Conn} {u : Unit}
    (h : (getModerator settings user).alone now c = .ok (u, c')) : c' = c := by
  simp only [getModerator, alone_bind, getActiveUser_ok, alone_raiseIf, and_assoc, exists_and_left,
    exists_eq_left, exists_const] at h
  exact h.2.2

/-- Run alone from an empty queue and flushed, `m` changes the database as `P` says. -/
def Yields {α : Type} (m : Session α) (P : Time → Db → Db → Prop) : Prop :=
  ∀ now db n a c db', m.alone now ⟨db, [], n⟩ = .ok (a, c) → Flushes c db' → P now db db'

section Yields

variable {α β : Type} {m : Session α} {P : Time → Db → Db → Prop}

theorem yields_discard (h : Yields m P) : Yields (discard m) P := by
  intro now db n r c db' hok hf
  simp only [discard, alone_bind, alone_pure] at hok
  obtain ⟨a, c₁, hm, _, rfl⟩ := hok
  exact h now db n a _ db' hm hf

/-- The check for a suspended account reads and does nothing else. -/
theorem yields_active (h : Yields m P) : Yields (getActiveUser user >>= fun _ => m) P := by
  intro now db n r c db' hok hf
  simp only [alone_bind, getActiveUser_ok, and_assoc, exists_and_left, exists_eq_left,
    exists_const] at hok
  exact h now db n r c db' hok.2 hf

theorem yields_moderator (h : Yields m P) :
    Yields (getModerator settings user >>= fun _ => m) P := by
  intro now db n r c db' hok hf
  rw [alone_bind] at hok
  obtain ⟨_, c₁, hmod, hok⟩ := hok
  obtain rfl := getModerator_ok hmod
  exact h now db n r c db' hok hf

/-- A body that fits its schema is handed to the service; one that does not ends the request. -/
theorem yields_validated {o : Option β} {m : β → Session α}
    (h : ∀ b, o = some b → Yields (m b) P) : Yields (validated o >>= m) P := by
  intro now db n r c db' hok hf
  simp only [validated, alone_bind, alone_orRaise, and_assoc, exists_and_left, exists_eq_left]
    at hok
  obtain ⟨a, ha, hok⟩ := hok
  exact h a ha now db n r c db' hok hf

theorem yields_mono {Q : Time → Db → Db → Prop} (h : Yields m P)
    (hPQ : ∀ now db db', P now db db' → Q now db db') : Yields m Q :=
  fun now db n r c db' hok hf => hPQ now db db' (h now db n r c db' hok hf)

end Yields

theorem takes_mono {α : Type} {g : Nat} {m : Session α} {p q : Action → Prop}
    (h : Takes g m p) (hpq : ∀ x, p x → q x) : Takes g m q :=
  yields_mono h fun _ _ _ ⟨actions, hactions, hrun⟩ =>
    ⟨actions, fun x hx => hpq x (hactions x hx), hrun⟩

/-- Reading a contract back changes nothing. -/
theorem takes_getContract {α : Type} {g : Nat} {m : Session α} {id : Uuid} {p : Action → Prop}
    (h : Takes g m p) : Takes g (m >>= fun _ => discard (getContract id)) p := by
  intro now db n r c db' hok hf
  simp only [discard, alone_bind, getContract_ok, alone_pure] at hok
  obtain ⟨a, c₁, hm, _, c₂, ⟨_, _, rfl⟩, _, rfl⟩ := hok
  exact h now db n a _ db' hm hf

/-- The steps of each request of a user. -/
def Request.acts (userId : Uuid) : Request → Action → Prop
  | .saveProfile _, x => x = .addProfile userId ∨ x = .editProfile userId
  | .balance, x => x = .openAccount userId
  | .createCampaign _, x => ∃ id, x = .createCampaign id
  | .launchCampaign _, x => x = .note ∨ ∃ id, x = .createCampaign id ∨ x = .publish id
  | .updateCampaign id _, x => x = .editCampaign id
  | .publishCampaign id, x => x = .publish id
  | .transitionCampaign id action, x =>
      x = .transition id action ∨ x = .complete id ∨ ∃ i, x = .decline i
  | .apply _ _, x => ∃ id, x = .apply id
  | .accept id, x => x = .accept id
  | .decline id, x => x = .decline id
  | .withdraw id, x => x = .withdraw id ∨ ∃ campaignId, x = .complete campaignId
  | .start id, x => x = .start id
  | .submit _ _, x => ∃ submissionId, x = .submit submissionId
  | .review submissionId _, x =>
      x = .review submissionId ∨ ∃ campaignId, x = .complete campaignId
  | .openDispute _ _, x => ∃ disputeId, x = .openDispute disputeId
  | .claimDispute disputeId, x => x = .claim disputeId
  | .resolveDispute disputeId _, x =>
      x = .resolve disputeId ∨ ∃ campaignId, x = .complete campaignId
  | .suspend participantId _, x | .restore participantId, x => x = .editProfile participantId
  | .saveContract _ _, x | .recordSession _ _, x | .message _ _, x | .evidenceUrl _ _ _, x =>
      x = .note
  | .waitlist _, _ | .readNotification _, _ | .readAllNotifications, _ => False

/-- **Every handler takes only the steps of its request.** -/
theorem handle_acts (request : Request) :
    Takes settings.signupCreditGrant (handle settings user request) (request.acts user.id) := by
  cases request with
  | saveProfile payload =>
      exact yields_active (yields_validated fun p _ =>
        yields_discard (upsertProfile_takes settings user.id user.email p))
  | waitlist payload =>
      exact yields_validated fun p _ => yields_discard (joinWaitlist_takes p.email)
  | balance => exact yields_active (yields_discard (creditBalance_takes user.id))
  | createCampaign payload =>
      exact yields_active (yields_validated fun p _ =>
        yields_discard (createCampaign_takes user.id p))
  | launchCampaign payload =>
      exact yields_active (yields_validated fun p _ =>
        yields_discard (launchCampaign_takes user.id p))
  | updateCampaign id payload =>
      exact yields_active (yields_validated fun p _ =>
        yields_discard (updateCampaign_takes id user.id p))
  | saveContract id payload =>
      exact yields_active (yields_validated fun p _ =>
        takes_getContract (upsertContract_takes id user.id p))
  | publishCampaign id => exact yields_active (yields_discard (publishCampaign_takes id user.id))
  | transitionCampaign id action =>
      exact yields_active (yields_discard (transitionCampaign_takes id user.id action))
  | apply campaignId payload =>
      exact yields_active (yields_validated fun p _ =>
        yields_discard (applyToCampaign_takes campaignId user.id p))
  | accept id => exact yields_active (yields_discard (acceptAssignment_takes id user.id))
  | decline id => exact yields_active (yields_discard (declineAssignment_takes id user.id))
  | withdraw id => exact yields_active (yields_discard (withdrawAssignment_takes id user.id))
  | start id => exact yields_active (yields_discard (startAssignment_takes id user.id))
  | recordSession id payload =>
      exact yields_active (yields_validated fun p _ =>
        yields_discard (recordTestingSession_takes id user.id p))
  | submit id payload =>
      exact yields_active (yields_validated fun p _ =>
        yields_discard (createSubmission_takes id user.id p))
  | review submissionId payload =>
      exact yields_active (yields_validated fun p _ =>
        yields_discard (createReview_takes submissionId user.id p))
  | message id payload =>
      exact yields_active (yields_validated fun p _ => yields_discard (addMessage_takes id user.id p))
  | openDispute id payload =>
      exact yields_active (yields_validated fun p _ =>
        yields_discard (openDispute_takes id user.id p))
  | claimDispute disputeId =>
      exact yields_moderator (yields_discard (claimDispute_takes disputeId user.id))
  | resolveDispute disputeId payload =>
      exact yields_moderator (yields_validated fun p hp => yields_discard
        (resolveDispute_takes disputeId user.id p (DisputeResolve.parse_remedy hp)))
  | evidenceUrl disputeId evidenceId answer =>
      exact yields_moderator (yields_discard
        (moderatorEvidenceUrl_takes settings disputeId evidenceId user.id answer))
  | suspend participantId payload =>
      exact yields_moderator (yields_validated fun p _ =>
        yields_discard (suspendParticipant_takes participantId user.id p.reason))
  | restore participantId =>
      exact yields_moderator (yields_discard (restoreParticipant_takes participantId user.id))
  | readNotification id =>
      exact yields_active (yields_discard (markNotificationRead_takes id user.id))
  | readAllNotifications =>
      exact yields_active (yields_discard (markAllNotificationsRead_takes user.id))

/-- A request that succeeds has taken steps of its kinds. -/
theorem commit_acts {request : Request} {now n n' : Nat} {db db' : Db} {u : Unit}
    (hok : (handle settings user request).commit.alone now db n = .ok (u, db', n')) :
    ∃ actions, (∀ x ∈ actions, request.acts user.id x)
      ∧ Runs (Step settings.signupCreditGrant) db.exchange actions db'.exchange := by
  obtain ⟨c, halone, hf, -⟩ := commit_alone.mp hok
  exact handle_acts request now db n u c db' halone hf

/-- Only the request to resolve a dispute acts on one like that. -/
theorem performs_of_acts {request : Request} {userId : Uuid} {x : Action}
    (h : request.acts userId x) : request.performs x := by
  cases request with
  | resolveDispute disputeId payload => exact h
  | _ =>
      intro d hx
      subst hx
      simp [Request.acts] at h

theorem handle_takes (request : Request) :
    Takes settings.signupCreditGrant (handle settings user request) request.performs :=
  takes_mono (handle_acts request) fun _ hx => performs_of_acts hx

/-- **Serving a request takes steps of the marketplace**, none if it fails. -/
theorem serve_refines (s : Service) (now : Time) (request : Request) :
    ∃ actions, (∀ x ∈ actions, request.performs x)
      ∧ Runs (Step settings.signupCreditGrant) s.db.exchange actions
          (s.serve settings now user request).db.exchange := by
  unfold Service.serve
  split
  · rename_i db nextId h
    obtain ⟨c, hok, hf, _⟩ := commit_alone.mp h
    exact handle_takes request now s.db s.nextId _ c db hok hf
  · exact ⟨[], by simp, .nil _⟩

/-- **A reachable service describes a possible marketplace.** -/
theorem reachable_possible {s : Service} (h : Reachable settings s) :
    Possible settings.signupCreditGrant s.db.exchange := by
  induction h with
  | init => exact ⟨[], .nil _⟩
  | @tail s _ now user request ih =>
      obtain ⟨actions, hrun⟩ := ih
      obtain ⟨more, _, hmore⟩ := @serve_refines settings user s now request
      exact ⟨actions ++ more, hrun.append hmore⟩

/-! ## Runs under a condition -/

/-- Every request of the run meets the condition in the state it is served in. -/
def Service.Meets (settings : Settings) (cond : Db → CurrentUser → Request → Prop) (s : Service) :
    List (Time × CurrentUser × Request) → Prop
  | [] => True
  | (now, user, request) :: rest =>
      cond s.db user request ∧ (s.serve settings now user request).Meets settings cond rest

theorem meets_append {cond : Db → CurrentUser → Request → Prop} {s : Service}
    {requests more : List (Time × CurrentUser × Request)} :
    s.Meets settings cond (requests ++ more)
      ↔ s.Meets settings cond requests ∧ (s.run settings requests).Meets settings cond more := by
  induction requests generalizing s with
  | nil => exact (iff_of_eq (true_and _)).symm
  | cons r rest ih =>
      obtain ⟨now, user, request⟩ := r
      exact (and_congr_right fun _ => ih).trans and_assoc.symm

/-- A condition that the requests meet in every state. -/
theorem meets_of_forall {cond : Db → CurrentUser → Request → Prop} {s : Service}
    {requests : List (Time × CurrentUser × Request)}
    (h : ∀ r ∈ requests, ∀ db, cond db r.2.1 r.2.2) : s.Meets settings cond requests := by
  induction requests generalizing s with
  | nil => trivial
  | cons r rest ih =>
      obtain ⟨now, user, request⟩ := r
      exact ⟨h _ List.mem_cons_self _, ih fun r hr => h r (List.mem_cons_of_mem _ hr)⟩

/-- **What every request that succeeds and meets the condition preserves, such a run preserves.** -/
theorem run_invariant {cond : Db → CurrentUser → Request → Prop} {s : Service}
    {requests : List (Time × CurrentUser × Request)} (Inv : Db → Prop) (hs : Reachable settings s)
    (hmeets : s.Meets settings cond requests) (hinv : Inv s.db)
    (hstep : ∀ (s : Service) now user request u db nextId, Reachable settings s →
      cond s.db user request → Inv s.db →
      (handle settings user request).commit.alone now s.db s.nextId = .ok (u, db, nextId) →
      Inv db) : Inv (s.run settings requests).db := by
  induction requests generalizing s with
  | nil => exact hinv
  | cons r rest ih =>
      obtain ⟨now, user, request⟩ := r
      obtain ⟨hcond, hrest⟩ := hmeets
      refine ih (hs.tail now user request) hrest ?_
      unfold Service.serve
      split
      · rename_i db nextId hok
        exact hstep s now user request _ db nextId hs hcond hinv hok
      · exact hinv

/-- An invariant that depends on the time holds at the end of a run whose clock never goes back. -/
theorem timed_invariant {s : Service} {t t' : Time}
    {requests : List (Time × CurrentUser × Request)} (Inv : Time → Db → Prop)
    (hs : Reachable settings s) (hclock : (t :: requests.map Prod.fst).Pairwise (· ≤ ·))
    (hend : ∀ r ∈ requests, r.1 ≤ t') (ht : t ≤ t') (hinv : Inv t s.db)
    (hlater : ∀ t t' db, t ≤ t' → Inv t db → Inv t' db)
    (hstep : ∀ (s : Service) now user request u db nextId, Reachable settings s → Inv now s.db →
      (handle settings user request).commit.alone now s.db s.nextId = .ok (u, db, nextId) →
      Inv now db) : Inv t' (s.run settings requests).db := by
  induction requests generalizing s t with
  | nil => exact hlater t t' _ ht hinv
  | cons r rest ih =>
      obtain ⟨now, user, request⟩ := r
      obtain ⟨hfirst, hrest⟩ := List.pairwise_cons.mp hclock
      have hnow : Inv now s.db := hlater t now _ (hfirst now List.mem_cons_self) hinv
      refine ih (hs.tail now user request) hrest (fun r hr => hend r (List.mem_cons_of_mem _ hr))
        (hend _ List.mem_cons_self) ?_
      unfold Service.serve
      split
      · rename_i db nextId hok
        exact hstep s now user request _ db nextId hs hnow hok
      · exact hnow

/-- An invariant of the requests that succeed holds in every reachable state. -/
theorem reachable_invariant {s : Service} (Inv : Db → Prop) (h : Reachable settings s)
    (hinit : Inv Db.empty)
    (hstep : ∀ (s : Service) now user request u db nextId, Reachable settings s → Inv s.db →
      (handle settings user request).commit.alone now s.db s.nextId = .ok (u, db, nextId) →
      Inv db) : Inv s.db := by
  induction h with
  | init => exact hinit
  | @tail s hs now user request ih =>
      unfold Service.serve
      split
      · rename_i db nextId hok
        exact hstep s now user request _ db nextId hs ih hok
      · exact ih

end TestExchange
