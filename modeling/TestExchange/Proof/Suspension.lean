import TestExchange.Model.Storage
import TestExchange.Proof.Completion
import TestExchange.Proof.References
import TestExchange.Refine.Answers

/-!
# Suspension

A suspended account is shut out: whatever it calls that needs a token is refused
and changes nothing, and it can put nothing into the evidence bucket or take
anything out of it. That lasts until a moderator restores the account.

Moderators can suspend each other, but never themselves, and a suspended one
suspends nobody. So the last one standing cannot be suspended, and whoever is
suspended can be restored.
-/

namespace TestExchange

open Txn Txn.Session

variable {settings : Settings} {user : CurrentUser} {now n n' : Nat} {db db' d : Db} {u : Uuid}

/-- The user has a profile, and it is suspended. -/
def Db.Suspended (db : Db) (userId : Uuid) : Prop :=
  ∃ p, db.profiles.get? userId = some p ∧ p.isSuspended = true

/-- A listed moderator, not suspended. -/
def Db.Moderates (db : Db) (settings : Settings) (u : Uuid) : Prop :=
  ¬db.Suspended u ∧ u ∈ settings.moderatorUserIds

/-- The user has a profile, and it is not suspended. -/
def Db.InGoodStanding (db : Db) (userId : Uuid) : Prop :=
  ∃ p, db.profiles.get? userId = some p ∧ p.isSuspended = false

theorem not_suspended (h : db.InGoodStanding u) : ¬db.Suspended u := by
  rintro ⟨p, hp, hsuspended⟩
  obtain ⟨q, hq, hgood⟩ := h
  rw [hp] at hq
  rw [← Option.some.inj hq, hsuspended] at hgood
  exact Bool.noConfusion hgood

theorem inGoodStanding_of_knows (h : db.Knows u) (hs : ¬db.Suspended u) : db.InGoodStanding u := by
  obtain ⟨p, hp⟩ := h
  refine ⟨p, hp, ?_⟩
  by_contra hsuspended
  exact hs ⟨p, hp, by simpa using hsuspended⟩

/-! ## Writes that suspend nobody -/

/-- Nobody is suspended or restored, and no profile is lost. -/
structure SameStanding (db db' : Db) : Prop where
  before : ∀ u, db'.Suspended u → db.Suspended u
  after : ∀ u, db.Suspended u → db'.Suspended u
  standing : ∀ u, db.InGoodStanding u → db'.InGoodStanding u

theorem SameStanding.trans (h : SameStanding db d) (h' : SameStanding d db') :
    SameStanding db db' where
  before u hu := h.before u (h'.before u hu)
  after u hu := h'.after u (h.after u hu)
  standing u hu := h'.standing u (h.standing u hu)

theorem sameStanding_of_eq (h : db'.profiles = db.profiles) : SameStanding db db' := by
  constructor
  · rintro u ⟨p, hp, hs⟩
    rw [h] at hp
    exact ⟨p, hp, hs⟩
  · rintro u ⟨p, hp, hs⟩
    rw [← h] at hp
    exact ⟨p, hp, hs⟩
  · rintro u ⟨p, hp, hs⟩
    rw [← h] at hp
    exact ⟨p, hp, hs⟩

/-- A new profile is not suspended. -/
theorem sameStanding_insert {p : Profile} (hp : p.isSuspended = false) :
    SameStanding db { db with profiles := db.profiles.insert u p } := by
  constructor
  · rintro v ⟨q, hq, hs⟩
    rcases Table.get?_insert_cases hq with hold | ⟨-, rfl, -⟩
    · exact ⟨q, hold, hs⟩
    · rw [hp] at hs
      exact Bool.noConfusion hs
  · rintro v ⟨q, hq, hs⟩
    exact ⟨q, Table.get?_insert_of_some hq, hs⟩
  · rintro v ⟨q, hq, hs⟩
    exact ⟨q, Table.get?_insert_of_some hq, hs⟩

theorem sameStanding_modify {f : Profile → Profile} (hf : ∀ p, (f p).isSuspended = p.isSuspended) :
    SameStanding db { db with profiles := db.profiles.modify u f } := by
  have hkept : ∀ v b, (∃ p, db.profiles.get? v = some p ∧ p.isSuspended = b) →
      ∃ p, (db.profiles.modify u f).get? v = some p ∧ p.isSuspended = b := by
    rintro v b ⟨p, hp, hb⟩
    by_cases hv : v = u
    · refine ⟨f p, ?_, (hf p).trans hb⟩
      rw [hv, Table.get?_modify_self, ← hv, hp]
      rfl
    · refine ⟨p, ?_, hb⟩
      rw [Table.get?_modify_ne hv]
      exact hp
  refine ⟨?_, fun v hv => hkept v true hv, fun v hv => hkept v false hv⟩
  rintro v ⟨q, hq, hs⟩
  rcases Table.get?_modify_cases hq with ⟨rfl, p, hp, rfl⟩ | ⟨-, hold⟩
  · exact ⟨p, hp, (hf p).symm.trans hs⟩
  · exact ⟨q, hold, hs⟩

/-- A write after which everybody's standing is what it was. -/
def Steady (w : Write) : Prop := ∀ db, SameStanding db (w.effect db)

theorem steady_of_keeps {w : Write} (h : Keeps Db.profiles w) : Steady w :=
  fun db => sameStanding_of_eq (h db)

/-- Saving a profile does not touch its suspension. -/
theorem upsertProfile_steady {email : Option String} {payload : ProfileUpsert} :
    Only Steady (upsertProfile settings u email payload) := by
  have hevent : ∀ action, Only Steady (addAuditEvent (some u) action "profile" u []) :=
    fun action => only_addAuditEvent (steady_of_keeps fun _ => rfl)
  refine only_query.bind fun _ => only_raiseIf.bind fun _ => only_query.bind fun found => ?_
  cases found with
  | some profile =>
      have hsaved : Steady (writeSavedProfile u profile.username payload.username
          (payload.set email profile)) := fun db => sameStanding_modify fun _ => rfl
      exact (only_add hsaved).bind fun _ => (hevent _).bind fun _ => only_flush.bind fun _ => only_pure
  | none =>
      have hnew : Steady (insertProfile u (payload.profile email)) :=
        fun db => sameStanding_insert rfl
      refine only_raiseIf.bind fun _ => Only.bind ?_ fun state => only_raiseIf.bind fun _ =>
        (only_add (steady_of_keeps fun _ => rfl)).bind fun _ => (only_add hnew).bind fun _ =>
        only_flush.bind fun _ => (only_ensureCreditAccount (steady_of_keeps fun _ => rfl)).bind
        fun _ => Only.bind ?_ fun _ => (hevent _).bind fun _ => only_flush.bind fun _ => only_pure
      · refine only_queryForUpdate.bind fun found => ?_
        cases found with
        | some state => exact only_pure
        | none =>
            exact only_query.bind fun _ => (only_add (steady_of_keeps fun _ => rfl)).bind
              fun _ => only_flush.bind fun _ => only_pure
      · unfold grantSignupCredits
        split
        · exact (only_recordCreditEntry (steady_of_keeps fun _ => rfl)
            (fun _ => steady_of_keeps fun _ => rfl) fun _ => steady_of_keeps fun _ => rfl).bind
            fun _ => only_pure
        · exact only_pure

/-- **Only the two moderator routes change anybody's standing.** -/
theorem sameStanding_commit {request : Request} {r : Unit}
    (hok : (handle settings user request).commit.alone now db n = .ok (r, db', n'))
    (hsuspend : ∀ p payload, request ≠ .suspend p payload) (hrestore : ∀ p, request ≠ .restore p) :
    SameStanding db db' := by
  by_cases hsave : ∃ payload, request = .saveProfile payload
  · obtain ⟨payload, rfl⟩ := hsave
    have hsteady : Confined Steady (handle settings user (.saveProfile payload)) :=
      confined_activeBody fun _ => upsertProfile_steady.confined
    refine hsteady.invariant (SameStanding db) hok (sameStanding_of_eq rfl) ?_
    exact fun w t hw _ ht => ht.trans (hw t)
  · have hprofiles : Relation.profiles ∉ request.relations := by
      cases request with
      | saveProfile payload => exact absurd ⟨payload, rfl⟩ hsave
      | suspend p payload => exact absurd rfl (hsuspend p payload)
      | restore p => exact absurd rfl (hrestore p)
      | _ => simp [Request.relations]
    refine sameStanding_of_eq (commit_keeps hok fun r hr w hw t => ?_)
    cases hw with
    | insertProfile => exact absurd hr hprofiles
    | writeProfile => exact absurd hr hprofiles
    | writeSavedProfile => exact absurd hr hprofiles
    | _ => rfl

/-! ## Suspending and restoring -/

theorem getModerator_iff {c c' : Conn} {r : Unit} :
    (getModerator settings user).alone now c = .ok (r, c')
      ↔ ¬c.db.Suspended user.id ∧ user.id ∈ settings.moderatorUserIds ∧ c' = c := by
  simp only [getModerator, alone_bind, getActiveUser_ok, alone_raiseIf, not_not, and_assoc,
    exists_and_left, exists_eq_left, exists_const]
  exact Iff.rfl

/-- The event of a moderator's write is about a moderator with a profile. -/
theorem knows_of_event {t t' : Db} {f : Profile → Profile} {e : AuditEvent}
    (h : applyAll [writeProfile u f, insertAuditEvent e] t = some t') (he : e.actorId = some user.id) :
    t.Knows user.id ∧ t'.profiles = t.profiles.modify u f := by
  simp only [applyAll_cons, applyAll_nil] at h
  obtain ⟨-, hevent, rfl⟩ := h
  simp only [insertAuditEvent, firstViolated_cons, he] at hevent
  obtain ⟨p, hp⟩ := knows_of_contains hevent.1
  refine ⟨?_, rfl⟩
  rcases Table.get?_modify_cases hp with ⟨hu, q, hq, -⟩ | ⟨-, hold⟩
  · exact ⟨q, hu ▸ hq⟩
  · exact ⟨p, hold⟩

/-- What a moderator's request to change somebody's standing does when it succeeds. -/
structure Moderates (settings : Settings) (user : CurrentUser) (p : Uuid) (suspended : Bool)
    (db db' : Db) : Prop where
  active : db.InGoodStanding user.id
  moderator : user.id ∈ settings.moderatorUserIds
  written : ∃ f : Profile → Profile, (∀ x, (f x).isSuspended = suspended)
    ∧ db'.profiles = db.profiles.modify p f

theorem suspend_moderates {p : Uuid} {payload : ParticipantSuspension} {r : Unit}
    (hok : (handle settings user (.suspend p payload)).commit.alone now db n = .ok (r, db', n')) :
    p ≠ user.id ∧ Moderates settings user p true db db' := by
  obtain ⟨c, halone, hf, -⟩ := commit_alone.mp hok
  simp only [handle, discard, validated, suspendParticipant, addAuditEvent, alone_bind,
    getModerator_iff, alone_orRaise, alone_raiseIf, selectForUpdate_ok, alone_utcnow, alone_add,
    alone_flush, alone_pure, and_assoc, exists_and_left, exists_eq_left, exists_const,
    List.nil_append, List.cons_append] at halone
  obtain ⟨hactive, hmoderator, q, -, hne, _, _, ⟨_, -, _, ⟨t, happly, rfl⟩, -, rfl⟩, -, rfl⟩ :=
    halone
  rw [applyAll_nil.mp hf]
  obtain ⟨hknows, hprofiles⟩ : _ ∧ t.profiles = _ := knows_of_event happly rfl
  refine ⟨hne, inGoodStanding_of_knows hknows hactive, hmoderator, _, fun _ => ?_, hprofiles⟩
  rfl

theorem restore_moderates {p : Uuid} {r : Unit}
    (hok : (handle settings user (.restore p)).commit.alone now db n = .ok (r, db', n')) :
    Moderates settings user p false db db' := by
  obtain ⟨c, halone, hf, -⟩ := commit_alone.mp hok
  simp only [handle, discard, restoreParticipant, addAuditEvent, alone_bind, getModerator_iff,
    alone_orRaise, selectForUpdate_ok, alone_add, alone_flush, alone_pure, and_assoc,
    exists_and_left, exists_eq_left, exists_const, List.nil_append, List.cons_append] at halone
  obtain ⟨hactive, hmoderator, _, _, ⟨_, -, _, ⟨t, happly, rfl⟩, -, rfl⟩, -, rfl⟩ := halone
  rw [applyAll_nil.mp hf]
  obtain ⟨hknows, hprofiles⟩ : _ ∧ t.profiles = _ := knows_of_event happly rfl
  refine ⟨inGoodStanding_of_knows hknows hactive, hmoderator, _, fun _ => ?_, hprofiles⟩
  rfl

/-- After the request the account has the standing it asks for, and the others have kept theirs. -/
theorem Moderates.standings {p : Uuid} {b : Bool} (h : Moderates settings user p b db db') :
    (∀ x, db'.profiles.get? p = some x → x.isSuspended = b)
      ∧ ∀ v, v ≠ p → db'.profiles.get? v = db.profiles.get? v := by
  obtain ⟨f, hf, hprofiles⟩ := h.written
  rw [hprofiles]
  refine ⟨fun x hx => ?_, fun v hv => Table.get?_modify_ne hv⟩
  rcases Table.get?_modify_cases hx with ⟨-, y, -, rfl⟩ | ⟨hne, -⟩
  · exact hf y
  · exact absurd rfl hne

/-! ## Some moderator is left -/

/-- Whoever is suspended, some moderator is not. -/
def Db.Moderated (settings : Settings) (db : Db) : Prop :=
  ∀ p, db.Suspended p → ∃ m ∈ settings.moderatorUserIds, db.InGoodStanding m

theorem moderated_commit {request : Request} {r : Unit} (h : db.Moderated settings)
    (hok : (handle settings user request).commit.alone now db n = .ok (r, db', n')) :
    db'.Moderated settings := by
  by_cases hsuspend : ∃ p payload, request = .suspend p payload
  · obtain ⟨p, payload, rfl⟩ := hsuspend
    obtain ⟨hne, hmoderates⟩ := suspend_moderates hok
    obtain ⟨x, hx, hgood⟩ := hmoderates.active
    -- the moderator who suspends somebody is still there afterwards
    refine fun v _ => ⟨user.id, hmoderates.moderator, x, ?_, hgood⟩
    rw [hmoderates.standings.2 user.id (Ne.symm hne)]
    exact hx
  by_cases hrestore : ∃ p, request = .restore p
  · obtain ⟨p, rfl⟩ := hrestore
    have hmoderates := restore_moderates hok
    obtain ⟨hthis, hothers⟩ := hmoderates.standings
    obtain ⟨x, hx, hgood⟩ := hmoderates.active
    refine fun v _ => ⟨user.id, hmoderates.moderator, ?_⟩
    by_cases hp : user.id = p
    · obtain ⟨f, hf, hprofiles⟩ := hmoderates.written
      refine ⟨f x, ?_, hf x⟩
      rw [hprofiles, hp, Table.get?_modify_self, ← hp, hx]
      rfl
    · exact ⟨x, (hothers user.id hp).trans hx, hgood⟩
  · have hsame := sameStanding_commit hok (fun p payload hr => hsuspend ⟨p, payload, hr⟩)
      fun p hr => hrestore ⟨p, hr⟩
    intro v hv
    obtain ⟨m, hm, hgood⟩ := h v (hsame.before v hv)
    exact ⟨m, hm, hsame.standing m hgood⟩

theorem moderated_reachable {s : Service} (h : Reachable settings s) : s.db.Moderated settings := by
  refine reachable_invariant (Db.Moderated settings) h ?_ ?_
  · rintro p ⟨x, hx, -⟩
    exact absurd hx (by simp [Db.empty])
  · exact fun s now user request r db nextId _ hdb hok => moderated_commit hdb hok

/-- A moderator in good standing restores whoever has a profile. -/
theorem restore_returns {settings : AppSettings} {p : Uuid} {x : Profile}
    (hactive : db.InGoodStanding user.id) (hmoderator : user.id ∈ settings.moderatorUserIds)
    (hx : db.profiles.get? p = some x) :
    ∃ response db' n', (answerRequest settings user (.restore p)).commit.alone now db n
      = .ok (response, db', n') ∧ db'.InGoodStanding p := by
  have hmay : (getModerator settings.toSettings user).alone now ⟨db, [], n⟩
      = .ok ((), ⟨db, [], n⟩) :=
    getModerator_iff.mpr ⟨not_suspended hactive, hmoderator, rfl⟩
  have hknows : db.Knows user.id := by
    obtain ⟨y, hy, -⟩ := hactive
    exact ⟨y, hy⟩
  have hrestored : Returns (restoreParticipant p user.id) now ⟨db, [], n⟩ fun _ c =>
      c.pending = [] ∧ c.db.InGoodStanding p := by
    unfold restoreParticipant
    simp only [Returns, selectForUpdate, alone_queryForUpdate_bind, hx, alone_orRaise_bind,
      addAuditEvent, alone_add_bind, List.nil_append, List.cons_append]
    refine (returns_flush (Q := fun _ c => c.pending = [] ∧ c.db.InGoodStanding p)
      (applyAll_cons.mpr ⟨rfl, applyAll_cons.mpr ⟨?_, rfl⟩⟩) ⟨rfl, ?_⟩).bind ?_
    · exact insertAuditEvent_accepted rfl (stays_modify hknows)
    · refine ⟨{ x with isSuspended := false, suspendedAt := none, suspensionReason := none }, ?_, rfl⟩
      show (db.profiles.modify p _).get? p = _
      rw [Table.get?_modify_self, hx]
      rfl
    · exact fun _ c hc => returns_pure hc
  have hall : Returns (answerRequest settings user (.restore p)) now ⟨db, [], n⟩ fun _ c =>
      c.pending = [] ∧ c.db.InGoodStanding p := by
    refine Returns.bind (Q := fun _ c => c = ⟨db, [], n⟩) ⟨(), _, hmay, rfl⟩ ?_
    rintro _ c rfl
    exact hrestored.bind fun _ c hc => returns_pure hc
  obtain ⟨response, c, hok, hpending, hgood⟩ := hall
  exact ⟨response, c.db, c.next, commit_alone.mpr ⟨c, hok, by rw [hpending]; rfl, rfl⟩, hgood⟩

/--
**Every suspension can be lifted.** Whoever is suspended, some listed moderator
has a profile that is not, and their request to restore the account succeeds.
-/
theorem suspension_reversible (settings : AppSettings) (s : Service)
    (h : Reachable settings.toSettings s) (p : Uuid) (hp : s.db.Suspended p) :
    ∃ m ∈ settings.moderatorUserIds, s.db.InGoodStanding m ∧ ∀ now email,
      ∃ response, (s.respond settings ⟨now, ⟨m, email⟩, .write (.restore p)⟩).1 = .ok response
        ∧ (s.respond settings ⟨now, ⟨m, email⟩, .write (.restore p)⟩).2.db.InGoodStanding p := by
  obtain ⟨m, hm, hgood⟩ := moderated_reachable h p hp
  obtain ⟨x, hx, -⟩ := hp
  refine ⟨m, hm, hgood, fun now email => ?_⟩
  obtain ⟨response, db', n', hok, hrestored⟩ : ∃ response db' n',
      (answerRequest settings ⟨m, email⟩ (.restore p)).commit.alone now s.db s.nextId
        = .ok (response, db', n') ∧ db'.InGoodStanding p := restore_returns hgood hm hx
  refine ⟨response, ?_⟩
  unfold Service.respond Endpoint.answer
  simp only [hok]
  exact ⟨trivial, hrestored⟩

/-! ## A suspended account is shut out -/

/-- The routes that take the caller from a token. -/
def Endpoint.needsToken : Endpoint → Bool
  | .read .health | .read .ready | .read .betaStatus | .read .publicCampaigns => false
  | .read (.publicCampaign _) | .write (.waitlist _) => false
  | _ => true

/-- The answer of `get_active_user` to a suspended account. -/
def suspendedFailure : Failure :=
  .http 403 "This account is suspended. Contact support if you believe this is an error."

/-- A moderator other than `p` asks to restore `p`. -/
def Call.Restores (settings : Settings) (p : Uuid) (call : Call) : Prop :=
  call.endpoint = .write (.restore p) ∧ call.user.id ∈ settings.moderatorUserIds ∧ call.user.id ≠ p

section ShutOut

variable {settings : AppSettings} {s : Service} {call : Call}

theorem getActiveUser_refuses {α : Type} {f : Unit → Session α} {c : Conn}
    (h : c.db.Suspended user.id) : Fails (getActiveUser user >>= f) now c suspendedFailure := by
  refine Fails.bind ?_
  unfold getActiveUser
  rw [Fails, alone_query_bind]
  exact fails_raiseIf h

theorem getModerator_refuses {α : Type} {f : Unit → Session α} {c : Conn}
    (h : c.db.Suspended user.id) :
    Fails (getModerator settings.toSettings user >>= f) now c suspendedFailure := by
  refine Fails.bind ?_
  unfold getModerator
  exact getActiveUser_refuses h

theorem answer_refuses {endpoint : Endpoint} {c : Conn} (h : c.db.Suspended user.id)
    (hneeds : endpoint.needsToken = true) :
    Fails (endpoint.answer settings user) now c suspendedFailure := by
  cases endpoint with
  | read query =>
      cases query with
      | health | ready | betaStatus | publicCampaigns | publicCampaign => exact Bool.noConfusion hneeds
      | moderationDisputes | disputeCase | participants | waitlist => exact getModerator_refuses h
      | _ => exact getActiveUser_refuses h
  | write request =>
      cases request with
      | waitlist => exact Bool.noConfusion hneeds
      | claimDispute | resolveDispute | evidenceUrl | suspend | restore =>
          exact getModerator_refuses h
      | _ => exact getActiveUser_refuses h

theorem respond_refuses (h : s.db.Suspended call.user.id) (hneeds : call.endpoint.needsToken = true) :
    s.respond settings call = (.error suspendedFailure, s) := by
  have hfails : (call.endpoint.answer settings call.user).commit.alone call.now s.db s.nextId
      = .error suspendedFailure := (answer_refuses h hneeds).commit
  unfold Service.respond
  rw [hfails]

/-- **One call**: whoever is suspended stays so, unless a moderator restores them. -/
theorem suspended_respond {p : Uuid} (h : s.db.Suspended p)
    (hcall : ¬call.Restores settings.toSettings p) : (s.respond settings call).2.db.Suspended p := by
  rcases @respond_serves settings s call with hsame | ⟨request, hend, hserved⟩
  · rw [hsame]
    exact h
  rw [hserved]
  unfold Service.serve
  split
  · rename_i r db nextId hok
    by_cases hsuspend : ∃ q payload, request = .suspend q payload
    · obtain ⟨q, payload, rfl⟩ := hsuspend
      obtain ⟨hthis, hothers⟩ := (suspend_moderates hok).2.standings
      obtain ⟨x, hx, hsuspended⟩ := h
      by_cases hp : p = q
      · obtain ⟨f, hf, hprofiles⟩ := (suspend_moderates hok).2.written
        refine ⟨f x, ?_, hf x⟩
        rw [hprofiles, ← hp, Table.get?_modify_self, hx]
        rfl
      · exact ⟨x, (hothers p hp).trans hx, hsuspended⟩
    by_cases hrestore : ∃ q, request = .restore q
    · obtain ⟨q, rfl⟩ := hrestore
      have hmoderates := restore_moderates hok
      obtain ⟨x, hx, hsuspended⟩ := h
      have hp : p ≠ q := by
        rintro rfl
        refine hcall ⟨hend, hmoderates.moderator, fun hself => ?_⟩
        refine not_suspended hmoderates.active ?_
        rw [hself]
        exact ⟨x, hx, hsuspended⟩
      exact ⟨x, (hmoderates.standings.2 p hp).trans hx, hsuspended⟩
    · have hsame := sameStanding_commit hok (fun q payload hr => hsuspend ⟨q, payload, hr⟩)
        fun q hr => hrestore ⟨q, hr⟩
      exact hsame.after p h
  · exact h

theorem suspended_after {p : Uuid} {calls : List Call} (h : s.db.Suspended p)
    (hcalls : ∀ call ∈ calls, ¬call.Restores settings.toSettings p) :
    (s.after settings calls).db.Suspended p := by
  induction calls generalizing s with
  | nil => exact h
  | cons call calls ih =>
      have hnext := suspended_respond h (hcalls call List.mem_cons_self)
      exact ih hnext fun later hlater => hcalls later (List.mem_cons_of_mem _ hlater)

end ShutOut

theorem testsInFolder_suspended {statuses : List AssignmentStatus} {folder : Option String}
    (h : db.Suspended u) : testsInFolder db u statuses folder = false := by
  obtain ⟨x, hx, hsuspended⟩ := h
  simp [testsInFolder, hx, hsuspended]

/--
**A suspension shuts out until it is lifted.** After any calls by anybody, none of
which is a moderator's request to restore the account, whatever it calls with its
token is refused and changes nothing, and the bucket's policies let it neither
upload nor delete.
-/
theorem suspension_enforced (settings : AppSettings) (s : Service) (p : Uuid)
    (hp : s.db.Suspended p) (calls : List Call)
    (hcalls : ∀ call ∈ calls, ¬call.Restores settings.toSettings p) :
    (∀ call : Call, call.user.id = p → call.endpoint.needsToken = true →
        (s.after settings calls).respond settings call
          = (.error suspendedFailure, s.after settings calls))
      ∧ ∀ folder name, canUploadEvidence (s.after settings calls).db p folder = false
        ∧ canDeleteOrphanEvidence (s.after settings calls).db p folder name = false := by
  have hstill := suspended_after hp hcalls
  refine ⟨fun call hcall hneeds => ?_, fun folder name => ⟨testsInFolder_suspended hstill, ?_⟩⟩
  · refine respond_refuses ?_ hneeds
    rw [hcall]
    exact hstill
  · unfold canDeleteOrphanEvidence
    rw [testsInFolder_suspended hstill]
    rfl

/-! ## Witnesses -/

/-- The first tester, who is user 2, has been suspended by the moderator. -/
def suspendedService : Service :=
  Service.init.run benchSettings
    (benchLaunch ++ [(0, ⟨9, none⟩, .suspend 2 ⟨"Sits on every bench"⟩)])

theorem suspendedService_suspends : suspendedService.db.Suspended 2 := by
  have hrow : (suspendedService.db.profiles.get? 2).map (·.isSuspended) = some true := by
    decide +kernel
  obtain ⟨p, hp, hs⟩ := Option.map_eq_some_iff.mp hrow
  exact ⟨p, hp, hs⟩

theorem suspension_reversible_bench :
    Reachable benchSettings suspendedService ∧ suspendedService.db.Suspended 2
      ∧ ∃ m ∈ benchSettings.moderatorUserIds, suspendedService.db.InGoodStanding m := by
  have hreachable : Reachable benchSettings suspendedService := reachable_run .init _
  obtain ⟨m, hm, hgood, -⟩ := suspension_reversible { benchSettings with } suspendedService
    hreachable 2 suspendedService_suspends
  exact ⟨hreachable, suspendedService_suspends, m, hm, hgood⟩

/-- Neither saving the profile again nor asking for mercy helps. -/
def pleas : List Call :=
  [⟨1, ⟨2, none⟩, .write (.saveProfile { username := "sitter", displayName := "Sitter" })⟩,
   ⟨2, ⟨2, none⟩, .write (.restore 2)⟩]

theorem suspension_enforced_pleas :
    suspendedService.db.Suspended 2
      ∧ (suspendedService.after { benchSettings with } pleas).respond { benchSettings with }
          ⟨3, ⟨2, none⟩, .write (.apply 4 {})⟩
        = (.error suspendedFailure, suspendedService.after { benchSettings with } pleas) := by
  refine ⟨suspendedService_suspends, ?_⟩
  refine (suspension_enforced { benchSettings with } suspendedService 2 suspendedService_suspends
    pleas ?_).1 ⟨3, ⟨2, none⟩, .write (.apply 4 {})⟩ rfl rfl
  intro call hcall
  simp only [pleas, List.mem_cons, List.not_mem_nil, or_false] at hcall
  rcases hcall with rfl | rfl
  · exact fun h => Request.noConfusion (Endpoint.write.inj h.1)
  · exact fun h => h.2.2 rfl

end TestExchange
