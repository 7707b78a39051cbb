import TestExchange.Proof.Links
import TestExchange.Proof.Participation
import TestExchange.Proof.Reviews
import TestExchange.Refine.Answers
import TestExchange.Refine.Endings

/-!
# Internal errors

Every refusal has a status of its own, except where the database objects or an
exception is not caught. In every state requests can lead to, the database objects
in two situations only: a patch gives `null` for a column of a draft that may not be
null, and a moderator who never joined does something the records would have to name
them for. What is not caught comes from the service that signs links. What a driver
refuses on its own, a string too wide or a character it cannot send, is left aside.

The service keeps the database in order (`orderly_reachable`), so every service
ends well; and a request that slips queues a write the database refuses, or asks for
a link and trips over the answer.
-/

namespace TestExchange

open Txn Txn.Session

variable {settings : Settings} {user : CurrentUser} {request : Request} {now n n' : Nat}
  {db db' : Db} {s : Service} {u : Uuid} {r : Unit}

/-! ## Order in every reachable state -/

/-- Sessions are those of tests that have been accepted and started. -/
def Db.Idle (db : Db) : Prop :=
  ∀ k x, db.testingSessions.get? k = some x → ∃ a,
    db.assignments.get? x.assignmentId = some a ∧ a.status ≠ .applied ∧ a.status ≠ .accepted

/-- Whoever has started does not go back. -/
theorem Assignment.Moves.begun {a a' : Assignment} (h : a.Moves request now a')
    (happlied : a.status ≠ .applied) (haccepted : a.status ≠ .accepted) :
    a'.status ≠ .applied ∧ a'.status ≠ .accepted := by
  cases h with
  | stay => exact ⟨happlied, haccepted⟩
  | accept h => exact absurd h happlied
  | _ => simp

theorem idle_commit (hs : Reachable settings s) (h : s.db.Idle)
    (hok : (handle settings user request).commit.alone now s.db n = .ok (r, db', n')) :
    db'.Idle := by
  obtain ⟨after, sent, henacts, hdone⟩ := reachable_enacts hs hok
  have hmoves := henacts.moves
  rw [← hdone.roster] at hmoves
  have hold : ∀ k x, s.db.testingSessions.get? k = some x → ∃ a,
      db'.assignments.get? x.assignmentId = some a ∧ a.status ≠ .applied ∧ a.status ≠ .accepted := by
    intro k x hx
    obtain ⟨a, ha, happlied, haccepted⟩ := h k x hx
    obtain ⟨a', ha', hmove⟩ := hmoves.of_get ha
    exact ⟨a', ha', hmove.begun happlied haccepted⟩
  by_cases hsessions : .testingSessions ∈ request.relations
  · obtain ⟨c, halone, hf, -⟩ := commit_alone.mp hok
    have hadds : s.db.AddsSession now db' := by
      cases request with
      | start id =>
          exact yields_active (yields_discard startAssignment_session) now _ _ _ _ _ halone hf
      | recordSession id payload =>
          exact yields_active (yields_validated fun p _ =>
            yields_discard recordTestingSession_session) now _ _ _ _ _ halone hf
      | _ => exact absurd hsessions (by simp [Request.relations])
    obtain ⟨k, t, ht, -, -, a, ha, hstatus⟩ := hadds
    intro i x hx
    rw [ht] at hx
    rcases Table.get?_insert_cases hx with hx | ⟨-, rfl, -⟩
    · exact hold i x hx
    · refine ⟨a, ha, ?_⟩
      rcases hstatus with hs | hs <;> simp [hs]
  · have hsame : db'.testingSessions = s.db.testingSessions := by
      refine commit_keeps hok fun q hq w hw t => ?_
      cases hw <;> first | rfl | exact absurd hq hsessions
    rw [Db.Idle, hsame]
    exact hold

theorem idle_reachable (h : Reachable settings s) : s.db.Idle :=
  reachable_invariant Db.Idle h (fun k x hx => absurd hx (by simp [Db.empty]))
    fun _ _ _ _ _ _ _ hs hdb hok => idle_commit hs hdb hok

/-- What a database in order has to be besides, in a state requests lead to. -/
theorem sound_of_orderly (h : Reachable settings s) (horderly : s.db.Orderly s.nextId) :
    s.db.Sound s.nextId where
  orderly := horderly
  idle := by
    rintro id a ha haccepted k x hx rfl
    obtain ⟨b, hb, -, hnot⟩ := idle_reachable h k x hx
    obtain rfl := Option.some.inj (ha.symm.trans hb)
    exact hnot haccepted
  placed := (caseInv_possible (reachable_possible h)).owned
  pending := by
    rintro k e he hpending i q hq rfl
    obtain ⟨e', he', hdecided, -⟩ := (reviewInv_possible (reachable_possible h)).reviewed i q hq
    obtain rfl := Option.some.inj ((show s.db.evidenceSubmissions.get? _ = _ from he').symm.trans he)
    exact hdecided hpending
  assigned := fun i d v hd hv => (dispute_knows h hd).2 v hv
  tasks := tasksPlaced_reachable h

/-- What ends well leaves the database in order, and fails internally only if `P` holds. -/
theorem EndsWell.commit {α : Type} {P : Prop} {m : Session α}
    (h : EndsWell P m now ⟨db, [], n⟩ fun _ => Arrives) :
    (∀ a db' n', m.commit.alone now db n = .ok (a, db', n') → db'.Orderly n')
      ∧ ∀ e, m.commit.alone now db n = .error e → e.Internal → P := by
  have hheads : EndsWell P m now ⟨db, [], n⟩ fun _ c => ∃ t, OnCourse c t ∧ True := by
    refine h.mono ?_ fun _ he => he
    rintro _ _ ⟨t, ht⟩
    exact ⟨t, ht, trivial⟩
  obtain ⟨hok, herror⟩ := hheads.heads
  exact ⟨fun a db' n' hcommit => (hok a db' n' hcommit).1, herror⟩

/-- **Requests leave the database in order.** -/
theorem orderly_reachable (h : Reachable settings s) : s.db.Orderly s.nextId := by
  induction h with
  | init => exact orderly_empty
  | @tail s hs now user request ih =>
      have hends : EndsWell (request.Slips settings s.db user) (handle settings user request) now
          ⟨s.db, [], s.nextId⟩ fun _ => Arrives := handle_endsWell (sound_of_orderly hs ih)
      obtain ⟨hok, -⟩ := EndsWell.commit hends
      unfold Service.serve
      split
      · rename_i db nextId hserved
        exact hok _ _ _ hserved
      · exact ih

theorem sound_reachable (h : Reachable settings s) : s.db.Sound s.nextId :=
  sound_of_orderly h (orderly_reachable h)

/-! ## Requests that slip -/

/-- The session fails, and internally. -/
abbrev Breaks {α : Type} (m : Session α) (now : Nat) (c : Conn) : Prop :=
  Ends m now c (fun _ _ => False) Failure.Internal

theorem firstViolated_internal {checks : List (Bool × String)} {e : Failure}
    (h : firstViolated checks = some e) : e.Internal := by
  obtain ⟨constraint, rfl⟩ := firstViolated_integrity h
  trivial

section Breaks

variable {α β : Type} {c c' : Conn} {m : Session α} {a : α} {f : α → Session β} {id : Uuid}

theorem Breaks.bind (h : Breaks m now c) : Breaks (m >>= f) now c :=
  Ends.bind h fun _ _ hfalse => hfalse.elim

/-- The database objects to the first write of the queue. -/
theorem breaks_flush {g : Unit → Session β} {w : Write} {ws : List Write}
    (hw : w.violates db ≠ none) (hall : ∀ v ∈ w :: ws, ∀ t e, v.violates t = some e → e.Internal) :
    Breaks (flush >>= g) now ⟨db, w :: ws, n⟩ :=
  ends_flush_refused_bind (applyAll_stopped hw) hall

theorem event_internal {e : AuditEvent} :
    ∀ t f, (insertAuditEvent e).violates t = some f → f.Internal := fun _ _ h => firstViolated_internal h

/-- What is recorded of somebody unknown is refused. -/
theorem breaks_event {g : Unit → Session β} {action entityType : String}
    {details : List (String × Json)} (hu : ¬db.Knows u) :
    Breaks (addAuditEvent (some u) action entityType id details >>= fun _ => flush >>= g) now
      ⟨db, [], n⟩ := by
  refine ends_add_bind (breaks_flush (event_refused hu) ?_)
  exact List.forall_mem_cons.mpr ⟨event_internal, fun _ h => absurd h List.not_mem_nil⟩

/-- A change of a profile does not make anybody known. -/
theorem breaks_profile {g : Unit → Session β} {action entityType : String} {k : Uuid}
    {details : List (String × Json)} {h : Profile → Profile} (hu : ¬db.Knows u) :
    Breaks (add (writeProfile k h) >>= fun _ =>
      addAuditEvent (some u) action entityType id details >>= fun _ => flush >>= g) now
      ⟨db, [], n⟩ := by
  have hunknown : ¬((writeProfile k h).effect db).Knows u := by
    rintro ⟨p, hp⟩
    rcases Table.get?_modify_cases hp with ⟨rfl, q, hq, -⟩ | ⟨-, hold⟩
    · exact hu ⟨q, hq⟩
    · exact hu ⟨p, hold⟩
  refine ends_add_bind (ends_add_bind (ends_flush_refused_bind
    ((applyAll_passed rfl).trans (applyAll_stopped (event_refused hunknown))) ?_))
  exact List.forall_mem_cons.mpr ⟨fun _ _ h => (by cases h), List.forall_mem_cons.mpr
    ⟨event_internal, fun _ h => absurd h List.not_mem_nil⟩⟩

theorem updateCampaign_breaks {x : Campaign} {payload : CampaignUpdate}
    (hx : db.campaigns.get? id = some x) (howner : x.ownerId = u) (hdraft : x.status = .draft)
    (hbounds : payload.Bounded) (hnulls : payload.Nulls) :
    Breaks (updateCampaign id u payload) now ⟨db, [], n⟩ := by
  refine ends_after (getCampaign_ok.mpr ⟨hx, rfl⟩) (ends_passed_bind (not_not.mpr howner)
    (ends_passed_bind (not_not.mpr hdraft) (ends_add_bind (ends_add_bind (breaks_flush ?_ ?_)))))
  · exact fun hnone => (patchCampaign_violates hbounds).mp hnone hnulls
  · exact List.forall_mem_cons.mpr ⟨fun _ _ h => firstViolated_internal h,
      List.forall_mem_cons.mpr ⟨event_internal, fun _ h => absurd h List.not_mem_nil⟩⟩

theorem claimDispute_breaks {d : Dispute} (hd : db.disputes.get? id = some d)
    (hopen : d.status = .open) (hu : ¬db.Knows u) :
    Breaks (claimDispute id u) now ⟨db, [], n⟩ := by
  refine ends_after (selectForUpdate_ok.mpr ⟨rfl, rfl⟩) (ends_found_bind hd ?_)
  rw [if_neg (by rw [hopen]; decide)]
  refine ends_passed_bind (not_not.mpr hopen) (ends_utcnow_bind (ends_add_bind (ends_add_bind
    (breaks_flush ?_ ?_))))
  · simp [writeDispute, not_knows hu]
  · exact List.forall_mem_cons.mpr ⟨fun _ _ h => firstViolated_internal h,
      List.forall_mem_cons.mpr ⟨event_internal, fun _ h => absurd h List.not_mem_nil⟩⟩

theorem suspendParticipant_breaks {reason : String} (hid : db.Knows id) (hu : ¬db.Knows u) :
    Breaks (suspendParticipant id u reason) now ⟨db, [], n⟩ := by
  obtain ⟨p, hp⟩ := hid
  have hne : id ≠ u := by
    rintro rfl
    exact hu ⟨p, hp⟩
  exact ends_passed_bind hne (ends_after (selectForUpdate_ok.mpr ⟨rfl, rfl⟩) (ends_found_bind hp
    (ends_utcnow_bind (breaks_profile hu))))

theorem restoreParticipant_breaks (hid : db.Knows id) (hu : ¬db.Knows u) :
    Breaks (restoreParticipant id u) now ⟨db, [], n⟩ := by
  obtain ⟨p, hp⟩ := hid
  exact ends_after (selectForUpdate_ok.mpr ⟨rfl, rfl⟩) (ends_found_bind hp (breaks_profile hu))

end Breaks

theorem Db.Moderates.admitted (h : db.Moderates settings user.id) :
    (getModerator settings user).alone now ⟨db, [], n⟩ = .ok ((), ⟨db, [], n⟩) :=
  getModerator_iff.mpr ⟨h.1, h.2, rfl⟩

/-- Nobody checks whether a moderator has joined. -/
theorem Db.Stranger.moderates (h : db.Stranger settings u) : db.Moderates settings u := by
  refine ⟨?_, h.1⟩
  rintro ⟨p, hp, -⟩
  exact h.2 ⟨p, hp⟩

section Routes

variable {α β : Type} {m : Session α} {m' : β → Session α} {f : α → Session Response} {o : Option β}
  {q : β}

theorem breaks_activeBody (hactive : ¬db.Suspended user.id) (ho : o = some q)
    (h : Breaks (m' q) now ⟨db, [], n⟩) :
    Breaks (getActiveUser user >>= fun _ => validated o >>= fun q => m' q >>= f) now ⟨db, [], n⟩ := by
  refine ends_after (a := ()) (getActiveUser_ok.mpr ⟨?_, rfl⟩) (ends_found_bind ho h.bind)
  exact hactive

theorem breaks_moderator (hmoderates : db.Moderates settings user.id)
    (h : Breaks m now ⟨db, [], n⟩) :
    Breaks (getModerator settings user >>= fun _ => m >>= f) now ⟨db, [], n⟩ :=
  ends_after hmoderates.admitted h.bind

theorem breaks_moderatorBody (hmoderates : db.Moderates settings user.id) (ho : o = some q)
    (h : Breaks (m' q) now ⟨db, [], n⟩) :
    Breaks (getModerator settings user >>= fun _ => validated o >>= fun q => m' q >>= f) now
      ⟨db, [], n⟩ :=
  ends_after hmoderates.admitted (ends_found_bind ho h.bind)

end Routes

/-- **A request that slips fails internally.** -/
theorem answerRequest_breaks {settings : AppSettings}
    (h : request.Slips settings.toSettings db user) :
    Breaks (answerRequest settings user request) now ⟨db, [], n⟩ := by
  cases request with
  | updateCampaign id payload =>
      obtain ⟨hactive, ⟨x, hx, howner, hdraft⟩, q, hq, hnulls⟩ := h
      exact breaks_activeBody hactive hq
        (updateCampaign_breaks hx howner hdraft (CampaignUpdate.parse_bounded hq) hnulls)
  | claimDispute id =>
      obtain ⟨hstranger, d, hd, hopen⟩ := h
      exact breaks_moderator hstranger.moderates (claimDispute_breaks hd hopen hstranger.2)
  | evidenceUrl disputeId evidenceId answer =>
      rcases h with ⟨hmoderates, htrips⟩ | ⟨hstranger, hopens⟩
      · exact breaks_moderator hmoderates (tripped_ends htrips fun _ => trivial)
      · exact breaks_moderator hstranger.moderates
          (unaudited_ends hopens hstranger.2 fun _ => trivial)
  | suspend id payload =>
      obtain ⟨hstranger, hid, q, hq⟩ := h
      exact breaks_moderatorBody hstranger.moderates hq (suspendParticipant_breaks hid hstranger.2)
  | restore id =>
      obtain ⟨hstranger, hid⟩ := h
      exact breaks_moderator hstranger.moderates (restoreParticipant_breaks hid hstranger.2)
  | _ => exact h.elim

/-! ## Calls -/

/-- The calls that slip: no route that only reads does. -/
def Endpoint.Slips (settings : Settings) (db : Db) (user : CurrentUser) : Endpoint → Prop
  | .read _ => False
  | .write request => request.Slips settings db user

theorem answer_endsWell {settings : AppSettings} {endpoint : Endpoint} (h : db.Sound n) :
    EndsWell (endpoint.Slips settings.toSettings db user) (endpoint.answer settings user) now
      ⟨db, [], n⟩ fun _ => Arrives := by
  cases endpoint with
  | read query =>
      refine (answerQuery_inspects query _ now _).mono ?_ fun _ he => he
      rintro _ _ rfl
      exact arrives_start h.orderly
  | write request => exact answerRequest_endsLike request _ now _ (handle_endsWell h)

theorem answer_breaks {settings : AppSettings} {endpoint : Endpoint}
    (h : endpoint.Slips settings.toSettings db user) :
    Breaks (endpoint.answer settings user) now ⟨db, [], n⟩ := by
  cases endpoint with
  | read query => exact h.elim
  | write request => exact answerRequest_breaks h

/--
**A call fails internally exactly if it slips.** In every state requests can lead
to, every other call is answered or refused with a status that the service chose.
-/
theorem internal_errors_exact (settings : AppSettings) (s : Service)
    (h : Reachable settings.toSettings s) (call : Call) :
    (∃ e, (s.respond settings call).1 = .error e ∧ e.Internal)
      ↔ call.endpoint.Slips settings.toSettings s.db call.user := by
  have hends : EndsWell (call.endpoint.Slips settings.toSettings s.db call.user)
      (call.endpoint.answer settings call.user) call.now ⟨s.db, [], s.nextId⟩ fun _ => Arrives :=
    answer_endsWell (sound_reachable h)
  obtain ⟨-, herror⟩ := EndsWell.commit hends
  unfold Service.respond
  constructor
  · rintro ⟨e, he, hinternal⟩
    split at he
    · cases he
    · rename_i hfailed
      rw [Except.error.inj he] at hfailed
      exact herror e hfailed hinternal
  · intro hslips
    have hbreaks : Breaks (call.endpoint.answer settings call.user) call.now ⟨s.db, [], s.nextId⟩ :=
      answer_breaks hslips
    obtain ⟨e, hfailed, hinternal⟩ := Ends.commit_fails hbreaks
    rw [hfailed]
    exact ⟨e, rfl, hinternal⟩

/-- Only the owner has joined; the moderator has not. -/
def earlyService : Service := Service.init.run benchSettings (benchLaunch.take 1)

theorem internal_errors_exact_early :
    (∃ e, (earlyService.respond { benchSettings with } ⟨1, ⟨9, none⟩, .write (.restore 1)⟩).1
        = .error e ∧ e.Internal)
      ∧ ¬∃ e, (earlyService.respond { benchSettings with } ⟨1, ⟨9, none⟩, .write (.restore 2)⟩).1
        = .error e ∧ e.Internal := by
  have hreachable : Reachable benchSettings earlyService := reachable_run .init _
  have hexact := internal_errors_exact { benchSettings with } earlyService hreachable
  have howner : earlyService.db.profiles.contains 1 = true := by decide +kernel
  have hmoderator : earlyService.db.profiles.contains 9 = false := by decide +kernel
  have hnobody : earlyService.db.profiles.contains 2 = false := by decide +kernel
  have hunknown : ∀ v, earlyService.db.profiles.contains v = false → ¬earlyService.db.Knows v := by
    intro v hv hknown
    rw [Table.contains_eq_true.mpr hknown] at hv
    exact Bool.noConfusion hv
  refine ⟨(hexact _).mpr ⟨⟨?_, hunknown 9 hmoderator⟩, Table.contains_eq_true.mp howner⟩, ?_⟩
  · exact List.mem_singleton.mpr rfl
  · rw [hexact]
    exact fun hslips => hunknown 2 hnobody hslips.2

end TestExchange
