import TestExchange.Proof.Ledger
import TestExchange.Proof.Lifecycle
import TestExchange.Refine.Roster

/-!
# No notification is swallowed or sent twice

A stored notification is about something that has happened, and what has
happened stays so. A request that notifies of something makes it happen, so
before the request it had not, and its key was free: the lookup of
`add_notification` finds nothing, ever.
-/

namespace TestExchange

open Txn Exchange

variable {settings : Settings} {user : CurrentUser} {request : Request} {now n n' : Nat}
  {db db' : Db} {u : Unit}

/-! ## What has happened stays so -/

/-- No write removes a row of the table. -/
def Stays {α : Type} (table : Db → Table α) : Prop :=
  ∀ r w, WritesTo r w → ∀ db k, (∃ a, (table db).get? k = some a) →
    ∃ a, (table (w.effect db)).get? k = some a

theorem stays_insert {α : Type} {t : Table α} {i k : Uuid} {b : α} (h : ∃ a, t.get? k = some a) :
    ∃ a, (t.insert i b).get? k = some a :=
  let ⟨a, ha⟩ := h
  ⟨a, Table.get?_insert_of_some ha⟩

theorem stays_modify {α : Type} {t : Table α} {i k : Uuid} {f : α → α}
    (h : ∃ a, t.get? k = some a) : ∃ a, (t.modify i f).get? k = some a :=
  let ⟨_, ha⟩ := h
  Table.exists_get?_modify ha

theorem stays_profiles : Stays Db.profiles := by
  intro r w hw db k h
  cases hw with
  | insertProfile => exact stays_insert h
  | writeProfile => exact stays_modify h
  | writeSavedProfile => exact stays_modify h
  | _ => exact h

theorem stays_submissions : Stays Db.evidenceSubmissions := by
  intro r w hw db k h
  cases hw with
  | insertEvidenceSubmission => exact stays_insert h
  | writeEvidenceSubmission => exact stays_modify h
  | _ => exact h

theorem stays_reviews : Stays Db.reviews := by
  intro r w hw db k h
  cases hw with
  | insertReview => exact stays_insert h
  | _ => exact h

theorem stays_messages : Stays Db.messages := by
  intro r w hw db k h
  cases hw with
  | insertMessage => exact stays_insert h
  | _ => exact h

theorem stays_disputes : Stays Db.disputes := by
  intro r w hw db k h
  cases hw with
  | insertDispute => exact stays_insert h
  | writeDispute => exact stays_modify h
  | _ => exact h

theorem Stays.commit {α : Type} {table : Db → Table α} (h : Stays table) {k : Uuid}
    (hok : (handle settings user request).commit.alone now db n = .ok (u, db', n'))
    (hk : ∃ a, (table db).get? k = some a) : ∃ a, (table db').get? k = some a :=
  (handle_within request).invariant (fun t => ∃ a, (table t).get? k = some a) hok hk
    fun w t ⟨r, _, hw⟩ _ ht => h r w hw t k ht

/-- A decided dispute stays decided. -/
theorem closed_commit (hcase : CaseInv db.exchange) {k : Uuid}
    (hok : (handle settings user request).commit.alone now db n = .ok (u, db', n'))
    (hk : ∃ d, db.disputes.get? k = some d ∧ d.status ∉ activeDisputeStatuses) :
    ∃ d, db'.disputes.get? k = some d ∧ d.status ∉ activeDisputeStatuses := by
  obtain ⟨c, halone, hf, -⟩ := Session.commit_alone.mp hok
  obtain ⟨actions, -, hrun⟩ := handle_takes request now db n u c db' halone hf
  obtain ⟨d, hd, hclosed⟩ := hk
  exact ⟨d, (closedFrozen_runs hcase hrun k d hd hclosed).1, hclosed⟩

/-- **What has happened stays so**, whatever is requested next. -/
theorem occurs_commit (hcase : CaseInv db.exchange) (hinv : NoticeInv db) {o : Notice}
    (hok : (handle settings user request).commit.alone now db n = .ok (u, db', n'))
    (ho : o.Occurs db) : o.Occurs db' := by
  obtain ⟨after, sent, henacts, hdone⟩ := commit_enacts hinv hok
  have hmoves := henacts.moves
  rw [← hdone.roster] at hmoves
  have hanswered : (∃ a, db.assignments.get? o.subject = some a ∧ a.status ≠ .applied) →
      ∃ a, db'.assignments.get? o.subject = some a ∧ a.status ≠ .applied := by
    rintro ⟨a, ha, hstatus⟩
    obtain ⟨a', ha', hmove⟩ := hmoves.of_get ha
    exact ⟨a', ha', hmove.answered hstatus⟩
  obtain ⟨kind, k⟩ := o
  cases kind with
  | applied =>
      obtain ⟨a, ha⟩ := ho
      obtain ⟨a', ha', -⟩ := hmoves.of_get ha
      exact ⟨a', ha'⟩
  | accepted => exact hanswered ho
  | declined => exact hanswered ho
  | recruitmentClosed => exact hanswered ho
  | withdrawn =>
      obtain ⟨a, ha, hstatus⟩ := ho
      obtain ⟨a', ha', hmove⟩ := hmoves.of_get ha
      exact ⟨a', ha', hmove.cancelled hstatus⟩
  | submitted => exact stays_submissions.commit hok ho
  | reviewed => exact stays_reviews.commit hok ho
  | messaged => exact stays_messages.commit hok ho
  | disputed => exact stays_disputes.commit hok ho
  | resolvedForTester => exact closed_commit hcase hok ho
  | resolvedForOwner => exact closed_commit hcase hok ho

theorem noticeInv_commit (hcase : CaseInv db.exchange) (hinv : NoticeInv db)
    (hok : (handle settings user request).commit.alone now db n = .ok (u, db', n')) :
    NoticeInv db' := by
  obtain ⟨after, sent, -, hdone⟩ := commit_enacts hinv hok
  intro k m hm
  rcases hdone.posts.cases hm with ⟨i, m', hm', hkey⟩ | ⟨p, hp, hkey⟩
  · obtain ⟨o, ho, hoccurs⟩ := hinv i m' hm'
    exact ⟨o, hkey.symm.trans ho, occurs_commit hcase hinv hok hoccurs⟩
  · exact ⟨p.1, hkey, hdone.occurs p hp⟩

theorem noticeInv_reachable {s : Service} (h : Reachable settings s) : NoticeInv s.db := by
  refine reachable_invariant NoticeInv h ?_ ?_
  · intro k m hm
    exact absurd hm (by simp [Db.empty])
  · intro s now user request u db nextId hs hinv hok
    exact noticeInv_commit (caseInv_possible (reachable_possible hs)) hinv hok

/-- **A request that succeeds in a reachable state** does one of the things of `Enacts`. -/
theorem reachable_enacts {s : Service} (h : Reachable settings s)
    (hok : (handle settings user request).commit.alone now s.db n = .ok (u, db', n')) :
    ∃ after sent, Enacts s.db user.id now request after sent ∧ Enacted s.db db' after sent :=
  commit_enacts (noticeInv_reachable h) hok

/-! ## Who is notified -/

/-- The other of the two people an assignment is between. -/
def Db.OtherParticipant (db : Db) (assignmentId userId other : Uuid) : Prop :=
  ∃ a c, db.Works assignmentId a c ∧ other ≠ userId
    ∧ ((userId = a.testerId ∧ other = c.ownerId) ∨ (userId = c.ownerId ∧ other = a.testerId))

/-- The recipients of the notifications a request sends if it succeeds. -/
def Request.Notifies (db : Db) (userId : Uuid) (recipients : List Uuid) : Request → Prop
  -- the other participant of the assignment this request creates
  | .apply campaignId _ => ∃ c, db.campaigns.get? campaignId = some c ∧ c.ownerId ≠ userId
      ∧ recipients = [c.ownerId]
  | .accept id | .decline id | .withdraw id | .submit id _ | .message id _ | .openDispute id _ =>
      ∃ other, db.OtherParticipant id userId other ∧ recipients = [other]
  | .review submissionId _ => ∃ e other, db.evidenceSubmissions.get? submissionId = some e
      ∧ db.OtherParticipant e.assignmentId userId other ∧ recipients = [other]
  | .resolveDispute disputeId _ => ∃ d a c, db.disputes.get? disputeId = some d
      ∧ db.Works d.assignmentId a c ∧ recipients = [a.testerId, c.ownerId]
  | .transitionCampaign campaignId .close =>
      recipients = (db.roster.pending campaignId).map fun r => r.2.testerId
  | _ => recipients = []

theorem otherParticipant_owner {id : Uuid} {a : Assignment} {c : Campaign} (hw : db.Works id a c)
    (hne : c.ownerId ≠ a.testerId) : db.OtherParticipant id a.testerId c.ownerId :=
  ⟨a, c, hw, hne, Or.inl ⟨rfl, rfl⟩⟩

theorem otherParticipant_tester {id : Uuid} {a : Assignment} {c : Campaign} (hw : db.Works id a c)
    (hne : c.ownerId ≠ a.testerId) : db.OtherParticipant id c.ownerId a.testerId :=
  ⟨a, c, hw, hne.symm, Or.inr ⟨rfl, rfl⟩⟩

theorem Enacts.notifies {g userId : Nat} {after : Roster} {sent : List (Notice × Uuid)}
    (h : Enacts db userId now request after sent) (hledger : LedgerInv g db.exchange) :
    request.Notifies db userId (sent.map Prod.snd) := by
  have hne : ∀ {id a c}, db.Works id a c → c.ownerId ≠ a.testerId := by
    intro id a c hw
    obtain ⟨c', hc', -, hne⟩ := hledger.assigned id a hw.ha
    obtain rfl := Option.some.inj (hw.hc.symm.trans hc')
    exact hne
  cases h with
  | quiet h => cases request <;> first | exact h.elim | rfl
  | drafting h hr => cases request <;> first | exact h.elim | rfl
  | apply hc hpublished howner hnew => exact ⟨_, hc, howner, rfl⟩
  | accept hw howner hpublished happlied =>
      subst howner
      exact ⟨_, otherParticipant_tester hw (hne hw), rfl⟩
  | decline hw howner happlied =>
      subst howner
      exact ⟨_, otherParticipant_tester hw (hne hw), rfl⟩
  | withdraw hw htester hstatus =>
      subst htester
      exact ⟨_, otherParticipant_owner hw (hne hw), rfl⟩
  | start ha htester haccepted => rfl
  | submit hw htester hstatus hnew =>
      subst htester
      exact ⟨_, otherParticipant_owner hw (hne hw), rfl⟩
  | review he hw howner hcalm hpending hawaiting hnew =>
      subst howner
      exact ⟨_, _, he, otherParticipant_tester hw (hne hw), rfl⟩
  | message hw huser hnew =>
      rcases huser with rfl | rfl
      · exact ⟨_, otherParticipant_owner hw (hne hw), by rw [if_pos rfl]; rfl⟩
      · exact ⟨_, otherParticipant_tester hw (hne hw), by rw [if_neg (hne hw)]; rfl⟩
  | openDispute hw htester hnew =>
      subst htester
      exact ⟨_, otherParticipant_owner hw (hne hw), rfl⟩
  | resolveDispute hd hunder hassigned hw haward hreject => exact ⟨_, _, _, hd, hw, rfl⟩
  | pause hc howner hstatus => rfl
  | resume hc howner hstatus => rfl
  | close hc howner hstatus =>
      show List.map Prod.snd (List.map _ _) = _
      rw [List.map_map]
      rfl

/--
**No notification is swallowed or duplicated.** In every reachable state, a
request that succeeds adds to the mail exactly the notifications to the
recipients of its kind of request, and each under a key nothing is stored under.
-/
theorem notifications_exact (settings : Settings) (s : Service) (h : Reachable settings s)
    (now : Time) (user : CurrentUser) (request : Request) (u : Unit) (db : Db) (nextId : Nat)
    (hok : (handle settings user request).commit.alone now s.db s.nextId = .ok (u, db, nextId)) :
    ∃ new, db.mail = s.db.mail ++ new
      ∧ request.Notifies s.db user.id (new.map fun r => r.2.userId)
      ∧ ∀ r ∈ new, Unsent s.db r.2.idempotencyKey := by
  obtain ⟨after, sent, henacts, hdone⟩ := reachable_enacts h hok
  obtain ⟨new, hmail, hnew⟩ := hdone.posts
  have hrecipients : new.map (fun r => r.2.userId) = sent.map Prod.snd := by
    have h₂ := congrArg (List.map Prod.snd) hnew
    rwa [List.map_map, List.map_map] at h₂
  refine ⟨new, hmail, ?_, ?_⟩
  · rw [hrecipients]
    exact henacts.notifies (ledgerInv_possible (reachable_possible h))
  · intro r hr
    have hmem := List.mem_map_of_mem (f := fun r : Uuid × Notification =>
      (r.2.idempotencyKey, r.2.userId)) hr
    rw [hnew] at hmem
    obtain ⟨p, hp, heq⟩ := List.mem_map.mp hmem
    have hkey : p.1.key = r.2.idempotencyKey := congrArg Prod.fst heq
    rw [← hkey]
    exact hdone.free p hp

theorem ok_of_toOption {ε α : Type} {x : Except ε α} {a : α} (h : x.toOption = some a) :
    x = .ok a := by
  cases x with
  | error e => exact absurd h (by simp [Except.toOption])
  | ok b => rw [Option.some.inj h]

/-- The owner's approval of the first submission is notified once, to its tester. -/
theorem notifications_exact_bench :
    ∃ u db nextId,
      (handle benchSettings ⟨1, none⟩ (.review 12 ⟨.approved, "A fine bench"⟩)).commit.alone 0
          waitingService.db waitingService.nextId = .ok (u, db, nextId)
        ∧ db.notifications.rows.length = waitingService.db.notifications.rows.length + 1
        ∧ ∃ new, db.mail = waitingService.db.mail ++ new
          ∧ (Request.review 12 ⟨.approved, "A fine bench"⟩).Notifies waitingService.db 1
            (new.map fun r => r.2.userId)
          ∧ ∀ r ∈ new, Unsent waitingService.db r.2.idempotencyKey := by
  have hrun : ((handle benchSettings ⟨1, none⟩ (.review 12 ⟨.approved, "A fine bench"⟩)).commit.alone
      0 waitingService.db waitingService.nextId).toOption.map (fun r => r.2.1.notifications.rows.length)
        = some (waitingService.db.notifications.rows.length + 1) := by decide +kernel
  obtain ⟨⟨u, db, nextId⟩, hsome, hlength⟩ := Option.map_eq_some_iff.mp hrun
  have hok := ok_of_toOption hsome
  exact ⟨u, db, nextId, hok, hlength, notifications_exact benchSettings waitingService
    (reachable_run .init _) 0 ⟨1, none⟩ _ u db nextId hok⟩

end TestExchange
