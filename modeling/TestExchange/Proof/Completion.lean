import TestExchange.Proof.Notices
import TestExchange.Spec.Completion

/-!
# Completed assignments and completed campaigns

What marks an assignment as completed, when a closed campaign completes, and
what a campaign that has ended still holds. Each is an invariant of every run in
which one kind of decision does not occur: the owner's rejection forgets the
mark, a rejection does not look at the campaign, and an approval that reaches
the target does not look at the other assignments.
-/

namespace TestExchange

open Txn Txn.Session Exchange

variable {settings : Settings} {user : CurrentUser} {request : Request} {now n n' : Nat}
  {db db' : Db} {u : Unit}

/-! ## Decisions that reach their service -/

/-- The account is not suspended. -/
def Db.Admits (db : Db) (userId : Uuid) : Prop :=
  ¬ ∃ p ∈ db.profiles.get? userId, p.isSuspended = true

/-- What is checked of a decision before its service is called. -/
def Request.MayDecide (settings : Settings) (db : Db) (user : CurrentUser) : Request → Prop
  | .review _ payload => db.Admits user.id ∧ payload.parse.isSome
  | .resolveDispute _ payload => db.Admits user.id ∧ user.id ∈ settings.moderatorUserIds
      ∧ payload.parse.isSome
  | _ => True

theorem mayDecide_of_ok (hok : (handle settings user request).commit.alone now db n
    = .ok (u, db', n')) : request.MayDecide settings db user := by
  obtain ⟨c, halone, -, -⟩ := commit_alone.mp hok
  cases request with
  | review submissionId payload =>
      simp only [handle, validated, alone_bind, getActiveUser_ok, alone_orRaise, and_assoc,
        exists_and_left, exists_eq_left, exists_const] at halone
      obtain ⟨hadmits, p, hp, -⟩ := halone
      exact ⟨hadmits, by rw [hp]; rfl⟩
  | resolveDispute disputeId payload =>
      simp only [handle, getModerator, validated, alone_bind, getActiveUser_ok, alone_raiseIf,
        alone_orRaise, and_assoc, exists_and_left, exists_eq_left, exists_const, not_not] at halone
      obtain ⟨hadmits, hmoderator, p, hp, -⟩ := halone
      exact ⟨hadmits, hmoderator, by rw [hp]; rfl⟩
  | _ => trivial

/-! ## The target of an open campaign -/

theorem entries_nonzero {s : Service} (h : Reachable settings s) :
    ∀ e ∈ s.db.creditLedgerEntries, e.delta ≠ 0 := by
  refine reachable_invariant (fun db => ∀ e ∈ db.creditLedgerEntries, e.delta ≠ 0) h ?_ ?_
  · intro e he
    exact absurd he (by simp [Db.empty])
  · intro s now user request u db nextId _ hinv hok
    refine (handle_within request).invariant
      (fun t => ∀ e ∈ t.creditLedgerEntries, e.delta ≠ 0) hok hinv ?_
    rintro w t ⟨r, -, hw⟩ hv ht
    cases hw with
    | @insertCreditLedgerEntry e₀ =>
        intro e he
        simp only [insertCreditLedgerEntry, firstViolated_cons] at hv
        rcases List.mem_append.mp he with hold | hnew
        · exact ht e hold
        · rw [List.mem_singleton.mp hnew]
          simpa using hv.2.1
    | _ => exact ht

/-- A campaign past its draft asks for testers and rewards them. -/
theorem terms_positive {s : Service} (h : Reachable settings s) {id : Uuid} {c : Campaign}
    (hc : s.db.campaigns.get? id = some c) (hd : c.status ≠ .draft) :
    0 < c.targetTesters ∧ 0 < c.rewardCredits := by
  have hledger := ledgerInv_possible (reachable_possible h)
  obtain ⟨e, he, hkey⟩ := hledger.recorded (.posting id) ⟨c, hc, hd⟩
  obtain ⟨o, ho⟩ := hledger.explained e he
  obtain rfl := Occasion.key_inj (ho.key.symm.trans hkey)
  obtain ⟨c', hc', -, hdelta⟩ := ho.moves
  obtain rfl := Option.some.inj (hc.symm.trans hc')
  have hnonzero := entries_nonzero h e he
  rw [hdelta] at hnonzero
  constructor
  · refine Nat.pos_of_ne_zero fun hz => hnonzero ?_
    simp [hz]
  · refine Nat.pos_of_ne_zero fun hz => hnonzero ?_
    simp [hz]

/-- **No open campaign has reached its target**, in any reachable state. -/
theorem lacks_targetReached {s : Service} (h : Reachable settings s) :
    s.db.roster.Lacks Roster.TargetReached := by
  induction h with
  | init => exact fun id c hc => absurd hc (by simp [Service.init, Db.roster, Db.empty])
  | @tail s hs now user request ih =>
      have hserved := hs.tail now user request
      unfold Service.serve at hserved ⊢
      split
      · rename_i db nextId hok
        rw [hok] at hserved
        obtain ⟨after, sent, henacts, hdone⟩ := reachable_enacts hs hok
        have hassigned := (ledgerInv_possible (reachable_possible hs)).assigned
        rw [hdone.roster]
        refine henacts.lacks_targetReached ?_ ?_ ih
        · intro i a ha
          obtain ⟨c, hc, hd, -⟩ := hassigned i a ha
          exact ⟨c, hc, hd⟩
        · intro id c hc hd
          rw [← hdone.roster] at hc
          exact (terms_positive hserved hc hd).1
      · exact ih

/-! ## `completed_at` -/

/-- `completed_at` is set exactly on the settled assignments. -/
def Db.CompletionMarked (db : Db) : Prop :=
  ∀ id a, db.assignments.get? id = some a →
    (a.completedAt ≠ none ↔ a.status = .approved ∨ a.status = .rejected ∨ a.status = .cancelled)

/-- The owner rejects a submission that waits for a review. -/
def Request.Refuses (db : Db) (userId : Uuid) : Request → Prop
  | .review submissionId payload => payload.decision = .rejected
      ∧ ∃ e a c, db.Reviewable userId submissionId e a c
  | _ => False

theorem Enacts.reviewable {userId submissionId : Uuid} {payload : ReviewCreate} {after : Roster}
    {sent : List (Notice × Uuid)}
    (h : Enacts db userId now (.review submissionId payload) after sent) :
    ∃ e a c, db.Reviewable userId submissionId e a c := by
  cases h with
  | quiet h => exact h.elim
  | drafting h hr => exact h.elim
  | review he hw howner hcalm hpending hawaiting hnew =>
      exact ⟨_, _, _, he, hw, howner, hcalm, hpending, hawaiting⟩

theorem Enacts.completionMarked {userId : Uuid} {after : Roster} {sent : List (Notice × Uuid)}
    (h : Enacts db userId now request after sent) (hafter : db'.roster = after)
    (hrefuses : ¬ request.Refuses db userId) (hinv : db.CompletionMarked) :
    db'.CompletionMarked := by
  have hmoves := h.moves
  rw [← hafter] at hmoves
  intro id a' ha'
  rcases hmoves.to_get ha' with ⟨a, ha, hmove⟩ | ⟨-, hnew⟩
  · have hold := hinv id a ha
    cases hmove with
    | stay => exact hold
    | accept hs => simpa [hs] using hold
    | leave hs => simp
    | start hs => simpa [hs] using hold
    | submit hs =>
        simp only [List.mem_cons, List.not_mem_nil, or_false] at hs
        rcases hs with hs | hs <;> simpa [hs] using hold
    | approve hs => simp
    | sendBack hs => simpa [hs] using hold
    | refuse hreview hdecision hs =>
        subst hreview
        exact absurd ⟨hdecision, h.reviewable⟩ hrefuses
    | overrule hs => simp
  · simp [hnew.applied, hnew.completed]

/--
**`completed_at` marks the settled assignments**, in every run in which no owner
rejects a submission.
-/
theorem completion_marked (settings : Settings) (requests : List (Time × CurrentUser × Request))
    (h : Service.init.Meets settings (fun db user request =>
      ¬(request.MayDecide settings db user ∧ request.Refuses db user.id)) requests) :
    (Service.init.run settings requests).db.CompletionMarked := by
  refine run_invariant Db.CompletionMarked .init h ?_ ?_
  · intro id a ha
    exact absurd ha (by simp [Service.init, Db.empty])
  · intro s now user request u db nextId hs hcond hinv hok
    obtain ⟨after, sent, henacts, hdone⟩ := reachable_enacts hs hok
    refine henacts.completionMarked hdone.roster (fun hrefuses => hcond ?_) hinv
    exact ⟨mayDecide_of_ok hok, hrefuses⟩

/-- The first submission is approved. -/
def approvedRun : List (Time × CurrentUser × Request) :=
  benchLaunch ++ benchTests.take 4 ++ [(0, ⟨1, none⟩, .review 12 ⟨.approved, "A fine bench"⟩)]

theorem completion_marked_approved :
    ((Service.init.run benchSettings approvedRun).db.assignments.get? 8).map (·.completedAt)
        = some (some 0)
      ∧ (Service.init.run benchSettings approvedRun).db.CompletionMarked := by
  refine ⟨by decide +kernel, completion_marked benchSettings approvedRun (meets_of_forall ?_)⟩
  simp [approvedRun, benchLaunch, benchTests, Request.Refuses]

/-- The owner's rejection of the first submission leaves its assignment unmarked. -/
theorem rejection_unmarked :
    Reachable benchSettings (Service.init.run benchSettings (benchLaunch ++ benchTests.take 5))
      ∧ ¬ (Service.init.run benchSettings (benchLaunch ++ benchTests.take 5)).db.CompletionMarked := by
  refine ⟨reachable_run .init _, fun hmarked => ?_⟩
  have hrow : ((Service.init.run benchSettings
      (benchLaunch ++ benchTests.take 5)).db.assignments.get? 8).map
        (fun a => (a.status, a.completedAt)) = some (.rejected, none) := by decide +kernel
  obtain ⟨a, ha, hpair⟩ := Option.map_eq_some_iff.mp hrow
  obtain ⟨hstatus, hnone⟩ := Prod.mk.inj hpair
  exact (hmarked 8 a ha).mpr (Or.inr (Or.inl hstatus)) hnone

/-! ## Closed campaigns -/

/-- A closed campaign never had an accepted assignment, or one of them is still active. -/
def Db.ClosedAreActive (db : Db) : Prop :=
  ∀ id c, db.campaigns.get? id = some c → c.status = .cancelled →
    (∀ i a, db.assignments.get? i = some a → a.campaignId = id → a.acceptedAt = none)
      ∨ ∃ i a, db.assignments.get? i = some a ∧ a.campaignId = id
        ∧ a.status ∈ activeTestingAssignmentStatuses

theorem closedAreActive_of_lacks (h : db.roster.Lacks Roster.WorkSettled) : db.ClosedAreActive := by
  intro id c hc hclosed
  by_contra hsettled
  rw [not_or] at hsettled
  obtain ⟨haccepted, hactive⟩ := hsettled
  refine h id c hc ⟨hclosed, Roster.countOf_eq_zero fun i a ha hid => ?_, ?_⟩
  · by_contra hstatus
    exact hactive ⟨i, a, ha, hid, by simpa using hstatus⟩
  · by_contra hzero
    refine haccepted fun i a ha hid => ?_
    by_contra hsome
    have hpos : 0 < db.roster.acceptedCount id :=
      Roster.countOf_pos ha hid (Option.isSome_iff_ne_none.mpr hsome)
    exact hzero hpos

/--
**A closed campaign completes as soon as its accepted work is settled**, in every
run in which nobody rejects the last active assignment of a closed campaign.
-/
theorem closed_completes (settings : Settings) (requests : List (Time × CurrentUser × Request))
    (h : Service.init.Meets settings (fun db user request =>
      ¬(request.MayDecide settings db user ∧ request.RejectsLast db user.id)) requests) :
    (Service.init.run settings requests).db.ClosedAreActive := by
  refine closedAreActive_of_lacks ?_
  refine run_invariant (fun db => db.roster.Lacks Roster.WorkSettled) .init h ?_ ?_
  · intro id c hc
    exact absurd hc (by simp [Service.init, Db.roster, Db.empty])
  · intro s now user request u db nextId hs hcond hinv hok
    obtain ⟨after, sent, henacts, hdone⟩ := reachable_enacts hs hok
    rw [hdone.roster]
    exact henacts.lacks_workSettled hinv fun hrejects => hcond ⟨mayDecide_of_ok hok, hrejects⟩

/-- The campaign closes while the first submission waits for its review. -/
def closedRun (decision : ReviewDecision) : List (Time × CurrentUser × Request) :=
  benchLaunch ++ benchTests.take 4 ++
    [(0, ⟨1, none⟩, .transitionCampaign 4 .close),
     (0, ⟨1, none⟩, .review 12 ⟨decision, "I have seen the bench"⟩)]

theorem closed_completes_approved :
    ((Service.init.run benchSettings (closedRun .approved)).db.campaigns.get? 4).map (·.status)
        = some .completed
      ∧ (Service.init.run benchSettings (closedRun .approved)).db.ClosedAreActive := by
  refine ⟨by decide +kernel,
    closed_completes benchSettings (closedRun .approved) (meets_of_forall ?_)⟩
  simp [closedRun, benchLaunch, benchTests, Request.RejectsLast]

/-- The only work of a closed campaign is rejected, and the campaign stays as it is. -/
theorem rejection_keeps_closed :
    Reachable benchSettings (Service.init.run benchSettings (closedRun .rejected))
      ∧ ¬ (Service.init.run benchSettings (closedRun .rejected)).db.ClosedAreActive := by
  refine ⟨reachable_run .init _, fun hactive => ?_⟩
  obtain ⟨hcampaign, hrows⟩ :
      ((Service.init.run benchSettings (closedRun .rejected)).db.campaigns.get? 4).map (·.status)
          = some .cancelled
        ∧ (Service.init.run benchSettings (closedRun .rejected)).db.assignments.rows.map
            (fun r => (r.1, r.2.campaignId, r.2.status, r.2.acceptedAt))
          = [(8, 4, .rejected, some 0)] := by decide +kernel
  have hfirst : (8, 4, AssignmentStatus.rejected, some 0)
      ∈ (Service.init.run benchSettings (closedRun .rejected)).db.assignments.rows.map
          (fun r => (r.1, r.2.campaignId, r.2.status, r.2.acceptedAt)) := by
    rw [hrows]
    exact List.mem_singleton_self _
  obtain ⟨c, hc, hstatus⟩ := Option.map_eq_some_iff.mp hcampaign
  rcases hactive 4 c hc hstatus with hnone | ⟨i, b, hb, -, hopen⟩
  · obtain ⟨⟨i, a⟩, hmem, hrow⟩ := List.mem_map.mp hfirst
    have haccepted : a.acceptedAt = some 0 := congrArg (·.2.2.2) hrow
    have hnever := hnone i a (Table.mem_rows.mp hmem) (congrArg (·.2.1) hrow)
    exact absurd (haccepted.symm.trans hnever) (by simp)
  · have hmem := List.mem_map_of_mem (f := fun r : Uuid × Assignment =>
      (r.1, r.2.campaignId, r.2.status, r.2.acceptedAt)) (Table.mem_rows.mpr hb)
    rw [hrows] at hmem
    have hrejected : b.status = .rejected := congrArg (·.2.2.1) (List.mem_singleton.mp hmem)
    rw [hrejected] at hopen
    exact absurd hopen (by simp [activeTestingAssignmentStatuses])

/-! ## Campaigns that have ended -/

/-- A completed campaign holds no open work, and a closed one no applications. -/
def Db.EndedAreSettled (db : Db) : Prop :=
  ∀ id c, db.campaigns.get? id = some c → ∀ i a, db.assignments.get? i = some a →
    a.campaignId = id →
    (c.status = .completed → a.status ∉ [AssignmentStatus.applied, .accepted, .inProgress,
      .submitted, .changesRequested])
    ∧ (c.status = .cancelled → a.status ≠ .applied)

theorem endedAreSettled_of_finished (h : db.roster.Finished) : db.EndedAreSettled := by
  intro id c hc i a ha hid
  obtain ⟨hcompleted, hclosed⟩ := h id c hc
  exact ⟨fun hs => hcompleted hs i a ha hid, fun hs => hclosed hs i a ha hid⟩

/--
**Campaigns that have ended hold no open work**, in every run in which no approval
or award reaches the target of a campaign while others apply or work.
-/
theorem ended_settled (settings : Settings) (requests : List (Time × CurrentUser × Request))
    (h : Service.init.Meets settings (fun db user request =>
      ¬(request.MayDecide settings db user ∧ request.CompletesOver db user.id)) requests) :
    (Service.init.run settings requests).db.EndedAreSettled := by
  refine endedAreSettled_of_finished ?_
  refine run_invariant (fun db => db.roster.Finished) .init h ?_ ?_
  · intro id c hc
    exact absurd hc (by simp [Service.init, Db.roster, Db.empty])
  · intro s now user request u db nextId hs hcond hinv hok
    obtain ⟨after, sent, henacts, hdone⟩ := reachable_enacts hs hok
    rw [hdone.roster]
    refine henacts.finished (lacks_targetReached hs) hinv fun hover => hcond ?_
    exact ⟨mayDecide_of_ok hok, hover⟩

/-- Nobody else has applied when the only tester is approved. -/
theorem approval_not_over :
    ¬ (Request.review 12 ⟨.approved, "A fine bench"⟩).CompletesOver waitingService.db 1 := by
  rintro ⟨_, e, a, c, hreviewable, _, _, j, b, hother, hb, _⟩
  obtain ⟨hsubmission, hrows⟩ :
      (waitingService.db.evidenceSubmissions.get? 12).map (·.assignmentId) = some 8
        ∧ waitingService.db.assignments.rows.map Prod.fst = [8] := by decide +kernel
  have hmem := List.mem_map_of_mem (f := Prod.fst) (Table.mem_rows.mpr hb)
  rw [hreviewable.he] at hsubmission
  have hj : j = 8 := by
    rw [← List.mem_singleton, ← hrows]
    exact hmem
  exact hother (hj.trans (Option.some.inj hsubmission).symm)

theorem ended_settled_approved :
    ((Service.init.run benchSettings approvedRun).db.campaigns.get? 4).map (·.status)
        = some .completed
      ∧ (Service.init.run benchSettings approvedRun).db.EndedAreSettled := by
  refine ⟨by decide +kernel, ended_settled benchSettings approvedRun (meets_append.mpr ⟨?_, ?_⟩)⟩
  · refine meets_of_forall ?_
    simp [benchLaunch, benchTests, Request.CompletesOver]
  · exact ⟨fun h => approval_not_over h.2, trivial⟩

/-- Two testers apply, one is accepted and approved, and the campaign is completed over the other. -/
def crowdedRun : List (Time × CurrentUser × Request) :=
  benchLaunch ++
    [(0, ⟨2, none⟩, .apply 4 {}), (0, ⟨3, none⟩, .apply 4 {}), (0, ⟨1, none⟩, .accept 8),
     (0, ⟨2, none⟩, .start 8), (0, ⟨2, none⟩, .submit 8 benchEvidence),
     (0, ⟨1, none⟩, .review 14 ⟨.approved, "A fine bench"⟩)]

theorem completed_over_applicant :
    Reachable benchSettings (Service.init.run benchSettings crowdedRun)
      ∧ ¬ (Service.init.run benchSettings crowdedRun).db.EndedAreSettled := by
  refine ⟨reachable_run .init _, fun hsettled => ?_⟩
  obtain ⟨hcampaign, hrow⟩ :
      ((Service.init.run benchSettings crowdedRun).db.campaigns.get? 4).map (·.status)
          = some .completed
        ∧ ((Service.init.run benchSettings crowdedRun).db.assignments.get? 10).map
            (fun a => (a.campaignId, a.status)) = some (4, .applied) := by decide +kernel
  obtain ⟨c, hc, hstatus⟩ := Option.map_eq_some_iff.mp hcampaign
  obtain ⟨a, ha, hpair⟩ := Option.map_eq_some_iff.mp hrow
  obtain ⟨hid, happlied⟩ := Prod.mk.inj hpair
  refine (hsettled 4 c hc 10 a ha hid).1 hstatus ?_
  rw [happlied]
  simp

end TestExchange
