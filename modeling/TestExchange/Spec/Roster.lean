import TestExchange.Model.Requests
import TestExchange.Spec.Notices

/-!
# The roster

Campaigns and the testers on them: two tables, and what a request that succeeds
makes of them. `Enacts` has one case per kind of request and says exactly what
becomes of the two tables and who is notified of what. In particular it says
when a campaign is completed: `settle` is the rule, applied at the end of the
requests that look at it.
-/

namespace TestExchange

open Txn

/-- The campaigns and the assignments on them. -/
structure Roster where
  campaigns : Table Campaign
  assignments : Table Assignment

/-- The roster in a database. -/
def Db.roster (db : Db) : Roster := ⟨db.campaigns, db.assignments⟩

namespace Roster

/-- The assignments of a campaign with a given property. -/
def countOf (r : Roster) (campaignId : Uuid) (p : Assignment → Bool) : Nat :=
  r.assignments.count fun a => a.campaignId = campaignId && p a

/-- The approved assignments of a campaign. -/
def approvedCount (r : Roster) (campaignId : Uuid) : Nat :=
  r.countOf campaignId fun a => a.status = .approved

/-- The assignments of a campaign that were accepted and are not settled. -/
def activeCount (r : Roster) (campaignId : Uuid) : Nat :=
  r.countOf campaignId fun a => a.status ∈ activeTestingAssignmentStatuses

/-- The assignments of a campaign that were ever accepted. -/
def acceptedCount (r : Roster) (campaignId : Uuid) : Nat :=
  r.countOf campaignId fun a => a.acceptedAt.isSome

/-- The target of an open campaign is reached, or the work of a closed one is settled. -/
def Due (r : Roster) (campaignId : Uuid) (c : Campaign) : Prop :=
  ((c.status = .published ∨ c.status = .paused) ∧ c.targetTesters ≤ r.approvedCount campaignId)
    ∨ (c.status = .cancelled ∧ r.activeCount campaignId = 0 ∧ 0 < r.acceptedCount campaignId)

instance (r : Roster) (campaignId : Uuid) (c : Campaign) : Decidable (r.Due campaignId c) :=
  inferInstanceAs (Decidable (_ ∨ _))

def modifyCampaign (r : Roster) (id : Uuid) (f : Campaign → Campaign) : Roster :=
  { r with campaigns := r.campaigns.modify id f }

def modifyAssignment (r : Roster) (id : Uuid) (f : Assignment → Assignment) : Roster :=
  { r with assignments := r.assignments.modify id f }

/-- Complete the campaign if it is due. -/
def settle (r : Roster) (campaignId : Uuid) : Roster :=
  if ∃ c ∈ r.campaigns.get? campaignId, r.Due campaignId c then
    r.modifyCampaign campaignId fun c => { c with status := .completed }
  else r

theorem settle_eq {r : Roster} {campaignId : Uuid} {c : Campaign}
    (hc : r.campaigns.get? campaignId = some c) :
    r.settle campaignId = if r.Due campaignId c then
      r.modifyCampaign campaignId fun c => { c with status := .completed } else r := by
  unfold settle
  rw [hc]
  simp

/-- End the listed assignments. -/
def cancelAll (r : Roster) (now : Time) : List Uuid → Roster
  | [] => r
  | id :: ids =>
      (r.modifyAssignment id fun a =>
        { a with status := .cancelled, completedAt := some now }).cancelAll now ids

theorem cancelAll_campaigns {r : Roster} {now : Time} {ids : List Uuid} :
    (r.cancelAll now ids).campaigns = r.campaigns := by
  induction ids generalizing r with
  | nil => rfl
  | cons i ids ih => exact ih

/-- An ended assignment is ended; the others are as they were. -/
theorem cancelAll_get {r : Roster} {now : Time} {ids : List Uuid} (id : Uuid) :
    (r.cancelAll now ids).assignments.get? id = if id ∈ ids then
      (r.assignments.get? id).map fun a => { a with status := .cancelled, completedAt := some now }
    else r.assignments.get? id := by
  induction ids generalizing r with
  | nil => rfl
  | cons i ids ih =>
      rw [cancelAll, ih]
      by_cases hi : id = i
      · subst hi
        rw [if_pos List.mem_cons_self]
        cases hr : r.assignments.get? id with
        | none => simp [modifyAssignment, Table.get?_modify_self, hr]
        | some a => simp [modifyAssignment, Table.get?_modify_self, hr]
      · have hsame : (r.modifyAssignment i fun a =>
            { a with status := .cancelled, completedAt := some now }).assignments.get? id
              = r.assignments.get? id := Table.get?_modify_ne hi
        simp only [List.mem_cons, hi, false_or, hsame]

/-- The applications to a campaign that wait for an answer. -/
def pending (r : Roster) (campaignId : Uuid) : List (Uuid × Assignment) :=
  r.assignments.where' fun _ a => a.campaignId = campaignId && a.status = .applied

/-- Campaigns are added or edited as drafts, and drafts are published. -/
structure Drafts (r r' : Roster) : Prop where
  assignments : r'.assignments = r.assignments
  kept : ∀ id c, r.campaigns.get? id = some c → c.status ≠ .draft → r'.campaigns.get? id = some c
  fresh : ∀ id c, r'.campaigns.get? id = some c → r.campaigns.get? id = some c
    ∨ (c.status = .draft ∨ c.status = .published)
      ∧ ∀ c₀, r.campaigns.get? id = some c₀ → c₀.status = .draft

end Roster

/-- An accepted or submitted piece of work, with its campaign. -/
structure Db.Works (db : Db) (id : Uuid) (a : Assignment) (c : Campaign) : Prop where
  ha : db.assignments.get? id = some a
  hc : db.campaigns.get? a.campaignId = some c

/-- Requests that leave the roster alone and notify nobody. -/
def Request.IsQuiet : Request → Prop
  | .saveProfile _ | .waitlist _ | .balance | .saveContract _ _ | .recordSession _ _
  | .claimDispute _ | .evidenceUrl _ _ _ | .suspend _ _ | .restore _ | .readNotification _
  | .readAllNotifications => True
  | _ => False

/-- Requests that work on drafts. -/
def Request.IsDrafting : Request → Prop
  | .createCampaign _ | .launchCampaign _ | .updateCampaign _ _ | .publishCampaign _ => True
  | _ => False

/--
**What a successful request of the user makes of the roster, and whom it
notifies of what.** The roster and the other tables are those before the request.
-/
inductive Enacts (db : Db) (userId : Uuid) (now : Time) :
    Request → Roster → List (Notice × Uuid) → Prop where
  /-- Nothing here changes. -/
  | quiet {request : Request} (h : request.IsQuiet) : Enacts db userId now request db.roster []
  /-- A draft is created, edited or published. -/
  | drafting {request : Request} {r : Roster} (h : request.IsDrafting) (hr : db.roster.Drafts r) :
      Enacts db userId now request r []
  /-- The user applies. -/
  | apply {campaignId id : Uuid} {payload : AssignmentApply} {c : Campaign} {note : Option String}
      (hc : db.campaigns.get? campaignId = some c) (hpublished : c.status = .published)
      (howner : c.ownerId ≠ userId) (hnew : db.assignments.get? id = none) :
      Enacts db userId now (.apply campaignId payload)
        { db.roster with
          assignments := db.assignments.insert id
            { campaignId, testerId := userId, applicationNote := note } }
        [(⟨.applied, id⟩, c.ownerId)]
  /-- The owner accepts an application. -/
  | accept {id : Uuid} {a : Assignment} {c : Campaign} (hw : db.Works id a c)
      (howner : c.ownerId = userId) (hpublished : c.status = .published)
      (happlied : a.status = .applied) :
      Enacts db userId now (.accept id)
        (db.roster.modifyAssignment id fun a =>
          { a with status := .accepted, acceptedAt := some now })
        [(⟨.accepted, id⟩, a.testerId)]
  /-- The owner declines an application. -/
  | decline {id : Uuid} {a : Assignment} {c : Campaign} (hw : db.Works id a c)
      (howner : c.ownerId = userId) (happlied : a.status = .applied) :
      Enacts db userId now (.decline id)
        (db.roster.modifyAssignment id fun a =>
          { a with status := .cancelled, completedAt := some now })
        [(⟨.declined, id⟩, a.testerId)]
  /-- The tester leaves; the campaign may be left with nothing to wait for. -/
  | withdraw {id : Uuid} {a : Assignment} {c : Campaign} (hw : db.Works id a c)
      (htester : a.testerId = userId)
      (hstatus : a.status ∈ [AssignmentStatus.applied, .accepted, .inProgress, .changesRequested]) :
      Enacts db userId now (.withdraw id)
        ((db.roster.modifyAssignment id fun a =>
          { a with status := .cancelled, completedAt := some now }).settle a.campaignId)
        [(⟨.withdrawn, id⟩, c.ownerId)]
  /-- The tester starts. -/
  | start {id : Uuid} {a : Assignment} (ha : db.assignments.get? id = some a)
      (htester : a.testerId = userId) (haccepted : a.status = .accepted) :
      Enacts db userId now (.start id)
        (db.roster.modifyAssignment id fun a =>
          { a with status := .inProgress, startedAt := some now })
        []
  /-- The tester submits evidence. -/
  | submit {id submissionId : Uuid} {payload : SubmissionCreate} {a : Assignment} {c : Campaign}
      (hw : db.Works id a c) (htester : a.testerId = userId)
      (hstatus : a.status ∈ [AssignmentStatus.inProgress, .changesRequested])
      (hnew : db.evidenceSubmissions.get? submissionId = none) :
      Enacts db userId now (.submit id payload)
        (db.roster.modifyAssignment id fun a =>
          { a with status := .submitted, submittedAt := some now })
        [(⟨.submitted, submissionId⟩, c.ownerId)]
  /-- The owner decides about a submission; only an approval looks at the campaign. -/
  | review {submissionId reviewId : Uuid} {payload : ReviewCreate} {e : EvidenceSubmission}
      {a : Assignment} {c : Campaign} (he : db.evidenceSubmissions.get? submissionId = some e)
      (hw : db.Works e.assignmentId a c) (howner : c.ownerId = userId)
      (hcalm : db.activeDispute e.assignmentId = none) (hpending : e.status = .submitted)
      (hawaiting : a.status = .submitted) (hnew : db.reviews.get? reviewId = none) :
      Enacts db userId now (.review submissionId payload)
        (if payload.decision = .approved then
          (db.roster.modifyAssignment e.assignmentId fun a =>
            { a with status := .approved, completedAt := some now }).settle a.campaignId
        else
          db.roster.modifyAssignment e.assignmentId fun a =>
            { a with status := if payload.decision = .rejected then .rejected else .changesRequested })
        [(⟨.reviewed, reviewId⟩, a.testerId)]
  /-- A participant writes to the other. -/
  | message {id messageId : Uuid} {payload : MessageCreate} {a : Assignment} {c : Campaign}
      (hw : db.Works id a c) (huser : userId = a.testerId ∨ userId = c.ownerId)
      (hnew : db.messages.get? messageId = none) :
      Enacts db userId now (.message id payload) db.roster
        [(⟨.messaged, messageId⟩, if userId = a.testerId then c.ownerId else a.testerId)]
  /-- The tester asks for a moderator. -/
  | openDispute {id disputeId : Uuid} {payload : DisputeCreate} {a : Assignment} {c : Campaign}
      (hw : db.Works id a c) (htester : a.testerId = userId)
      (hnew : db.disputes.get? disputeId = none) :
      Enacts db userId now (.openDispute id payload) db.roster
        [(⟨.disputed, disputeId⟩, c.ownerId)]
  /-- The assigned moderator decides: an award looks at the campaign, a rejection does not. -/
  | resolveDispute {disputeId : Uuid} {payload : DisputeResolve} {d : Dispute} {a : Assignment}
      {c : Campaign} (hd : db.disputes.get? disputeId = some d) (hunder : d.status = .underReview)
      (hassigned : d.assignedTo = some userId) (hw : db.Works d.assignmentId a c)
      (haward : payload.remedy = .awardTester → a.status ∈ [AssignmentStatus.rejected, .submitted])
      (hreject : payload.remedy ≠ .awardTester → a.status = .submitted →
        payload.outcome = .rejected) :
      Enacts db userId now (.resolveDispute disputeId payload)
        (if payload.remedy = .awardTester then
          (db.roster.modifyAssignment d.assignmentId fun a =>
            { a with status := .approved, completedAt := some now }).settle a.campaignId
        else if a.status = .submitted then
          db.roster.modifyAssignment d.assignmentId fun a =>
            { a with status := .rejected, completedAt := some now }
        else db.roster)
        [(⟨.resolvedForTester, disputeId⟩, a.testerId), (⟨.resolvedForOwner, disputeId⟩, c.ownerId)]
  /-- Recruitment pauses. -/
  | pause {campaignId : Uuid} {c : Campaign} (hc : db.campaigns.get? campaignId = some c)
      (howner : c.ownerId = userId) (hstatus : c.status = .published) :
      Enacts db userId now (.transitionCampaign campaignId .pause)
        (db.roster.modifyCampaign campaignId fun c => { c with status := .paused }) []
  /-- Recruitment resumes. -/
  | resume {campaignId : Uuid} {c : Campaign} (hc : db.campaigns.get? campaignId = some c)
      (howner : c.ownerId = userId) (hstatus : c.status = .paused) :
      Enacts db userId now (.transitionCampaign campaignId .resume)
        (db.roster.modifyCampaign campaignId fun c => { c with status := .published }) []
  /-- Recruitment closes: the waiting applications are declined. -/
  | close {campaignId : Uuid} {c : Campaign} (hc : db.campaigns.get? campaignId = some c)
      (howner : c.ownerId = userId) (hstatus : c.status = .published ∨ c.status = .paused) :
      Enacts db userId now (.transitionCampaign campaignId .close)
        (((db.roster.modifyCampaign campaignId fun c => { c with status := .cancelled }).cancelAll
          now ((db.roster.pending campaignId).map Prod.fst)).settle campaignId)
        ((db.roster.pending campaignId).map fun r => (⟨.recruitmentClosed, r.1⟩, r.2.testerId))

/-! ## One assignment at a time -/

/-- Nothing has happened to the assignment since the application. -/
structure Assignment.IsNew (a : Assignment) : Prop where
  applied : a.status = .applied
  accepted : a.acceptedAt = none
  started : a.startedAt = none
  submitted : a.submittedAt = none
  completed : a.completedAt = none

/-- What a request can do to one assignment. -/
inductive Assignment.Moves (request : Request) (now : Time) (a : Assignment) : Assignment → Prop where
  | stay : a.Moves request now a
  | accept (h : a.status = .applied) :
      a.Moves request now { a with status := .accepted, acceptedAt := some now }
  /-- Declined, withdrawn, or closed out. -/
  | leave (h : a.status ∈ [AssignmentStatus.applied, .accepted, .inProgress, .changesRequested]) :
      a.Moves request now { a with status := .cancelled, completedAt := some now }
  | start (h : a.status = .accepted) :
      a.Moves request now { a with status := .inProgress, startedAt := some now }
  | submit (h : a.status ∈ [AssignmentStatus.inProgress, .changesRequested]) :
      a.Moves request now { a with status := .submitted, submittedAt := some now }
  /-- Approved by the owner, or awarded by a moderator. -/
  | approve (h : a.status ∈ [AssignmentStatus.rejected, .submitted]) :
      a.Moves request now { a with status := .approved, completedAt := some now }
  | sendBack (h : a.status = .submitted) :
      a.Moves request now { a with status := .changesRequested }
  /-- Rejected by the owner. -/
  | refuse {submissionId : Uuid} {payload : ReviewCreate} (hreview : request = .review submissionId payload)
      (hdecision : payload.decision = .rejected) (h : a.status = .submitted) :
      a.Moves request now { a with status := .rejected }
  /-- Rejected by a moderator. -/
  | overrule (h : a.status = .submitted) :
      a.Moves request now { a with status := .rejected, completedAt := some now }

/-- Every assignment is still there after a move; a new one has just been applied for. -/
def MovesAll (request : Request) (now : Time) (t t' : Table Assignment) : Prop :=
  ∀ id, (∃ a a', t.get? id = some a ∧ t'.get? id = some a' ∧ a.Moves request now a')
    ∨ (t.get? id = none ∧ ∀ a', t'.get? id = some a' → a'.IsNew)

section Moves

variable {request : Request} {now : Time} {t : Table Assignment} {r : Roster} {db : Db}
  {userId : Uuid} {after : Roster} {sent : List (Notice × Uuid)}

theorem MovesAll.refl : MovesAll request now t t := by
  intro i
  cases ha : t.get? i with
  | some a => exact Or.inl ⟨a, a, rfl, rfl, .stay⟩
  | none => exact Or.inr ⟨rfl, fun a' ha' => absurd ha' (by simp)⟩

theorem movesAll_modify {id : Uuid} {f : Assignment → Assignment}
    (hf : ∀ a, t.get? id = some a → a.Moves request now (f a)) :
    MovesAll request now t (t.modify id f) := by
  intro i
  by_cases hi : i = id
  · subst hi
    rw [Table.get?_modify_self]
    cases ha : t.get? i with
    | some a => exact Or.inl ⟨a, f a, rfl, rfl, hf a ha⟩
    | none => exact Or.inr ⟨rfl, fun a' ha' => absurd ha' (by simp)⟩
  · rw [Table.get?_modify_ne hi]
    exact MovesAll.refl i

theorem movesAll_of_row {id : Uuid} {a : Assignment} {f : Assignment → Assignment}
    (ha : t.get? id = some a) (hf : a.Moves request now (f a)) :
    MovesAll request now t (t.modify id f) :=
  movesAll_modify fun b hb => by
    obtain rfl := Option.some.inj (ha.symm.trans hb)
    exact hf

theorem movesAll_insert {id : Uuid} {a : Assignment} (hnone : t.get? id = none) (ha : a.IsNew) :
    MovesAll request now t (t.insert id a) := by
  intro i
  by_cases hi : i = id
  · subst hi
    refine Or.inr ⟨hnone, fun a' ha' => ?_⟩
    rw [Table.get?_insert_self hnone] at ha'
    rw [← Option.some.inj ha']
    exact ha
  · rw [Table.get?_insert_ne hi]
    exact MovesAll.refl i

theorem settle_assignments {id : Uuid} : (r.settle id).assignments = r.assignments := by
  unfold Roster.settle
  split <;> rfl

/-- **What a request does to the assignments is a move of each.** -/
theorem Enacts.moves (h : Enacts db userId now request after sent) :
    MovesAll request now db.assignments after.assignments := by
  cases h with
  | quiet h => exact .refl
  | drafting h hr =>
      rw [hr.assignments]
      exact .refl
  | apply hc hpublished howner hnew => exact movesAll_insert hnew ⟨rfl, rfl, rfl, rfl, rfl⟩
  | accept hw howner hpublished happlied => exact movesAll_of_row hw.ha (.accept happlied)
  | decline hw howner happlied => exact movesAll_of_row hw.ha (.leave (by simp [happlied]))
  | withdraw hw htester hstatus =>
      rw [settle_assignments]
      exact movesAll_of_row hw.ha (.leave hstatus)
  | start ha htester haccepted => exact movesAll_of_row ha (.start haccepted)
  | submit hw htester hstatus hnew => exact movesAll_of_row hw.ha (.submit hstatus)
  | @review _ _ payload _ _ _ he hw howner hcalm hpending hawaiting hnew =>
      cases hd : payload.decision with
      | approved =>
          rw [if_pos rfl, settle_assignments]
          exact movesAll_of_row hw.ha (.approve (by simp [hawaiting]))
      | changesRequested => exact movesAll_of_row hw.ha (.sendBack hawaiting)
      | rejected => exact movesAll_of_row hw.ha (.refuse rfl hd hawaiting)
  | message hw huser hnew => exact .refl
  | openDispute hw htester hnew => exact .refl
  | resolveDispute hd hunder hassigned hw haward hreject =>
      split
      · rename_i hremedy
        rw [settle_assignments]
        exact movesAll_of_row hw.ha (.approve (haward hremedy))
      · split
        · rename_i hsubmitted
          exact movesAll_of_row hw.ha (.overrule hsubmitted)
        · exact .refl
  | pause hc howner hstatus => exact .refl
  | resume hc howner hstatus => exact .refl
  | close hc howner hstatus =>
      intro i
      rw [settle_assignments, Roster.cancelAll_get]
      split
      · rename_i hi
        obtain ⟨⟨j, a⟩, hmem, rfl⟩ := List.mem_map.mp hi
        obtain ⟨ha, hp⟩ := Table.mem_where'.mp hmem
        simp only [Bool.and_eq_true, decide_eq_true_eq] at hp
        have hrow : db.assignments.get? j = some a := ha
        refine Or.inl ⟨a, _, hrow, (congrArg (Option.map _) hrow), ?_⟩
        exact .leave (by simp [hp.2])
      · exact MovesAll.refl i

theorem MovesAll.of_get {t' : Table Assignment} (h : MovesAll request now t t') {id : Uuid}
    {a : Assignment} (ha : t.get? id = some a) :
    ∃ a', t'.get? id = some a' ∧ a.Moves request now a' := by
  rcases h id with ⟨b, a', hb, ha', hmove⟩ | ⟨hnone, -⟩
  · obtain rfl := Option.some.inj (ha.symm.trans hb)
    exact ⟨a', ha', hmove⟩
  · exact absurd (hnone.symm.trans ha) (by simp)

theorem MovesAll.to_get {t' : Table Assignment} (h : MovesAll request now t t') {id : Uuid}
    {a' : Assignment} (ha' : t'.get? id = some a') :
    (∃ a, t.get? id = some a ∧ a.Moves request now a') ∨ (t.get? id = none ∧ a'.IsNew) := by
  rcases h id with ⟨a, b, ha, hb, hmove⟩ | ⟨hnone, hnew⟩
  · obtain rfl := Option.some.inj (ha'.symm.trans hb)
    exact Or.inl ⟨a, ha, hmove⟩
  · exact Or.inr ⟨hnone, hnew a' ha'⟩

/-- An answered application stays answered. -/
theorem Assignment.Moves.answered {a a' : Assignment} (h : a.Moves request now a')
    (ha : a.status ≠ .applied) : a'.status ≠ .applied := by
  cases h <;> first | exact ha | simp

/-- An assignment that ended without a result stays so. -/
theorem Assignment.Moves.cancelled {a a' : Assignment} (h : a.Moves request now a')
    (ha : a.status = .cancelled) : a'.status = .cancelled := by
  cases h <;> simp_all

end Moves

end TestExchange
