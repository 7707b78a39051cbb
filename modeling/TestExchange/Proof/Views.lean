import TestExchange.Proof.Authority
import TestExchange.Refine.Views

/-!
# Whom the routes answer

Read off the routes alone, whom they answer depends on a dozen lookups. In a state
that requests lead to, what is referred to is there, and only the policy is left.

A right to read rests on rows: a profile, a campaign that is one's own, an
assignment one takes part in, an acceptance. None of them ever goes away, so a right
to read lasts until its holder is suspended.
-/

namespace TestExchange

open Txn Txn.Session

variable {settings : Settings} {s : Service} {db db₁ db' : Db} {u : Uuid} {now : Time}
  {user : CurrentUser} {request : Request} {a b : Assignment}

theorem respond_read_ok {settings : AppSettings} {query : Query}
    (hs : Reachable settings.toSettings s) :
    (∃ r, (s.respond settings ⟨now, user, .read query⟩).1 = .ok r)
      ↔ query.Readable settings.toSettings s.db user.id := by
  have hanswers : Answers (answerQuery settings user query) now ⟨s.db, [], s.nextId⟩
      ↔ query.Readable settings.toSettings s.db user.id :=
    answerQuery_answers (joined_reachable hs) query
  rw [← hanswers]
  unfold Service.respond Endpoint.answer
  constructor
  · rintro ⟨r, hr⟩
    split at hr
    · rename_i hok
      obtain ⟨c, halone, -⟩ := commit_alone.mp hok
      exact ⟨_, c, halone⟩
    · cases hr
  · rintro ⟨r, c, halone⟩
    have hc : c = ⟨s.db, [], s.nextId⟩ := answerQuery_looks query now _ r c halone
    have hok : (answerQuery settings user query).commit.alone now s.db s.nextId
        = .ok (r, s.db, s.nextId) :=
      commit_alone.mpr ⟨c, halone, by rw [hc]; exact applyAll_nil.mpr rfl, by rw [hc]⟩
    simp only [hok]
    exact ⟨r, rfl⟩

/--
**In every reachable state a route that only reads answers exactly those the
policy lets read**, at any time.
-/
theorem read_policy (settings : AppSettings) (s : Service)
    (hs : Reachable settings.toSettings s) (now : Time) (user : CurrentUser) (query : Query) :
    (∃ r, (s.respond settings ⟨now, user, .read query⟩).1 = .ok r)
      ↔ query.Readable settings.toSettings s.db user.id := respond_read_ok hs

/-- The terms of an application are for the owner to read, and not yet for the tester. -/
theorem read_policy_applied :
    (∃ r, (appliedService.respond { moderatorUserIds := [9] }
        ⟨0, ⟨1, none⟩, .read (.assignmentContract 8)⟩).1 = .ok r)
      ∧ ¬∃ r, (appliedService.respond { moderatorUserIds := [9] }
        ⟨0, ⟨2, none⟩, .read (.assignmentContract 8)⟩).1 = .ok r := by
  have hs : Reachable benchSettings appliedService := reachable_run .init _
  have hrow : (appliedService.db.assignments.get? 8).map
      (fun a => (a.campaignId, a.testerId, a.acceptedAt)) = some (4, 2, none) := by decide +kernel
  have howner : (appliedService.db.campaigns.get? 4).map (·.ownerId) = some 1 := by decide +kernel
  have hactive : (appliedService.db.profiles.get? 1).any (·.isSuspended) = false := by
    decide +kernel
  obtain ⟨a, ha, hfields⟩ := Option.map_eq_some_iff.mp hrow
  obtain ⟨c, hc, hown⟩ := Option.map_eq_some_iff.mp howner
  have hsame : a.campaignId = 4 ∧ a.testerId = 2 ∧ a.acceptedAt = none := by simpa using hfields
  obtain ⟨hcampaign, htester, hwaiting⟩ := hsame
  constructor
  · refine (read_policy { moderatorUserIds := [9] } appliedService hs 0 ⟨1, none⟩ _).mpr ⟨?_, ?_⟩
    · rintro ⟨p, hp, hsuspended⟩
      rw [hp] at hactive
      exact absurd (hsuspended.symm.trans hactive) (by decide)
    · exact .inl ⟨a, ha, c, by rw [hcampaign]; exact hc, hown⟩
  · rw [read_policy { moderatorUserIds := [9] } appliedService hs 0 ⟨2, none⟩ _]
    rintro ⟨-, ⟨b, hb, d, hd, howns⟩ | ⟨b, hb, -, haccepted⟩⟩
    · rw [ha] at hb
      cases hb
      rw [hcampaign, hc] at hd
      cases hd
      exact absurd (howns.symm.trans hown) (by decide)
    · rw [ha] at hb
      cases hb
      exact haccepted hwaiting

/-! ## Reading for good -/

/-- What a right to read an assignment rests on. -/
structure Assignment.Outlasts (a b : Assignment) : Prop where
  campaign : b.campaignId = a.campaignId
  tester : b.testerId = a.testerId
  accepted : a.acceptedAt ≠ none → b.acceptedAt ≠ none

/-- The rows that rights to read rest on are there for good. -/
structure Db.Outlasts (db db' : Db) : Prop where
  profiles : Table.Lasts (fun _ _ => True) db.profiles db'.profiles
  campaigns : Table.Lasts (fun c d => d.ownerId = c.ownerId) db.campaigns db'.campaigns
  contracts :
    Table.Lasts (fun k l => l.campaignId = k.campaignId) db.testingContracts db'.testingContracts
  assignments : Table.Lasts Assignment.Outlasts db.assignments db'.assignments
  submissions : Table.Lasts (fun e f => f.assignmentId = e.assignmentId) db.evidenceSubmissions
    db'.evidenceSubmissions
  disputes : Table.Lasts (fun _ _ => True) db.disputes db'.disputes

theorem Assignment.Outlasts.refl (a : Assignment) : a.Outlasts a := ⟨rfl, rfl, id⟩

theorem Db.Outlasts.refl (db : Db) : db.Outlasts db where
  profiles := .refl (fun _ => trivial) _
  campaigns := .refl (fun c => Eq.refl c.ownerId) _
  contracts := .refl (fun k => Eq.refl k.campaignId) _
  assignments := .refl Assignment.Outlasts.refl _
  submissions := .refl (fun e => Eq.refl e.assignmentId) _
  disputes := .refl (fun _ => trivial) _

theorem Db.Outlasts.trans (h : db.Outlasts db₁) (h' : db₁.Outlasts db') : db.Outlasts db' where
  profiles := h.profiles.trans (fun _ _ _ _ _ => trivial) h'.profiles
  campaigns := h.campaigns.trans (fun _ _ _ hab hbc => hbc.trans hab) h'.campaigns
  contracts := h.contracts.trans (fun _ _ _ hab hbc => hbc.trans hab) h'.contracts
  assignments := by
    refine h.assignments.trans (fun _ _ _ hab hbc => ?_) h'.assignments
    exact ⟨hbc.campaign.trans hab.campaign, hbc.tester.trans hab.tester,
      fun ha => hbc.accepted (hab.accepted ha)⟩
  submissions := h.submissions.trans (fun _ _ _ hab hbc => hbc.trans hab) h'.submissions
  disputes := h.disputes.trans (fun _ _ _ _ _ => trivial) h'.disputes

/-- An acceptance is never taken back. -/
theorem Assignment.Moves.outlasts (h : a.Moves request now b) : a.Outlasts b := by
  cases h with
  | accept h => exact ⟨rfl, rfl, fun _ => nofun⟩
  | _ => exact ⟨rfl, rfl, id⟩

theorem outlasts_serve (hs : Reachable settings s) :
    s.db.Outlasts (s.serve settings now user request).db := by
  have hpermitted : Entitled settings s.db user.id (s.serve settings now user request).db :=
    serve_permitted
  -- the policy does not speak of acceptances, so assignments need the roster
  have hassignments : Table.Lasts Assignment.Outlasts s.db.assignments
      (s.serve settings now user request).db.assignments := by
    unfold Service.serve
    split
    · rename_i hok
      obtain ⟨after, sent, henacts, hdone⟩ := reachable_enacts hs hok
      have hmoves := henacts.moves
      rw [← hdone.roster] at hmoves
      intro k a ha
      obtain ⟨b, hb, hmove⟩ := hmoves.of_get ha
      exact ⟨b, hb, hmove.outlasts⟩
    · exact .refl Assignment.Outlasts.refl _
  constructor
  case profiles =>
    exact hpermitted.profiles.lasts (fun _ => trivial) (fun _ _ => not_false) fun _ _ _ _ => trivial
  case campaigns =>
    exact hpermitted.campaigns.lasts (fun c => Eq.refl c.ownerId) (fun _ _ => not_false)
      fun _ _ _ h => h.1
  case contracts =>
    exact hpermitted.contracts.lasts (fun k => Eq.refl k.campaignId) (fun _ _ => not_false)
      fun _ _ _ h => h.1
  case assignments => exact hassignments
  case submissions =>
    refine hpermitted.submissions.lasts (fun e => Eq.refl e.assignmentId) (fun _ _ => not_false)
      fun _ e f h => ?_
    rw [h.1]
  case disputes =>
    exact hpermitted.disputes.lasts (fun _ => trivial) (fun _ _ => not_false) fun _ _ _ _ => trivial

theorem outlasts_after {settings : AppSettings} (hs : Reachable settings.toSettings s)
    (calls : List Call) : s.db.Outlasts (s.after settings calls).db := by
  induction calls generalizing s with
  | nil => exact .refl s.db
  | cons call calls ih =>
      have hstep : s.db.Outlasts (s.respond settings call).2.db
          ∧ Reachable settings.toSettings (s.respond settings call).2 := by
        rcases @respond_serves settings s call with hsame | ⟨request, -, hserved⟩
        · rw [hsame]
          exact ⟨.refl s.db, hs⟩
        · rw [hserved]
          exact ⟨outlasts_serve hs, hs.tail call.now call.user request⟩
      exact hstep.1.trans (ih hstep.2)

section Later

variable {id : Uuid}

theorem Db.Outlasts.owns (h : db.Outlasts db') (hown : db.Owns u id) : db'.Owns u id := by
  obtain ⟨c, hc, howner⟩ := hown
  obtain ⟨d, hd, hsame⟩ := h.campaigns id c hc
  exact ⟨d, hd, hsame.trans howner⟩

theorem Db.Outlasts.hosts (h : db.Outlasts db') (hhost : db.Hosts u id) : db'.Hosts u id := by
  obtain ⟨a, ha, hown⟩ := hhost
  obtain ⟨b, hb, hsame⟩ := h.assignments id a ha
  exact ⟨b, hb, by rw [hsame.campaign]; exact h.owns hown⟩

theorem Db.Outlasts.takesPart (h : db.Outlasts db') (hpart : db.TakesPart u id) :
    db'.TakesPart u id := by
  rcases hpart with ⟨a, ha, htester⟩ | hhost
  · obtain ⟨b, hb, hsame⟩ := h.assignments id a ha
    exact .inl ⟨b, hb, hsame.tester.trans htester⟩
  · exact .inr (h.hosts hhost)

theorem Db.Outlasts.sees (h : db.Outlasts db') (hsees : db.Sees u id) : db'.Sees u id := by
  obtain ⟨e, he, hpart⟩ := hsees
  obtain ⟨f, hf, hsame⟩ := h.submissions id e he
  exact ⟨f, hf, by rw [hsame]; exact h.takesPart hpart⟩

theorem Db.Outlasts.contract (h : db.Outlasts db')
    (hcontract : ∃ contract, db.contractOf id = some contract) :
    ∃ contract, db'.contractOf id = some contract := by
  obtain ⟨contract, hfound⟩ := hcontract
  obtain ⟨hrow, hof⟩ := Table.find?_eq_some hfound
  obtain ⟨l, hl, hsame⟩ := h.contracts contract.1 contract.2 hrow
  refine Option.ne_none_iff_exists'.mp fun hnone => ?_
  have hmissed := Table.find?_eq_none.mp hnone contract.1 l hl
  rw [decide_eq_true_iff] at hof
  rw [decide_eq_false_iff_not] at hmissed
  exact hmissed (hsame.trans hof)

/-- A right to read is not lost but by a suspension; only the page of a campaign is taken down. -/
theorem Query.Readable.later {query : Query} (hread : query.Readable settings db u)
    (h : db.Outlasts db') (hactive : ¬db'.Suspended u)
    (hquery : ∀ slug, query ≠ .publicCampaign slug) : query.Readable settings db' u := by
  have hmoderates : db.Moderates settings u → db'.Moderates settings u := fun hm => ⟨hactive, hm.2⟩
  have hstanding : db.InGoodStanding u → db'.InGoodStanding u := by
    rintro ⟨p, hp, -⟩
    obtain ⟨q, hq, -⟩ := h.profiles u p hp
    exact inGoodStanding_of_knows ⟨q, hq⟩ hactive
  cases query with
  | health | ready | betaStatus | publicCampaigns => trivial
  | publicCampaign slug => exact absurd rfl (hquery slug)
  | capabilities | mine | assignments | disputes | notifications => exact hactive
  | profile | ledger => exact hstanding hread
  | contract id => exact ⟨hactive, h.owns hread.2.1, h.contract hread.2.2⟩
  | assignment id | assignmentCampaign id | testingSessions id | submissions id | messages id
  | audit id => exact ⟨hactive, h.takesPart hread.2⟩
  | assignmentContract id =>
      refine ⟨hactive, ?_⟩
      rcases hread.2 with hhost | ⟨a, ha, htester, haccepted⟩
      · exact .inl (h.hosts hhost)
      · obtain ⟨b, hb, hsame⟩ := h.assignments id a ha
        exact .inr ⟨b, hb, hsame.tester.trans htester, hsame.accepted haccepted⟩
  | submission id | submissionQualityCheck id | reviews id => exact ⟨hactive, h.sees hread.2⟩
  | moderationDisputes status | participants | waitlist => exact hmoderates hread
  | disputeCase id =>
      obtain ⟨d, hd⟩ := hread.2
      obtain ⟨e, he, -⟩ := h.disputes id d hd
      exact ⟨hmoderates hread.1, e, he⟩

end Later

/--
**Whom a route has answered once it answers for good**, whatever anybody does
after, unless he is suspended. The page of a campaign is the one exception.
-/
theorem reading_lasts (settings : AppSettings) (s : Service) (hs : Reachable settings.toSettings s)
    (user : CurrentUser) (query : Query) (hquery : ∀ slug, query ≠ .publicCampaign slug)
    (now later : Time) (calls : List Call)
    (hread : ∃ r, (s.respond settings ⟨now, user, .read query⟩).1 = .ok r)
    (hactive : ¬(s.after settings calls).db.Suspended user.id) :
    ∃ r, ((s.after settings calls).respond settings ⟨later, user, .read query⟩).1 = .ok r := by
  have hbefore : query.Readable settings.toSettings s.db user.id := (respond_read_ok hs).mp hread
  have hafter : query.Readable settings.toSettings (s.after settings calls).db user.id :=
    hbefore.later (outlasts_after hs calls) hactive hquery
  exact (respond_read_ok (reachable_after hs calls)).mpr hafter

/-- The application is accepted, and then the moderator suspends the owner. -/
def benchHandover : List Call :=
  [⟨0, ⟨1, none⟩, .write (.accept 8)⟩, ⟨0, ⟨9, none⟩, .write (.suspend 1 ⟨"Sold the bench"⟩)⟩]

theorem reading_lasts_bench :
    (appliedService.after { moderatorUserIds := [9] } benchHandover).db.Suspended 1
      ∧ ∃ r, ((appliedService.after { moderatorUserIds := [9] } benchHandover).respond
        { moderatorUserIds := [9] } ⟨5, ⟨2, none⟩, .read (.assignment 8)⟩).1 = .ok r := by
  have hs : Reachable benchSettings appliedService := reachable_run .init _
  have howner : ((appliedService.after { moderatorUserIds := [9] } benchHandover).db.profiles.get?
      1).any (·.isSuspended) = true := by decide +kernel
  have htester : ((appliedService.after { moderatorUserIds := [9] } benchHandover).db.profiles.get?
      2).any (·.isSuspended) = false := by decide +kernel
  have hread : (appliedService.respond { moderatorUserIds := [9] }
      ⟨0, ⟨2, none⟩, .read (.assignment 8)⟩).1.toOption.isSome = true := by decide +kernel
  constructor
  · obtain ⟨p, hp, hsuspended⟩ := (Option.any_eq_true _ _).mp howner
    exact ⟨p, hp, hsuspended⟩
  · refine reading_lasts { moderatorUserIds := [9] } appliedService hs ⟨2, none⟩ (.assignment 8)
      (fun _ => nofun) 0 5 benchHandover ?_ ?_
    · obtain ⟨r, hr⟩ := Option.isSome_iff_exists.mp hread
      cases hanswer : (appliedService.respond { moderatorUserIds := [9] }
          ⟨0, ⟨2, none⟩, .read (.assignment 8)⟩).1 with
      | ok answer => exact ⟨answer, rfl⟩
      | error failure =>
          rw [hanswer] at hr
          cases hr
    · rintro ⟨p, hp, hsuspended⟩
      rw [hp] at htester
      exact absurd (hsuspended.symm.trans htester) (by decide)

end TestExchange
