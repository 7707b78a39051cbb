import Mathlib.Algebra.Ring.Int.Defs
import Mathlib.Data.Set.Function
import TestExchange.Proof.Audit
import TestExchange.Spec.Keys

/-!
# The ledger is explained by the workflow

Credits move on three occasions: a user joins, a campaign is published, an
assignment is approved. Each has its own idempotency key, and the workflow never
undoes one, so the ledger and the occasions that have taken place are the same
thing seen from two sides.
-/

namespace TestExchange

open Txn Exchange

/-! ## Occasions -/

/-- What credits move for. -/
inductive Occasion where
  | signup (userId : Uuid)
  | posting (campaignId : Uuid)
  | reward (assignmentId : Uuid)
  deriving DecidableEq

/-- The key an occasion is recorded under. -/
def Occasion.key : Occasion → String
  | .signup userId => idempotencyKey "profile" userId "signup-grant"
  | .posting campaignId => idempotencyKey "campaign" campaignId "posting"
  | .reward assignmentId => idempotencyKey "assignment" assignmentId "reward"

/-- The occasion a ledger entry is about, by its type and its reference. -/
def CreditLedgerEntry.occasion (e : CreditLedgerEntry) : Option Occasion :=
  match e.entryType with
  | .signupGrant => e.referenceId.map .signup
  | .posting => e.referenceId.map .posting
  | .reward => e.referenceId.map .reward
  | _ => none

/-- The occasion has taken place. -/
def Occasion.Occurs (g : Nat) (s : Exchange) : Occasion → Prop
  | .signup userId => 0 < g ∧ ∃ p, s.profiles.get? userId = some p
  | .posting campaignId => ∃ c, s.campaigns.get? campaignId = some c ∧ c.status ≠ .draft
  | .reward assignmentId => ∃ a, s.assignments.get? assignmentId = some a ∧ a.status = .approved

/-- Whose credits the occasion moves, and by how much. -/
def Occasion.Moves (g : Nat) (s : Exchange) : Occasion → Uuid → Int → Prop
  | .signup userId, u, delta => u = userId ∧ delta = g
  | .posting campaignId, u, delta => ∃ c, s.campaigns.get? campaignId = some c ∧ u = c.ownerId
      ∧ delta = -(c.targetTesters * c.rewardCredits)
  | .reward assignmentId, u, delta => ∃ a c, s.assignments.get? assignmentId = some a
      ∧ s.campaigns.get? a.campaignId = some c ∧ u = a.testerId ∧ a.testerId ≠ c.ownerId
      ∧ delta = c.rewardCredits

theorem Occasion.key_inj {o o' : Occasion} (h : o.key = o'.key) : o = o' := by
  cases o <;> cases o'
  case signup.signup => rw [idempotencyKey_inj h]
  case posting.posting => rw [idempotencyKey_inj h]
  case reward.reward => rw [idempotencyKey_inj h]
  all_goals exact absurd h (idempotencyKey_ne (by decide))

/-- The entry is the record of the occasion, which has taken place. -/
structure Occasion.Explains (g : Nat) (s : Exchange) (o : Occasion) (e : CreditLedgerEntry) :
    Prop where
  occurs : o.Occurs g s
  moves : o.Moves g s e.userId e.delta
  occasion : e.occasion = some o
  key : e.idempotencyKey = o.key

/-! ## What is kept -/

/-- The parts of a campaign that its ledger entries depend on. -/
def Campaign.SameTerms (c c' : Campaign) : Prop :=
  c'.ownerId = c.ownerId ∧ c'.targetTesters = c.targetTesters ∧ c'.rewardCredits = c.rewardCredits

/-- Campaigns past their draft stay so, on the same terms. -/
def CampaignsKept (t t' : Table Campaign) : Prop :=
  ∀ id c, t.get? id = some c → c.status ≠ .draft →
    ∃ c', t'.get? id = some c' ∧ c'.status ≠ .draft ∧ c.SameTerms c'

/-- Assignments stay with their campaign and tester, and approved if they are. -/
def AssignmentsKept (t t' : Table Assignment) : Prop :=
  ∀ id a, t.get? id = some a → ∃ a', t'.get? id = some a' ∧ a'.campaignId = a.campaignId
    ∧ a'.testerId = a.testerId ∧ (a.status = .approved → a'.status = .approved)

/-- What has taken place stays so. -/
structure TermsKept (s s' : Exchange) : Prop where
  profiles : ∀ u p, s.profiles.get? u = some p → ∃ p', s'.profiles.get? u = some p'
  campaigns : CampaignsKept s.campaigns s'.campaigns
  assignments : AssignmentsKept s.assignments s'.assignments

variable {g : Nat} {s s₁ s₂ s' : Exchange}

theorem CampaignsKept.refl (t : Table Campaign) : CampaignsKept t t :=
  fun _ c hc hd => ⟨c, hc, hd, rfl, rfl, rfl⟩

theorem AssignmentsKept.refl (t : Table Assignment) : AssignmentsKept t t :=
  fun _ a ha => ⟨a, ha, rfl, rfl, id⟩

theorem CampaignsKept.modify {t : Table Campaign} {id : Uuid} {c : Campaign}
    {f : Campaign → Campaign} (hc : t.get? id = some c)
    (hf : c.status ≠ .draft → (f c).status ≠ .draft ∧ c.SameTerms (f c)) :
    CampaignsKept t (t.modify id f) := by
  intro i c' hc' hd
  by_cases hi : i = id
  · subst hi
    obtain rfl := Option.some.inj (hc.symm.trans hc')
    exact ⟨f c, by rw [Table.get?_modify_self, hc]; rfl, hf hd⟩
  · exact ⟨c', (Table.get?_modify_ne hi).trans hc', hd, rfl, rfl, rfl⟩

theorem AssignmentsKept.modify {t : Table Assignment} {id : Uuid} {a : Assignment}
    {f : Assignment → Assignment} (ha : t.get? id = some a)
    (hf : (f a).campaignId = a.campaignId ∧ (f a).testerId = a.testerId)
    (happroved : a.status = .approved → (f a).status = .approved) :
    AssignmentsKept t (t.modify id f) := by
  intro i a' ha'
  by_cases hi : i = id
  · subst hi
    obtain rfl := Option.some.inj (ha.symm.trans ha')
    exact ⟨f a, by rw [Table.get?_modify_self, ha]; rfl, hf.1, hf.2, happroved⟩
  · exact ⟨a', (Table.get?_modify_ne hi).trans ha', rfl, rfl, fun h => h⟩

/-- Nothing but the status of one assignment changes. -/
theorem TermsKept.assignment {id : Uuid} {a : Assignment} {f : Assignment → Assignment}
    (ha : s.assignments.get? id = some a)
    (hf : (f a).campaignId = a.campaignId ∧ (f a).testerId = a.testerId)
    (hopen : a.status ≠ .approved) (hp : s'.profiles = s.profiles)
    (hc : s'.campaigns = s.campaigns) (hs : s'.assignments = s.assignments.modify id f) :
    TermsKept s s' where
  profiles := by rw [hp]; exact fun u p hu => ⟨p, hu⟩
  campaigns := by rw [hc]; exact .refl _
  assignments := by rw [hs]; exact .modify ha hf fun h => absurd h hopen

/-- Nothing but one campaign changes. -/
theorem TermsKept.campaign {id : Uuid} {c : Campaign} {f : Campaign → Campaign}
    (hc : s.campaigns.get? id = some c)
    (hf : c.status ≠ .draft → (f c).status ≠ .draft ∧ c.SameTerms (f c))
    (hp : s'.profiles = s.profiles) (ha : s'.assignments = s.assignments)
    (hs : s'.campaigns = s.campaigns.modify id f) : TermsKept s s' where
  profiles := by rw [hp]; exact fun u p hu => ⟨p, hu⟩
  campaigns := by rw [hs]; exact .modify hc hf
  assignments := by rw [ha]; exact .refl _

theorem TermsKept.of_eq (hp : s'.profiles = s.profiles) (hc : s'.campaigns = s.campaigns)
    (ha : s'.assignments = s.assignments) : TermsKept s s' where
  profiles := by rw [hp]; exact fun u p hu => ⟨p, hu⟩
  campaigns := by rw [hc]; exact .refl _
  assignments := by rw [ha]; exact .refl _

/-- **What has taken place stays so in every step.** -/
theorem termsKept_step {x : Action} (hs : Step g s x s') : TermsKept s s' := by
  cases hs with
  | @addProfile s₁ u p hnew hgrant =>
      obtain ⟨hp, hc, ha, _⟩ := paid_frame hgrant
      refine ⟨?_, ?_, ?_⟩
      · intro v q hv
        refine ⟨q, ?_⟩
        show s₁.profiles.get? v = some q
        rw [hp]
        exact Table.get?_insert_of_some hv
      · show CampaignsKept _ s₁.campaigns
        rw [hc]
        exact .refl _
      · show AssignmentsKept _ s₁.assignments
        rw [ha]
        exact .refl _
  | editProfile he =>
      exact ⟨fun u p hu => Table.exists_get?_modify hu, .refl _, .refl _⟩
  | note he => exact .of_eq rfl rfl rfl
  | openAccount => exact .of_eq rfl rfl rfl
  | createCampaign hnew hdraft =>
      refine ⟨fun u p hu => ⟨p, hu⟩, ?_, .refl _⟩
      intro id c hc hd
      exact ⟨c, Table.get?_insert_of_some hc, hd, rfl, rfl, rfl⟩
  | @editCampaign id c payload actor hc hdraft =>
      -- terms are only fixed by publication, and this campaign is a draft
      exact .campaign (f := payload.set c) hc (fun hd => absurd hdraft hd) rfl rfl rfl
  | @publish s₁ id c now hc hdraft hspend =>
      obtain ⟨hp, hcs, ha, _⟩ := hspend.frame
      refine .campaign (f := fun c => { c with status := .published, publishedAt := some now }) hc
        (fun hd => absurd hdraft hd) hp ha ?_
      rw [← hcs]
      rfl
  | @transition id c action actor details hc hfrom hroom =>
      refine .campaign (f := fun c => { c with status := action.target }) hc ?_ rfl rfl rfl
      intro _
      exact ⟨by cases action <;> simp [TransitionAction.target], rfl, rfl, rfl⟩
  | @complete id c actor details hc hstatus =>
      exact .campaign (f := fun c => { c with status := .completed }) hc
        (fun _ => ⟨by simp, rfl, rfl, rfl⟩) rfl rfl rfl
  | apply hnew hc hpublished howner hfirst hroom =>
      refine ⟨fun u p hu => ⟨p, hu⟩, .refl _, ?_⟩
      intro i a ha
      exact ⟨a, Table.get?_insert_of_some ha, rfl, rfl, id⟩
  | @accept id a c now ha happlied hc hpublished hroom =>
      exact .assignment (f := fun a => { a with status := .accepted, acceptedAt := some now }) ha
        ⟨rfl, rfl⟩ (by simp [happlied]) rfl rfl rfl
  | @decline id a actor now details ha happlied =>
      exact .assignment (f := fun a => { a with status := .cancelled, completedAt := some now }) ha
        ⟨rfl, rfl⟩ (by simp [happlied]) rfl rfl rfl
  | @withdraw id a now details ha hstatus =>
      refine .assignment (f := fun a => { a with status := .cancelled, completedAt := some now }) ha
        ⟨rfl, rfl⟩ ?_ rfl rfl rfl
      -- a withdrawn assignment was not approved
      intro h
      rw [h] at hstatus
      exact absurd hstatus (by decide)
  | @start id a now ha haccepted =>
      exact .assignment (f := fun a => { a with status := .inProgress, startedAt := some now }) ha
        ⟨rfl, rfl⟩ (by simp [haccepted]) rfl rfl rfl
  | @submit id k a e now details ha hstatus hnew hof hversion hsubmitted =>
      refine .assignment (f := fun a => { a with status := .submitted, submittedAt := some now }) ha
        ⟨rfl, rfl⟩ ?_ rfl rfl rfl
      -- nor was one that is submitted
      intro h
      rw [h] at hstatus
      exact absurd hstatus (by decide)
  | @review s₁ i k id a e c r note now details he hof ha hc hcalm hpending hawaiting hnew hfirst
      hsub hby hpay =>
      obtain ⟨hp, hcs, has, _⟩ := paid_frame hpay
      exact .assignment (f := r.decision.conclude now) ha ⟨rfl, rfl⟩ (by simp [hawaiting]) hp hcs has
  | openDispute hnew ha hby he hsub hof hstatus honce hopen hfresh => exact .of_eq rfl rfl rfl
  | claim hd hopen => exact .of_eq rfl rfl rfl
  | @award s₁ i m k d a e c payload note now at' hc hremedy houtcome hstatus hsub he hof hcamp
      hpay =>
      obtain ⟨hp, hcs, has, _⟩ := hpay.frame
      refine .assignment (f := ReviewDecision.conclude .approved now) hc.ha ⟨rfl, rfl⟩ ?_ hp hcs has
      -- nor was one that is awarded
      intro h
      rw [h] at hstatus
      exact absurd hstatus (by decide)
  | @rejectOverdue i m k d a e payload now at' hc hremedy houtcome hstatus hsub he hof =>
      exact .assignment (f := fun a => { a with status := .rejected, completedAt := some now }) hc.ha
        ⟨rfl, rfl⟩ (by simp [hstatus]) rfl rfl rfl
  | uphold hc hremedy hstatus => exact .of_eq rfl rfl rfl

/-! ## What is new -/

/--
Where the profiles, published campaigns and assignments of `s'` come from: they
were there before, the step brought about the occasion `o`, or a tester applied.
-/
structure Origin (s s' : Exchange) (o : Option Occasion) : Prop where
  profiles : ∀ u p', s'.profiles.get? u = some p' →
    (∃ p, s.profiles.get? u = some p) ∨ o = some (.signup u)
  campaigns : ∀ id c', s'.campaigns.get? id = some c' → c'.status ≠ .draft →
    (∃ c, s.campaigns.get? id = some c ∧ c.status ≠ .draft) ∨ o = some (.posting id)
  assignments : ∀ id a', s'.assignments.get? id = some a' →
    (∃ a, s.assignments.get? id = some a ∧ a'.campaignId = a.campaignId
      ∧ a'.testerId = a.testerId
      ∧ (a'.status = .approved → a.status = .approved ∨ o = some (.reward id)))
    ∨ (a'.status = .applied ∧ ∃ c, s.campaigns.get? a'.campaignId = some c ∧ c.status ≠ .draft
      ∧ c.ownerId ≠ a'.testerId)

theorem Origin.occurs {o : Option Occasion} (h : Origin s s' o) {y : Occasion}
    (hy : y.Occurs g s') : y.Occurs g s ∨ o = some y := by
  cases y with
  | signup u =>
      obtain ⟨hg, p', hp'⟩ := hy
      exact (h.profiles u p' hp').imp_left fun hp => ⟨hg, hp⟩
  | posting id =>
      obtain ⟨c', hc', hd⟩ := hy
      exact h.campaigns id c' hc' hd
  | reward id =>
      obtain ⟨a', ha', happroved⟩ := hy
      rcases h.assignments id a' ha' with ⟨a, ha, _, _, hback⟩ | ⟨happlied, _⟩
      · exact (hback happroved).imp_left fun hs => ⟨a, ha, hs⟩
      · rw [happroved] at happlied
        exact absurd happlied (by simp)

theorem profiles_origin {o : Option Occasion} (h : s'.profiles = s.profiles) :
    ∀ u p', s'.profiles.get? u = some p' →
      (∃ p, s.profiles.get? u = some p) ∨ o = some (.signup u) := by
  intro u p' hp'
  rw [h] at hp'
  exact Or.inl ⟨p', hp'⟩

theorem campaigns_origin {o : Option Occasion} (h : s'.campaigns = s.campaigns) :
    ∀ id c', s'.campaigns.get? id = some c' → c'.status ≠ .draft →
      (∃ c, s.campaigns.get? id = some c ∧ c.status ≠ .draft) ∨ o = some (.posting id) := by
  intro id c' hc' hd
  rw [h] at hc'
  exact Or.inl ⟨c', hc', hd⟩

theorem assignments_origin {o : Option Occasion} (h : s'.assignments = s.assignments) :
    ∀ id a', s'.assignments.get? id = some a' →
      (∃ a, s.assignments.get? id = some a ∧ a'.campaignId = a.campaignId
        ∧ a'.testerId = a.testerId
        ∧ (a'.status = .approved → a.status = .approved ∨ o = some (.reward id)))
      ∨ (a'.status = .applied ∧ ∃ c, s.campaigns.get? a'.campaignId = some c ∧ c.status ≠ .draft
        ∧ c.ownerId ≠ a'.testerId) := by
  intro id a' ha'
  rw [h] at ha'
  exact Or.inl ⟨a', ha', rfl, rfl, Or.inl⟩

theorem Origin.of_eq (hp : s'.profiles = s.profiles) (hc : s'.campaigns = s.campaigns)
    (ha : s'.assignments = s.assignments) : Origin s s' none :=
  ⟨profiles_origin hp, campaigns_origin hc, assignments_origin ha⟩

/-- Nothing but one campaign changes. -/
theorem Origin.campaign {o : Option Occasion} {id : Uuid} {c : Campaign} {f : Campaign → Campaign}
    (hc : s.campaigns.get? id = some c)
    (hf : (f c).status ≠ .draft → c.status ≠ .draft ∨ o = some (.posting id))
    (hp : s'.profiles = s.profiles) (ha : s'.assignments = s.assignments)
    (hs : s'.campaigns = s.campaigns.modify id f) : Origin s s' o := by
  refine ⟨profiles_origin hp, ?_, assignments_origin ha⟩
  intro i c' hc' hd
  rw [hs] at hc'
  rcases Table.get?_modify_cases hc' with ⟨rfl, c₀, hc₀, rfl⟩ | ⟨_, hold⟩
  · obtain rfl := Option.some.inj (hc.symm.trans hc₀)
    exact (hf hd).imp_left fun h => ⟨c, hc, h⟩
  · exact Or.inl ⟨c', hold, hd⟩

/-- Nothing but one assignment changes. -/
theorem Origin.assignment {o : Option Occasion} {id : Uuid} {a : Assignment}
    {f : Assignment → Assignment} (ha : s.assignments.get? id = some a)
    (hf : (f a).campaignId = a.campaignId ∧ (f a).testerId = a.testerId)
    (happroved : (f a).status = .approved → o = some (.reward id))
    (hp : s'.profiles = s.profiles) (hc : s'.campaigns = s.campaigns)
    (hs : s'.assignments = s.assignments.modify id f) : Origin s s' o := by
  refine ⟨profiles_origin hp, campaigns_origin hc, ?_⟩
  intro i a' ha'
  rw [hs] at ha'
  rcases Table.get?_modify_cases ha' with ⟨rfl, a₀, ha₀, rfl⟩ | ⟨_, hold⟩
  · obtain rfl := Option.some.inj (ha.symm.trans ha₀)
    exact Or.inl ⟨a, ha, hf.1, hf.2, fun h => Or.inr (happroved h)⟩
  · exact Or.inl ⟨a', hold, rfl, rfl, Or.inl⟩

/-! ## Balances -/

/-- The sum of a user's ledger entries. -/
def earned (ledger : List CreditLedgerEntry) (userId : Uuid) : Int :=
  ((ledger.filter fun e => e.userId = userId).map (·.delta)).sum

/-- **Balances and ledger belong together.** -/
structure Booked (s : Exchange) : Prop where
  keys : (s.creditLedgerEntries.map (·.idempotencyKey)).Nodup
  balances : ∀ u, s.balance u = earned s.creditLedgerEntries u
  accounts : ∀ e ∈ s.creditLedgerEntries, ∃ account, s.creditAccounts.get? e.userId = some account
  solvent : ∀ u, 0 ≤ s.balance u

theorem Booked.congr (h : Booked s) (hl : s'.creditLedgerEntries = s.creditLedgerEntries)
    (ha : s'.creditAccounts = s.creditAccounts) : Booked s' := by
  have hb : ∀ u, s'.balance u = s.balance u := by
    intro u
    rw [Exchange.balance, ha]
    rfl
  refine ⟨by rw [hl]; exact h.keys, ?_, by rw [hl, ha]; exact h.accounts, ?_⟩
  · intro u
    rw [hb, hl]
    exact h.balances u
  · intro u
    rw [hb]
    exact h.solvent u

theorem balance_openAccount {u v : Uuid} : (s.openAccount u).balance v = s.balance v := by
  unfold Exchange.balance Exchange.openAccount
  cases hu : s.creditAccounts.get? u with
  | some account => rw [Table.insert_of_mem hu]
  | none =>
      rw [Table.get?_insert hu]
      split
      · rename_i hv
        rw [hv, hu]
        rfl
      · rfl

theorem Booked.openAccount (h : Booked s) (u : Uuid) : Booked (s.openAccount u) where
  keys := h.keys
  balances := fun v => balance_openAccount.trans (h.balances v)
  accounts := by
    intro e he
    obtain ⟨account, ha⟩ := h.accounts e he
    exact ⟨account, Table.get?_insert_of_some ha⟩
  solvent := fun v => by rw [balance_openAccount]; exact h.solvent v

theorem earned_append {l : List CreditLedgerEntry} {e : CreditLedgerEntry} {u : Uuid} :
    earned (l ++ [e]) u = earned l u + if e.userId = u then e.delta else 0 := by
  unfold earned
  rw [List.filter_append, List.map_append, List.sum_append]
  by_cases hu : e.userId = u <;> simp [hu]

theorem get?_enter {change : CreditChange} {t : Uuid} :
    (s.enter change t).creditAccounts.get? change.userId
      = some ⟨s.balance change.userId + change.delta⟩ := by
  show ((s.openAccount change.userId).creditAccounts.modify _ _).get? _ = _
  rw [Table.get?_modify_self]
  cases hu : s.creditAccounts.get? change.userId with
  | some account => rw [Exchange.openAccount, Table.get?_insert_of_some hu]; rfl
  | none => rw [Exchange.openAccount, Table.get?_insert_self hu]; rfl

theorem balance_enter {change : CreditChange} {t u : Uuid} :
    (s.enter change t).balance u
      = s.balance u + if change.userId = u then change.delta else 0 := by
  by_cases hu : change.userId = u
  · subst hu
    rw [Exchange.balance, get?_enter, if_pos rfl]
    rfl
  · rw [if_neg hu, Int.add_zero]
    refine Eq.trans ?_ (balance_openAccount (u := change.userId))
    show (((s.openAccount change.userId).creditAccounts.modify _ _).get? u).elim 0 _ = _
    rw [Table.get?_modify_ne (Ne.symm hu)]
    rfl

theorem Booked.credited {change : CreditChange} (h : Booked s) (hc : Credited change s s') :
    Booked s' := by
  cases hc with
  | known => exact h
  | entered t hnew hdelta hfunds =>
      refine ⟨?_, ?_, ?_, ?_⟩
      · show ((s.creditLedgerEntries ++ [change.entry t]).map (·.idempotencyKey)).Nodup
        rw [List.map_append, List.nodup_append]
        refine ⟨h.keys, List.nodup_singleton _, ?_⟩
        intro key hkey key' hkey'
        obtain ⟨e, he, rfl⟩ := List.mem_map.1 hkey
        obtain rfl := List.mem_singleton.1 hkey'
        exact hnew e he
      · intro u
        show _ = earned (s.creditLedgerEntries ++ [change.entry t]) u
        rw [balance_enter, earned_append, h.balances]
        rfl
      · intro e he
        rcases List.mem_append.1 he with he | he
        · obtain ⟨account, ha⟩ := h.accounts e he
          exact Table.exists_get?_modify (Table.get?_insert_of_some ha)
        · obtain rfl := List.mem_singleton.1 he
          exact ⟨_, get?_enter⟩
      · intro u
        rw [balance_enter]
        have hu := h.solvent u
        split
        · rename_i hsame
          rw [← hsame]
          exact hfunds
        · omega

/-! ## The ledger -/

/-- **The invariant of the ledger.** -/
structure LedgerInv (g : Nat) (s : Exchange) : Prop where
  booked : Booked s
  /-- Testers work for other people's published campaigns. -/
  assigned : ∀ id a, s.assignments.get? id = some a →
    ∃ c, s.campaigns.get? a.campaignId = some c ∧ c.status ≠ .draft ∧ c.ownerId ≠ a.testerId
  /-- Every entry records an occasion. -/
  explained : ∀ e ∈ s.creditLedgerEntries, ∃ o : Occasion, o.Explains g s e
  /-- Every occasion is recorded. -/
  recorded : ∀ o : Occasion, o.Occurs g s →
    ∃ e ∈ s.creditLedgerEntries, e.idempotencyKey = o.key

theorem ledgerInv_empty : LedgerInv g Exchange.empty where
  booked := ⟨List.nodup_nil, fun _ => rfl, fun e he => absurd he (by simp [Exchange.empty, Db.exchange,
    Db.empty]), fun _ => Int.le_refl _⟩
  assigned := fun id a h => absurd h (by simp [Exchange.empty, Db.exchange, Db.empty])
  explained := fun e he => absurd he (by simp [Exchange.empty, Db.exchange, Db.empty])
  recorded := by
    intro o ho
    cases o with
    | signup u => obtain ⟨_, p, hp⟩ := ho; exact absurd hp (by simp [Exchange.empty, Db.exchange, Db.empty])
    | posting id => obtain ⟨c, hc, _⟩ := ho; exact absurd hc (by simp [Exchange.empty, Db.exchange, Db.empty])
    | reward id => obtain ⟨a, ha, _⟩ := ho; exact absurd ha (by simp [Exchange.empty, Db.exchange, Db.empty])

theorem LedgerInv.assigned_of (h : LedgerInv g s) {o : Option Occasion} (hkept : TermsKept s s')
    (horigin : Origin s s' o) : ∀ id a', s'.assignments.get? id = some a' →
      ∃ c, s'.campaigns.get? a'.campaignId = some c ∧ c.status ≠ .draft
        ∧ c.ownerId ≠ a'.testerId := by
  intro id a' ha'
  have hold : ∃ c, s.campaigns.get? a'.campaignId = some c ∧ c.status ≠ .draft
      ∧ c.ownerId ≠ a'.testerId := by
    rcases horigin.assignments id a' ha' with ⟨a, ha, hcampaign, htester, _⟩ | ⟨_, hnew⟩
    · rw [hcampaign, htester]
      exact h.assigned id a ha
    · exact hnew
  obtain ⟨c, hc, hd, howner⟩ := hold
  obtain ⟨c', hc', hd', hsame, _⟩ := hkept.campaigns _ c hc hd
  exact ⟨c', hc', hd', by rw [hsame]; exact howner⟩

/-- What an entry records stays true. -/
theorem LedgerInv.explains_kept (h : LedgerInv g s) (hkept : TermsKept s s') {o : Occasion}
    {e : CreditLedgerEntry} (he : o.Explains g s e) : o.Explains g s' e := by
  obtain ⟨hoccurs, hmoves, hoccasion, hkey⟩ := he
  refine ⟨?_, ?_, hoccasion, hkey⟩
  · cases o with
    | signup u =>
        obtain ⟨hg, p, hp⟩ := hoccurs
        exact ⟨hg, hkept.profiles u p hp⟩
    | posting id =>
        obtain ⟨c, hc, hd⟩ := hoccurs
        obtain ⟨c', hc', hd', _⟩ := hkept.campaigns id c hc hd
        exact ⟨c', hc', hd'⟩
    | reward id =>
        obtain ⟨a, ha, happroved⟩ := hoccurs
        obtain ⟨a', ha', _, _, hstays⟩ := hkept.assignments id a ha
        exact ⟨a', ha', hstays happroved⟩
  · cases o with
    | signup u => exact hmoves
    | posting id =>
        obtain ⟨c, hc, hd⟩ := hoccurs
        obtain ⟨c₀, hc₀, hu, hdelta⟩ := hmoves
        obtain rfl := Option.some.inj (hc.symm.trans hc₀)
        obtain ⟨c', hc', _, howner, htarget, hreward⟩ := hkept.campaigns id c hc hd
        exact ⟨c', hc', by rw [howner]; exact hu, by rw [htarget, hreward]; exact hdelta⟩
    | reward id =>
        obtain ⟨a, c, ha, hc, hu, hne, hdelta⟩ := hmoves
        obtain ⟨c₀, hc₀, hd, _⟩ := h.assigned id a ha
        obtain rfl := Option.some.inj (hc.symm.trans hc₀)
        obtain ⟨a', ha', hcampaign, htester, _⟩ := hkept.assignments id a ha
        obtain ⟨c', hc', _, howner, _, hreward⟩ := hkept.campaigns _ c hc hd
        refine ⟨a', c', ha', by rw [hcampaign]; exact hc', by rw [htester]; exact hu, ?_, ?_⟩
        · rw [htester, howner]
          exact hne
        · rw [hreward]
          exact hdelta

/-- A step that moves no credits and has no occasion to. -/
theorem LedgerInv.quiet (h : LedgerInv g s) {o : Option Occasion} (hkept : TermsKept s s')
    (horigin : Origin s s' o) (hnone : ∀ y, o = some y → ¬y.Occurs g s') (hbooked : Booked s')
    (hledger : s'.creditLedgerEntries = s.creditLedgerEntries) : LedgerInv g s' where
  booked := hbooked
  assigned := h.assigned_of hkept horigin
  explained := by
    intro e he
    rw [hledger] at he
    obtain ⟨o, ho⟩ := h.explained e he
    exact ⟨o, h.explains_kept hkept ho⟩
  recorded := by
    intro o ho
    rw [hledger]
    rcases horigin.occurs ho with hold | hnew
    · exact h.recorded o hold
    · exact absurd ho (hnone o hnew)

/-- A step that moves neither credits nor anything else that counts. -/
theorem LedgerInv.same (h : LedgerInv g s) (hkept : TermsKept s s') (horigin : Origin s s' none)
    (hl : s'.creditLedgerEntries = s.creditLedgerEntries)
    (ha : s'.creditAccounts = s.creditAccounts) : LedgerInv g s' :=
  h.quiet hkept horigin (fun _ hy => absurd hy (by simp)) (h.booked.congr hl ha) hl

/-- A step that brings about an occasion and records it. -/
theorem LedgerInv.paid (h : LedgerInv g s) {o : Occasion} {change : CreditChange}
    (hc : Credited change s₁ s₂) (hkept : TermsKept s s') (horigin : Origin s s' (some o))
    (hbooked : Booked s₁) (hbefore : s₁.creditLedgerEntries = s.creditLedgerEntries)
    (hafter : s'.creditLedgerEntries = s₂.creditLedgerEntries
      ∧ s'.creditAccounts = s₂.creditAccounts)
    (hkey : change.idempotencyKey = o.key) (hoccasion : ∀ t, (change.entry t).occasion = some o)
    (hoccurs : o.Occurs g s') (hmoves : o.Moves g s' change.userId change.delta) :
    LedgerInv g s' where
  booked := (hbooked.credited hc).congr hafter.1 hafter.2
  assigned := h.assigned_of hkept horigin
  explained := by
    intro e he
    rw [hafter.1] at he
    have hcases : e ∈ s.creditLedgerEntries ∨ ∃ t, e = change.entry t := by
      cases hc with
      | known => rw [hbefore] at he; exact Or.inl he
      | entered t =>
          rcases List.mem_append.1 he with he | he
          · rw [hbefore] at he
            exact Or.inl he
          · exact Or.inr ⟨t, List.mem_singleton.1 he⟩
    rcases hcases with he | ⟨t, rfl⟩
    · obtain ⟨y, hy⟩ := h.explained e he
      exact ⟨y, h.explains_kept hkept hy⟩
    · exact ⟨o, hoccurs, hmoves, hoccasion t, hkey⟩
  recorded := by
    intro y hy
    rw [hafter.1]
    have hgrown : ∀ e ∈ s.creditLedgerEntries, e ∈ s₂.creditLedgerEntries := by
      intro e he
      rw [← hbefore] at he
      cases hc with
      | known => exact he
      | entered t => exact List.mem_append_left _ he
    rcases horigin.occurs hy with hold | hnew
    · obtain ⟨e, he, hek⟩ := h.recorded y hold
      exact ⟨e, hgrown e he, hek⟩
    · obtain rfl := Option.some.inj hnew
      cases hc with
      | known he hek => exact ⟨_, he, hek.trans hkey⟩
      | entered t => exact ⟨change.entry t, List.mem_append_right _ (List.mem_singleton_self _), hkey⟩

/-- The reward of an approved assignment is due to its tester, who is not the one that pays. -/
theorem LedgerInv.reward_due (h : LedgerInv g s) {id : Uuid} {a : Assignment} {c : Campaign}
    {f : Assignment → Assignment} (ha : s.assignments.get? id = some a)
    (hc : s.campaigns.get? a.campaignId = some c)
    (hf : (f a).campaignId = a.campaignId ∧ (f a).testerId = a.testerId)
    (happroved : (f a).status = .approved) (hcs : s'.campaigns = s.campaigns)
    (has : s'.assignments = s.assignments.modify id f) :
    (Occasion.reward id).Occurs g s'
      ∧ (Occasion.reward id).Moves g s' a.testerId c.rewardCredits := by
  obtain ⟨c₀, hc₀, _, howner⟩ := h.assigned id a ha
  obtain rfl := Option.some.inj (hc.symm.trans hc₀)
  have hnow : s'.assignments.get? id = some (f a) := by
    rw [has, Table.get?_modify_self, ha]
    rfl
  have hcampaign : s'.campaigns.get? (f a).campaignId = some c := by
    rw [hcs, hf.1]
    exact hc
  refine ⟨⟨f a, hnow, happroved⟩, f a, c, hnow, hcampaign, hf.2.symm, ?_, rfl⟩
  rw [hf.2]
  exact Ne.symm howner

/-- **The invariant of the ledger is preserved by every step.** -/
theorem ledgerInv_step (g : Nat) (s : Exchange) (x : Action) (s' : Exchange) (h : LedgerInv g s)
    (hs : Step g s x s') : LedgerInv g s' := by
  have hkept := termsKept_step hs
  cases hs with
  | @addProfile s₁ u p hnew hgrant =>
      obtain ⟨hp, hc, ha, _⟩ := paid_frame hgrant
      have hjoined : s₁.profiles.get? u = some p := by
        rw [hp]
        exact Table.get?_insert_self hnew
      have horigin : Origin s (s₁.record ⟨some u, "profile.created", "profile", u, []⟩)
          (some (.signup u)) := by
        refine ⟨?_, campaigns_origin hc, assignments_origin ha⟩
        intro v q hq
        have hq : s₁.profiles.get? v = some q := hq
        rw [hp] at hq
        rcases Table.get?_insert_cases hq with hq | ⟨rfl, _⟩
        · exact Or.inl ⟨q, hq⟩
        · exact Or.inr rfl
      -- the account is opened first, so the grant finds an account that is booked
      have hopened : Booked ({ s with profiles := s.profiles.insert u p }.openAccount u) :=
        Booked.openAccount (s := { s with profiles := s.profiles.insert u p })
          (h.booked.congr rfl rfl) u
      split at hgrant
      · rename_i hg
        exact h.paid hgrant hkept horigin hopened rfl ⟨rfl, rfl⟩ rfl (fun _ => rfl)
          ⟨hg, p, hjoined⟩ ⟨rfl, rfl⟩
      · rename_i hg
        -- no grant is configured: nothing is owed for the signup
        refine h.quiet hkept horigin ?_ ?_ ?_
        · intro y hy hoccurs
          obtain rfl := Option.some.inj hy
          exact hg hoccurs.1
        · rw [hgrant]
          exact hopened.congr rfl rfl
        · rw [hgrant]
          rfl
  | @editProfile u f e he =>
      -- an edited profile was there before
      refine h.same hkept ⟨?_, campaigns_origin rfl, assignments_origin rfl⟩ rfl rfl
      intro v q hq
      rcases Table.get?_modify_cases hq with ⟨rfl, q₀, hq₀, _⟩ | ⟨_, hq⟩
      · exact Or.inl ⟨q₀, hq₀⟩
      · exact Or.inl ⟨q, hq⟩
  | note he => exact h.same hkept (.of_eq rfl rfl rfl) rfl rfl
  | @openAccount u =>
      exact h.quiet hkept (.of_eq rfl rfl rfl) (fun _ hy => absurd hy (by simp))
        (h.booked.openAccount u) rfl
  | @createCampaign id c actor hnew hdraft =>
      -- the new campaign is a draft, and drafts have not been paid for
      refine h.same hkept ⟨profiles_origin rfl, ?_, assignments_origin rfl⟩ rfl rfl
      intro i c' hc' hd
      rcases Table.get?_insert_cases hc' with hc' | ⟨_, rfl, _⟩
      · exact Or.inl ⟨c', hc', hd⟩
      · exact absurd hdraft hd
  | @editCampaign id c payload actor hc hdraft =>
      exact h.same hkept (.campaign (f := payload.set c) hc (fun hd => absurd hdraft hd) rfl rfl rfl)
        rfl rfl
  | @publish s₁ id c now hc hdraft hspend =>
      obtain ⟨hp, hcs, ha, _⟩ := hspend.frame
      -- the spend and the publication are one step, so the occasion and its entry come together
      have hcampaigns : (s₁.modifyCampaign id fun c =>
            { c with status := .published, publishedAt := some now }).campaigns
          = s.campaigns.modify id fun c =>
            { c with status := .published, publishedAt := some now } := by
        rw [← hcs]
        rfl
      have hnow : ((s₁.modifyCampaign id fun c =>
            { c with status := .published, publishedAt := some now }).campaigns.get? id)
          = some { c with status := .published, publishedAt := some now } := by
        rw [hcampaigns, Table.get?_modify_self, hc]
        rfl
      have horigin : Origin s
          ((s₁.modifyCampaign id fun c =>
            { c with status := .published, publishedAt := some now }).record
            (campaignEvent c.ownerId "campaign.published" id
              [("spent_credits", .int c.requiredCredits), ("refundable", .bool false)]))
          (some (.posting id)) :=
        Origin.campaign hc (fun _ => Or.inr rfl) hp ha hcampaigns
      refine h.paid hspend hkept horigin h.booked rfl ⟨rfl, rfl⟩ rfl (fun _ => rfl)
        ⟨_, hnow, by simp⟩ ⟨_, hnow, rfl, ?_⟩
      simp [postingEntry, Campaign.requiredCredits]
  | @transition id c action actor details hc hfrom hroom =>
      refine h.same hkept
        (.campaign (f := fun c => { c with status := action.target }) hc ?_ rfl rfl rfl) rfl rfl
      -- it was open before
      intro _
      refine Or.inl ?_
      cases action with
      | pause => simp [TransitionAction.allowedFrom] at hfrom; simp [hfrom]
      | resume => simp [TransitionAction.allowedFrom] at hfrom; simp [hfrom]
      | close => rcases hfrom with hf | hf <;> simp [hf]
  | @complete id c actor details hc hstatus =>
      refine h.same hkept
        (.campaign (f := fun c => { c with status := .completed }) hc ?_ rfl rfl rfl) rfl rfl
      intro _
      rcases hstatus with hs | hs | hs <;> simp [hs]
  | @apply id campaignId testerId c note hnew hc hpublished howner hfirst hroom =>
      refine h.same hkept ⟨profiles_origin rfl, campaigns_origin rfl, ?_⟩ rfl rfl
      -- the application is new; its campaign is published, and not the applicant's own
      intro i a' ha'
      rcases Table.get?_insert_cases ha' with hold | ⟨_, rfl, _⟩
      · exact Or.inl ⟨a', hold, rfl, rfl, Or.inl⟩
      · exact Or.inr ⟨rfl, c, hc, by simp [hpublished], howner⟩
  | @accept id a c now ha happlied hc hpublished hroom =>
      exact h.same hkept (.assignment
        (f := fun a => { a with status := .accepted, acceptedAt := some now }) ha ⟨rfl, rfl⟩
        (by simp) rfl rfl rfl) rfl rfl
  | @decline id a actor now details ha happlied =>
      exact h.same hkept (.assignment
        (f := fun a => { a with status := .cancelled, completedAt := some now }) ha ⟨rfl, rfl⟩
        (by simp) rfl rfl rfl) rfl rfl
  | @withdraw id a now details ha hstatus =>
      exact h.same hkept (.assignment
        (f := fun a => { a with status := .cancelled, completedAt := some now }) ha ⟨rfl, rfl⟩
        (by simp) rfl rfl rfl) rfl rfl
  | @start id a now ha haccepted =>
      exact h.same hkept (.assignment
        (f := fun a => { a with status := .inProgress, startedAt := some now }) ha ⟨rfl, rfl⟩
        (by simp) rfl rfl rfl) rfl rfl
  | @submit id k a e now details ha hstatus hnew hof hversion hsubmitted =>
      exact h.same hkept (.assignment
        (f := fun a => { a with status := .submitted, submittedAt := some now }) ha ⟨rfl, rfl⟩
        (by simp) rfl rfl rfl) rfl rfl
  | @review s₁ i k id a e c r note now details he hof ha hc hcalm hpending hawaiting hnew hfirst
      hsub hby hpay =>
      obtain ⟨hp, hcs, has, _⟩ := paid_frame hpay
      split at hpay
      · rename_i hdecision
        -- an approval is the occasion for a reward
        have happroved : (r.decision.conclude now a).status = .approved := by
          simp [hdecision, ReviewDecision.conclude, ReviewDecision.assignmentStatus]
        obtain ⟨hoccurs, hmoves⟩ := h.reward_due ha hc ⟨rfl, rfl⟩ happroved hcs has
        exact h.paid (o := .reward id) hpay hkept
          (.assignment (f := r.decision.conclude now) ha ⟨rfl, rfl⟩ (fun _ => rfl) hp hcs has)
          (h.booked.congr rfl rfl) rfl ⟨rfl, rfl⟩ rfl (fun _ => rfl) hoccurs hmoves
      · rename_i hdecision
        -- the other decisions pay nothing
        refine h.same hkept
          (.assignment (f := r.decision.conclude now) ha ⟨rfl, rfl⟩ ?_ hp hcs has) ?_ ?_
        · cases hd : r.decision with
          | approved => exact absurd hd hdecision
          | changesRequested => simp [ReviewDecision.conclude, ReviewDecision.assignmentStatus]
          | rejected => simp [ReviewDecision.conclude, ReviewDecision.assignmentStatus]
        · rw [hpay]
          rfl
        · rw [hpay]
          rfl
  | openDispute hnew ha hby he hsub hof hstatus honce hopen hfresh =>
      exact h.same hkept (.of_eq rfl rfl rfl) rfl rfl
  | claim hd hopen => exact h.same hkept (.of_eq rfl rfl rfl) rfl rfl
  | @award s₁ i m k d a e c payload note now at' hcase hremedy houtcome hstatus hsub he hof hc
      hpay =>
      obtain ⟨hp, hcs, has, _⟩ := hpay.frame
      -- an award is the same occasion, reached by the moderator
      obtain ⟨hoccurs, hmoves⟩ := h.reward_due (f := ReviewDecision.conclude .approved now) hcase.ha
        hc ⟨rfl, rfl⟩ rfl hcs has
      exact h.paid (o := .reward d.assignmentId) hpay hkept
        (.assignment (f := ReviewDecision.conclude .approved now) hcase.ha ⟨rfl, rfl⟩ (fun _ => rfl)
          hp hcs has)
        (h.booked.congr rfl rfl) rfl ⟨rfl, rfl⟩ rfl (fun _ => rfl) hoccurs hmoves
  | @rejectOverdue i m k d a e payload now at' hc hremedy houtcome hstatus hsub he hof =>
      exact h.same hkept (.assignment
        (f := fun a => { a with status := .rejected, completedAt := some now }) hc.ha ⟨rfl, rfl⟩
        (by simp) rfl rfl rfl) rfl rfl
  | uphold hc hremedy hstatus => exact h.same hkept (.of_eq rfl rfl rfl) rfl rfl

/-- **The ledger is in order in every possible marketplace.** -/
theorem ledgerInv_possible (h : Possible g s) : LedgerInv g s :=
  h.invariant ledgerInv_empty (ledgerInv_step g)

/-! ## The ledger of a reachable database -/

/-- The occasions that have taken place according to a database. -/
def Db.occasions (db : Db) (g : Nat) : Set (Option Occasion) :=
  {o | ∃ y : Occasion, o = some y ∧ y.Occurs g db.exchange}

/-- The ledger of a database, and the balances it adds up to. -/
structure LedgerExplained (g : Nat) (db : Db) : Prop where
  distinct : db.creditLedgerEntries.Nodup
  bijection : Set.BijOn CreditLedgerEntry.occasion {e | e ∈ db.creditLedgerEntries} (db.occasions g)
  moves : ∀ e ∈ db.creditLedgerEntries, ∀ o : Occasion, e.occasion = some o →
    o.Moves g db.exchange e.userId e.delta
  balances : ∀ u account, db.creditAccounts.get? u = some account →
    account.balance = earned db.creditLedgerEntries u
  accounts : ∀ e ∈ db.creditLedgerEntries, ∃ account, db.creditAccounts.get? e.userId = some account

/-- The key of an entry, and thereby the entry, is known from its occasion. -/
theorem LedgerInv.entry_inj (h : LedgerInv g s) {e e' : CreditLedgerEntry}
    (he : e ∈ s.creditLedgerEntries) (he' : e' ∈ s.creditLedgerEntries)
    (hsame : e.occasion = e'.occasion) : e = e' := by
  obtain ⟨o, ho⟩ := h.explained e he
  obtain ⟨o', ho'⟩ := h.explained e' he'
  have hoo : o = o' := Option.some.inj (ho.occasion.symm.trans (hsame.trans ho'.occasion))
  refine List.inj_on_of_nodup_map h.booked.keys he he' ?_
  rw [ho.key, ho'.key, hoo]

/--
**The ledger is exactly explained by the workflow.** In every reachable database
the ledger entries correspond one to one to the profiles (if there is a signup
grant), the campaigns past their draft and the approved assignments, each entry
moves the credits of its occasion as the rows now read, and every balance is the
sum of the user's entries.
-/
theorem ledger_explained (settings : Settings) (s : Service) (h : Reachable settings s) :
    LedgerExplained settings.signupCreditGrant s.db := by
  have hinv := ledgerInv_possible (reachable_possible h)
  refine ⟨hinv.booked.keys.of_map, ⟨?_, ?_, ?_⟩, ?_, ?_, hinv.booked.accounts⟩
  · intro e he
    obtain ⟨o, ho⟩ := hinv.explained e he
    exact ⟨o, ho.occasion, ho.occurs⟩
  · intro e he e' he' hsame
    exact hinv.entry_inj he he' hsame
  · rintro _ ⟨y, rfl, hy⟩
    obtain ⟨e, he, hkey⟩ := hinv.recorded y hy
    obtain ⟨o, ho⟩ := hinv.explained e he
    obtain rfl := Occasion.key_inj (ho.key.symm.trans hkey)
    exact ⟨e, he, ho.occasion⟩
  · intro e he o hoccasion
    obtain ⟨o', ho'⟩ := hinv.explained e he
    obtain rfl := Option.some.inj (ho'.occasion.symm.trans hoccasion)
    exact ho'.moves
  · intro u account hu
    have hb := hinv.booked.balances u
    rw [Exchange.balance] at hb
    have hu : s.db.exchange.creditAccounts.get? u = some account := hu
    rw [hu] at hb
    exact hb

set_option maxRecDepth 4000 in
theorem ledger_explained_bench :
    (benchService.db.creditLedgerEntries.map (·.delta)) = [24, 24, 24, 24, -2, 2, 2]
      ∧ LedgerExplained 24 benchService.db :=
  ⟨by decide +kernel, ledger_explained benchSettings benchService benchService_reachable⟩

end TestExchange
