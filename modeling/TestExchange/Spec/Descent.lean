import TestExchange.Spec.Exchange

/-!
# Where rows come from

Campaigns, assignments and submissions each come into being by one kind of step,
and what they belong to is fixed by then: the slug of a campaign, the campaign
and the tester of an assignment, the assignment of a submission.
-/

namespace TestExchange

open Txn Exchange

def Campaign.SameSlug (c c' : Campaign) : Prop := c.slug = c'.slug

def Assignment.SamePair (a a' : Assignment) : Prop :=
  a.campaignId = a'.campaignId ∧ a.testerId = a'.testerId

def EvidenceSubmission.SameWork (e e' : EvidenceSubmission) : Prop :=
  e.assignmentId = e'.assignmentId

theorem sameSlug_refl (c : Campaign) : c.SameSlug c := rfl

theorem samePair_refl (a : Assignment) : a.SamePair a := ⟨rfl, rfl⟩

theorem sameWork_refl (e : EvidenceSubmission) : e.SameWork e := rfl

/-- Every row after the step was there before it, unless the step is the one that makes it. -/
structure Descends (s : Exchange) (x : Action) (s' : Exchange) : Prop where
  campaigns : (∀ id, x ≠ .createCampaign id) → s.campaigns.From Campaign.SameSlug s'.campaigns
  assignments : (∀ id, x ≠ .apply id) → s.assignments.From Assignment.SamePair s'.assignments
  submissions : (∀ k, x ≠ .submit k) →
    s.evidenceSubmissions.From EvidenceSubmission.SameWork s'.evidenceSubmissions

section Kinds

variable {s s' : Exchange} {x : Action}

theorem Descends.of_eq (hc : s'.campaigns = s.campaigns) (ha : s'.assignments = s.assignments)
    (he : s'.evidenceSubmissions = s.evidenceSubmissions) : Descends s x s' where
  campaigns := fun _ => .of_eq sameSlug_refl hc
  assignments := fun _ => .of_eq samePair_refl ha
  submissions := fun _ => .of_eq sameWork_refl he

theorem Descends.campaign {s₁ : Exchange} {id : Uuid} {f : Campaign → Campaign} {e : AuditEvent}
    (hc : s₁.campaigns = s.campaigns) (ha : s₁.assignments = s.assignments)
    (he : s₁.evidenceSubmissions = s.evidenceSubmissions)
    (hf : ∀ c : Campaign, c.SameSlug (f c)) : Descends s x ((s₁.modifyCampaign id f).record e) where
  campaigns := fun _ => hc ▸ .modify sameSlug_refl hf
  assignments := fun _ => .of_eq samePair_refl ha
  submissions := fun _ => .of_eq sameWork_refl he

theorem Descends.assignment {id : Uuid} {f : Assignment → Assignment} {e : AuditEvent}
    (hf : ∀ a : Assignment, a.SamePair (f a)) : Descends s x ((s.modifyAssignment id f).record e) where
  campaigns := fun _ => .refl sameSlug_refl
  assignments := fun _ => .modify samePair_refl hf
  submissions := fun _ => .refl sameWork_refl

/-- A decision about a submission. -/
theorem Descends.decision {id k : Uuid} {f : Assignment → Assignment} {status : SubmissionStatus}
    (hc : s'.campaigns = s.campaigns) (ha : s'.assignments = s.assignments.modify id f)
    (he : s'.evidenceSubmissions = s.evidenceSubmissions.modify k fun e => { e with status := status })
    (hf : ∀ a : Assignment, a.SamePair (f a)) : Descends s x s' where
  campaigns := fun _ => .of_eq sameSlug_refl hc
  assignments := fun _ => ha ▸ .modify samePair_refl hf
  submissions := fun _ => he ▸ .modify sameWork_refl fun _ => rfl

end Kinds

/-- **Every step keeps what rows belong to.** -/
theorem descends_step {g : Nat} {s s' : Exchange} {x : Action} (hs : Step g s x s') :
    Descends s x s' := by
  cases hs with
  | addProfile hnew hgrant =>
      obtain ⟨-, hc, ha, he, -⟩ := paid_frame hgrant
      exact .of_eq hc ha he
  | editProfile he => exact .of_eq rfl rfl rfl
  | note he => exact .of_eq rfl rfl rfl
  | openAccount => exact .of_eq rfl rfl rfl
  | createCampaign hnew hdraft =>
      exact ⟨fun hx => absurd rfl (hx _), fun _ => .refl samePair_refl, fun _ => .refl sameWork_refl⟩
  | editCampaign hc hdraft => exact .campaign rfl rfl rfl fun _ => rfl
  | publish hc hdraft hspend =>
      obtain ⟨-, hcs, ha, he, -⟩ := hspend.frame
      exact .campaign hcs ha he fun _ => rfl
  | transition hc hfrom hroom => exact .campaign rfl rfl rfl fun _ => rfl
  | complete hc hstatus => exact .campaign rfl rfl rfl fun _ => rfl
  | apply hnew hc hpublished howner hfirst hroom =>
      exact ⟨fun _ => .refl sameSlug_refl, fun hx => absurd rfl (hx _), fun _ => .refl sameWork_refl⟩
  | accept ha happlied hc hpublished hroom => exact .assignment fun _ => ⟨rfl, rfl⟩
  | decline ha happlied => exact .assignment fun _ => ⟨rfl, rfl⟩
  | withdraw ha hstatus => exact .assignment fun _ => ⟨rfl, rfl⟩
  | start ha haccepted => exact .assignment fun _ => ⟨rfl, rfl⟩
  | submit ha hstatus hnew hof hversion hsubmitted =>
      exact ⟨fun _ => .refl sameSlug_refl, fun _ => .modify samePair_refl fun _ => ⟨rfl, rfl⟩,
        fun hx => absurd rfl (hx _)⟩
  | review he hof ha hc hcalm hpending hawaiting hnew hfirst hsub hby hpay =>
      obtain ⟨-, hcs, has, hes, -⟩ := paid_frame hpay
      exact .decision hcs has hes fun _ => ⟨rfl, rfl⟩
  | openDispute hnew ha hby he hsub hof hstatus honce hopen hfresh => exact .of_eq rfl rfl rfl
  | claim hd hopen => exact .of_eq rfl rfl rfl
  | award hcase hremedy houtcome hstatus hsub he hof hc hpay =>
      obtain ⟨-, hcs, has, hes, -⟩ := hpay.frame
      exact .decision hcs has hes fun _ => ⟨rfl, rfl⟩
  | @rejectOverdue _ _ _ _ _ _ _ now =>
      exact .decision (f := fun a => { a with status := .rejected, completedAt := some now })
        rfl rfl rfl fun _ => ⟨rfl, rfl⟩
  | uphold hcase hremedy hstatus => exact .of_eq rfl rfl rfl

section Runs

variable {g : Nat} {s s' : Exchange} {actions : List Action}

/-- What every step keeps of the rows of a table, a run of such steps keeps. -/
theorem from_runs {α : Type} (rows : Exchange → Table α) {R : α → α → Prop} {p : Action → Prop}
    (hrefl : ∀ a, R a a) (htrans : ∀ a b c, R a b → R b c → R a c)
    (hstep : ∀ s x s', p x → Step g s x s' → (rows s).From R (rows s'))
    (h : Runs (Step g) s actions s') (hp : ∀ x ∈ actions, p x) : (rows s).From R (rows s') := by
  induction h with
  | nil s => exact .refl hrefl
  | cons head rest ih =>
      have hfirst := hstep _ _ _ (hp _ List.mem_cons_self) head
      exact hfirst.trans htrans (ih fun x hx => hp x (List.mem_cons_of_mem _ hx))

theorem campaigns_descend (h : Runs (Step g) s actions s')
    (hx : ∀ x ∈ actions, ∀ id, x ≠ .createCampaign id) :
    s.campaigns.From Campaign.SameSlug s'.campaigns :=
  from_runs Exchange.campaigns sameSlug_refl (fun _ _ _ h h' => h.trans h')
    (fun _ _ _ hx hs => (descends_step hs).campaigns hx) h hx

theorem assignments_descend (h : Runs (Step g) s actions s')
    (hx : ∀ x ∈ actions, ∀ id, x ≠ .apply id) :
    s.assignments.From Assignment.SamePair s'.assignments :=
  from_runs Exchange.assignments samePair_refl
    (fun _ _ _ h h' => ⟨h.1.trans h'.1, h.2.trans h'.2⟩)
    (fun _ _ _ hx hs => (descends_step hs).assignments hx) h hx

theorem submissions_descend (h : Runs (Step g) s actions s')
    (hx : ∀ x ∈ actions, ∀ k, x ≠ .submit k) :
    s.evidenceSubmissions.From EvidenceSubmission.SameWork s'.evidenceSubmissions :=
  from_runs Exchange.evidenceSubmissions sameWork_refl (fun _ _ _ h h' => h.trans h')
    (fun _ _ _ hx hs => (descends_step hs).submissions hx) h hx

end Runs

end TestExchange
