import TestExchange.Spec.Exchange

/-!
# What a step does to the campaigns

A step makes one campaign, a draft, or changes one in its place, or leaves them
alone. So a campaign once made stays, with its owner, and is never a draft again
once it was none.
-/

namespace TestExchange

open Txn Exchange

/-- The change keeps the owner, and makes no draft of a campaign that is none. -/
def Forward (c c' : Campaign) : Prop :=
  c'.ownerId = c.ownerId ∧ (c.status ≠ .draft → c'.status ≠ .draft)

theorem forward_refl (c : Campaign) : Forward c c := ⟨rfl, id⟩

theorem forward_trans {c₁ c₂ c₃ : Campaign} (h : Forward c₁ c₂) (h' : Forward c₂ c₃) :
    Forward c₁ c₃ := ⟨h'.1.trans h.1, fun hd => h'.2 (h.2 hd)⟩

/-- One campaign is changed. -/
def ChangesOne (t t' : Table Campaign) : Prop :=
  ∃ id f, t' = t.modify id f ∧ ∀ c, t.get? id = some c → Forward c (f c)

variable {g : Nat} {s s' : Exchange} {x : Action} {id : Uuid} {c : Campaign}

theorem changesOne_of_get {t : Table Campaign} {f : Campaign → Campaign}
    (hc : t.get? id = some c) (hf : Forward c (f c)) : ChangesOne t (t.modify id f) := by
  refine ⟨id, f, rfl, fun c' hc' => ?_⟩
  obtain rfl := Option.some.inj (hc.symm.trans hc')
  exact hf

/-- The three things a step can do to the campaigns. -/
theorem campaigns_step (hs : Step g s x s') :
    s'.campaigns = s.campaigns
      ∨ (∃ id c, x = .createCampaign id ∧ s.campaigns.get? id = none ∧ c.status = .draft
          ∧ s'.campaigns = s.campaigns.insert id c)
      ∨ ChangesOne s.campaigns s'.campaigns := by
  cases hs with
  | addProfile hnew hgrant =>
      obtain ⟨-, hc, -⟩ := paid_frame hgrant
      exact Or.inl hc
  | createCampaign hnew hdraft => exact Or.inr (Or.inl ⟨_, _, rfl, hnew, hdraft, rfl⟩)
  | editCampaign hc hdraft =>
      exact Or.inr (Or.inr (changesOne_of_get hc ⟨rfl, fun hd => absurd hdraft hd⟩))
  | @publish _ _ _ now hc hdraft hspend =>
      obtain ⟨-, hcs, -⟩ := hspend.frame
      rw [← hcs] at hc ⊢
      exact Or.inr (Or.inr (changesOne_of_get
        (f := fun c => { c with status := .published, publishedAt := some now }) hc
        ⟨rfl, fun _ => by simp⟩))
  | @transition _ _ action _ _ hc hfrom hroom =>
      refine Or.inr (Or.inr (changesOne_of_get
        (f := fun c => { c with status := action.target }) hc ⟨rfl, fun _ => ?_⟩))
      cases action <;> simp [TransitionAction.target]
  | complete hc hstatus =>
      exact Or.inr (Or.inr (changesOne_of_get
        (f := fun c => { c with status := .completed }) hc ⟨rfl, fun _ => by simp⟩))
  | review he hof ha hc hcalm hpending hawaiting hnew hfirst hsub hby hpay =>
      obtain ⟨-, hcs, -⟩ := paid_frame hpay
      exact Or.inl hcs
  | award hcase hremedy houtcome hstatus hsub he hof hc hpay =>
      obtain ⟨-, hcs, -⟩ := hpay.frame
      exact Or.inl hcs
  | _ => exact Or.inl rfl

/-- A campaign stays, with its owner. -/
theorem campaign_stays_step (hs : Step g s x s') (hc : s.campaigns.get? id = some c) :
    ∃ c', s'.campaigns.get? id = some c' ∧ Forward c c' := by
  rcases campaigns_step hs with hsame | ⟨i, d, -, -, -, hinsert⟩ | ⟨i, f, hmodify, hf⟩
  · exact ⟨c, hsame ▸ hc, forward_refl c⟩
  · rw [hinsert]
    exact ⟨c, Table.get?_insert_of_some hc, forward_refl c⟩
  · rw [hmodify]
    by_cases hi : id = i
    · subst hi
      exact ⟨f c, Table.get?_modify_self.trans (congrArg (Option.map f) hc), hf c hc⟩
    · exact ⟨c, (Table.get?_modify_ne hi).trans hc, forward_refl c⟩

/-- A campaign has been there before, unless the step makes it. -/
theorem campaign_before_step (hs : Step g s x s') (hx : ∀ id, x ≠ .createCampaign id) :
    s.campaigns.From Forward s'.campaigns := by
  rcases campaigns_step hs with hsame | ⟨i, d, hmake, -⟩ | ⟨i, f, hmodify, hf⟩
  · exact .of_eq forward_refl hsame
  · exact absurd hmake (hx i)
  · intro id c' hc'
    rw [hmodify] at hc'
    rcases Table.get?_modify_cases hc' with ⟨rfl, c, hc, rfl⟩ | ⟨-, hold⟩
    · exact ⟨c, hc, hf c hc⟩
    · exact ⟨c', hold, forward_refl c'⟩

/-! ## Runs -/

variable {actions : List Action}

theorem campaign_stays_runs (h : Runs (Step g) s actions s')
    (hc : s.campaigns.get? id = some c) :
    ∃ c', s'.campaigns.get? id = some c' ∧ Forward c c' := by
  induction h generalizing c with
  | nil s => exact ⟨c, hc, forward_refl c⟩
  | cons head rest ih =>
      obtain ⟨c₁, hc₁, hforward⟩ := campaign_stays_step head hc
      obtain ⟨c', hc', hforward'⟩ := ih hc₁
      exact ⟨c', hc', forward_trans hforward hforward'⟩

theorem campaign_before_runs (h : Runs (Step g) s actions s')
    (hx : ∀ x ∈ actions, ∀ id, x ≠ .createCampaign id) :
    s.campaigns.From Forward s'.campaigns := by
  induction h with
  | nil s => exact .refl forward_refl
  | cons head rest ih =>
      have hfirst := campaign_before_step head (hx _ List.mem_cons_self)
      exact hfirst.trans (fun _ _ _ => forward_trans)
        (ih fun x hm => hx x (List.mem_cons_of_mem _ hm))

end TestExchange
