import TestExchange.Spec.Exchange
import Mathlib.Logic.Function.Basic

/-!
# The docket of an assignment

Everything that decides an assignment, as one small state machine: its status,
its submissions, the owner's reviews, the dispute and the reward. The owner and
the moderators act on the same docket, and `Docket.Step` says what each may do
to it. Who else claims a dispute in the meantime does not matter here: a dispute
is active or it is not.

What excludes the two parties from each other is `Docket.Sound`, an invariant of
the steps, and `Docket.Contested`, which the steps preserve.
-/

namespace TestExchange

open Function

/-- A dispute, as far as the docket goes. -/
structure Escalation where
  submissionId : Option Uuid
  /-- It still waits for a moderator's decision. -/
  active : Bool

/-- The docket of one assignment. -/
structure Docket where
  /-- The status of the assignment, if there is one. -/
  status : Option AssignmentStatus
  /-- The submissions of the assignment, with their statuses. -/
  submissions : Uuid → Option SubmissionStatus
  /-- The submission each review is about. -/
  reviews : Uuid → Option Uuid
  disputes : Uuid → Option Escalation
  /-- How often the assignment was rewarded. -/
  rewards : Nat

namespace Docket

/-- A verdict on the submission, with its status for the assignment and `n` rewards paid. -/
def decide (D : Docket) (k : Uuid) (status : AssignmentStatus) (verdict : SubmissionStatus)
    (n : Nat) : Docket :=
  { D with
    status := some status
    submissions := update D.submissions k (some verdict)
    rewards := D.rewards + n }

/-- A dispute is no longer active. -/
def settle (D : Docket) (i : Uuid) (submissionId : Option Uuid) : Docket :=
  { D with disputes := update D.disputes i (some ⟨submissionId, false⟩) }

/-- The submission waits for a verdict, and so does the assignment. -/
def Pending (D : Docket) (k : Uuid) : Prop :=
  D.status = some .submitted ∧ D.submissions k = some .submitted

/-- The submission was rejected, and the assignment with it. -/
def TurnedDown (D : Docket) (k : Uuid) : Prop :=
  D.status = some .rejected ∧ D.submissions k = some .rejected

/-- **What can be done to a docket.** -/
inductive Step (D : Docket) : Docket → Prop where
  /-- The tester submits. -/
  | submit {k : Uuid} (hstatus : D.status = some .inProgress ∨ D.status = some .changesRequested)
      (hnew : D.submissions k = none) :
      Step D { D with
        status := some .submitted, submissions := update D.submissions k (some .submitted) }
  /-- The owner decides, while no moderator is asked. -/
  | review {j k : Uuid} {decision : ReviewDecision} {n : Nat} (hpending : D.Pending k)
      (hcalm : ∀ i x, D.disputes i = some x → x.active = false) (hnew : D.reviews j = none)
      (hpaid : n ≤ if decision = .approved then 1 else 0) :
      Step D
        ({ D with reviews := update D.reviews j (some k) }.decide k decision.assignmentStatus
          decision.submissionStatus n)
  /-- The tester asks for a moderator. -/
  | escalate {i k : Uuid} (hfirst : ∀ i, D.disputes i = none) (hk : D.Pending k ∨ D.TurnedDown k) :
      Step D { D with disputes := update D.disputes i (some ⟨some k, true⟩) }
  /-- A moderator finds for the tester. -/
  | award {i k : Uuid} {n : Nat} (hi : D.disputes i = some ⟨some k, true⟩)
      (hpaid : n ≤ 1) : Step D ((D.decide k .approved .approved n).settle i (some k))
  /-- A moderator rejects a submission the owner left waiting. -/
  | rejectOverdue {i k : Uuid} (hi : D.disputes i = some ⟨some k, true⟩)
      (hstatus : D.status = some .submitted) :
      Step D ((D.decide k .rejected .rejected 0).settle i (some k))
  /-- A moderator lets the owner's rejection stand. -/
  | uphold {i : Uuid} {x : Option Uuid} (hi : D.disputes i = some ⟨x, true⟩)
      (hstatus : D.status ≠ some .submitted) : Step D (D.settle i x)

/-- What a dispute says about the docket, and the submission about the dispute. -/
structure Disputed (D : Docket) (x : Escalation) (k : Uuid) : Prop where
  about : x.submissionId = some k
  filed : D.submissions k ≠ none
  /-- While it is active, both statuses wait for its outcome. -/
  waits : x.active = true → D.Pending k ∨ D.TurnedDown k
  /-- A disputed submission that waits for a verdict gets it from a moderator. -/
  first : D.submissions k = some .submitted → x.active = true

/-- **The invariant of a docket.** -/
structure Sound (D : Docket) : Prop where
  pending : ∀ k, D.submissions k = some .submitted → D.status = some .submitted
  latest : ∀ j k, D.submissions j = some .submitted → D.submissions k = some .submitted → j = k
  reviewed : ∀ j k, D.reviews j = some k → ∃ v, D.submissions k = some v ∧ v ≠ .submitted
  oneReview : ∀ i j k, D.reviews i = some k → D.reviews j = some k → i = j
  oneDispute : ∀ i j x y, D.disputes i = some x → D.disputes j = some y → i = j
  disputed : ∀ i x, D.disputes i = some x → ∃ k, D.Disputed x k
  unpaid : D.status ≠ some .approved → D.rewards = 0
  oneReward : D.rewards ≤ 1

variable {D D' : Docket} {i j k : Uuid}

/-- The submission is disputed, and no review of it was made before. -/
def Contested (D : Docket) (k : Uuid) : Prop :=
  (∃ i x, D.disputes i = some x ∧ x.submissionId = some k) ∧ ∀ j, D.reviews j ≠ some k

theorem of_update {α : Type} {f : Uuid → Option α} {v w : α}
    (h : update f k (some v) j = some w) : (j = k ∧ w = v) ∨ (j ≠ k ∧ f j = some w) := by
  by_cases hj : j = k
  · subst hj
    rw [update_self] at h
    exact Or.inl ⟨rfl, (Option.some.inj h).symm⟩
  · rw [update_of_ne hj] at h
    exact Or.inr ⟨hj, h⟩

theorem update_ne_none {α : Type} {f : Uuid → Option α} {v : α} (h : f j ≠ none) :
    update f k (some v) j ≠ none := by
  by_cases hj : j = k
  · subst hj
    rw [update_self]
    simp
  · rw [update_of_ne hj]
    exact h

theorem update_ne_none_iff {α : Type} {f : Uuid → Option α} {v : α} (hk : f k ≠ none) :
    update f k (some v) j ≠ none ↔ f j ≠ none := by
  refine ⟨fun h => ?_, update_ne_none⟩
  by_cases hj : j = k
  · exact hj ▸ hk
  · rw [update_of_ne hj] at h
    exact h

/-! ## The invariant is kept -/

/-- After the verdict on the submission that waits, or waited last, none waits. -/
theorem Sound.none_pending (h : D.Sound) (hk : D.Pending k ∨ D.TurnedDown k) {status : AssignmentStatus}
    {verdict : SubmissionStatus} {n : Nat} (hv : verdict ≠ .submitted) (j : Uuid) :
    (D.decide k status verdict n).submissions j ≠ some .submitted := by
  intro hj
  rcases of_update hj with ⟨_, hv'⟩ | ⟨hne, hj⟩
  · exact hv hv'.symm
  · rcases hk with ⟨_, hk⟩ | ⟨hs, _⟩
    · exact hne (h.latest j k hj hk)
    · have hsub := h.pending j hj
      rw [hs] at hsub
      exact absurd hsub (by simp)

/-- An active dispute is about the submission it was opened for. -/
theorem Sound.waiting (h : D.Sound) (hi : D.disputes i = some ⟨some k, true⟩) :
    D.Pending k ∨ D.TurnedDown k := by
  obtain ⟨k', hd⟩ := h.disputed i _ hi
  obtain rfl := Option.some.inj hd.about
  exact hd.waits rfl

theorem Sound.unrewarded (h : D.Sound) (hk : D.Pending k ∨ D.TurnedDown k) : D.rewards = 0 := by
  refine h.unpaid ?_
  rcases hk with ⟨hs, _⟩ | ⟨hs, _⟩ <;> simp [hs]

theorem sound_submit (h : D.Sound)
    (hstatus : D.status = some .inProgress ∨ D.status = some .changesRequested)
    (hnew : D.submissions k = none) :
    Sound { D with
      status := some .submitted, submissions := update D.submissions k (some .submitted) } := by
  have hnone : ∀ j, D.submissions j ≠ some .submitted := by
    intro j hj
    have hs := h.pending j hj
    rcases hstatus with h' | h' <;> simp [h'] at hs
  have honly : ∀ j, update D.submissions k (some .submitted) j = some SubmissionStatus.submitted →
      j = k := fun j hj => (of_update hj).elim (·.1) fun hj => absurd hj.2 (hnone j)
  refine ⟨fun _ _ => rfl, ?_, ?_, h.oneReview, h.oneDispute, ?_, ?_, h.oneReward⟩
  · intro i j hi hj
    rw [honly i hi, honly j hj]
  · intro j k' hj
    obtain ⟨v, hk', hv⟩ := h.reviewed j k' hj
    have hne : k' ≠ k := by
      rintro rfl
      exact absurd (hnew.symm.trans hk') (by simp)
    exact ⟨v, (update_of_ne hne _ _).trans hk', hv⟩
  · intro i x hi
    obtain ⟨k', hd⟩ := h.disputed i x hi
    refine ⟨k', hd.about, update_ne_none hd.filed, ?_, ?_⟩
    · intro hactive
      rcases hd.waits hactive with ⟨hs, _⟩ | ⟨hs, _⟩ <;> rcases hstatus with h' | h' <;>
        simp [h'] at hs
    · intro hk'
      obtain rfl := honly k' hk'
      exact absurd hnew hd.filed
  · intro _
    refine h.unpaid ?_
    rcases hstatus with h' | h' <;> simp [h']

theorem sound_review {decision : ReviewDecision} {n : Nat} (h : D.Sound) (hpending : D.Pending k)
    (hcalm : ∀ i x, D.disputes i = some x → x.active = false) (hnew : D.reviews j = none)
    (hpaid : n ≤ if decision = .approved then 1 else 0) :
    Sound ({ D with reviews := update D.reviews j (some k) }.decide k decision.assignmentStatus
      decision.submissionStatus n) := by
  have hv : decision.submissionStatus ≠ .submitted := by cases decision <;> simp [ReviewDecision.submissionStatus]
  have hnone : ∀ j, (D.decide k decision.assignmentStatus decision.submissionStatus n).submissions j
      ≠ some .submitted := h.none_pending (Or.inl hpending) hv
  have hzero := h.unrewarded (Or.inl hpending)
  have hkeep : ∀ k', D.submissions k' ≠ none →
      ∃ v, update D.submissions k (some decision.submissionStatus) k' = some v ∧ v ≠ .submitted := by
    intro k' hk'
    obtain ⟨v, hv'⟩ := Option.ne_none_iff_exists'.mp (update_ne_none (k := k) (v := decision.submissionStatus) hk')
    refine ⟨v, hv', ?_⟩
    rintro rfl
    exact hnone k' hv'
  have hfresh : ∀ j', D.reviews j' ≠ some k := by
    intro j' hj'
    obtain ⟨v, hv', hne⟩ := h.reviewed j' k hj'
    exact hne (Option.some.inj (hv'.symm.trans hpending.2))
  refine ⟨?_, ?_, ?_, ?_, h.oneDispute, ?_, ?_, ?_⟩
  · exact fun k' hk' => absurd hk' (hnone k')
  · exact fun i' k' hi' => absurd hi' (hnone i')
  · intro j' k' hj'
    rcases of_update hj' with ⟨_, rfl⟩ | ⟨_, hj'⟩
    · exact hkeep k' (by simp [hpending.2])
    · obtain ⟨v, hv', _⟩ := h.reviewed j' k' hj'
      exact hkeep k' (by simp [hv'])
  · intro i' j' k' hi' hj'
    rcases of_update hi' with ⟨rfl, rfl⟩ | ⟨_, hi⟩
    · rcases of_update hj' with ⟨rfl, _⟩ | ⟨_, hj⟩
      · rfl
      · exact absurd hj (hfresh j')
    · rcases of_update hj' with ⟨rfl, rfl⟩ | ⟨_, hj⟩
      · exact absurd hi (hfresh i')
      · exact h.oneReview i' j' k' hi hj
  · intro i' x hi'
    obtain ⟨k', hd⟩ := h.disputed i' x hi'
    refine ⟨k', hd.about, update_ne_none hd.filed, ?_, ?_⟩
    · intro hactive
      exact absurd ((hcalm i' x hi').symm.trans hactive) (by simp)
    · exact fun hk' => absurd hk' (hnone k')
  · intro hs
    have hne : decision ≠ .approved := by
      rintro rfl
      exact hs rfl
    rw [if_neg hne] at hpaid
    show D.rewards + n = 0
    omega
  · show D.rewards + n ≤ 1
    split at hpaid <;> omega

theorem sound_escalate (h : D.Sound) (hfirst : ∀ i, D.disputes i = none)
    (hk : D.Pending k ∨ D.TurnedDown k) :
    Sound { D with disputes := update D.disputes i (some ⟨some k, true⟩) } := by
  have honly : ∀ i' x, update D.disputes i (some ⟨some k, true⟩) i' = some x →
      i' = i ∧ x = ⟨some k, true⟩ := by
    intro i' x hi'
    rcases of_update hi' with h' | ⟨_, h'⟩
    · exact h'
    · exact absurd ((hfirst i').symm.trans h') (by simp)
  refine { h with oneDispute := ?_, disputed := ?_ }
  · intro i' j' x y hi' hj'
    rw [(honly i' x hi').1, (honly j' y hj').1]
  · intro i' x hi'
    obtain ⟨_, rfl⟩ := honly i' x hi'
    refine ⟨k, rfl, ?_, fun _ => hk, fun _ => rfl⟩
    rcases hk with ⟨_, hk⟩ | ⟨_, hk⟩ <;> simp [hk]

/-- A moderator's verdict on the disputed submission. -/
theorem sound_verdict {status : AssignmentStatus} {verdict : SubmissionStatus} {n : Nat} (h : D.Sound)
    (hi : D.disputes i = some ⟨some k, true⟩) (hv : verdict ≠ .submitted) (hn : n ≤ 1)
    (hpaid : status ≠ .approved → n = 0) :
    Sound ((D.decide k status verdict n).settle i (some k)) := by
  have hk := h.waiting hi
  have hnone : ∀ j, (D.decide k status verdict n).submissions j ≠ some .submitted :=
    h.none_pending hk hv
  have hzero := h.unrewarded hk
  have honly : ∀ i' x, update D.disputes i (some ⟨some k, false⟩) i' = some x →
      i' = i ∧ x = ⟨some k, false⟩ := by
    intro i' x hi'
    rcases of_update hi' with h' | ⟨hne, h'⟩
    · exact h'
    · exact absurd (h.oneDispute i' i _ _ h' hi) hne
  refine ⟨?_, ?_, ?_, h.oneReview, ?_, ?_, ?_, ?_⟩
  · exact fun k' hk' => absurd hk' (hnone k')
  · exact fun i' k' hi' => absurd hi' (hnone i')
  · intro j' k' hj'
    obtain ⟨v, hv', _⟩ := h.reviewed j' k' hj'
    have hfiled : D.submissions k' ≠ none := by simp [hv']
    obtain ⟨v', hv'⟩ := Option.ne_none_iff_exists'.mp
      (update_ne_none (k := k) (v := verdict) hfiled)
    refine ⟨v', hv', ?_⟩
    rintro rfl
    exact hnone k' hv'
  · intro i' j' x y hi' hj'
    rw [(honly i' x hi').1, (honly j' y hj').1]
  · intro i' x hi'
    obtain ⟨_, rfl⟩ := honly i' x hi'
    refine ⟨k, rfl, ?_, fun h => absurd h (by simp), fun h => absurd h (hnone k)⟩
    show update D.submissions k (some verdict) k ≠ none
    rw [update_self]
    simp
  · intro hs
    have hn := hpaid fun h => hs (congrArg some h)
    show D.rewards + n = 0
    omega
  · show D.rewards + n ≤ 1
    omega

theorem sound_uphold {x : Option Uuid} (h : D.Sound) (hi : D.disputes i = some ⟨x, true⟩)
    (hstatus : D.status ≠ some .submitted) : Sound (D.settle i x) := by
  have honly : ∀ i' y, update D.disputes i (some ⟨x, false⟩) i' = some y →
      i' = i ∧ y = ⟨x, false⟩ := by
    intro i' y hi'
    rcases of_update hi' with h' | ⟨hne, h'⟩
    · exact h'
    · exact absurd (h.oneDispute i' i _ _ h' hi) hne
  refine { h with oneDispute := ?_, disputed := ?_ }
  · intro i' j' y z hi' hj'
    rw [(honly i' y hi').1, (honly j' z hj').1]
  · intro i' y hi'
    obtain ⟨_, rfl⟩ := honly i' y hi'
    obtain ⟨k, hd⟩ := h.disputed i _ hi
    refine ⟨k, hd.about, hd.filed, fun h => absurd h (by simp), fun hk => ?_⟩
    exact absurd (h.pending k hk) hstatus

/-- **The invariant is kept by every step.** -/
theorem sound_step (h : D.Sound) (hs : Step D D') : D'.Sound := by
  cases hs with
  | submit hstatus hnew => exact sound_submit h hstatus hnew
  | review hpending hcalm hnew hpaid => exact sound_review h hpending hcalm hnew hpaid
  | escalate hfirst hk => exact sound_escalate h hfirst hk
  | award hi hpaid => exact sound_verdict h hi (by simp) hpaid (by simp)
  | rejectOverdue hi hstatus => exact sound_verdict h hi (by simp) (by omega) fun _ => rfl
  | uphold hi hstatus => exact sound_uphold h hi hstatus

/-! ## What a step can do -/

/-- Submissions are not withdrawn. -/
theorem filed_step (hs : Step D D') (hk : D.submissions k ≠ none) : D'.submissions k ≠ none := by
  cases hs with
  | submit => exact update_ne_none hk
  | review => exact update_ne_none hk
  | escalate => exact hk
  | award => exact update_ne_none hk
  | rejectOverdue => exact update_ne_none hk
  | uphold => exact hk

/-- **A new review comes in when no dispute is active**, and changes no dispute. -/
theorem review_step (hs : Step D D') (hj : D.reviews j = none) (hj' : D'.reviews j ≠ none) :
    (∀ i x, D.disputes i = some x → x.active = false) ∧ D'.disputes = D.disputes := by
  cases hs with
  | review hpending hcalm => exact ⟨hcalm, rfl⟩
  | submit => exact absurd hj hj'
  | escalate => exact absurd hj hj'
  | award => exact absurd hj hj'
  | rejectOverdue => exact absurd hj hj'
  | uphold => exact absurd hj hj'

/-- A dispute about a submission that waits for its first verdict makes it contested. -/
theorem contested_of_new (h : D.Sound) (hs : Step D D') {x : Escalation} (hi : D.disputes i = none)
    (hi' : D'.disputes i = some x) (hx : x.submissionId = some k)
    (hk : D.submissions k = some .submitted) : D'.Contested k := by
  refine ⟨⟨i, x, hi', hx⟩, fun j hj => ?_⟩
  have hkept : D'.reviews = D.reviews := by
    cases hs with
    | review => exact absurd (hi.symm.trans hi') (by simp)
    | submit => rfl
    | escalate => rfl
    | award => rfl
    | rejectOverdue => rfl
    | uphold => rfl
  rw [hkept] at hj
  obtain ⟨v, hv, hne⟩ := h.reviewed j k hj
  exact hne (Option.some.inj (hv.symm.trans hk))

/-- **A contested submission is never reviewed.** -/
theorem contested_step (h : D.Sound) (hs : Step D D') (hk : D.Contested k) : D'.Contested k := by
  obtain ⟨⟨i, x, hi, hx⟩, hreviews⟩ := hk
  cases hs with
  | submit => exact ⟨⟨i, x, hi, hx⟩, hreviews⟩
  | @review j₀ k₀ decision n hpending hcalm hnew hpaid =>
      refine ⟨⟨i, x, hi, hx⟩, fun j hj => ?_⟩
      rcases of_update hj with ⟨_, rfl⟩ | ⟨_, hj⟩
      · obtain ⟨k', hd⟩ := h.disputed i x hi
        obtain rfl := Option.some.inj (hd.about.symm.trans hx)
        exact absurd ((hcalm i x hi).symm.trans (hd.first hpending.2)) (by simp)
      · exact hreviews j hj
  | escalate hfirst => exact absurd ((hfirst i).symm.trans hi) (by simp)
  | @award i₀ k₀ n hi₀ =>
      obtain rfl := h.oneDispute i i₀ _ _ hi hi₀
      obtain rfl := Option.some.inj (hi.symm.trans hi₀)
      exact ⟨⟨i, ⟨some k₀, false⟩, update_self _ _ _, hx⟩, hreviews⟩
  | @rejectOverdue i₀ k₀ hi₀ =>
      obtain rfl := h.oneDispute i i₀ _ _ hi hi₀
      obtain rfl := Option.some.inj (hi.symm.trans hi₀)
      exact ⟨⟨i, ⟨some k₀, false⟩, update_self _ _ _, hx⟩, hreviews⟩
  | @uphold i₀ y hi₀ =>
      obtain rfl := h.oneDispute i i₀ _ _ hi hi₀
      obtain rfl := Option.some.inj (hi.symm.trans hi₀)
      exact ⟨⟨i, ⟨y, false⟩, update_self _ _ _, hx⟩, hreviews⟩

end Docket

end TestExchange
