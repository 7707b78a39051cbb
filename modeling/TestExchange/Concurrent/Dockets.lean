import TestExchange.Concurrent.Footprints
import TestExchange.Proof.Reviews
import TestExchange.Proof.Ledger
import TestExchange.Spec.Docket

/-!
# The dockets in a database

Which docket the tables describe for each assignment, and what each change a
service makes comes to in the dockets: one of them moves, the others stay. What
the tables add to the dockets is `Orderly`, and which rows may change under
which locks is `RowsKept`.
-/

namespace TestExchange

open Txn Function Exchange

/-- The tables that the decisions on assignments are made of. -/
structure Casework where
  assignments : Table Assignment
  evidenceSubmissions : Table EvidenceSubmission
  reviews : Table Review
  disputes : Table Dispute
  creditLedgerEntries : List CreditLedgerEntry

def Db.casework (db : Db) : Casework where
  assignments := db.assignments
  evidenceSubmissions := db.evidenceSubmissions
  reviews := db.reviews
  disputes := db.disputes
  creditLedgerEntries := db.creditLedgerEntries

/-- The entry is a reward for the assignment. -/
def CreditLedgerEntry.rewards (e : CreditLedgerEntry) (id : Uuid) : Bool :=
  e.entryType = .reward && e.referenceId = some id

/-- The statuses of the submissions of an assignment. -/
def submissionsIn (t : Table EvidenceSubmission) (id k : Uuid) : Option SubmissionStatus :=
  (t.get? k).bind fun e => if e.assignmentId = id then some e.status else none

/-- The submissions of an assignment that the reviews are about. -/
def reviewsIn (t : Table EvidenceSubmission) (u : Table Review) (id j : Uuid) : Option Uuid :=
  (u.get? j).bind fun r =>
    if submissionsIn t id r.submissionId ≠ none then some r.submissionId else none

/-- What the disputes of an assignment come to. -/
def disputesIn (t : Table Dispute) (id i : Uuid) : Option Escalation :=
  (t.get? i).bind fun d =>
    if d.assignmentId = id then some ⟨d.submissionId, d.status ∈ activeDisputeStatuses⟩ else none

/-- The docket of an assignment. -/
def Casework.docket (x : Casework) (id : Uuid) : Docket where
  status := (x.assignments.get? id).map (·.status)
  submissions := submissionsIn x.evidenceSubmissions id
  reviews := reviewsIn x.evidenceSubmissions x.reviews id
  disputes := disputesIn x.disputes id
  rewards := x.creditLedgerEntries.countP (·.rewards id)

def Db.docket (db : Db) (id : Uuid) : Docket := db.casework.docket id

variable {t : Table EvidenceSubmission} {u : Table Review} {id i j k : Uuid}

theorem submissionsIn_eq_some {v : SubmissionStatus} :
    submissionsIn t id k = some v ↔ ∃ e, t.get? k = some e ∧ e.assignmentId = id ∧ e.status = v := by
  simp [submissionsIn, Option.bind_eq_some_iff]

theorem submissionsIn_of_none (h : t.get? k = none) : submissionsIn t id k = none := by
  rw [submissionsIn, h]
  rfl

theorem submissionsIn_ne_none :
    submissionsIn t id k ≠ none ↔ ∃ e, t.get? k = some e ∧ e.assignmentId = id := by
  rw [Option.ne_none_iff_exists']
  simp only [submissionsIn_eq_some]
  constructor
  · rintro ⟨_, e, he, hof, _⟩
    exact ⟨e, he, hof⟩
  · rintro ⟨e, he, hof⟩
    exact ⟨e.status, e, he, hof, rfl⟩

theorem reviewsIn_eq_some :
    reviewsIn t u id j = some k
      ↔ ∃ r, u.get? j = some r ∧ submissionsIn t id k ≠ none ∧ r.submissionId = k := by
  simp only [reviewsIn, Option.bind_eq_some_iff, Option.ite_none_right_eq_some, Option.some.injEq]
  constructor
  · rintro ⟨r, hr, hk, rfl⟩
    exact ⟨r, hr, hk, rfl⟩
  · rintro ⟨r, hr, hk, rfl⟩
    exact ⟨r, hr, hk, rfl⟩

theorem disputesIn_eq_some {t : Table Dispute} {x : Escalation} :
    disputesIn t id i = some x ↔ ∃ d, t.get? i = some d ∧ d.assignmentId = id
      ∧ x = ⟨d.submissionId, d.status ∈ activeDisputeStatuses⟩ := by
  simp only [disputesIn, Option.bind_eq_some_iff, Option.ite_none_right_eq_some, Option.some.injEq,
    eq_comm (a := x)]

/-! ## Changes of one table -/

/-- A verdict on a submission shows in the docket of its assignment only. -/
theorem submissionsIn_modify {f : EvidenceSubmission → EvidenceSubmission} {v : SubmissionStatus}
    (hf : ∀ e, (f e).assignmentId = e.assignmentId ∧ (f e).status = v)
    (hk : submissionsIn t id k ≠ none) (i : Uuid) :
    submissionsIn (t.modify k f) i
      = if i = id then update (submissionsIn t id) k (some v) else submissionsIn t i := by
  obtain ⟨e, he, rfl⟩ := submissionsIn_ne_none.mp hk
  funext j
  by_cases hj : j = k
  · subst hj
    have hrow : (t.modify j f).get? j = some (f e) := by rw [Table.get?_modify_self, he]; rfl
    rw [submissionsIn, hrow, Option.bind_some, (hf e).1, (hf e).2]
    split
    · rename_i hi
      rw [if_pos hi.symm, update_self]
    · rename_i hi
      rw [if_neg fun h => hi h.symm, submissionsIn, he, Option.bind_some, if_neg hi]
  · rw [submissionsIn, Table.get?_modify_ne hj]
    split
    · rename_i hi
      rw [update_of_ne hj, hi]
      rfl
    · rfl

theorem submissionsIn_insert {e : EvidenceSubmission} (hk : t.get? k = none) (i : Uuid) :
    submissionsIn (t.insert k e) i
      = if i = e.assignmentId then update (submissionsIn t i) k (some e.status)
        else submissionsIn t i := by
  funext j
  rw [submissionsIn, Table.get?_insert hk]
  by_cases hj : j = k
  · subst hj
    rw [if_pos rfl, Option.bind_some]
    by_cases hi : i = e.assignmentId
    · rw [if_pos hi.symm, if_pos hi, update_self]
    · rw [if_neg fun h => hi h.symm, if_neg hi, submissionsIn, hk]
      rfl
  · rw [if_neg hj]
    split
    · rw [update_of_ne hj]
      rfl
    · rfl

/-- Reviews stay where they are as long as no submission changes hands. -/
theorem reviewsIn_congr {t' : Table EvidenceSubmission}
    (h : ∀ j r, u.get? j = some r →
      (submissionsIn t' id r.submissionId ≠ none ↔ submissionsIn t id r.submissionId ≠ none)) :
    reviewsIn t' u id = reviewsIn t u id := by
  funext j
  unfold reviewsIn
  cases hj : u.get? j with
  | none => rfl
  | some r => simp only [Option.bind_some, h j r hj]

theorem reviewsIn_insert {r : Review} (hj : u.get? j = none) :
    reviewsIn t (u.insert j r) id
      = if submissionsIn t id r.submissionId ≠ none then
          update (reviewsIn t u id) j (some r.submissionId)
        else reviewsIn t u id := by
  funext i
  rw [reviewsIn, Table.get?_insert hj]
  by_cases hi : i = j
  · subst hi
    rw [if_pos rfl, Option.bind_some]
    split
    · rw [update_self]
    · rw [reviewsIn, hj]
      rfl
  · rw [if_neg hi]
    split
    · rw [update_of_ne hi]
      rfl
    · rfl

theorem disputesIn_insert {t : Table Dispute} {d : Dispute} (hi : t.get? i = none) :
    disputesIn (t.insert i d) id
      = if id = d.assignmentId then
          update (disputesIn t id) i (some ⟨d.submissionId, d.status ∈ activeDisputeStatuses⟩)
        else disputesIn t id := by
  funext j
  rw [disputesIn, Table.get?_insert hi]
  by_cases hj : j = i
  · subst hj
    rw [if_pos rfl, Option.bind_some]
    by_cases hid : id = d.assignmentId
    · rw [if_pos hid.symm, if_pos hid, update_self]
    · rw [if_neg fun h => hid h.symm, if_neg hid, disputesIn, hi]
      rfl
  · rw [if_neg hj]
    split
    · rw [update_of_ne hj]
      rfl
    · rfl

theorem disputesIn_modify {t : Table Dispute} {d : Dispute} {f : Dispute → Dispute}
    (hd : t.get? i = some d) (hof : (f d).assignmentId = d.assignmentId) :
    disputesIn (t.modify i f) id
      = if id = d.assignmentId then
          update (disputesIn t id) i (some ⟨(f d).submissionId, (f d).status ∈ activeDisputeStatuses⟩)
        else disputesIn t id := by
  funext j
  by_cases hj : j = i
  · subst hj
    have hrow : (t.modify j f).get? j = some (f d) := by rw [Table.get?_modify_self, hd]; rfl
    rw [disputesIn, hrow, Option.bind_some, hof]
    by_cases hid : id = d.assignmentId
    · rw [if_pos hid.symm, if_pos hid, update_self]
    · rw [if_neg fun h => hid h.symm, if_neg hid, disputesIn, hd, Option.bind_some,
        if_neg fun h => hid h.symm]
  · rw [disputesIn, Table.get?_modify_ne hj]
    split
    · rw [update_of_ne hj]
      rfl
    · rfl

/-! ## What the tables add to the dockets -/

/-- Facts about single tables and their references. -/
structure Casework.Orderly (x : Casework) : Prop where
  /-- Reviews are about submissions that exist. -/
  filed : ∀ j r, x.reviews.get? j = some r → ∃ e, x.evidenceSubmissions.get? r.submissionId = some e
  /-- An open dispute is nobody's. -/
  unclaimed : ∀ i d, x.disputes.get? i = some d → d.status = .open → d.assignedTo = none

/-- Which rows may change under which locks, and that a claim is for good. -/
structure RowsKept (locks : List Lock) (x y : Casework) : Prop where
  submissions : ∀ k, .evidenceSubmission k ∉ locks → x.evidenceSubmissions.get? k = none →
    y.evidenceSubmissions.get? k = none
  reviews : ∀ j, .review j ∉ locks → x.reviews.get? j = none → y.reviews.get? j = none
  disputes : ∀ i, .dispute i ∉ locks → y.disputes.get? i = x.disputes.get? i
  claimed : ∀ i d m, x.disputes.get? i = some d → d.assignedTo = some m →
    ∃ d', y.disputes.get? i = some d' ∧ d'.assignedTo = some m

/-- A change that moves one docket to `D` and no other. -/
structure Amends (locks : List Lock) (id : Uuid) (x y : Casework) (D : Docket) : Prop where
  docket : y.docket id = D
  others : ∀ i, i ≠ id → y.docket i = x.docket i
  rows : RowsKept locks x y
  orderly : y.Orderly

variable {locks : List Lock} {x y z : Casework} {D E : Docket}

theorem RowsKept.refl (x : Casework) : RowsKept locks x x :=
  ⟨fun _ _ h => h, fun _ _ h => h, fun _ _ => rfl, fun _ d _ hd hm => ⟨d, hd, hm⟩⟩

theorem RowsKept.trans (h : RowsKept locks x y) (h' : RowsKept locks y z) : RowsKept locks x z where
  submissions := fun k hk hx => h'.submissions k hk (h.submissions k hk hx)
  reviews := fun j hj hx => h'.reviews j hj (h.reviews j hj hx)
  disputes := fun i hi => (h'.disputes i hi).trans (h.disputes i hi)
  claimed := by
    intro i d m hd hm
    obtain ⟨d', hd', hm'⟩ := h.claimed i d m hd hm
    exact h'.claimed i d' m hd' hm'

theorem Amends.trans (h : Amends locks id x y D) (h' : Amends locks id y z E) :
    Amends locks id x z E where
  docket := h'.docket
  others := fun i hi => (h'.others i hi).trans (h.others i hi)
  rows := h.rows.trans h'.rows
  orderly := h'.orderly

/-! ## Changes of several tables -/

/-- A verdict on a submission and its assignment, and at most `n` rewards for it. -/
def Decides (id k : Uuid) (status : AssignmentStatus) (verdict : SubmissionStatus) (n : Nat)
    (x y : Casework) : Prop :=
  ∃ f g entries, (∀ e, (f e).assignmentId = e.assignmentId ∧ (f e).status = verdict)
    ∧ (∀ a, (g a).status = status) ∧ entries.countP (·.rewards id) ≤ n
    ∧ (∀ i, i ≠ id → entries.countP (·.rewards i) = 0)
    ∧ y = { x with
        assignments := x.assignments.modify id g
        evidenceSubmissions := x.evidenceSubmissions.modify k f
        creditLedgerEntries := x.creditLedgerEntries ++ entries }

/-- The decision of a dispute. -/
def Concludes (i : Uuid) (x y : Casework) : Prop :=
  ∃ f, (∀ d, (f d).assignmentId = d.assignmentId ∧ (f d).submissionId = d.submissionId
      ∧ (f d).assignedTo = d.assignedTo ∧ (f d).status ∉ activeDisputeStatuses)
    ∧ y = { x with disputes := x.disputes.modify i f }

theorem Decides.amends {status : AssignmentStatus} {verdict : SubmissionStatus} {n : Nat}
    (h : Decides id k status verdict n x y) (hx : x.Orderly) (ha : (x.docket id).status ≠ none)
    (hk : (x.docket id).submissions k ≠ none) :
    ∃ m ≤ n, Amends locks id x y ((x.docket id).decide k status verdict m) := by
  obtain ⟨f, g, entries, hf, hg, hn, hothers, rfl⟩ := h
  have hsub := submissionsIn_modify hf hk
  have hreviews : ∀ i, reviewsIn (x.evidenceSubmissions.modify k f) x.reviews i
      = reviewsIn x.evidenceSubmissions x.reviews i := by
    intro i
    refine reviewsIn_congr fun j r _ => ?_
    rw [hsub i]
    split
    · rename_i hi
      subst hi
      exact Docket.update_ne_none_iff hk
    · exact Iff.rfl
  refine ⟨entries.countP (·.rewards id), hn, ?_, ?_, ?_, ?_⟩
  · obtain ⟨a, ha⟩ : ∃ a, x.assignments.get? id = some a := by
      cases h : x.assignments.get? id with
      | none => exact absurd (by simp [Casework.docket, h]) ha
      | some a => exact ⟨a, rfl⟩
    have hstatus : ((x.assignments.modify id g).get? id).map (·.status) = some status := by
      rw [Table.get?_modify_self, ha]
      exact congrArg some (hg a)
    simp only [Casework.docket, Docket.decide, hstatus, hsub, if_true, hreviews,
      List.countP_append]
  · intro i hi
    simp only [Casework.docket, hsub, if_neg hi, hreviews, Table.get?_modify_ne hi,
      List.countP_append, hothers i hi, Nat.add_zero]
  · refine ⟨fun j _ hj => Table.get?_modify_eq_none.mpr hj, fun _ _ h => h, fun _ _ => rfl, ?_⟩
    exact fun _ d _ hd hm => ⟨d, hd, hm⟩
  · refine ⟨fun j r hr => ?_, hx.unclaimed⟩
    obtain ⟨e, he⟩ := hx.filed j r hr
    exact Table.exists_get?_modify he

theorem Concludes.amends {d : Dispute} (h : Concludes i x y) (hx : x.Orderly)
    (hd : x.disputes.get? i = some d) (hl : .dispute i ∈ locks) :
    Amends locks d.assignmentId x y ((x.docket d.assignmentId).settle i d.submissionId) := by
  obtain ⟨f, hf, rfl⟩ := h
  obtain ⟨hof, hsub, hto, hclosed⟩ := hf d
  have hdis : ∀ id, disputesIn (x.disputes.modify i f) id = _ := fun id => disputesIn_modify hd hof
  refine ⟨?_, ?_, ?_, ?_⟩
  · simp only [Casework.docket, Docket.settle, hdis, if_true, hsub, hclosed, decide_false]
  · intro j hj
    simp only [Casework.docket, hdis, if_neg hj]
  · refine ⟨fun _ _ h => h, fun _ _ h => h, ?_, ?_⟩
    · intro j hj
      refine Table.get?_modify_ne ?_
      rintro rfl
      exact hj hl
    · intro j c m hc hm
      by_cases hj : j = i
      · subst hj
        obtain rfl := Option.some.inj (hd.symm.trans hc)
        exact ⟨f d, by rw [Table.get?_modify_self, hd]; rfl, hto.trans hm⟩
      · exact ⟨c, (Table.get?_modify_ne hj).trans hc, hm⟩
  · refine ⟨hx.filed, fun j c hc hopen => ?_⟩
    rcases Table.get?_modify_cases hc with ⟨_, c', _, rfl⟩ | ⟨_, hc⟩
    · exact absurd (by simp [hopen, activeDisputeStatuses]) (hf c').2.2.2
    · exact hx.unclaimed j c hc hopen

theorem amends_insertSubmission {e : EvidenceSubmission} {g : Assignment → Assignment}
    {status : AssignmentStatus} (hx : x.Orderly) (hk : x.evidenceSubmissions.get? k = none)
    (hl : .evidenceSubmission k ∈ locks) (hg : ∀ a, (g a).status = status)
    (ha : (x.docket e.assignmentId).status ≠ none) :
    Amends locks e.assignmentId x
      { x with
        evidenceSubmissions := x.evidenceSubmissions.insert k e
        assignments := x.assignments.modify e.assignmentId g }
      { x.docket e.assignmentId with
        status := some status
        submissions := update (x.docket e.assignmentId).submissions k (some e.status) } := by
  have hsub := submissionsIn_insert (e := e) hk
  have hreviews : ∀ i, reviewsIn (x.evidenceSubmissions.insert k e) x.reviews i
      = reviewsIn x.evidenceSubmissions x.reviews i := by
    intro i
    refine reviewsIn_congr fun j r hr => ?_
    -- a review of the new submission would have been about one that did not exist
    have hne : r.submissionId ≠ k := by
      rintro rfl
      obtain ⟨e', he'⟩ := hx.filed j r hr
      exact absurd (hk.symm.trans he') (by simp)
    rw [hsub i]
    split
    · rw [update_of_ne hne]
    · exact Iff.rfl
  refine ⟨?_, ?_, ?_, ?_⟩
  · obtain ⟨a, ha⟩ : ∃ a, x.assignments.get? e.assignmentId = some a := by
      cases h : x.assignments.get? e.assignmentId with
      | none => exact absurd (by simp [Casework.docket, h]) ha
      | some a => exact ⟨a, rfl⟩
    have hstatus : ((x.assignments.modify e.assignmentId g).get? e.assignmentId).map (·.status)
        = some status := by
      rw [Table.get?_modify_self, ha]
      exact congrArg some (hg a)
    simp only [Casework.docket, hstatus, hsub, if_true, hreviews]
  · intro i hi
    simp only [Casework.docket, hsub, if_neg hi, hreviews, Table.get?_modify_ne hi]
  · refine ⟨?_, fun _ _ h => h, fun _ _ => rfl, fun _ d _ hd hm => ⟨d, hd, hm⟩⟩
    intro j hj hnone
    refine (Table.get?_insert_ne ?_).trans hnone
    rintro rfl
    exact hj hl
  · refine ⟨fun j r hr => ?_, hx.unclaimed⟩
    obtain ⟨e', he'⟩ := hx.filed j r hr
    exact ⟨e', Table.get?_insert_of_some he'⟩

theorem amends_insertReview {r : Review} (hx : x.Orderly) (hj : x.reviews.get? j = none)
    (hl : .review j ∈ locks) (hk : (x.docket id).submissions r.submissionId ≠ none) :
    Amends locks id x { x with reviews := x.reviews.insert j r }
      { x.docket id with reviews := update (x.docket id).reviews j (some r.submissionId) } := by
  have hfiled : submissionsIn x.evidenceSubmissions id r.submissionId ≠ none := hk
  obtain ⟨e, he, rfl⟩ := submissionsIn_ne_none.mp hk
  refine ⟨?_, ?_, ?_, ?_⟩
  · simp only [Casework.docket, reviewsIn_insert hj]
    rw [if_pos hfiled]
  · intro i hi
    have hother : ¬submissionsIn x.evidenceSubmissions i r.submissionId ≠ none := by
      intro h
      obtain ⟨e', he', hof⟩ := submissionsIn_ne_none.mp h
      obtain rfl := Option.some.inj (he.symm.trans he')
      exact hi hof.symm
    simp only [Casework.docket, reviewsIn_insert hj]
    rw [if_neg hother]
  · refine ⟨fun _ _ h => h, ?_, fun _ _ => rfl, fun _ d _ hd hm => ⟨d, hd, hm⟩⟩
    intro i hi hnone
    refine (Table.get?_insert_ne ?_).trans hnone
    rintro rfl
    exact hi hl
  · refine ⟨fun i q hq => ?_, hx.unclaimed⟩
    rcases Table.get?_insert_cases hq with hq | ⟨_, rfl, _⟩
    · exact hx.filed i q hq
    · exact ⟨e, he⟩

theorem amends_insertDispute {d : Dispute} (hx : x.Orderly) (hi : x.disputes.get? i = none)
    (hl : .dispute i ∈ locks) (hnobody : d.assignedTo = none) :
    Amends locks d.assignmentId x { x with disputes := x.disputes.insert i d }
      { x.docket d.assignmentId with
        disputes := update (x.docket d.assignmentId).disputes i
          (some ⟨d.submissionId, d.status ∈ activeDisputeStatuses⟩) } := by
  refine ⟨?_, ?_, ?_, ?_⟩
  · simp only [Casework.docket, disputesIn_insert hi, if_true]
  · intro j hj
    simp only [Casework.docket, disputesIn_insert hi, if_neg hj]
  · refine ⟨fun _ _ h => h, fun _ _ h => h, ?_, ?_⟩
    · intro j hj
      refine Table.get?_insert_ne ?_
      rintro rfl
      exact hj hl
    · exact fun j c m hc hm => ⟨c, Table.get?_insert_of_some hc, hm⟩
  · refine ⟨hx.filed, fun j c hc hopen => ?_⟩
    rcases Table.get?_insert_cases hc with hc | ⟨_, rfl, _⟩
    · exact hx.unclaimed j c hc hopen
    · exact hnobody

/-- A claim of an open dispute does not show in any docket. -/
theorem claim_kept {d : Dispute} {f : Dispute → Dispute} (hx : x.Orderly)
    (hd : x.disputes.get? i = some d) (hopen : d.status = .open) (hl : .dispute i ∈ locks)
    (hf : (f d).assignmentId = d.assignmentId ∧ (f d).submissionId = d.submissionId
      ∧ (f d).status = .underReview) :
    (∀ id, Casework.docket { x with disputes := x.disputes.modify i f } id = x.docket id)
      ∧ RowsKept locks x { x with disputes := x.disputes.modify i f }
      ∧ Casework.Orderly { x with disputes := x.disputes.modify i f } := by
  obtain ⟨hof, hsub, hstatus⟩ := hf
  refine ⟨fun id => ?_, ⟨fun _ _ h => h, fun _ _ h => h, ?_, ?_⟩, hx.filed, ?_⟩
  · have hsame : disputesIn (x.disputes.modify i f) id = disputesIn x.disputes id := by
      rw [disputesIn_modify hd hof]
      split
      · rename_i hid
        refine update_eq_self_iff.mpr ?_
        refine (disputesIn_eq_some.mpr ⟨d, hd, hid.symm, ?_⟩).symm
        simp [hsub, hstatus, hopen, activeDisputeStatuses]
      · rfl
    simp only [Casework.docket, hsame]
  · intro j hj
    refine Table.get?_modify_ne ?_
    rintro rfl
    exact hj hl
  · intro j c m hc hm
    have hne : j ≠ i := by
      rintro rfl
      obtain rfl := Option.some.inj (hd.symm.trans hc)
      exact absurd (hm.symm.trans (hx.unclaimed j d hd hopen)) (by simp)
    exact ⟨c, (Table.get?_modify_ne hne).trans hc, hm⟩
  · intro j c hc hcopen
    rcases Table.get?_modify_cases hc with ⟨_, c', hc', rfl⟩ | ⟨_, hc⟩
    · obtain rfl := Option.some.inj (hd.symm.trans hc')
      exact absurd (hstatus.symm.trans hcopen) (by simp)
    · exact hx.unclaimed j c hc hcopen

/-- A review, with its verdict, is a step of the docket. -/
theorem review_step_of {r : Review} (hx : x.Orderly) (hj : x.reviews.get? j = none)
    (hl : .review j ∈ locks) (hpending : (x.docket id).Pending r.submissionId)
    (hcalm : ∀ i e, (x.docket id).disputes i = some e → e.active = false)
    (h : Decides id r.submissionId r.decision.assignmentStatus r.decision.submissionStatus
      (if r.decision = .approved then 1 else 0) { x with reviews := x.reviews.insert j r } y) :
    ∃ D', (x.docket id).Step D' ∧ Amends locks id x y D' := by
  have hins := amends_insertReview hx hj hl (by rw [hpending.2]; simp)
  obtain ⟨m, hm, hverdict⟩ := Decides.amends h hins.orderly
    (by rw [hins.docket]; show (x.docket id).status ≠ none; rw [hpending.1]; simp)
    (by rw [hins.docket]; show (x.docket id).submissions r.submissionId ≠ none; rw [hpending.2]; simp)
  rw [hins.docket] at hverdict
  refine ⟨_, .review (j := j) hpending hcalm ?_ hm, hins.trans hverdict⟩
  show reviewsIn x.evidenceSubmissions x.reviews id j = none
  rw [reviewsIn, hj]
  rfl

/-! ## The dockets of a possible marketplace -/

section Possible

variable {g : Nat} {db : Db}

/-- A submission that waits for a verdict is the latest one, and its assignment waits with it. -/
theorem submissionsIn_submitted (h : CaseInv db.exchange)
    (hk : submissionsIn db.evidenceSubmissions id k = some .submitted) :
    ∃ e a, db.evidenceSubmissions.get? k = some e ∧ e.assignmentId = id
      ∧ e.version = latestIn db.evidenceSubmissions id ∧ db.assignments.get? id = some a
      ∧ a.status = .submitted ∧ InStep db.evidenceSubmissions id a.status := by
  obtain ⟨e, he, rfl, hs⟩ := submissionsIn_eq_some.mp hk
  obtain ⟨a, ha⟩ := h.owned k e he
  have hin := h.inStep e.assignmentId a ha
  have hlatest := hin.is_latest he rfl (by simp [hs])
  have hstatus := hin.latest k e he rfl hlatest
  rw [hs] at hstatus
  refine ⟨e, a, he, rfl, hlatest, ha, ?_, hin⟩
  cases ha : a.status <;> simp [ha, AssignmentStatus.latest] at hstatus ⊢

theorem disputed_of_case (h : CaseInv db.exchange) {d : Dispute}
    (hd : db.disputes.get? i = some d) :
    ∃ k, (db.docket d.assignmentId).Disputed ⟨d.submissionId, d.status ∈ activeDisputeStatuses⟩ k := by
  obtain ⟨a, k, e, hc⟩ := h.disputed i d hd
  have hsub : (db.docket d.assignmentId).submissions k = some e.status :=
    submissionsIn_eq_some.mpr ⟨e, hc.he, hc.hof, rfl⟩
  have hstatus : (db.docket d.assignmentId).status = some a.status := by
    show (db.assignments.get? d.assignmentId).map (·.status) = some a.status
    rw [show db.assignments.get? d.assignmentId = some a from hc.ha]
    rfl
  refine ⟨k, hc.submission, by simp [hsub], fun hactive => ?_, fun hpending => ?_⟩
  · rcases hc.phase.escalated (of_decide_eq_true hactive) with ⟨ha, he⟩ | ⟨ha, he⟩
    · exact Or.inl ⟨hstatus.trans (congrArg some ha), hsub.trans (congrArg some he)⟩
    · exact Or.inr ⟨hstatus.trans (congrArg some ha), hsub.trans (congrArg some he)⟩
  · have he : e.status = .submitted := Option.some.inj (hsub.symm.trans hpending)
    exact decide_eq_true (hc.phase.active_of he)

/-- The rewards of an assignment are entries for one occasion, its approval. -/
theorem LedgerInv.reward_of (h : LedgerInv g db.exchange) {e : CreditLedgerEntry}
    (he : e ∈ db.creditLedgerEntries) (hr : e.rewards id = true) :
    e.occasion = some (.reward id) ∧ (db.docket id).status = some .approved := by
  simp only [CreditLedgerEntry.rewards, Bool.and_eq_true, decide_eq_true_eq] at hr
  have hoccasion : e.occasion = some (.reward id) := by
    rw [CreditLedgerEntry.occasion, hr.1, hr.2]
    rfl
  obtain ⟨o, ho⟩ := h.explained e he
  obtain rfl := Option.some.inj (hoccasion.symm.trans ho.occasion)
  obtain ⟨a, ha, happroved⟩ := ho.occurs
  refine ⟨hoccasion, ?_⟩
  show (db.assignments.get? id).map (·.status) = _
  rw [show db.assignments.get? id = some a from ha]
  exact congrArg some happroved

theorem LedgerInv.rewards_le (h : LedgerInv g db.exchange) :
    db.creditLedgerEntries.countP (·.rewards id) ≤ 1 := by
  rw [List.countP_eq_length_filter]
  have hnodup : (db.creditLedgerEntries.filter (·.rewards id)).Nodup :=
    List.Nodup.filter _ (h.booked.keys.of_map)
  have hsame : ∀ e ∈ db.creditLedgerEntries.filter (·.rewards id),
      ∀ f ∈ db.creditLedgerEntries.filter (·.rewards id), e = f := by
    intro e he f hf
    obtain ⟨he, hre⟩ := List.mem_filter.mp he
    obtain ⟨hf, hrf⟩ := List.mem_filter.mp hf
    exact h.entry_inj he hf ((h.reward_of he hre).1.trans (h.reward_of hf hrf).1.symm)
  cases hl : db.creditLedgerEntries.filter (·.rewards id) with
  | nil => simp
  | cons e rest =>
      cases rest with
      | nil => simp
      | cons f rest =>
          rw [hl] at hnodup hsame
          have hef := hsame e (by simp) f (by simp)
          simp [hef] at hnodup

/-- **The dockets of a possible marketplace are sound.** -/
theorem sound_of_possible (h : Possible g db.exchange) (id : Uuid) : (db.docket id).Sound := by
  have hcase := caseInv_possible h
  have hreview := reviewInv_possible h
  have hledger := ledgerInv_possible h
  refine ⟨?_, ?_, ?_, ?_, ?_, ?_, ?_, hledger.rewards_le⟩
  · intro k hk
    obtain ⟨_, a, _, _, _, ha, hs, _⟩ := submissionsIn_submitted hcase hk
    show (db.assignments.get? id).map (·.status) = _
    rw [ha]
    exact congrArg some hs
  · intro j k hj hk
    obtain ⟨e, a, he, hof, hv, ha, _, hin⟩ := submissionsIn_submitted hcase hj
    obtain ⟨e', a', he', hof', hv', _⟩ := submissionsIn_submitted hcase hk
    exact hin.unique he hof he' hof' (hv.trans hv'.symm)
  · intro j k hj
    obtain ⟨r, hr, hk, rfl⟩ := reviewsIn_eq_some.mp hj
    obtain ⟨e, he, hof⟩ := submissionsIn_ne_none.mp hk
    obtain ⟨e', he', hne, _⟩ := hreview.reviewed j r hr
    obtain rfl := Option.some.inj (he.symm.trans he')
    exact ⟨e.status, submissionsIn_eq_some.mpr ⟨e, he, hof, rfl⟩, hne⟩
  · intro i j k hi hj
    obtain ⟨r, hr, _, rfl⟩ := reviewsIn_eq_some.mp hi
    obtain ⟨r', hr', _, hk⟩ := reviewsIn_eq_some.mp hj
    exact hreview.once i j r r' hr hr' hk.symm
  · intro i j x y hi hj
    obtain ⟨d, hd, rfl, _⟩ := disputesIn_eq_some.mp hi
    obtain ⟨d', hd', hof, _⟩ := disputesIn_eq_some.mp hj
    exact hcase.once i j d d' hd hd' hof.symm
  · intro i x hi
    obtain ⟨d, hd, rfl, rfl⟩ := disputesIn_eq_some.mp hi
    exact disputed_of_case hcase hd
  · intro hs
    refine List.countP_eq_zero.mpr fun e he hr => ?_
    exact hs (hledger.reward_of he hr).2

theorem orderly_of_possible (h : Possible g db.exchange) : db.casework.Orderly where
  filed := by
    intro j r hr
    obtain ⟨e, he, _⟩ := (reviewInv_possible h).reviewed j r hr
    exact ⟨e, he⟩
  unclaimed := by
    intro i d hd hopen
    obtain ⟨a, k, e, hc⟩ := (caseInv_possible h).disputed i d hd
    have hp := hc.phase
    unfold Dispute.Phase at hp
    rw [hopen] at hp
    exact hp.1

end Possible

end TestExchange
