import TestExchange.Txn.Upkeep

/-!
# A database that cannot hold everything

Some limits are not about one write or another but about what can be stored at
all, and a transaction that exceeds them is lost: nothing in it waits for that
error. `Program.checked` is the transaction on a database with such limits. Run
alone it does what it does without them, up to the first write that would leave
something the database cannot hold.
-/

namespace Txn.Program

variable {S L ε α : Type} {x : Program S L ε α} {refusal : S → Option ε} {now n n' : Nat}
  {s s' : S} {a : α} {e : ε}

/-- The transaction, ended by the first write that leaves what the database refuses to hold. -/
def checked (refusal : S → Option ε) : Program S L ε α → Program S L ε α
  | .done a => .done a
  | .raise e => .raise e
  | .select k => .select fun s => (k s).checked refusal
  | .lock rows k => .lock rows fun s => (k s).checked refusal
  | .exec w k => .select fun s =>
      match refusal (w.effect s) with
      | some e => .raise e
      | none => .exec w fun violated => (k violated).checked refusal
  | .uuid4 k => .uuid4 fun n => (k n).checked refusal
  | .utcnow k => .utcnow fun t => (k t).checked refusal

/-- **The checked run is the plain one, unless something on the way is refused.** -/
theorem checked_alone : (x.checked refusal).alone now s n =
    match (x.leaves now s n).findSome? fun r => refusal r.2 with
    | some e => .error e
    | none => x.alone now s n := by
  induction x generalizing s n with
  | done a => rfl
  | raise e => rfl
  | select k ih => exact ih s
  | lock rows k ih => exact ih s
  | exec w k ih =>
      -- what this write leaves comes first among the leaves
      unfold checked leaves
      rw [List.findSome?_cons]
      show (match refusal (w.effect s) with
        | some e => (.raise e : Program S L ε _)
        | none => .exec w fun violated => (k violated).checked refusal).alone now s n = _
      cases hr : refusal (w.effect s) with
      | some e => rfl
      | none =>
          unfold alone
          cases hv : w.violates s with
          | some e => exact ih (some e)
          | none => exact ih none
  | uuid4 k ih => exact ih n
  | utcnow k ih => exact ih now

theorem checked_eq (h : ∀ r ∈ x.leaves now s n, refusal r.2 = none) :
    (x.checked refusal).alone now s n = x.alone now s n := by
  rw [checked_alone, List.findSome?_eq_none_iff.mpr h]

/-- What a run would commit is refused if the database cannot hold it. -/
theorem checked_refused (hok : x.alone now s n = .ok (a, s', n')) (hs : refusal s = none)
    (hs' : refusal s' ≠ none) :
    ∃ e t, (x.checked refusal).alone now s n = .error e ∧ refusal t = some e := by
  -- what is committed is what the last write left
  have hleft : ∃ r ∈ x.leaves now s n, refusal r.2 ≠ none := by
    rcases last_mem_leaves hok with rfl | ⟨r, hr, -, rfl⟩
    · exact absurd hs hs'
    · exact ⟨r, hr, hs'⟩
  obtain ⟨r, hr, hrefused⟩ := hleft
  rw [checked_alone]
  cases hfirst : (x.leaves now s n).findSome? fun r => refusal r.2 with
  | none => exact absurd (List.findSome?_eq_none_iff.mp hfirst r hr) hrefused
  | some e =>
      obtain ⟨t, -, ht⟩ := List.exists_of_findSome?_eq_some hfirst
      exact ⟨e, t.2, rfl, ht⟩

end Txn.Program
