import TestExchange.Spec.Keys
import TestExchange.Model.Workflow

/-!
# Storage keys

The service judges a storage key by the parts `PurePosixPath` makes of it, which
are its segments without the empty ones and the dots. The storage service judges
the key as it is: the first of its segments is the folder.

The two agree on a key that has no segment to drop.
-/

namespace TestExchange

open Txn Txn.Session

/-! ## The text of an identifier -/

theorem mem_hexDigits {width n : Nat} {c : Char} (h : c ∈ hexDigits width n) :
    ∃ d < 16, Nat.digitChar d = c := by
  induction width generalizing n with
  | zero => exact absurd h List.not_mem_nil
  | succ width ih =>
      rcases List.mem_append.mp h with h | h
      · exact ih h
      · exact ⟨n % 16, by omega, (List.mem_singleton.mp h).symm⟩

/-- The text of an identifier is made of digits and signs. -/
theorem notMem_str {id : Uuid} {c : Char} (hsign : c ∉ ['+', '-'])
    (hdigit : ∀ d < 16, Nat.digitChar d ≠ c) : c ∉ (Uuid.str id).toList := by
  have hhex : ∀ width n, c ∉ hexDigits width n := by
    intro width n h
    obtain ⟨d, hd, heq⟩ := mem_hexDigits h
    exact hdigit d hd heq
  intro h
  simp only [List.mem_cons, List.not_mem_nil, or_false, not_or] at hsign
  simp [Uuid.str, hhex, hsign.1, hsign.2] at h

theorem slash_notMem_str {id : Uuid} : '/' ∉ (Uuid.str id).toList :=
  notMem_str (by decide) (by decide)

theorem dot_notMem_str {id : Uuid} : '.' ∉ (Uuid.str id).toList :=
  notMem_str (by decide) (by decide)

theorem backslash_notMem_str {id : Uuid} : '\\' ∉ (Uuid.str id).toList :=
  notMem_str (by decide) (by decide)

theorem str_ne_nil {id : Uuid} : (Uuid.str id).toList ≠ [] := by
  simp [Uuid.str]

/-! ## Segments -/

/-- The segments of a key as it is. -/
def rawSegments (storageKey : String) : List (List Char) := storageKey.toList.splitOn '/'

/-- No segment is empty or a dot, so `PurePosixPath` keeps them all. -/
def Normal (storageKey : String) : Prop := ∀ s ∈ rawSegments storageKey, s ≠ [] ∧ s ≠ ['.']

instance {storageKey : String} : Decidable (Normal storageKey) :=
  inferInstanceAs (Decidable (∀ s ∈ rawSegments storageKey, s ≠ [] ∧ s ≠ ['.']))

theorem pathParts_relative {key : List Char} (h : key.head? ≠ some '/') :
    pathParts key = (key.splitOn '/').filter fun s => s ≠ [] && s ≠ ['.'] := by
  unfold pathParts
  rw [if_neg h, List.nil_append]

theorem pathParts_of_normal {storageKey : String} (hhead : storageKey.toList.head? ≠ some '/')
    (h : Normal storageKey) : pathParts storageKey.toList = rawSegments storageKey := by
  rw [pathParts_relative hhead]
  refine List.filter_eq_self.mpr fun s hs => ?_
  simpa using h s hs

/-! ## What the validator accepts -/

/-- The test of the validator, on the key and the text of the assignment's identifier. -/
structure KeyAccepted (assignmentId : Uuid) (storageKey : String) : Prop where
  backslash : '\\' ∉ storageKey.toList
  relative : storageKey.toList.head? ≠ some '/'
  scheme : ¬ "://".toList <:+: storageKey.toList
  parents : ['.', '.'] ∉ pathParts storageKey.toList
  two : 2 ≤ (pathParts storageKey.toList).length
  folder : (pathParts storageKey.toList).head? = some (Uuid.str assignmentId).toList
  named : pathName storageKey.toList ≠ []

theorem validateStorageKey_cases (assignmentId : Uuid) (storageKey : String) :
    KeyAccepted assignmentId storageKey ∧ validateStorageKey assignmentId storageKey = pure ()
    ∨ ¬ KeyAccepted assignmentId storageKey ∧ validateStorageKey assignmentId storageKey
      = raise (.domain
        s!"Evidence storage keys must use {Uuid.str assignmentId}/<file-name>" 422) := by
  unfold validateStorageKey raiseIf
  dsimp only
  split
  · rename_i h
    refine Or.inr ⟨fun hok => ?_, rfl⟩
    rcases h with h | h | h | h | h | h | h
    · exact hok.backslash h
    · exact hok.relative h
    · exact hok.scheme h
    · exact hok.parents h
    · have := hok.two
      omega
    · exact h hok.folder
    · exact hok.named h
  · rename_i h
    simp only [not_or, not_lt, ne_eq, not_not] at h
    obtain ⟨hbackslash, hrelative, hscheme, hparents, htwo, hfolder, hnamed⟩ := h
    exact Or.inl ⟨⟨hbackslash, hrelative, hscheme, hparents, htwo, hfolder, hnamed⟩, rfl⟩

theorem validateStorageKey_accepts {assignmentId : Uuid} {storageKey : String} :
    validateStorageKey assignmentId storageKey = pure () ↔ KeyAccepted assignmentId storageKey := by
  rcases validateStorageKey_cases assignmentId storageKey with ⟨hok, h⟩ | ⟨hno, h⟩
  · exact iff_of_true h hok
  · refine iff_of_false ?_ hno
    rw [h]
    intro heq
    exact absurd (congrFun heq []) (by intro hc; cases hc)

end TestExchange
