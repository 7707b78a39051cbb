import TestExchange.Spec.Paths

/-!
# Where attachments lie

A tester uploads a file straight to the storage service, which lets them write
to the folder named after their assignment, and hands in its key with the
submission. The service checks the key for the same folder. What it checks is
the key without empty segments and dots, so a key that has some is taken for
another one: the storage service finds it in another folder, or not as a file.
-/

namespace TestExchange

open Txn Txn.Session

/-! ## The folder the storage service sees -/

/-- The key is a file below the assignment's folder, as the storage service reads keys. -/
structure InFolder (assignmentId : Uuid) (storageKey : String) : Prop where
  two : 2 ≤ (rawSegments storageKey).length
  first : (rawSegments storageKey).head? = some (Uuid.str assignmentId).toList
  last : (rawSegments storageKey).getLast? ≠ some []
  clean : ∀ s ∈ rawSegments storageKey, s ≠ [] ∧ s ≠ ['.'] ∧ s ≠ ['.', '.']

/-- One segment, and nothing else in a key. -/
structure FileName (name : String) : Prop where
  nonempty : name.toList ≠ []
  dot : name.toList ≠ ['.']
  parent : name.toList ≠ ['.', '.']
  slash : '/' ∉ name.toList
  backslash : '\\' ∉ name.toList
  scheme : ¬ "://".toList <:+: name.toList

variable {assignmentId : Uuid} {storageKey name : String}

theorem InFolder.normal (h : InFolder assignmentId storageKey) : Normal storageKey :=
  fun s hs => ⟨(h.clean s hs).1, (h.clean s hs).2.1⟩

theorem KeyAccepted.inFolder (h : KeyAccepted assignmentId storageKey)
    (hnormal : Normal storageKey) : InFolder assignmentId storageKey := by
  have hparts := pathParts_of_normal h.relative hnormal
  have htwo := h.two
  have hfolder := h.folder
  have hparents := h.parents
  rw [hparts] at htwo hfolder hparents
  refine ⟨htwo, hfolder, fun hlast => ?_, fun s hs => ⟨(hnormal s hs).1, (hnormal s hs).2, ?_⟩⟩
  · exact (hnormal [] (List.mem_of_getLast? hlast)).1 rfl
  · intro heq
    exact hparents (heq ▸ hs)

/-- The key of a file right in the assignment's folder. -/
def fileKey (assignmentId : Uuid) (name : String) : String :=
  s!"{Uuid.str assignmentId}/{name}"

theorem toList_fileKey :
    (fileKey assignmentId name).toList = (Uuid.str assignmentId).toList ++ '/' :: name.toList := by
  have hslash : "/".toList = ['/'] := rfl
  simp only [fileKey, toString, String.toList_append, hslash, List.append_assoc, List.cons_append,
    List.nil_append]

theorem rawSegments_fileKey (h : '/' ∉ name.toList) :
    rawSegments (fileKey assignmentId name) = [(Uuid.str assignmentId).toList, name.toList] := by
  unfold rawSegments
  rw [toList_fileKey, List.splitOn_append_cons_self_of_not_mem slash_notMem_str,
    List.splitOn_eq_singleton h]

theorem head_fileKey : (fileKey assignmentId name).toList.head? ≠ some '/' := by
  rw [toList_fileKey]
  intro h
  cases hstr : (Uuid.str assignmentId).toList with
  | nil => exact str_ne_nil hstr
  | cons c rest =>
      rw [hstr] at h
      have hc : c = '/' := Option.some.inj h
      have hmem : '/' ∈ (Uuid.str assignmentId).toList := by
        rw [hstr, hc]
        exact List.mem_cons_self
      exact slash_notMem_str hmem

/-- A scheme in the key is one in the name: identifiers have no colon. -/
theorem scheme_fileKey (h : "://".toList <:+: (fileKey assignmentId name).toList) :
    "://".toList <:+: name.toList := by
  rw [toList_fileKey] at h
  obtain ⟨a, b, heq⟩ := h
  have hscheme : "://".toList = [':', '/', '/'] := rfl
  rw [hscheme, List.append_assoc] at heq
  rcases List.append_eq_append_iff.mp heq with ⟨c, hc, hrest⟩ | ⟨c, hc, hrest⟩
  · cases c with
    | nil => exact absurd (List.cons.inj hrest).1 (by decide)
    | cons x c =>
        have hx : ':' = x := (List.cons.inj hrest).1
        subst hx
        exact absurd (hc ▸ List.mem_append_right a List.mem_cons_self) colon_notMem_str
  · cases c with
    | nil => exact absurd (List.cons.inj hrest).1 (by decide)
    | cons x c =>
        obtain ⟨-, hname⟩ := List.cons.inj hrest
        refine ⟨c, b, ?_⟩
        rw [hscheme, List.append_assoc]
        exact hname.symm

theorem normal_fileKey (h : FileName name) : Normal (fileKey assignmentId name) := by
  intro s hs
  rw [rawSegments_fileKey h.slash] at hs
  rcases List.mem_cons.mp hs with rfl | hs
  · refine ⟨str_ne_nil, fun hdot => ?_⟩
    exact @dot_notMem_str assignmentId (hdot ▸ List.mem_singleton_self '.')
  · rw [List.mem_singleton.mp hs]
    exact ⟨h.nonempty, h.dot⟩

theorem accepted_fileKey (h : FileName name) : KeyAccepted assignmentId (fileKey assignmentId name) := by
  have hparts : pathParts (fileKey assignmentId name).toList
      = [(Uuid.str assignmentId).toList, name.toList] := by
    rw [pathParts_of_normal head_fileKey (normal_fileKey h), rawSegments_fileKey h.slash]
  refine ⟨?_, head_fileKey, fun hscheme => h.scheme (scheme_fileKey hscheme), ?_, ?_, ?_, ?_⟩
  · rw [toList_fileKey]
    intro hmem
    rcases List.mem_append.mp hmem with hmem | hmem
    · exact backslash_notMem_str hmem
    · rcases List.mem_cons.mp hmem with hmem | hmem
      · exact absurd hmem (by decide)
      · exact h.backslash hmem
  · rw [hparts]
    intro hmem
    rcases List.mem_cons.mp hmem with hmem | hmem
    · exact @dot_notMem_str assignmentId (hmem ▸ List.mem_cons_self)
    · exact h.parent (List.mem_singleton.mp hmem).symm
  · rw [hparts]
    exact le_refl 2
  · rw [hparts]
    rfl
  · unfold pathName
    rw [hparts]
    show (if name.toList = ['/'] then [] else name.toList) ≠ []
    have hslash : name.toList ≠ ['/'] := by
      intro hname
      exact h.slash (by rw [hname]; exact List.mem_singleton_self '/')
    rw [if_neg hslash]
    exact h.nonempty

/--
**Accepted keys lie in the assignment's folder** exactly when they have no empty
segment and no dot among their segments; and the keys of that form are accepted.
-/
theorem storage_key_in_folder (assignmentId : Uuid) :
    (∀ storageKey, validateStorageKey assignmentId storageKey = pure () →
      (InFolder assignmentId storageKey ↔ Normal storageKey))
    ∧ ∀ name, FileName name →
      validateStorageKey assignmentId (fileKey assignmentId name) = pure () := by
  refine ⟨fun storageKey hok => ⟨InFolder.normal, ?_⟩, fun name hname => ?_⟩
  · exact (validateStorageKey_accepts.mp hok).inFolder
  · exact validateStorageKey_accepts.mpr (accepted_fileKey hname)

theorem fileName_photo : FileName "photo.png" := by
  constructor <;> decide

/-- The service takes this key for the photo in the folder, and the storage service for one elsewhere. -/
theorem storage_key_elsewhere :
    validateStorageKey 8 "./00000000-0000-0000-0000-000000000008/photo.png" = pure ()
      ∧ ¬ InFolder 8 "./00000000-0000-0000-0000-000000000008/photo.png" := by
  refine ⟨validateStorageKey_accepts.mpr ?_, fun h => ?_⟩
  · constructor <;> decide +kernel
  · exact absurd h.first (by decide +kernel)

theorem storage_key_in_folder_photo :
    InFolder 8 (fileKey 8 "photo.png")
      ∧ ¬ Normal "./00000000-0000-0000-0000-000000000008/photo.png" := by
  obtain ⟨hkeys, hfiles⟩ := storage_key_in_folder 8
  refine ⟨(hkeys _ (hfiles "photo.png" fileName_photo)).mpr (by decide +kernel), by decide +kernel⟩

end TestExchange
