import Mathlib.Tactic.Ring
import TestExchange.Model.Storage
import TestExchange.Spec.Paths

/-!
# The folder of a key

The policies of the bucket read the identifier of an assignment back from the
folder of a name, as a cast from text. The cast inverts `str`, so the folder of a
key names the assignment the service put there, and no other.
-/

namespace TestExchange

variable {l k acc n id : Nat} {cs : List Char}

/-! ## Reading an identifier back -/

theorem hexValue_digitChar : ∀ d < 16, hexValue (Nat.digitChar d) = some d := by decide

theorem digitChar_ne_hyphen : ∀ d < 16, Nat.digitChar d ≠ '-' := by decide

theorem hexDigits_add (width rest n : Nat) :
    hexDigits (width + rest) n = hexDigits width (n / 16 ^ rest) ++ hexDigits rest n := by
  induction rest generalizing n with
  | zero => simp [hexDigits]
  | succ rest ih =>
      rw [← Nat.add_assoc, hexDigits, ih, hexDigits, List.append_assoc, Nat.div_div_eq_div_mul,
        Nat.pow_succ']

theorem readBytes_pair :
    readBytes (l + 1) acc (hexDigits 2 n ++ cs)
      = readBytes l (acc * 256 + n % 256)
          (if cs.head? = some '-' ∧ l % 2 = 0 ∧ l ≠ 0 then cs.tail else cs) := by
  have hhigh : hexValue (Nat.digitChar (n / 16 % 16)) = some (n / 16 % 16) :=
    hexValue_digitChar _ (Nat.mod_lt _ (by decide))
  have hlow : hexValue (Nat.digitChar (n % 16)) = some (n % 16) :=
    hexValue_digitChar _ (Nat.mod_lt _ (by decide))
  have hvalue : acc * 256 + n / 16 % 16 * 16 + n % 16 = acc * 256 + n % 256 := by omega
  simp only [hexDigits, List.nil_append, List.cons_append, readBytes, hhigh, hlow, hvalue,
    Option.bind_eq_bind, Option.bind_some]

/-- Bytes without a hyphen after them. -/
theorem readBytes_hexDigits (hcs : cs.head? ≠ some '-') :
    readBytes (l + k) acc (hexDigits (2 * k) n ++ cs)
      = readBytes l (acc * 256 ^ k + n % 256 ^ k) cs := by
  induction k generalizing acc with
  | zero => simp [hexDigits, Nat.mod_one]
  | succ k ih =>
      have hhead : (hexDigits (2 * k) n ++ cs).head? ≠ some '-' := by
        intro h
        rcases List.head?_append.symm.trans h with h
        cases hfirst : (hexDigits (2 * k) n).head? with
        | none => exact hcs (by simpa [hfirst] using h)
        | some c =>
            obtain ⟨d, hd, hc⟩ := mem_hexDigits (List.mem_of_mem_head? hfirst)
            exact digitChar_ne_hyphen d hd (hc.trans (by simpa [hfirst] using h))
      have hvalue : (acc * 256 + n / 256 ^ k % 256) * 256 ^ k + n % 256 ^ k
          = acc * 256 ^ (k + 1) + n % 256 ^ (k + 1) := by
        rw [Nat.pow_succ, Nat.mod_mul, Nat.add_mul]
        ring
      rw [show 2 * (k + 1) = 2 + 2 * k by ring, hexDigits_add, List.append_assoc, ← Nat.add_assoc,
        readBytes_pair, if_neg (fun h => hhead h.1), ih, Nat.pow_mul, hvalue]

/-- Bytes with a hyphen after them. -/
theorem readBytes_group (heven : l % 2 = 0) (hmore : l ≠ 0) :
    readBytes (l + (k + 1)) acc (hexDigits (2 * (k + 1)) n ++ '-' :: cs)
      = readBytes l (acc * 256 ^ (k + 1) + n % 256 ^ (k + 1)) cs := by
  have hhead : (hexDigits 2 n ++ '-' :: cs).head? ≠ some '-' := by
    have hdigit := digitChar_ne_hyphen (n / 16 % 16) (Nat.mod_lt _ (by decide))
    simp [hexDigits, hdigit]
  have hvalue : (acc * 256 ^ k + n / 256 % 256 ^ k) * 256 + n % 256
      = acc * 256 ^ (k + 1) + n % 256 ^ (k + 1) := by
    rw [Nat.pow_succ', Nat.mod_mul, Nat.add_mul]
    ring
  rw [show 2 * (k + 1) = 2 * k + 2 by ring, hexDigits_add, List.append_assoc,
    show l + (k + 1) = l + 1 + k by ring, readBytes_hexDigits hhead, readBytes_pair,
    if_pos ⟨rfl, heven, hmore⟩, show (16 : Nat) ^ 2 = 256 by norm_num, hvalue]
  rfl

/-- The text of an identifier of 128 bits, group by group. -/
theorem toList_str (hid : id < 16 ^ 32) :
    (Uuid.str id).toList = hexDigits (2 * (3 + 1)) (id / 16 ^ 24) ++ '-' ::
      (hexDigits (2 * (1 + 1)) (id / 16 ^ 20) ++ '-' :: (hexDigits (2 * (1 + 1)) (id / 16 ^ 16) ++
      '-' :: (hexDigits (2 * (1 + 1)) (id / 16 ^ 12) ++ '-' :: (hexDigits (2 * 6) id ++ [])))) := by
  rw [Uuid.str, String.toList_ofList, Nat.div_eq_of_lt hid, List.append_nil]
  rfl

theorem readBytes_str (hid : id < 16 ^ 32) : readBytes 16 0 (Uuid.str id).toList = some (id, []) := by
  rw [toList_str hid]
  have hnested (i : Nat) : id / 16 ^ (i + 4) = id / 16 ^ i / 16 ^ 4 := by
    rw [Nat.div_div_eq_div_mul, Nat.pow_add]
  calc readBytes (12 + (3 + 1)) 0 _
      _ = readBytes (10 + (1 + 1)) _ _ := readBytes_group (by decide) (by decide)
      _ = readBytes (8 + (1 + 1)) _ _ := readBytes_group (by decide) (by decide)
      _ = readBytes (6 + (1 + 1)) _ _ := readBytes_group (by decide) (by decide)
      _ = readBytes (0 + 6) _ _ := readBytes_group (by decide) (by decide)
      _ = readBytes 0 _ [] := readBytes_hexDigits (by simp)
      _ = some (id, []) := by
        rw [readBytes, hnested 20, hnested 16, hnested 12]
        norm_num at hid ⊢
        omega

theorem head_hexDigits {c : Char} {width : Nat} (h : (hexDigits (width + 1) n ++ cs).head? = some c) :
    ∃ d < 16, Nat.digitChar d = c := by
  rw [List.head?_append] at h
  cases hfirst : (hexDigits (width + 1) n).head? with
  | none => simp [hexDigits] at hfirst
  | some c' =>
      obtain rfl : c' = c := by simpa [hfirst] using h
      exact mem_hexDigits (List.mem_of_mem_head? hfirst)

/-- **The cast inverts `str`.** -/
theorem castUuid_str (hid : id < 16 ^ 32) : castUuid (Uuid.str id) = some id := by
  have hread := readBytes_str hid
  have hbrace : (Uuid.str id).toList.head? ≠ some '{' := by
    rw [toList_str hid]
    intro h
    obtain ⟨d, hd, hc⟩ := head_hexDigits h
    exact absurd hc (by revert d; decide)
  unfold castUuid
  split
  · rename_i cs hcs
    exact absurd (by rw [hcs]; rfl) hbrace
  · rw [hread]

/-- What is no UUID is not read as one. -/
theorem castUuid_sign (hid : 16 ^ 32 ≤ id) : castUuid (Uuid.str id) = none := by
  obtain ⟨q, hq⟩ : ∃ q, id / 16 ^ 32 = q + 1 :=
    Nat.exists_eq_succ_of_ne_zero (Nat.div_pos hid (by norm_num)).ne'
  obtain ⟨cs, hcs⟩ : ∃ cs, (Uuid.str id).toList = '+' :: cs := by
    rw [Uuid.str, String.toList_ofList, hq, List.replicate_succ, List.cons_append]
    exact ⟨_, rfl⟩
  unfold castUuid
  rw [hcs]
  cases cs <;> rfl

/-- The text of an identifier is read as no other. -/
theorem castUuid_str_eq (h : castUuid (Uuid.str id) = some k) : k = id := by
  by_cases hid : id < 16 ^ 32
  · rw [castUuid_str hid] at h
    exact (Option.some.inj h).symm
  · rw [castUuid_sign (Nat.le_of_not_lt hid)] at h
    exact absurd h (by simp)

end TestExchange
