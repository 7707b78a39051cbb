import Mathlib.Data.List.Basic

/-!
# Percent-encoded text

`decode` reads a percent-encoded text as bytes: `%` and two hexadecimal digits
are one byte, and every other character stands for its own encoding. An encoder
works byte by byte; if `decode` reads each of its codes back, it reads back all
of them in a row.
-/

namespace Percent

/-- The value of a hexadecimal digit, upper or lower case. -/
def hexValue (c : Char) : Option Nat :=
  if '0' ≤ c ∧ c ≤ '9' then some (c.toNat - '0'.toNat)
  else if 'a' ≤ c ∧ c ≤ 'f' then some (c.toNat - 'a'.toNat + 10)
  else if 'A' ≤ c ∧ c ≤ 'F' then some (c.toNat - 'A'.toNat + 10)
  else none

/-- The bytes a percent-encoded text stands for. A `%` without two digits after it is one itself. -/
def decode : List Char → List UInt8
  | [] => []
  | '%' :: high :: low :: rest =>
      match hexValue high, hexValue low with
      | some h, some l => UInt8.ofNat (16 * h + l) :: decode rest
      | _, _ => String.utf8EncodeChar '%' ++ decode (high :: low :: rest)
  | c :: rest => String.utf8EncodeChar c ++ decode rest

/-- The text of the bytes a percent-encoded text stands for, if they are one. -/
def decodeText (s : String) : Option String := String.fromUTF8? ⟨(decode s.toList).toArray⟩

variable {encode : UInt8 → List Char} {b : UInt8} {c high low : Char} {rest : List Char}

theorem decode_cons (h : c ≠ '%') : decode (c :: rest) = String.utf8EncodeChar c ++ decode rest := by
  rw [decode]
  intro high low rest' hc
  exact absurd hc h

theorem decode_escape {h l : Nat} (hhigh : hexValue high = some h) (hlow : hexValue low = some l) :
    decode ('%' :: high :: low :: rest) = UInt8.ofNat (16 * h + l) :: decode rest := by
  rw [decode, hhigh, hlow]

/-- An encoder whose codes are read back, whatever follows them. -/
def Encodes (encode : UInt8 → List Char) : Prop :=
  ∀ b rest, decode (encode b ++ rest) = b :: decode rest

/-- **What is encoded byte by byte is read back.** -/
theorem Encodes.decode_flatMap (h : Encodes encode) (bytes : List UInt8) :
    decode (bytes.flatMap encode) = bytes := by
  induction bytes with
  | nil => rfl
  | cons b bytes ih => rw [List.flatMap_cons, h b, ih]

/-! ## Bytes of a text -/

theorem toList_loop (bytes : ByteArray) (i : Nat) (done : List UInt8) :
    ByteArray.toList.loop bytes i done = done.reverse ++ bytes.data.toList.drop i := by
  induction i, done using ByteArray.toList.loop.induct bytes with
  | case1 i done h ih =>
      rw [ByteArray.toList.loop, if_pos h, ih]
      have hlt : i < bytes.data.toList.length := h
      rw [List.drop_eq_getElem_cons hlt, List.reverse_cons, List.append_assoc]
      have hget : bytes.get! i = bytes.data.toList[i] := by
        show bytes.data[i]! = bytes.data.toList[i]
        rw [getElem!_pos bytes.data i h, Array.getElem_toList]
      rw [hget]
      rfl
  | case2 i done h =>
      have hle : bytes.data.toList.length ≤ i := Nat.le_of_not_lt h
      rw [ByteArray.toList.loop, if_neg h, List.drop_eq_nil_of_le hle, List.append_nil]

theorem toList_byteArray (bytes : ByteArray) : bytes.toList = bytes.data.toList := by
  unfold ByteArray.toList
  rw [toList_loop]
  rfl

/-- **A text that is encoded byte by byte is read back.** -/
theorem Encodes.decodeText (h : Encodes encode) (s : String) :
    Percent.decodeText (String.ofList (s.toUTF8.toList.flatMap encode)) = some s := by
  unfold Percent.decodeText
  rw [String.toList_ofList, h.decode_flatMap, toList_byteArray]
  have hbytes : (⟨s.toUTF8.data.toList.toArray⟩ : ByteArray) = s.toByteArray := by
    rw [Array.toArray_toList]
    rfl
  rw [hbytes]
  unfold String.fromUTF8?
  rw [dif_pos s.isValidUTF8]
  exact congrArg some (String.toByteArray_inj.mp rfl)

end Percent
