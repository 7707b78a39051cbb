import TestExchange.Text.Percent
import TestExchange.Spec.Keys
import TestExchange.Model.Evidence

/-!
# Signed links

`quote` writes a storage key so that nothing in it can end the path of a link,
and so that the key can be read back. An answer of the signing service is only
used if it starts with that path, so the rest of it comes after the `?`.
-/

namespace TestExchange

/-! ## Quoting -/

theorem quoted_safe : ∀ n < 256, isQuoteSafe (UInt8.ofNat n) = true →
    Char.ofNat n ∉ ['%', '?', '#', '\\']
      ∧ String.utf8EncodeChar (Char.ofNat n) = [UInt8.ofNat n] := by decide +kernel

theorem quoted_digit : ∀ d < 16, Percent.hexValue (Nat.digitChar d).toUpper = some d
    ∧ (Nat.digitChar d).toUpper ∉ ['%', '?', '#', '\\'] := by decide +kernel

/-- A byte is kept, as a character that stands for it, or written as two digits. -/
theorem quoteByte_cases (b : UInt8) :
    (∃ c, quoteByte b = [c] ∧ c ∉ ['%', '?', '#', '\\'] ∧ String.utf8EncodeChar c = [b])
    ∨ quoteByte b = ['%', (Nat.digitChar (b.toNat / 16)).toUpper,
        (Nat.digitChar (b.toNat % 16)).toUpper] := by
  have hb : b.toNat < 256 := b.toNat_lt
  unfold quoteByte
  by_cases hsafe : isQuoteSafe b = true
  · have hkept := quoted_safe b.toNat hb
    rw [UInt8.ofNat_toNat] at hkept
    rw [if_pos hsafe]
    exact Or.inl ⟨_, rfl, hkept hsafe⟩
  · rw [if_neg hsafe]
    refine Or.inr ?_
    have hmod : b.toNat / 16 % 16 = b.toNat / 16 := by omega
    simp only [hexDigits, List.nil_append, List.map_cons, List.map_nil,
      List.cons_append, hmod]

/-- **Every byte can be read back.** -/
theorem quoteByte_encodes : Percent.Encodes quoteByte := by
  intro b rest
  rcases quoteByte_cases b with ⟨c, hquote, hc, hbytes⟩ | hquote
  · have hpercent : c ≠ '%' := by
      intro h
      exact hc (h ▸ List.mem_cons_self)
    rw [hquote, List.cons_append, List.nil_append, Percent.decode_cons hpercent, hbytes]
    rfl
  · have hb : b.toNat < 256 := b.toNat_lt
    have hhigh := (quoted_digit (b.toNat / 16) (by omega)).1
    have hlow := (quoted_digit (b.toNat % 16) (by omega)).1
    have hvalue : 16 * (b.toNat / 16) + b.toNat % 16 = b.toNat := by omega
    rw [hquote, List.cons_append, List.cons_append, List.cons_append, List.nil_append,
      Percent.decode_escape hhigh hlow, hvalue, UInt8.ofNat_toNat]

/-- Percent-decoding gives the text that was quoted. -/
theorem decode_quote (s : String) : Percent.decodeText (quote s) = some s :=
  quoteByte_encodes.decodeText s

/-- What would end the path of a link is not in a quoted text. -/
theorem quote_clean {s : String} {c : Char} (h : c ∈ (quote s).toList) : c ∉ ['?', '#', '\\'] := by
  unfold quote at h
  rw [String.toList_ofList] at h
  obtain ⟨b, -, hb⟩ := List.mem_flatMap.mp h
  rcases quoteByte_cases b with ⟨d, hquote, hd, -⟩ | hquote
  · rw [hquote] at hb
    rw [List.mem_singleton.mp hb]
    exact fun hc => hd (List.mem_cons_of_mem _ hc)
  · have hlt : b.toNat < 256 := b.toNat_lt
    have hhigh := (quoted_digit (b.toNat / 16) (by omega)).2
    have hlow := (quoted_digit (b.toNat % 16) (by omega)).2
    rw [hquote] at hb
    rcases List.mem_cons.mp hb with rfl | hb
    · decide
    rcases List.mem_cons.mp hb with rfl | hb
    · exact fun hc => hhigh (List.mem_cons_of_mem _ hc)
    · rw [List.mem_singleton.mp hb]
      exact fun hc => hlow (List.mem_cons_of_mem _ hc)

/-! ## Links -/

/-- The path of a link, with the key quoted. -/
def linkPath (storageKey : String) : String :=
  "/storage/v1/object/sign/test-evidence/" ++ quote storageKey ++ "?token="

/-- What is returned for an answer that starts with the path ends in what comes after it. -/
theorem link_of_prefix {base storageKey signedPath : String}
    (h : ("/object/sign/test-evidence/" ++ quote storageKey ++ "?token=").toList
      <+: signedPath.toList) :
    ∃ rest, base ++ "/storage/v1" ++ signedPath = base ++ linkPath storageKey ++ rest := by
  obtain ⟨rest, hrest⟩ := h
  have hsigned : signedPath
      = "/object/sign/test-evidence/" ++ quote storageKey ++ "?token=" ++ String.ofList rest := by
    apply String.toList_injective
    rw [String.toList_append, String.toList_ofList, hrest]
  have hroot : "/storage/v1/object/sign/test-evidence/"
      = "/storage/v1" ++ "/object/sign/test-evidence/" := by decide +kernel
  refine ⟨String.ofList rest, ?_⟩
  unfold linkPath
  rw [hsigned, hroot]
  simp only [String.append_assoc]

end TestExchange
