import TestExchange.Model.Common

/-!
# Idempotency keys

A key `scope:id:purpose` says what it is about: the text of an identifier has a
fixed shape and no colon in it, so the three parts can be read back from the
key, and what has different parts has different keys.
-/

namespace TestExchange

theorem length_hexDigits (width n : Nat) : (hexDigits width n).length = width := by
  induction width generalizing n with
  | zero => rfl
  | succ width ih => rw [hexDigits, List.length_append, ih]; rfl

theorem digitChar_inj : ∀ a < 16, ∀ b < 16, Nat.digitChar a = Nat.digitChar b → a = b := by decide

theorem hexDigits_inj {width n m : Nat} (h : hexDigits width n = hexDigits width m) :
    n % 16 ^ width = m % 16 ^ width := by
  induction width generalizing n m with
  | zero => omega
  | succ width ih =>
      obtain ⟨hinit, hlast⟩ := List.append_inj' h rfl
      have hdigit := digitChar_inj (n % 16) (by omega) (m % 16) (by omega) (List.cons.inj hlast).1
      have hrest := ih hinit
      rw [Nat.pow_succ', Nat.mod_mul, Nat.mod_mul, hdigit, hrest]

/-- A quotient is known from the next one and the digits between them. -/
theorem div_pow_inj {n m k width : Nat} (hdiv : n / 16 ^ (k + width) = m / 16 ^ (k + width))
    (hdigits : hexDigits width (n / 16 ^ k) = hexDigits width (m / 16 ^ k)) :
    n / 16 ^ k = m / 16 ^ k := by
  rw [Nat.pow_add, ← Nat.div_div_eq_div_mul, ← Nat.div_div_eq_div_mul] at hdiv
  rw [← Nat.div_add_mod (n / 16 ^ k) (16 ^ width), ← Nat.div_add_mod (m / 16 ^ k) (16 ^ width),
    hdiv, hexDigits_inj hdigits]

theorem Uuid.str_inj {u v : Uuid} (h : Uuid.str u = Uuid.str v) : u = v := by
  have hlist := String.ofList_injective h
  have h₀ : u / 16 ^ 32 = v / 16 ^ 32 := by
    have hlength := congrArg List.length hlist
    simpa [length_hexDigits] using hlength
  rw [h₀] at hlist
  have hrest := List.append_cancel_left hlist
  -- the five groups of digits, from the most significant one
  obtain ⟨h₁, hrest⟩ := List.append_inj hrest (by simp [length_hexDigits])
  obtain ⟨h₂, hrest⟩ := List.append_inj (List.cons.inj hrest).2 (by simp [length_hexDigits])
  obtain ⟨h₃, hrest⟩ := List.append_inj (List.cons.inj hrest).2 (by simp [length_hexDigits])
  obtain ⟨h₄, hrest⟩ := List.append_inj (List.cons.inj hrest).2 (by simp [length_hexDigits])
  have h₁ := div_pow_inj (k := 24) h₀ h₁
  have h₂ := div_pow_inj (k := 20) h₁ h₂
  have h₃ := div_pow_inj (k := 16) h₂ h₃
  have h₄ := div_pow_inj (k := 12) h₃ h₄
  have h₅ := @div_pow_inj u v 0 12 h₄ (by simpa using (List.cons.inj hrest).2)
  simpa using h₅

theorem toList_idempotencyKey {scope purpose : String} {id : Uuid} :
    (idempotencyKey scope id purpose).toList
      = scope.toList ++ ":".toList ++ (Uuid.str id).toList ++ ":".toList ++ purpose.toList := by
  simp only [idempotencyKey, toString, String.toList_append]

theorem idempotencyKey_inj {scope purpose : String} {i j : Uuid}
    (h : idempotencyKey scope i purpose = idempotencyKey scope j purpose) : i = j := by
  have hlist := congrArg String.toList h
  rw [toList_idempotencyKey, toList_idempotencyKey] at hlist
  have hmid := List.append_cancel_right (List.append_cancel_right hlist)
  exact Uuid.str_inj (String.toList_injective (List.append_cancel_left hmid))

theorem idempotencyKey_ne {scope scope' purpose purpose' : String} {i j : Uuid}
    (h : (scope.toList ++ ":".toList).head? ≠ (scope'.toList ++ ":".toList).head?) :
    idempotencyKey scope i purpose ≠ idempotencyKey scope' j purpose' := by
  have hhead : ∀ (scope purpose : String) (i : Uuid), (idempotencyKey scope i purpose).toList.head?
      = (scope.toList ++ ":".toList).head? := by
    intro scope purpose i
    rw [toList_idempotencyKey, List.append_assoc, List.append_assoc (scope.toList ++ _)]
    exact List.head?_append_of_ne_nil _ (by simp)
  intro heq
  rw [← hhead scope purpose i, ← hhead scope' purpose' j, heq] at h
  exact h rfl

/-! ## Reading a key back -/

theorem digitChar_ne_colon : ∀ a < 16, Nat.digitChar a ≠ ':' := by decide

theorem colon_notMem_hexDigits {width n : Nat} : ':' ∉ hexDigits width n := by
  induction width generalizing n with
  | zero => exact List.not_mem_nil
  | succ width ih =>
      intro h
      rcases List.mem_append.mp h with h | h
      · exact ih h
      · have hdigit := List.mem_singleton.mp h
        exact digitChar_ne_colon (n % 16) (by omega) hdigit.symm

theorem colon_notMem_str {id : Uuid} : ':' ∉ (Uuid.str id).toList := by
  simp [Uuid.str, colon_notMem_hexDigits]

/-- A list is known up to the first occurrence of a separator. -/
theorem separated_inj {α : Type} {sep : α} {l m r s : List α} (hl : sep ∉ l) (hm : sep ∉ m)
    (h : l ++ sep :: r = m ++ sep :: s) : l = m ∧ r = s := by
  induction l generalizing m with
  | nil =>
      cases m with
      | nil => exact ⟨rfl, (List.cons.inj h).2⟩
      | cons b m => exact absurd ((List.cons.inj h).1 ▸ List.mem_cons_self) hm
  | cons a l ih =>
      cases m with
      | nil => exact absurd ((List.cons.inj h).1 ▸ List.mem_cons_self) hl
      | cons b m =>
          obtain ⟨hab, hrest⟩ := List.cons.inj h
          obtain ⟨hlm, hrs⟩ := ih (fun hc => hl (List.mem_cons_of_mem _ hc))
            (fun hc => hm (List.mem_cons_of_mem _ hc)) hrest
          exact ⟨by rw [hab, hlm], hrs⟩

/-- **The three parts of a key are determined by it**, as long as no scope has a colon in it. -/
theorem idempotencyKey_parts {scope scope' purpose purpose' : String} {i j : Uuid}
    (hs : ':' ∉ scope.toList) (hs' : ':' ∉ scope'.toList)
    (h : idempotencyKey scope i purpose = idempotencyKey scope' j purpose') :
    scope = scope' ∧ i = j ∧ purpose = purpose' := by
  have hlist := congrArg String.toList h
  rw [toList_idempotencyKey, toList_idempotencyKey] at hlist
  have hcolon : ":".toList = [':'] := rfl
  simp only [hcolon, List.append_assoc, List.cons_append, List.nil_append] at hlist
  obtain ⟨hscope, hrest⟩ := separated_inj hs hs' hlist
  obtain ⟨hid, hpurpose⟩ := separated_inj colon_notMem_str colon_notMem_str hrest
  exact ⟨String.toList_injective hscope, Uuid.str_inj (String.toList_injective hid),
    String.toList_injective hpurpose⟩

end TestExchange
