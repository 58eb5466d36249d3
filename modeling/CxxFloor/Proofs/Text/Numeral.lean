/-
# How numbers are written

A number is written as its decimal digits, behind a sign if it is negative; an
escape writes it in hexadecimal digits.  These are the characters of a number,
and only zero begins with a zero.
-/
import CxxFloor.Text.Quoted

namespace CxxFloor

namespace Text

/-! ## Decimal digits -/

/-- The digits of a number begin with a zero only if there is no other. -/
theorem toDigits_of_head? {n : Nat} (h : (Nat.toDigits 10 n).head? = some '0') :
    Nat.toDigits 10 n = ['0'] := by
  induction n using Nat.strongRecOn with
  | ind n ih =>
      rcases Nat.lt_or_ge n 10 with hn | hn
      · rw [Nat.toDigits_of_lt_base hn] at h ⊢
        simpa using h
      · -- The leading digits would be a zero alone, so the number is no more than one digit.
        rw [Nat.toDigits_of_base_le (by decide) hn, List.head?_append,
          List.head?_eq_some_head Nat.toDigits_ne_nil, Option.some_or,
          ← List.head?_eq_some_head] at h
        have hzero : Nat.ofDigitChars 10 (Nat.toDigits 10 (n / 10)) 0 = 0 := by
          rw [ih (n / 10) (by omega) h]
          rfl
        rw [Nat.ofDigitChars_ten_toDigits] at hzero
        omega

theorem exists_head_toDigits (n : Nat) :
    ∃ c cs, Nat.toDigits 10 n = c :: cs ∧ c.isDigit = true := by
  obtain ⟨c, cs, hc⟩ := List.exists_cons_of_ne_nil (Nat.toDigits_ne_nil (b := 10) (n := n))
  have hmem : c ∈ Nat.toDigits 10 n := hc ▸ List.mem_cons_self
  exact ⟨c, cs, hc, Nat.isDigit_of_mem_toDigits (by decide) (by decide) hmem⟩

theorem toList_ofNat (n : Nat) : (toString (Int.ofNat n)).toList = Nat.toDigits 10 n :=
  String.toList_ofList

theorem toList_negSucc (n : Nat) :
    (toString (Int.negSucc n)).toList = '-' :: Nat.toDigits 10 (n + 1) := by
  change ("-" ++ Nat.repr (n + 1)).toList = _
  rw [String.toList_append]
  exact congrArg (['-'] ++ ·) String.toList_ofList

theorem of_mem_toString {n : Int} {c : Char} (h : c ∈ (toString n).toList) :
    c = '-' ∨ c.isDigit = true := by
  cases n with
  | ofNat n =>
      rw [toList_ofNat] at h
      exact .inr (Nat.isDigit_of_mem_toDigits (by decide) (by decide) h)
  | negSucc n =>
      rw [toList_negSucc] at h
      exact (List.mem_cons.1 h).imp_right (Nat.isDigit_of_mem_toDigits (by decide) (by decide))

theorem exists_head_toString (n : Int) :
    ∃ c cs, (toString n).toList = c :: cs ∧ (c = '-' ∨ c.isDigit = true) := by
  cases n with
  | ofNat n =>
      obtain ⟨c, cs, hc, hdigit⟩ := exists_head_toDigits n
      exact ⟨c, cs, (toList_ofNat n).trans hc, .inr hdigit⟩
  | negSucc n => exact ⟨'-', _, toList_negSucc n, .inl rfl⟩

/-! ## Hexadecimal digits -/

theorem exists_of_mem_hex {width n : Nat} {c : Char} (h : c ∈ hex width n) :
    ∃ d < 16, c = hexDigit d := by
  induction width generalizing n with
  | zero => cases h
  | succ width ih =>
      rcases List.mem_append.1 h with h | h
      · exact ih h
      · exact ⟨n % 16, Nat.mod_lt _ (by decide), List.mem_singleton.1 h⟩

end Text

end CxxFloor
