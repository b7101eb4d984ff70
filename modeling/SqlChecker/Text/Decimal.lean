/-! # Decimal numerals

Natural numbers written as a row of decimal digits. Leading zeros do not change the number. -/
namespace SqlChecker.Text

/-- The numeral of a number, without leading zeros. -/
def decimal (n : Nat) : List Char := Nat.toDigits 10 n

/-- The number that a row of digits stands for; none for an empty row or any other character. -/
def ofDecimal? (numeral : List Char) : Option Nat :=
  if numeral ≠ [] ∧ numeral.all Char.isDigit then some (Nat.ofDigitChars 10 numeral 0) else none

/-- The least number that does not fit into 64 bits. -/
def wordBound : Nat := 18446744073709551616

/-- The number that a row of digits stands for, if it fits into 64 bits. -/
def wordOfDecimal? (numeral : List Char) : Option Nat :=
  (ofDecimal? numeral).filter (· < wordBound)

theorem isDigit_of_mem_decimal {n : Nat} {c : Char} (h : c ∈ decimal n) : c.isDigit = true :=
  Nat.isDigit_of_mem_toDigits (by decide) (by decide) h

theorem decimal_ne_nil (n : Nat) : decimal n ≠ [] := Nat.toDigits_ne_nil

/-- Only the numeral of zero begins with a zero. -/
theorem head?_decimal_eq_zero_iff {n : Nat} : (decimal n).head? = some '0' ↔ n = 0 := by
  constructor
  · intro h
    induction n using Nat.strongRecOn with
    | _ n ih =>
      rcases Nat.lt_or_ge n 10 with hlt | hge
      · have hdigit : ∀ n < 10, [Nat.digitChar n].head? = some '0' → n = 0 := by decide
        rw [decimal, Nat.toDigits_of_lt_base hlt] at h
        exact hdigit n hlt h
      -- The first digit is that of a smaller number, which is not zero.
      · obtain ⟨c, cs, hcons⟩ := List.exists_cons_of_ne_nil (decimal_ne_nil (n / 10))
        have happ : decimal n = decimal (n / 10) ++ [Nat.digitChar (n % 10)] :=
          Nat.toDigits_of_base_le (by decide) hge
        rw [happ, hcons] at h
        have hzero := ih (n / 10) (by omega) (by rw [hcons]; exact h)
        omega
  · rintro rfl
    rfl

/-- A numeral is read as the number it was written for. -/
theorem ofDecimal?_decimal (n : Nat) : ofDecimal? (decimal n) = some n := by
  have digits : decimal n ≠ [] ∧ (decimal n).all Char.isDigit :=
    ⟨decimal_ne_nil n, List.all_eq_true.mpr fun _ hc => isDigit_of_mem_decimal hc⟩
  rw [ofDecimal?, if_pos digits, decimal, Nat.ofDigitChars_ten_toDigits]

end SqlChecker.Text
