/-
Rows of decimal digits and decimal numbers.

* `Decimal.digitsValue_append` — the value of a row of digits from the values of its parts;
* `Decimal.digitsValue_padded` — zeros in front of a numeral do not count;
* `Decimal.exists_of_toRat?` — a decimal number with a value is a numeral with a sign.
-/
import Tender.Number.Decimal
import Tender.Proofs.Number.Exact

namespace Tender

namespace Decimal

open Text Binary64

/-! ### Rows of digits -/

theorem digitsValue_eq_ofDigitChars (s : Text) : digitsValue s = Nat.ofDigitChars 10 s 0 := by
  simp only [digitsValue, Nat.ofDigitChars, Nat.mul_comm 10]

theorem digitsValue_append (s t : Text) :
    digitsValue (s ++ t) = 10 ^ t.length * digitsValue s + digitsValue t := by
  simp only [digitsValue_eq_ofDigitChars]
  rw [Nat.ofDigitChars_append, Nat.ofDigitChars_eq_ofDigitChars_zero]

@[simp] theorem digitsValue_ofNat (n : Nat) : digitsValue (ofNat n) = n := by
  rw [digitsValue_eq_ofDigitChars]
  exact Nat.ofDigitChars_ten_toDigits

@[simp] theorem digitsValue_zeros (count : Nat) : digitsValue (List.replicate count '0') = 0 := by
  induction count with
  | zero => rfl
  | succ count ih => exact ih

/-- Zeros in front of a numeral do not count. -/
@[simp] theorem digitsValue_padded (width n : Nat) : digitsValue (padded width n) = n := by
  rw [padded, digitsValue_append, digitsValue_zeros, digitsValue_ofNat, Nat.mul_zero, Nat.zero_add]

theorem digit_lt_ten {c : Char} (h : c.isDigit = true) : c.toNat - '0'.toNat < 10 := by
  have hall : digits.all (fun d => d.toNat - '0'.toNat < 10) = true := by decide
  exact of_decide_eq_true (List.all_eq_true.1 hall c (mem_digits_of_isDigit h))

theorem digitsValue_lt {s : Text} (h : ∀ c ∈ s, c.isDigit = true) :
    digitsValue s < 10 ^ s.length := by
  induction s with
  | nil => exact Nat.one_pos
  | cons c s ih =>
    have hhead : digitsValue [c] = c.toNat - '0'.toNat := Nat.zero_add _
    have hdigit := digit_lt_ten (h c List.mem_cons_self)
    have hrest := ih fun d hd => h d (List.mem_cons_of_mem c hd)
    have hscaled := Nat.mul_le_mul_left (10 ^ s.length) (Nat.le_of_lt_succ hdigit)
    rw [show c :: s = [c] ++ s from rfl, digitsValue_append, hhead, List.length_append,
      List.length_singleton, Nat.add_comm 1, Nat.pow_succ]
    omega

/-- Only zeros have the value zero. -/
theorem eq_zero_of_digitsValue {s : Text} (h : ∀ c ∈ s, c.isDigit = true)
    (hvalue : digitsValue s = 0) {c : Char} (hc : c ∈ s) : c = '0' := by
  obtain ⟨before, after, rfl⟩ := List.append_of_mem hc
  have hdigit : c.toNat - '0'.toNat = 0 := by
    have hhead : digitsValue [c] = c.toNat - '0'.toNat := Nat.zero_add _
    have hpos : 0 < 10 ^ after.length := Nat.pow_pos (by decide)
    rw [show c :: after = [c] ++ after from rfl, digitsValue_append, digitsValue_append, hhead] at hvalue
    have hproduct : 10 ^ after.length * (c.toNat - '0'.toNat) = 0 := by omega
    exact (Nat.mul_eq_zero.1 hproduct).resolve_left hpos.ne'
  have hall : digits.all (fun d => d.toNat - '0'.toNat = 0 → d = '0') = true := by decide
  exact of_decide_eq_true (List.all_eq_true.1 hall c (mem_digits_of_isDigit (h c hc))) hdigit

/-! ### Decimal numbers -/

/-- A decimal number with a value is a numeral with a sign. -/
theorem exists_of_toRat? {d : Decimal} {a : ℚ} (h : d.toRat? = some a) :
    ∃ negative coefficient exponent, d = .finite negative coefficient exponent ∧
      Numeral.signed negative ⟨coefficient, exponent⟩ = a := by
  cases d with
  | finite negative coefficient exponent =>
    refine ⟨negative, coefficient, exponent, rfl, ?_⟩
    cases exponent with
    | ofNat e =>
      obtain rfl := Option.some.inj h
      cases negative <;> simp [Numeral.signed, Numeral.value, Rat.mkRat_eq_div]
    | negSucc e =>
      obtain rfl := Option.some.inj h
      cases negative <;>
        simp [Numeral.signed, Numeral.value, Rat.mkRat_eq_div, zpow_negSucc, div_eq_mul_inv]
  | infinite => cases h
  | nan => cases h

end Decimal

end Tender
