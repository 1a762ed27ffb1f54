/-
Numerals of natural numbers.

* `Text.length_ofNat_le_iff` — how many digits a number has;
* `Text.ofNat_append_padded` — a numeral with zeros in front is the end of a longer numeral;
* `Integer.value_ofNat` — the numeral of a number spells the number;
* `Integer.ofDigits_ofNat` — and it is read back unless it is too long.
-/
import Mathlib.Tactic.IntervalCases
import Tender.Number.Integer

namespace Tender

namespace Text

theorem isDigit_of_mem_ofNat {n : Nat} {c : Char} (h : c ∈ ofNat n) : c.isDigit = true :=
  Nat.isDigit_of_mem_toDigits (by decide) (by decide) h

/-- The digits of ASCII. -/
def digits : Text := ['0', '1', '2', '3', '4', '5', '6', '7', '8', '9']

theorem mem_digits_of_isDigit {c : Char} (h : c.isDigit = true) : c ∈ digits := by
  rw [Char.isDigit, Bool.and_eq_true, decide_eq_true_iff, decide_eq_true_iff] at h
  have hlow : 48 ≤ c.toNat := h.1
  have hhigh : c.toNat ≤ 57 := h.2
  rw [← Char.ofNat_toNat c]
  generalize c.toNat = n at hlow hhigh
  interval_cases n <;> decide

/-- What is true of the digits is true of the characters of a numeral. -/
theorem of_mem_ofNat {P : Char → Bool} (h : digits.all P = true) {n : Nat} {c : Char}
    (hc : c ∈ ofNat n) : P c = true :=
  List.all_eq_true.1 h c (mem_digits_of_isDigit (isDigit_of_mem_ofNat hc))

theorem ofNat_ne_nil (n : Nat) : ofNat n ≠ [] :=
  Nat.toDigits_ne_nil

theorem length_ofNat_le_iff {n k : Nat} (hk : 0 < k) : (ofNat n).length ≤ k ↔ n < 10 ^ k :=
  Nat.length_toDigits_le_iff (by decide) hk

theorem lt_ten_pow_length (n : Nat) : n < 10 ^ (ofNat n).length :=
  (length_ofNat_le_iff (List.length_pos_iff.2 (ofNat_ne_nil n))).1 (Nat.le_refl _)

theorem ten_pow_length_le {n : Nat} (hn : 0 < n) : 10 ^ ((ofNat n).length - 1) ≤ n := by
  rcases Nat.eq_zero_or_pos ((ofNat n).length - 1) with hone | hpos
  · rw [hone]
    exact hn
  · by_contra hless
    have := (length_ofNat_le_iff hpos).2 (Nat.lt_of_not_le hless)
    omega

theorem ofNat_of_lt_ten {n : Nat} (h : n < 10) : ofNat n = [Nat.digitChar n] :=
  Nat.toDigits_of_lt_base h

theorem ofNat_of_ten_le {n : Nat} (h : 10 ≤ n) :
    ofNat n = ofNat (n / 10) ++ [Nat.digitChar (n % 10)] :=
  Nat.toDigits_of_base_le (by decide) h

/-! ### Numerals with zeros in front -/

@[simp] theorem padded_one (n : Nat) : padded 1 n = ofNat n := by
  have hlength := List.length_pos_iff.2 (ofNat_ne_nil n)
  rw [padded, Nat.sub_eq_zero_of_le hlength, List.replicate_zero, List.nil_append]

/-- The last digit of a numeral stands behind the numeral of the tens. -/
theorem padded_succ {width : Nat} (hwidth : 0 < width) (n : Nat) :
    padded (width + 1) n = padded width (n / 10) ++ [Nat.digitChar (n % 10)] := by
  rcases Nat.lt_or_ge n 10 with hless | hle
  · obtain ⟨zeros, rfl⟩ := Nat.exists_eq_add_of_le' hwidth
    rw [padded, padded, Nat.div_eq_of_lt hless, Nat.mod_eq_of_lt hless, ofNat_of_lt_ten hless,
      ofNat_of_lt_ten (by decide)]
    simp [List.replicate_succ']
  · rw [padded, padded, ofNat_of_ten_le hle]
    simp

theorem isDigit_of_mem_padded {width n : Nat} {c : Char} (h : c ∈ padded width n) :
    c.isDigit = true := by
  rcases List.mem_append.1 h with hzero | hdigit
  · rw [List.eq_of_mem_replicate hzero]
    rfl
  · exact isDigit_of_mem_ofNat hdigit

theorem length_padded {width n : Nat} (hwidth : 0 < width) (h : n < 10 ^ width) :
    (padded width n).length = width := by
  have hlength := (length_ofNat_le_iff hwidth).2 h
  rw [padded, List.length_append, List.length_replicate]
  exact Nat.sub_add_cancel hlength

/-- A numeral with zeros in front is the end of a longer numeral. -/
theorem ofNat_append_padded {width n m : Nat} (hwidth : 0 < width) (hn : 0 < n)
    (hm : m < 10 ^ width) : ofNat n ++ padded width m = ofNat (10 ^ width * n + m) := by
  induction width, hwidth using Nat.le_induction generalizing m with
  | base =>
    rw [padded_one]
    exact Nat.toDigits_append_toDigits (by decide) hn hm
  | succ width hwidth ih =>
    have htens : m / 10 < 10 ^ width := by omega
    have hpos : 0 < 10 ^ width * n := Nat.mul_pos (Nat.pow_pos (by decide)) hn
    rw [padded_succ hwidth, ← List.append_assoc, ih htens,
      ofNat_of_ten_le (n := 10 ^ (width + 1) * n + m) (by rw [Nat.pow_succ', Nat.mul_assoc]; omega)]
    congr 3 <;> rw [Nat.pow_succ', Nat.mul_assoc] <;> omega

/-- The ten digits of ASCII are the first row of digits. -/
theorem decimalValue?_of_isDigit {c : Char} (h : c.isDigit = true) :
    decimalValue? c = some (c.toNat - '0'.toNat) := by
  have hrange : 0x30 ≤ c.toNat ∧ c.toNat < 0x30 + 10 := by
    rw [Char.isDigit, Bool.and_eq_true, decide_eq_true_iff, decide_eq_true_iff] at h
    have hlow : '0'.toNat ≤ c.toNat := h.1
    have hhigh : c.toNat ≤ '9'.toNat := h.2
    exact ⟨hlow, Nat.lt_succ_of_le hhigh⟩
  rw [decimalValue?, zeros, List.findSome?_cons, if_pos hrange]
  rfl

theorem isDecimal_of_isDigit {c : Char} (h : c.isDigit = true) : isDecimal c = true := by
  rw [isDecimal, decimalValue?_of_isDigit h]
  rfl

end Text

namespace Integer

open Text

/-- Digits of ASCII have the value that they have as a numeral. -/
theorem foldl_eq_ofDigitChars {digits : Text} (h : ∀ c ∈ digits, c.isDigit = true) (n : Nat) :
    digits.foldl (fun n c => n * 10 + (decimalValue? c).getD 0) n =
      Nat.ofDigitChars 10 digits n := by
  induction digits generalizing n with
  | nil => rfl
  | cons c digits ih =>
    rw [List.foldl_cons, decimalValue?_of_isDigit (h c List.mem_cons_self),
      ih fun d hd => h d (List.mem_cons_of_mem c hd), Nat.mul_comm]
    rfl

theorem value_ofNat (n : Nat) : value (ofNat n) = n := by
  rw [value, foldl_eq_ofDigitChars fun c hc => isDigit_of_mem_ofNat hc]
  exact Nat.ofDigitChars_ten_toDigits

theorem takeWhile_ofNat (n : Nat) : (ofNat n).takeWhile isDecimal = ofNat n := by
  have hall : ∀ c ∈ ofNat n, isDecimal c = true :=
    fun c hc => isDecimal_of_isDigit (isDigit_of_mem_ofNat hc)
  simpa using @List.takeWhile_append_of_pos _ isDecimal (ofNat n) [] hall

/-- A numeral that is not too long is read back as its number. -/
theorem ofDigits_ofNat {n : Nat} (h : n < 10 ^ maxDigits) : ofDigits (ofNat n) = .ok n := by
  have hlength : (ofNat n).length ≤ maxDigits := (length_ofNat_le_iff (by decide)).2 h
  rw [ofDigits]
  simp only [takeWhile_ofNat]
  rw [if_neg (Nat.not_lt.2 hlength), if_neg (Nat.lt_irrefl _), value_ofNat]

/-- A numeral that is too long is refused. -/
theorem ofDigits_ofNat_of_le {n : Nat} (h : 10 ^ maxDigits ≤ n) :
    ofDigits (ofNat n) = .error (.tooManyDigits (ofNat n).length) := by
  have hlength : maxDigits < (ofNat n).length :=
    Nat.lt_of_not_le fun hle => Nat.not_lt.2 h ((length_ofNat_le_iff (by decide)).1 hle)
  rw [ofDigits]
  simp only [takeWhile_ofNat]
  exact if_pos hlength

end Integer

end Tender
