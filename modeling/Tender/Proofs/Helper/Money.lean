/-
Amounts of money: which numbers can be written as one.

* `Amount.roundCents_eq` — half a cent counts as a whole;
* `Amount.abs_roundCents_sub_le` — no more than half a cent is lost or won;
* `Amount.roundCents_lt_iff` — the cents of a number have no more than 28 digits exactly if the number
  is below `10 ^ 26`;
* `Amount.exists_format_iff`, `Amount.format_finite`, `Amount.format_of_not_finite` — what the helper
  makes of a number.
-/
import Mathlib.Algebra.Order.Floor.Semifield
import Mathlib.Data.Rat.Floor
import Tender.Helper.Amount
import Tender.Proofs.Number.Shortest

namespace Tender

open Binary64

/-! ### Cents -/

namespace Amount

/-- Half a cent counts as a whole. -/
theorem roundCents_eq (n : Numeral) :
    roundCents n.digits n.exponent = ⌊100 * n.value + 1 / 2⌋₊ := by
  obtain ⟨digits, exponent⟩ := n
  simp only [roundCents, Numeral.value]
  generalize hplaces : exponent + 2 = places
  obtain rfl : exponent = places - 2 := by omega
  have hvalue : (100 * (digits * 10 ^ (places - 2)) : ℚ) = digits * 10 ^ places := by
    rw [zpow_sub₀ (by norm_num)]
    field_simp
    ring
  rw [hvalue, eq_comm]
  cases places with
  | ofNat e =>
    rw [Nat.floor_eq_iff (by positivity)]
    simp
    norm_num
  | negSucc e =>
    have hpos : (10 ^ (e + 1) : ℚ) ≠ 0 := by positivity
    have hquotient : (digits * 10 ^ Int.negSucc e + 1 / 2 : ℚ) =
        ((2 * digits + 10 ^ (e + 1) : ℕ) : ℚ) / ((2 * 10 ^ (e + 1) : ℕ) : ℚ) := by
      rw [zpow_negSucc]
      push_cast
      field_simp
    rw [hquotient, Nat.floor_div_eq_div]
    rfl

/-- No more than half a cent is lost or won. -/
theorem abs_roundCents_sub_le (n : Numeral) :
    |(roundCents n.digits n.exponent : ℚ) - 100 * n.value| ≤ 1 / 2 := by
  have hnonneg : 0 ≤ n.value := by
    unfold Numeral.value
    positivity
  rw [roundCents_eq, abs_le]
  have hlow : (⌊100 * n.value + 1 / 2⌋₊ : ℚ) ≤ 100 * n.value + 1 / 2 := Nat.floor_le (by positivity)
  have hhigh : 100 * n.value + 1 / 2 < ⌊100 * n.value + 1 / 2⌋₊ + 1 := Nat.lt_floor_add_one _
  constructor <;> linarith

/-- The least rank of a number that is too long to be written as an amount. -/
def rankLimit : Nat := nearestRank (Nat.pow 10 26) 1

/-- The middle of the two ranks around `10 ^ 26` is below by more than one. -/
theorem units_rankLimit :
    units (rankLimit - 1) + units rankLimit + 2 * unitsPerOne < 2 * (10 ^ 26 * unitsPerOne) ∧
      10 ^ 26 * unitsPerOne ≤ units rankLimit := by
  decide +kernel

theorem shortest_rankLimit : shortest rankLimit = ⟨1, 26⟩ := by
  decide +kernel

/-- The cents of a number can be written exactly if the number is below `10 ^ 26`. -/
theorem roundCents_lt_iff (rank : Nat) :
    roundCents (shortest rank).digits (shortest rank).exponent < centsLimit ↔
      units rank < 10 ^ 26 * unitsPerOne := by
  have hone : (0 : ℚ) < unitsPerOne := by exact_mod_cast unitsPerOne_pos
  have hlimit : centsLimit = 10 ^ 28 := rfl
  obtain ⟨hbelow, habove⟩ := units_rankLimit
  have hcents := abs_le.1 (abs_roundCents_sub_le (shortest rank))
  obtain rfl | hpos := Nat.eq_zero_or_pos rank
  · have hzero : roundCents (shortest 0).digits (shortest 0).exponent = 0 := rfl
    rw [hzero, units_zero]
    exact iff_of_true (Nat.pow_pos (by decide))
      (Nat.mul_pos (Nat.pow_pos (by decide)) unitsPerOne_pos)
  obtain hlt | heq | hgt := Nat.lt_trichotomy rank rankLimit
  · -- the numeral is below the middle of the two ranks around `10 ^ 26`
    have hself := units_le_units (Nat.le_sub_one_of_lt hlt)
    have hnext : units (rank + 1) ≤ units rankLimit := units_le_units hlt
    refine iff_of_true ?_ (by omega)
    have hmiddle := value_shortest_le hpos
    have hsum : (units rank + units (rank + 1) + 2 * unitsPerOne : ℚ) <
        2 * (10 ^ 26 * unitsPerOne) := by
      exact_mod_cast (show units rank + units (rank + 1) + 2 * unitsPerOne <
        2 * (10 ^ 26 * unitsPerOne) by omega)
    have hvalue : (shortest rank).value + 1 < 10 ^ 26 := by
      refine lt_of_mul_lt_mul_right ?_ hone.le
      linarith
    rw [hlimit]
    have : (roundCents (shortest rank).digits (shortest rank).exponent : ℚ) < 10 ^ 28 := by
      linarith [hcents.2]
    exact_mod_cast this
  · rw [heq, shortest_rankLimit]
    exact iff_of_false (by decide) (Nat.not_lt.2 habove)
  · have hself : units rankLimit ≤ units (rank - 1) := units_le_units (Nat.le_sub_one_of_lt hgt)
    have hnext := units_le_units (Nat.le_of_lt hgt)
    refine iff_of_false ?_ (Nat.not_lt.2 (habove.trans hnext))
    have hmiddle := le_value_shortest hpos
    have hsum : (2 * (10 ^ 26 * unitsPerOne) : ℚ) ≤ units (rank - 1) + units rank := by
      exact_mod_cast (show 2 * (10 ^ 26 * unitsPerOne) ≤ units (rank - 1) + units rank by omega)
    have hvalue : 10 ^ 26 ≤ (shortest rank).value := by
      refine le_of_mul_le_mul_right ?_ hone
      linarith
    rw [hlimit, Nat.not_lt]
    have : (10 ^ 28 - 1 : ℚ) < roundCents (shortest rank).digits (shortest rank).exponent := by
      linarith [hcents.1]
    have : (10 ^ 28 : ℚ) < roundCents (shortest rank).digits (shortest rank).exponent + 1 := by
      linarith
    exact Nat.lt_succ_iff.1 (by exact_mod_cast this)

/-! ### Numbers as amounts -/

/-- A number below `10 ^ 26`, or one that is not finite. -/
def Fits (x : Binary64) : Prop :=
  ∀ r, x.toRat? = some r → |r| < 10 ^ 26

theorem fits_finite_iff {negative : Bool} {rank : Fin ranks} :
    Fits (.finite negative rank) ↔ units rank < 10 ^ 26 * unitsPerOne := by
  have hone : (0 : ℚ) < unitsPerOne := by exact_mod_cast unitsPerOne_pos
  have habs : |mkRat (signedUnits negative rank) unitsPerOne| = (units rank / unitsPerOne : ℚ) :=
    abs_eq_of_toRat? rfl
  simp only [Fits, toRat?, Option.some.injEq, forall_eq', habs]
  rw [div_lt_iff₀ hone]
  exact_mod_cast Iff.rfl

/-- What is written begins with the currency symbol, or with a sign and the symbol. -/
def Marked (symbol s : Text) : Prop :=
  symbol <+: s ∨ '-' :: symbol <+: s

theorem marked_write (symbol : Text) (negative : Bool) (cents : Nat) :
    Marked symbol (write symbol negative cents) := by
  rw [write, List.append_assoc, List.append_assoc]
  split
  · exact .inr (List.prefix_append _ _)
  · exact .inl (List.prefix_append _ _)

/-- A finite number is written with the currency symbol if it is not too long, and makes decimal
arithmetic fail if it is. -/
theorem format_finite (symbol : Text) (negative : Bool) (rank : Fin ranks) :
    (Fits (.finite negative rank) ∧ ∃ s, Marked symbol s ∧
      format (.value (.float (.finite negative rank))) symbol = .ok (.value (.text s))) ∨
    (¬ Fits (.finite negative rank) ∧
      format (.value (.float (.finite negative rank))) symbol = .error .invalidOperation) := by
  have hformat : format (.value (.float (.finite negative rank))) symbol =
      (writeNumber symbol negative rank).map fun s => .value (.text s) := by
    show (do return .value (.text (← writeNumber symbol negative rank)) : Except Fault Outcome) = _
    cases writeNumber symbol negative rank <;> rfl
  rw [hformat, fits_finite_iff, ← roundCents_lt_iff, writeNumber]
  by_cases hcents : roundCents (shortest rank).digits (shortest rank).exponent < centsLimit
  · exact .inl ⟨hcents, _, marked_write _ _ _, by simp only [if_pos hcents]; rfl⟩
  · exact .inr ⟨hcents, by simp only [if_neg hcents]; rfl⟩

/-- A number that is not finite stays a number. -/
theorem format_of_not_finite {x : Binary64} (hx : x.isFinite = false) (symbol : Text) :
    format (.value (.float x)) symbol = .ok (.value (.float x)) := by
  cases x with
  | nan => rfl
  | infinite => rfl
  | finite negative rank => cases hx

end Amount

end Tender
