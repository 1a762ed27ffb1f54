/-
The shortest numeral of a binary64 number.

* `Binary64.ten_pow_decade_le` — a number is no smaller than the power of ten of its first digit;
* `Binary64.readsBack_of_near` — a numeral that is near to a number is read back as that number;
* `Binary64.exists_candidate` — so seventeen digits are enough for every number;
* `Binary64.value_shortest_le`, `Binary64.le_value_shortest` — the shortest numeral is no further from
  its number than half the way to the numbers beside it.
-/
import Mathlib.Algebra.Order.Field.Power
import Mathlib.Data.Nat.Cast.Order.Field
import Mathlib.Data.Rat.Cast.Order
import Mathlib.Tactic.FieldSimp
import Mathlib.Tactic.NormNum
import Tender.Number.Shortest
import Tender.Proofs.Number.Integer
import Tender.Proofs.Number.Nearest

namespace Tender.Binary64

/-- The value of a numeral. -/
def Numeral.value (n : Numeral) : ℚ :=
  n.digits * 10 ^ n.exponent

/-! ### Numerals that are read back -/

/-- A numeral is the quotient that is rounded where it is read back. -/
theorem Numeral.exists_quotient (n : Numeral) : ∃ num den : Nat, 0 < den ∧
    n.value = num / den ∧ ∀ rank, readsBack rank n = true ↔ nearestRank num den = rank := by
  obtain ⟨digits, exponent⟩ := n
  cases exponent with
  | ofNat e =>
    refine ⟨digits * 10 ^ e, 1, Nat.one_pos, ?_, fun rank => beq_iff_eq⟩
    simp [value]
  | negSucc e =>
    refine ⟨digits, 10 ^ (e + 1), Nat.pow_pos (by decide), ?_, fun rank => beq_iff_eq⟩
    simp [value, zpow_negSucc, div_eq_mul_inv]

variable {rank : Nat} {n : Numeral}

/-- A numeral that is read back is no further below its number than half the way to the number
before. -/
theorem le_value_of_readsBack (h : readsBack rank n = true) :
    (units (rank - 1) + units rank : ℚ) ≤ 2 * (n.value * unitsPerOne) := by
  obtain ⟨num, den, hden, hvalue, hback⟩ := n.exists_quotient
  have hle := nearestRank_le num hden
  rw [(hback rank).1 h] at hle
  have hle : ((units (rank - 1) + units rank) * den : ℚ) ≤ 2 * (num * unitsPerOne) := by
    exact_mod_cast hle
  have hpos : (0 : ℚ) < den := by exact_mod_cast hden
  rw [hvalue, div_mul_eq_mul_div, ← mul_div_assoc, le_div_iff₀ hpos]
  exact hle

/-- A numeral that is read back is no further above its number than half the way to the next. -/
theorem value_le_of_readsBack (h : readsBack rank n = true) :
    2 * (n.value * unitsPerOne) ≤ (units rank + units (rank + 1) : ℚ) := by
  obtain ⟨num, den, hden, hvalue, hback⟩ := n.exists_quotient
  have hle := le_nearestRank num hden
  rw [(hback rank).1 h] at hle
  have hle : (2 * (num * unitsPerOne) : ℚ) ≤ (units rank + units (rank + 1)) * den := by
    exact_mod_cast hle
  have hpos : (0 : ℚ) < den := by exact_mod_cast hden
  rw [hvalue, div_mul_eq_mul_div, ← mul_div_assoc, div_le_iff₀ hpos]
  exact hle

/-- A numeral that is near to a number is read back as it. -/
theorem readsBack_of_near (h : 2 ^ 54 * |n.value * unitsPerOne - units rank| < units rank) :
    readsBack rank n = true := by
  obtain ⟨num, den, hden, hvalue, hback⟩ := n.exists_quotient
  have hpos : (0 : ℚ) < den := by exact_mod_cast hden
  have hscaled : (num * unitsPerOne : ℚ) = n.value * unitsPerOne * den := by
    rw [hvalue]
    field_simp
  obtain ⟨hbelow, habove⟩ := abs_lt.1 (show |n.value * unitsPerOne - units rank| <
    units rank / 2 ^ 54 by rw [lt_div_iff₀ (by positivity)]; linarith)
  refine (hback rank).2 (nearestRank_eq_of_near hden ?_ ?_)
  · rcases rank with _ | rank
    · exact .inl rfl
    right
    have hstep : (units (rank + 1) + 2 ^ 53 * units rank : ℚ) ≤ 2 ^ 53 * units (rank + 1) := by
      exact_mod_cast units_succ_le rank
    have hmiddle : (units rank + units (rank + 1) : ℚ) < 2 * (n.value * unitsPerOne) := by
      linarith
    have hlt := mul_lt_mul_of_pos_right hmiddle hpos
    rw [mul_assoc, ← hscaled] at hlt
    exact_mod_cast hlt
  · have hstep : (units (rank + 1) + 2 ^ 53 * units rank : ℚ) ≤ 2 ^ 53 * units (rank + 1) := by
      exact_mod_cast units_succ_le rank
    have hless : (units rank : ℚ) < units (rank + 1) := by
      exact_mod_cast units_lt_units (Nat.lt_succ_self rank)
    have hmiddle : 2 * (n.value * unitsPerOne) < (units rank + units (rank + 1) : ℚ) := by
      linarith
    have hlt := mul_lt_mul_of_pos_right hmiddle hpos
    rw [mul_assoc, ← hscaled] at hlt
    exact_mod_cast hlt

/-! ### Seventeen digits -/

/-- A number is no smaller than the power of ten that its first digit stands for. -/
theorem ten_pow_decade_le {num den : Nat} (hnum : 0 < num) (hden : 0 < den) :
    (10 : ℚ) ^ decade num den ≤ num / den := by
  have hnum' : (0 : ℚ) < num := by exact_mod_cast hnum
  have hden' : (0 : ℚ) < den := by exact_mod_cast hden
  unfold decade
  split
  · rename_i hle
    -- the whole part has as many digits as the numeral says
    have hdigits := Text.ten_pow_length_le (Nat.div_pos hle hden)
    obtain ⟨k, hk⟩ := Nat.exists_eq_add_of_le'
      (List.length_pos_iff.2 (Text.ofNat_ne_nil (num / den)))
    rw [hk, Nat.add_sub_cancel] at hdigits
    rw [hk, Nat.cast_add, Nat.cast_one, add_sub_cancel_right, zpow_natCast, le_div_iff₀ hden']
    exact_mod_cast (Nat.le_div_iff_mul_le hden).1 hdigits
  · rename_i hless
    have hless : num < den := Nat.lt_of_not_le hless
    have hdigits := Text.lt_ten_pow_length ((den + num - 1) / num - 1)
    generalize (Text.ofNat ((den + num - 1) / num - 1)).length = k at hdigits ⊢
    -- the other quotient is rounded up, so it is no larger than the power
    have hround : den ≤ 10 ^ k * num := by
      have hlt : den + num - 1 < (10 ^ k + 1) * num :=
        (Nat.div_lt_iff_lt_mul hnum).1 (by omega)
      rw [Nat.add_mul] at hlt
      omega
    rw [zpow_neg, zpow_natCast, le_div_iff₀ hden', inv_mul_le_iff₀ (by positivity)]
    exact_mod_cast hround

/-- A quotient over a power of ten. -/
theorem scaleBy_div (num : Nat) {den : Nat} (hden : 0 < den) (exponent : Int) :
    0 < (scaleBy num den exponent).2 ∧
      ((scaleBy num den exponent).1 / (scaleBy num den exponent).2 : ℚ) =
        num / den / 10 ^ exponent := by
  cases exponent with
  | ofNat e =>
    refine ⟨Nat.mul_pos hden (Nat.pow_pos (by decide)), ?_⟩
    simp [scaleBy, div_div]
  | negSucc e =>
    refine ⟨hden, ?_⟩
    simp [scaleBy, zpow_negSucc, mul_div_right_comm]

/-- The multiples around a number are next to each other, and the number lies between them. -/
theorem exists_neighbours (rank : Nat) (exponent : Int) : ∃ d : ℕ,
    neighbours rank exponent = (⟨d, exponent⟩, ⟨d + 1, exponent⟩) ∧
      d * 10 ^ exponent ≤ (units rank / unitsPerOne : ℚ) ∧
      (units rank / unitsPerOne : ℚ) < (d + 1) * 10 ^ exponent := by
  obtain ⟨hden, hdiv⟩ := scaleBy_div (units rank) unitsPerOne_pos exponent
  have hpower : (0 : ℚ) < 10 ^ exponent := by positivity
  rw [neighbours]
  generalize scaleBy (units rank) unitsPerOne exponent = q at hden hdiv ⊢
  obtain ⟨num, den⟩ := q
  have hden' : (0 : ℚ) < den := by exact_mod_cast hden
  have hfloor : ((num / den : ℕ) : ℚ) ≤ num / den := Nat.cast_div_le
  have hceil : (num / den : ℚ) < (num / den : ℕ) + 1 := by
    rw [div_lt_iff₀ hden']
    exact_mod_cast Nat.lt_mul_of_div_lt (Nat.lt_succ_self _) hden
  refine ⟨num / den, rfl, ?_, ?_⟩
  · rw [← le_div_iff₀ hpower, ← hdiv]
    exact hfloor
  · rw [← div_lt_iff₀ hpower, ← hdiv]
    exact hceil

/-- One of the multiples around a number is no further from it than half of the power. -/
theorem neighbours_near (rank : Nat) (exponent : Int) :
    |(neighbours rank exponent).1.value - units rank / unitsPerOne| ≤ 10 ^ exponent / 2 ∨
      |(neighbours rank exponent).2.value - units rank / unitsPerOne| ≤ 10 ^ exponent / 2 := by
  obtain ⟨d, hneighbours, hlow, hhigh⟩ := exists_neighbours rank exponent
  rw [hneighbours]
  simp only [Numeral.value, abs_le]
  push_cast
  generalize (units rank / unitsPerOne : ℚ) = x at hlow hhigh ⊢
  obtain h | h := le_total (x - d * 10 ^ exponent) (10 ^ exponent / 2)
  · exact .inl ⟨by linarith, by linarith⟩
  · exact .inr ⟨by linarith, by linarith⟩

theorem candidate?_isSome {exponent : Int}
    (h : readsBack rank (neighbours rank exponent).1 = true ∨
      readsBack rank (neighbours rank exponent).2 = true) :
    (candidate? rank exponent).isSome = true := by
  rw [candidate?]
  generalize neighbours rank exponent = q at h ⊢
  obtain ⟨low, high⟩ := q
  simp only at h ⊢
  cases hlow : readsBack rank low <;> cases hhigh : readsBack rank high <;>
    cases lowerIsNearer rank exponent <;> simp_all

/-- Seventeen digits are enough. -/
theorem exists_candidate (hrank : 0 < rank) :
    (candidate? rank (decade (units rank) unitsPerOne - 16)).isSome = true := by
  have hunits : 0 < units rank := by simpa using units_lt_units hrank
  have hunits' : (0 : ℚ) < units rank := by exact_mod_cast hunits
  have hone : (0 : ℚ) < unitsPerOne := by exact_mod_cast unitsPerOne_pos
  have hdecade := ten_pow_decade_le hunits unitsPerOne_pos
  generalize decade (units rank) unitsPerOne = top at hdecade ⊢
  have hpower : (10 : ℚ) ^ (top - 16) = 10 ^ top / 10 ^ 16 := by
    rw [zpow_sub₀ (by norm_num)]
    rfl
  have hnear {n : Numeral} (h : |n.value - units rank / unitsPerOne| ≤ 10 ^ (top - 16) / 2) :
      readsBack rank n = true := by
    refine readsBack_of_near ?_
    have hscaled : n.value * unitsPerOne - units rank =
        (n.value - units rank / unitsPerOne) * unitsPerOne := by
      field_simp
    rw [hscaled, abs_mul, abs_of_pos hone]
    have hgrid : |n.value - units rank / unitsPerOne| ≤ units rank / unitsPerOne / 10 ^ 16 / 2 := by
      refine h.trans ?_
      rw [hpower]
      gcongr
    calc (2 : ℚ) ^ 54 * (|n.value - units rank / unitsPerOne| * unitsPerOne)
        ≤ 2 ^ 54 * (units rank / unitsPerOne / 10 ^ 16 / 2 * unitsPerOne) := by
          gcongr
      _ = 2 ^ 53 / 10 ^ 16 * (units rank : ℚ) := by
          field_simp
      _ < (units rank : ℚ) := by
          have : (2 : ℚ) ^ 53 / 10 ^ 16 < 1 := by norm_num
          nlinarith
  exact candidate?_isSome ((neighbours_near rank (top - 16)).imp hnear hnear)

/-! ### The shortest numeral -/

theorem Numeral.value_trim (fuel : Nat) (n : Numeral) : (n.trim fuel).value = n.value := by
  induction fuel generalizing n with
  | zero => rfl
  | succ fuel ih =>
    rw [trim]
    split
    · rename_i hzero
      obtain ⟨digits, exponent⟩ := n
      obtain ⟨d, rfl⟩ := Nat.dvd_of_mod_eq_zero hzero.1
      rw [ih, value, value, Nat.mul_div_cancel_left d (by decide), zpow_add_one₀ (by norm_num)]
      push_cast
      ring
    · rfl

/-- The shortest numeral has the value of the first candidate, the one with the fewest digits. -/
theorem exists_first (hrank : 0 < rank) {k : ℕ} (hk : k < 17)
    (hsome : (candidate? rank (decade (units rank) unitsPerOne - k)).isSome = true) :
    ∃ j ≤ k, ∃ n, candidate? rank (decade (units rank) unitsPerOne - j) = some n ∧
      (shortest rank).value = n.value := by
  rw [shortest, if_neg hrank.ne']
  generalize decade (units rank) unitsPerOne = top at hsome ⊢
  have hfound : ((List.range 17).findSome? fun (n : Nat) =>
      candidate? rank (top - (n : Int))).isSome = true :=
    List.findSome?_isSome_iff.2 ⟨k, List.mem_range.2 hk, hsome⟩
  obtain ⟨n, hn⟩ := Option.isSome_iff_exists.1 hfound
  obtain ⟨before, j, after, hrange, hj, hnone⟩ := List.findSome?_eq_some_iff.1 hn
  refine ⟨j, ?_, n, hj, ?_⟩
  · -- none of the numbers before the first is `k`
    by_contra hless
    have hmem : k ∈ before ++ j :: after := hrange ▸ List.mem_range.2 hk
    have hsorted : (before ++ j :: after).Pairwise (· < ·) := hrange ▸ List.pairwise_lt_range
    rcases List.mem_append.1 hmem with hbefore | hafter
    · rw [hnone k hbefore] at hsome
      cases hsome
    · rcases List.mem_cons.1 hafter with rfl | hafter
      · exact hless (Nat.le_refl _)
      · exact hless (Nat.le_of_lt ((List.pairwise_cons.1 (List.pairwise_append.1 hsorted).2.1).1 k
          hafter))
  · simp only [hn, Option.getD_some]
    exact Numeral.value_trim 17 n

/-- The shortest numeral has the value of one that is read back. -/
theorem exists_readsBack (hrank : 0 < rank) :
    ∃ n, readsBack rank n = true ∧ (shortest rank).value = n.value := by
  obtain ⟨j, -, n, hn, hvalue⟩ := exists_first hrank (by decide) (exists_candidate hrank)
  exact ⟨n, readsBack_of_candidate hn, hvalue⟩

/-- The shortest numeral is no further below its number than half the way to the number before. -/
theorem le_value_shortest (hrank : 0 < rank) :
    (units (rank - 1) + units rank : ℚ) ≤ 2 * ((shortest rank).value * unitsPerOne) := by
  obtain ⟨n, hback, hvalue⟩ := exists_readsBack hrank
  exact hvalue ▸ le_value_of_readsBack hback

/-- The shortest numeral is no further above its number than half the way to the next. -/
theorem value_shortest_le (hrank : 0 < rank) :
    2 * ((shortest rank).value * unitsPerOne) ≤ (units rank + units (rank + 1) : ℚ) := by
  obtain ⟨n, hback, hvalue⟩ := exists_readsBack hrank
  exact hvalue ▸ value_le_of_readsBack hback

/-- The value of a finite number without its sign. -/
theorem abs_eq_of_toRat? {negative : Bool} {rank : Fin ranks} {q : ℚ}
    (h : toRat? (.finite negative rank) = some q) : |q| = units rank / unitsPerOne := by
  have hone : (0 : ℚ) < unitsPerOne := by exact_mod_cast unitsPerOne_pos
  rw [← Option.some.inj h, Rat.mkRat_eq_div, abs_div, abs_of_pos hone]
  cases negative <;> simp [signedUnits]

end Tender.Binary64
