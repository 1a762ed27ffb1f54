/-
Rounding to the nearest binary64 number.

* `Binary64.units_eq` — the numbers between two powers of two lie evenly;
* `Binary64.units_succ_le` — the step to the next number is no smaller than that number's `2 ^ 53`-th
  part;
* `Binary64.nearestRank_le`, `Binary64.le_nearestRank` — a number is no further from the nearest rank
  than half the way to the ranks beside it;
* `Binary64.nearestRank_eq_of_near` — what is nearer to a rank than that is rounded to it;
* `Binary64.ofScientific_ne_nan` — and what is rounded is a number, if only an infinite one.
-/
import Mathlib.Tactic.Linarith
import Mathlib.Tactic.Ring
import Tender.Number.Binary64

namespace Tender.Binary64

theorem unitsPerOne_pos : 0 < unitsPerOne := by
  decide +kernel

/-! ### Division to the nearest -/

theorem roundDiv_le (num den : Nat) : 2 * roundDiv num den * den ≤ 2 * num + den := by
  have hdiv : den * (num / den) + num % den = num := Nat.div_add_mod num den
  unfold roundDiv
  generalize num / den = q at hdiv ⊢
  generalize num % den = r at hdiv ⊢
  subst hdiv
  dsimp only
  split
  · nlinarith
  · split
    · nlinarith
    · obtain hodd | hodd := Nat.mod_two_eq_zero_or_one q <;> rw [hodd] <;> nlinarith

theorem le_roundDiv (num : Nat) {den : Nat} (hden : 0 < den) :
    2 * num ≤ 2 * roundDiv num den * den + den := by
  have hdiv : den * (num / den) + num % den = num := Nat.div_add_mod num den
  have hmod : num % den < den := Nat.mod_lt num hden
  unfold roundDiv
  generalize num / den = q at hdiv ⊢
  generalize num % den = r at hdiv hmod ⊢
  subst hdiv
  dsimp only
  split
  · nlinarith
  · split
    · nlinarith
    · obtain hodd | hodd := Nat.mod_two_eq_zero_or_one q <;> rw [hodd] <;> nlinarith

/-! ### The numbers by their ranks -/

/-- Between two powers of two, and up to the first of them, the numbers lie evenly. -/
theorem units_eq {s k : Nat} (hk : k ≤ 2 * perBinade) (hs : s = 0 ∨ perBinade ≤ k) :
    units (s * perBinade + k) = k * 2 ^ s := by
  have hsize : perBinade = 4503599627370496 := rfl
  unfold units
  by_cases hsmall : s * perBinade + k < perBinade
  · -- below the first power of two the rank is the number itself
    have hzero : s = 0 := hs.resolve_right (by omega)
    rw [if_pos hsmall, hzero]
    omega
  · rw [if_neg hsmall, Nat.pow_eq]
    obtain hlow | hlow | hlow : k < perBinade ∨ (perBinade ≤ k ∧ k < 2 * perBinade) ∨
        k = 2 * perBinade := by omega
    · have hzero : s = 0 := hs.resolve_right (by omega)
      subst hzero
      omega
    · obtain ⟨k, rfl⟩ := Nat.exists_eq_add_of_le hlow.1
      have hrank : s * perBinade + (perBinade + k) = k + perBinade * (s + 1) := by ring
      rw [hrank, Nat.add_mul_mod_self_left, Nat.add_mul_div_left _ _ (by omega),
        Nat.mod_eq_of_lt (by omega), Nat.div_eq_of_lt (by omega), Nat.zero_add, Nat.add_sub_cancel]
    · have hrank : s * perBinade + k = 0 + perBinade * (s + 2) := by rw [hlow]; ring
      rw [hrank, Nat.add_mul_mod_self_left, Nat.add_mul_div_left _ _ (by omega), hlow,
        Nat.zero_mod, Nat.zero_div, Nat.zero_add, Nat.add_zero, show s + 2 - 1 = s + 1 from rfl,
        Nat.pow_succ]
      ring

theorem units_le_units {a b : Nat} (h : a ≤ b) : units a ≤ units b := by
  obtain h | rfl := Nat.lt_or_eq_of_le h
  · exact Nat.le_of_lt (units_lt_units h)
  · exact Nat.le_refl _

@[simp] theorem units_zero : units 0 = 0 := by
  rw [units, if_pos (by decide)]

/-- Every rank stands in a binade. -/
theorem exists_binade (rank : Nat) : ∃ s k, rank = s * perBinade + k ∧ k < 2 * perBinade ∧
    (s = 0 ∨ perBinade ≤ k) := by
  have hsize : perBinade = 4503599627370496 := rfl
  by_cases hsmall : rank < 2 * perBinade
  · exact ⟨0, rank, by omega, hsmall, .inl rfl⟩
  · refine ⟨rank / perBinade - 1, perBinade + rank % perBinade, ?_, ?_, .inr (Nat.le_add_right _ _)⟩
    · rw [hsize] at hsmall ⊢
      omega
    · rw [hsize]
      omega

/-- The step to the next number is not small beside that number. -/
theorem units_succ_le (rank : Nat) :
    units (rank + 1) + 2 ^ 53 * units rank ≤ 2 ^ 53 * units (rank + 1) := by
  have hsize : 2 * perBinade = 2 ^ 53 := by decide +kernel
  obtain ⟨s, k, rfl, hk, hs⟩ := exists_binade rank
  have hnext : units (s * perBinade + (k + 1)) = (k + 1) * 2 ^ s :=
    units_eq hk (hs.imp_right fun h => Nat.le_succ_of_le h)
  rw [Nat.add_assoc, hnext, units_eq (Nat.le_of_lt hk) hs, ← hsize]
  have hstep : (k + 1) * 2 ^ s ≤ 2 * perBinade * 2 ^ s := Nat.mul_le_mul_right _ hk
  nlinarith

/-! ### The nearest rank -/

/-- The nearest rank in its binade. -/
theorem exists_nearestRank (num : Nat) {den : Nat} (hden : 0 < den) :
    ∃ s k, nearestRank num den = s * perBinade + k ∧ k ≤ 2 * perBinade ∧
      (s = 0 ∨ perBinade ≤ k ∧ perBinade * 2 ^ s * den ≤ num * unitsPerOne) ∧
      num * unitsPerOne ≤ 2 * perBinade * 2 ^ s * den ∧
      2 * k * (2 ^ s * den) ≤ 2 * (num * unitsPerOne) + 2 ^ s * den ∧
      2 * (num * unitsPerOne) ≤ 2 * k * (2 ^ s * den) + 2 ^ s * den := by
  have hsize : perBinade = 2 ^ 52 := by decide +kernel
  rw [nearestRank]
  generalize num * unitsPerOne = y
  generalize hshift : Nat.log2 (y / den) - 52 = s
  rw [Nat.pow_eq, Nat.mul_comm den]
  have hpos : 0 < 2 ^ s * den := Nat.mul_pos (Nat.two_pow_pos s) hden
  -- the quotient lies below the end of its binade
  have hbelow : y < 2 * perBinade * (2 ^ s * den) := by
    have hlog : y / den < 2 ^ (s + 53) :=
      Nat.lt_of_lt_of_le Nat.lt_log2_self (Nat.pow_le_pow_right (by decide) (by omega))
    have hy : y < 2 ^ (s + 53) * den := (Nat.div_lt_iff_lt_mul hden).1 hlog
    rw [show 2 ^ (s + 53) = 2 * perBinade * 2 ^ s by rw [hsize]; ring] at hy
    rwa [Nat.mul_assoc] at hy
  have hlow := roundDiv_le y (2 ^ s * den)
  have hhigh := le_roundDiv y hpos
  have hle : roundDiv y (2 ^ s * den) ≤ 2 * perBinade := by
    by_contra hmore
    have hmore : 2 * perBinade + 1 ≤ roundDiv y (2 ^ s * den) := by omega
    have := Nat.mul_le_mul_right (2 ^ s * den) hmore
    nlinarith
  refine ⟨s, _, rfl, hle, ?_, ?_, hlow, hhigh⟩
  · by_cases hs : s = 0
    · exact .inl hs
    · right
      have hne : y / den ≠ 0 := by
        intro h
        rw [h] at hshift
        exact hs (hshift ▸ by decide)
      have hlog : 2 ^ (s + 52) ≤ y / den := by
        rw [show s + 52 = Nat.log2 (y / den) by omega]
        exact Nat.log2_self_le hne
      have hy : 2 ^ (s + 52) * den ≤ y := (Nat.le_div_iff_mul_le hden).1 hlog
      rw [show 2 ^ (s + 52) = perBinade * 2 ^ s by rw [hsize]; ring] at hy
      refine ⟨?_, hy⟩
      by_contra hless
      have hless : roundDiv y (2 ^ s * den) + 1 ≤ perBinade := by omega
      have := Nat.mul_le_mul_right (2 ^ s * den) hless
      nlinarith
  · rw [Nat.mul_assoc]
    exact Nat.le_of_lt hbelow

/-- A number is no further below the nearest rank than half the way to the rank before. -/
theorem nearestRank_le (num : Nat) {den : Nat} (hden : 0 < den) :
    (units (nearestRank num den - 1) + units (nearestRank num den)) * den ≤
      2 * (num * unitsPerOne) := by
  have hsize : perBinade = 4503599627370496 := rfl
  obtain ⟨s, k, hrank, hk, hs, -, hlow, -⟩ := exists_nearestRank num hden
  rw [hrank]
  have hself : units (s * perBinade + k) = k * 2 ^ s := units_eq hk (hs.imp_right And.left)
  obtain rfl | hpos := Nat.eq_zero_or_pos k
  · have hzero : s = 0 := hs.resolve_right fun h => by omega
    simp [hzero]
  by_cases hfirst : s = 0 ∨ perBinade ≤ k - 1
  · have hbefore : units (s * perBinade + k - 1) = (k - 1) * 2 ^ s := by
      rw [Nat.add_sub_assoc hpos]
      exact units_eq (by omega) hfirst
    rw [hself, hbefore]
    obtain ⟨k, rfl⟩ := Nat.exists_eq_add_of_le' hpos
    rw [Nat.add_sub_cancel]
    nlinarith
  · -- at a power of two the number itself is no smaller
    obtain ⟨hnot, hless⟩ := not_or.1 hfirst
    obtain ⟨hk', hy⟩ := hs.resolve_left hnot
    have hk : k = perBinade := by omega
    have hbefore : units (s * perBinade + k - 1) ≤ k * 2 ^ s :=
      hself ▸ units_le_units (Nat.sub_le _ _)
    rw [hself]
    rw [hk] at hbefore ⊢
    nlinarith

/-- A number is no further above the nearest rank than half the way to the next rank. -/
theorem le_nearestRank (num : Nat) {den : Nat} (hden : 0 < den) :
    2 * (num * unitsPerOne) ≤
      (units (nearestRank num den) + units (nearestRank num den + 1)) * den := by
  obtain ⟨s, k, hrank, hk, hs, hbelow, -, hhigh⟩ := exists_nearestRank num hden
  rw [hrank]
  have hs' := hs.imp_right And.left
  have hself : units (s * perBinade + k) = k * 2 ^ s := units_eq hk hs'
  obtain hlt | hlast := Nat.lt_or_eq_of_le hk
  · have hnext : units (s * perBinade + (k + 1)) = (k + 1) * 2 ^ s :=
      units_eq hlt (hs'.imp_right fun h => Nat.le_succ_of_le h)
    rw [Nat.add_assoc, hself, hnext]
    nlinarith
  · -- at the end of the binade the number itself is no larger
    have hnext := units_le_units (Nat.le_succ (s * perBinade + k))
    rw [hself, hlast] at hnext ⊢
    nlinarith

/-- What lies between the middles of a rank and the ranks beside it is rounded to that rank. -/
theorem nearestRank_eq_of_near {num den rank : Nat} (hden : 0 < den)
    (hlow : rank = 0 ∨ (units (rank - 1) + units rank) * den < 2 * (num * unitsPerOne))
    (hhigh : 2 * (num * unitsPerOne) < (units rank + units (rank + 1)) * den) :
    nearestRank num den = rank := by
  obtain hlt | heq | hgt := Nat.lt_trichotomy (nearestRank num den) rank
  · have hle := le_nearestRank num hden
    have hself := units_le_units (Nat.le_sub_one_of_lt hlt)
    have hnext : units (nearestRank num den + 1) ≤ units rank := units_le_units hlt
    have := Nat.mul_le_mul_right den (Nat.add_le_add hself hnext)
    rcases hlow with hzero | hlow
    · omega
    · omega
  · exact heq
  · have hle := nearestRank_le num hden
    have hself := units_le_units (Nat.le_sub_one_of_lt hgt)
    have hnext : units (rank + 1) ≤ units (nearestRank num den) := units_le_units hgt
    have := Nat.mul_le_mul_right den (Nat.add_le_add hself hnext)
    omega

theorem nearest_ne_nan (negative : Bool) (num den : Nat) : nearest negative num den ≠ .nan := by
  rw [nearest]
  split <;> nofun

theorem ofScientific_ne_nan (negative : Bool) (digits : Nat) (exponent : Int) :
    ofScientific negative digits exponent ≠ .nan := by
  fun_cases ofScientific negative digits exponent with
  | case1 => nofun
  | case2 => exact nearest_ne_nan _ _ _
  | case3 => nofun
  | case4 => exact nearest_ne_nan _ _ _

end Tender.Binary64
