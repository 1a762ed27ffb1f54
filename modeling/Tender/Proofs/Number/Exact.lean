/-
Numerals of up to fifteen digits.

* `Binary64.readsBack_congr` — only the value of a numeral decides which number it is read as;
* `Binary64.readsBack_shortest` — the shortest numeral of a number is read back as that number;
* `Binary64.exists_ofScientific` — a numeral of ordinary size is read as a finite number;
* `Binary64.value_shortest_of_digits` — a numeral of up to fifteen digits has the value of the shortest
  numeral of the number it is read as, so these digits are never lost;
* `Binary64.printed?_ofScientific` — so does every numeral of a short value;
* `Binary64.near_of_printed` — what is printed of any numeral has its sign and is not far from it;
* `Binary64.value_lt_of_lt` — numerals are in the order of the numbers they are read as.
-/
import Tender.Proofs.Number.Shortest

namespace Tender.Binary64

variable {rank : Nat} {n m : Numeral}

/-! ### Numerals of one value -/

theorem roundDiv_mul (num den : Nat) {k : Nat} (hk : 0 < k) :
    roundDiv (num * k) (den * k) = roundDiv num den := by
  have hless {a b : Nat} : a * k < b * k ↔ a < b := Nat.mul_lt_mul_right hk
  unfold roundDiv
  simp only [Nat.mul_div_mul_right _ _ hk, Nat.mul_mod_mul_right, ← Nat.mul_assoc, hless]

theorem nearestRank_mul (num den : Nat) {k : Nat} (hk : 0 < k) :
    nearestRank (num * k) (den * k) = nearestRank num den := by
  unfold nearestRank
  have hscaled : num * k * unitsPerOne = num * unitsPerOne * k := Nat.mul_right_comm ..
  simp only [hscaled, Nat.mul_div_mul_right _ _ hk, Nat.mul_right_comm den k, roundDiv_mul _ _ hk]

/-- Equal quotients are rounded to the same number. -/
theorem nearestRank_congr {num den num' den' : Nat} (hden : 0 < den) (hden' : 0 < den')
    (h : num * den' = num' * den) : nearestRank num den = nearestRank num' den' := by
  rw [← nearestRank_mul num den hden', h, Nat.mul_comm den, nearestRank_mul num' den' hden]

/-- Only the value of a numeral decides which number it is read as. -/
theorem readsBack_congr (h : n.value = m.value) :
    readsBack rank n = true ↔ readsBack rank m = true := by
  obtain ⟨num, den, hden, hvalue, hback⟩ := n.exists_quotient
  obtain ⟨num', den', hden', hvalue', hback'⟩ := m.exists_quotient
  have hpos : (den : ℚ) ≠ 0 := by exact_mod_cast hden.ne'
  have hpos' : (den' : ℚ) ≠ 0 := by exact_mod_cast hden'.ne'
  rw [hvalue, hvalue', div_eq_div_iff hpos hpos'] at h
  rw [hback, hback', nearestRank_congr hden hden' (by exact_mod_cast h)]

theorem readsBack_zero : readsBack 0 ⟨0, 0⟩ = true := by
  decide +kernel

/-- The shortest numeral of a number is read back as that number. -/
theorem readsBack_shortest (rank : Nat) : readsBack rank (shortest rank) = true := by
  obtain rfl | hrank := Nat.eq_zero_or_pos rank
  · exact readsBack_zero
  · obtain ⟨n, hback, hvalue⟩ := exists_readsBack hrank
    exact (readsBack_congr hvalue).2 hback

theorem exists_rank (n : Numeral) : ∃ rank, readsBack rank n = true := by
  obtain ⟨num, den, -, -, hback⟩ := n.exists_quotient
  exact ⟨nearestRank num den, (hback _).2 rfl⟩

theorem rank_unique {rank' : Nat} (h : readsBack rank n = true) (h' : readsBack rank' n = true) :
    rank = rank' := by
  obtain ⟨num, den, -, -, hback⟩ := n.exists_quotient
  exact ((hback _).1 h).symm.trans ((hback _).1 h')

theorem Numeral.value_nonneg (n : Numeral) : 0 ≤ n.value := by
  unfold value
  positivity

/-! ### The steps between numbers -/

/-- A number counts the steps of its binade, and the next number is one more. -/
theorem exists_step (hrank : 0 < rank) : ∃ k step, units rank = k * step ∧
    units (rank + 1) = (k + 1) * step ∧ 0 < k ∧ (perBinade ≤ rank → perBinade ≤ k) := by
  obtain ⟨s, k, rfl, hk, hs⟩ := exists_binade rank
  refine ⟨k, 2 ^ s, units_eq (Nat.le_of_lt hk) hs, ?_, ?_, ?_⟩
  · rw [Nat.add_assoc]
    exact units_eq hk (hs.imp_right fun h => Nat.le_succ_of_le h)
  · rcases hs with rfl | hs
    · omega
    · exact Nat.lt_of_lt_of_le (by decide) hs
  · intro hlarge
    rcases hs with rfl | hs
    · omega
    · exact hs

theorem units_succ_le_two_mul (hrank : 0 < rank) : units (rank + 1) ≤ 2 * units rank := by
  obtain ⟨k, step, hself, hnext, hk, -⟩ := exists_step hrank
  rw [hself, hnext, ← Nat.mul_assoc]
  exact Nat.mul_le_mul_right step (by omega)

/-- From the first power of two on, a step is small beside the number. -/
theorem units_succ_le_of_large (hrank : perBinade ≤ rank) :
    2 ^ 52 * units (rank + 1) ≤ (2 ^ 52 + 1) * units rank := by
  have hsize : perBinade = 2 ^ 52 := by decide +kernel
  obtain ⟨k, step, hself, hnext, -, hk⟩ := exists_step (Nat.lt_of_lt_of_le (by decide) hrank)
  have hk := hk hrank
  rw [hself, hnext, ← Nat.mul_assoc, ← Nat.mul_assoc]
  exact Nat.mul_le_mul_right step (by omega)

/-- So is the step to the number before. -/
theorem le_units_pred_of_large (hrank : perBinade ≤ rank) :
    2 ^ 52 * units rank ≤ 2 ^ 52 * units (rank - 1) + units rank := by
  have hsize : perBinade = 2 ^ 52 := by decide +kernel
  obtain rfl | hlarge := Nat.eq_or_lt_of_le hrank
  · decide +kernel
  · obtain ⟨before, rfl⟩ : ∃ before, rank = before + 1 := ⟨rank - 1, by omega⟩
    have hstep := units_succ_le_of_large (Nat.le_of_lt_succ hlarge)
    have hless := units_lt_units_succ before
    rw [Nat.add_sub_cancel]
    omega

/-- A numeral that is read back is near to its number. -/
theorem near_of_readsBack (hrank : perBinade ≤ rank) (h : readsBack rank n = true) :
    2 ^ 53 * |n.value * unitsPerOne - units rank| ≤ units rank := by
  have hlow := le_value_of_readsBack h
  have hhigh := value_le_of_readsBack h
  have hnext : (2 ^ 52 * units (rank + 1) : ℚ) ≤ (2 ^ 52 + 1) * units rank := by
    exact_mod_cast units_succ_le_of_large hrank
  have hbefore : (2 ^ 52 * units rank : ℚ) ≤ 2 ^ 52 * units (rank - 1) + units rank := by
    exact_mod_cast le_units_pred_of_large hrank
  have habs : |n.value * unitsPerOne - units rank| ≤ units rank / 2 ^ 53 := by
    rw [abs_le]
    constructor <;> linarith
  linarith

/-- Numerals that are read as one number are not far from each other. -/
theorem value_le_three_mul (hrank : 0 < rank) (hn : readsBack rank n = true)
    (hm : readsBack rank m = true) : n.value ≤ 3 * m.value := by
  have hone : (0 : ℚ) < unitsPerOne := by exact_mod_cast unitsPerOne_pos
  have hnext : (units (rank + 1) : ℚ) ≤ 2 * units rank := by
    exact_mod_cast units_succ_le_two_mul hrank
  have hbefore : (0 : ℚ) ≤ units (rank - 1) := Nat.cast_nonneg _
  refine le_of_mul_le_mul_right ?_ hone
  linarith [value_le_of_readsBack hn, le_value_of_readsBack hm]

/-! ### Numerals of ordinary size -/

theorem le_rank_of_value (h : readsBack rank n = true) (hsmall : 1 / 10 ^ 15 ≤ n.value) :
    perBinade ≤ rank := by
  by_contra hless
  have hrank : units (rank + 1) ≤ units perBinade := units_le_units (Nat.lt_of_not_le hless)
  have hself : units rank ≤ units perBinade := (units_le_units (Nat.le_succ rank)).trans hrank
  have hone : 2 ^ 53 * 10 ^ 15 < unitsPerOne ∧ units perBinade = 2 ^ 52 := by decide +kernel
  rw [hone.2] at hrank hself
  have hone' : (2 ^ 53 * 10 ^ 15 : ℚ) < unitsPerOne := by exact_mod_cast hone.1
  have hrank' : (units (rank + 1) : ℚ) ≤ 2 ^ 52 := by exact_mod_cast hrank
  have hself' : (units rank : ℚ) ≤ 2 ^ 52 := by exact_mod_cast hself
  have hvalue := mul_le_mul_of_nonneg_right hsmall (Nat.cast_nonneg unitsPerOne)
  linarith [value_le_of_readsBack h]

theorem rank_lt_of_value (h : readsBack rank n = true) (hlarge : n.value < 10 ^ 200) :
    rank < ranks := by
  by_contra hnot
  have hlast : units (ranks - 1) ≤ units (rank - 1) :=
    units_le_units (Nat.sub_le_sub_right (Nat.le_of_not_lt hnot) 1)
  have hself : units (rank - 1) ≤ units rank := units_le_units (Nat.sub_le _ _)
  have hbound : 10 ^ 200 * unitsPerOne < units (ranks - 1) := by decide +kernel
  have hone : (0 : ℚ) < unitsPerOne := by exact_mod_cast unitsPerOne_pos
  have hbound' : (10 ^ 200 * unitsPerOne : ℚ) < units (rank - 1) := by
    exact_mod_cast hbound.trans_le hlast
  have hself' : (units (rank - 1) : ℚ) ≤ units rank := by exact_mod_cast hself
  have hvalue := mul_lt_mul_of_pos_right hlarge hone
  linarith [le_value_of_readsBack h]

theorem nearest_eq {negative : Bool} {num den : Nat} {rank : Fin ranks}
    (h : nearestRank num den = rank) : nearest negative num den = .finite negative rank := by
  have hlt : nearestRank num den < ranks := h ▸ rank.isLt
  unfold nearest
  dsimp only
  rw [dif_pos hlt]
  exact congrArg _ (Fin.ext h)

theorem nearestRank_zero {den : Nat} : nearestRank 0 den = 0 := by
  simp [nearestRank, roundDiv]

/-- The digits of a numeral with many places that is not small are many. -/
theorem le_log2_of_value {digits e : Nat}
    (h : 1 / 10 ^ 15 ≤ Numeral.value ⟨digits, .negSucc e⟩) : 3 * e ≤ Nat.log2 digits + 1200 := by
  by_contra hless
  have hdigits : 10 ^ (e + 1) ≤ digits * 10 ^ 15 := by
    rw [Numeral.value, zpow_negSucc, ← div_eq_mul_inv, div_le_div_iff₀ (by positivity)
      (by positivity), one_mul] at h
    exact_mod_cast h
  have hlog : digits < 2 ^ (3 * (e - 400)) :=
    Nat.lt_of_lt_of_le Nat.lt_log2_self (Nat.pow_le_pow_right (by decide) (by omega))
  have hpower : 2 ^ (3 * (e - 400)) ≤ 10 ^ (e - 400) := by
    rw [Nat.pow_mul]
    exact Nat.pow_le_pow_left (by decide) _
  have hsum : 10 ^ (e - 400) * 10 ^ 15 ≤ 10 ^ (e + 1) := by
    rw [← Nat.pow_add]
    exact Nat.pow_le_pow_right (by decide) (by omega)
  omega

/-- A numeral of ordinary size is read as a finite number. -/
theorem exists_ofScientific (negative : Bool) (hsmall : n.value = 0 ∨ 1 / 10 ^ 15 ≤ n.value)
    (hlarge : n.value < 10 ^ 200) : ∃ rank : Fin ranks,
      ofScientific negative n.digits n.exponent = .finite negative rank ∧
        readsBack rank n = true := by
  obtain ⟨rank, hback⟩ := exists_rank n
  refine ⟨⟨rank, rank_lt_of_value hback hlarge⟩, ?_, hback⟩
  obtain ⟨digits, exponent⟩ := n
  cases exponent with
  | ofNat e =>
    have hrank : nearestRank (digits * Nat.pow 10 e) 1 = rank := beq_iff_eq.1 hback
    have hvalue : digits * 10 ^ e < 10 ^ 200 := by
      have hcast : ((digits * 10 ^ e : ℕ) : ℚ) < 10 ^ 200 := by simpa [Numeral.value] using hlarge
      exact_mod_cast hcast
    have hfits : ¬ (digits ≠ 0 ∧ 400 < e) := by
      rintro ⟨hdigits, he⟩
      have hpower : 10 ^ 200 ≤ 10 ^ e := Nat.pow_le_pow_right (by decide) (by omega)
      have hle : 10 ^ e ≤ digits * 10 ^ e := Nat.le_mul_of_pos_left _ (Nat.pos_of_ne_zero hdigits)
      omega
    show (if digits ≠ 0 ∧ 400 < e then _ else _) = _
    rw [if_neg hfits]
    refine nearest_eq ?_
    rcases eq_or_ne digits 0 with rfl | hdigits
    · rwa [Nat.zero_mul] at hrank ⊢
    · rwa [if_neg hdigits]
  | negSucc e =>
    have hrank : nearestRank digits (Nat.pow 10 (e + 1)) = rank := beq_iff_eq.1 hback
    show (if Nat.log2 digits + 1200 < 3 * e then _ else _) = _
    split
    · rename_i hless
      -- so small a number would be zero
      rcases hsmall with hzero | hsmall
      · have hdigits : digits = 0 := by simpa [Numeral.value, zpow_negSucc] using hzero
        rw [hdigits, nearestRank_zero] at hrank
        exact congrArg _ (Fin.ext hrank)
      · exact absurd hless (Nat.not_lt.2 (le_log2_of_value hsmall))
    · exact nearest_eq hrank

/-- A numeral that is read as a positive number reads back as it. -/
theorem readsBack_of_ofScientific {negative negative' : Bool} {rank : Fin ranks}
    (h : ofScientific negative n.digits n.exponent = .finite negative' rank)
    (hrank : 0 < rank.val) : negative' = negative ∧ readsBack rank n = true := by
  obtain ⟨digits, exponent⟩ := n
  have hnearest {num den : Nat} (h : nearest negative num den = .finite negative' rank) :
      negative' = negative ∧ nearestRank num den = rank := by
    unfold nearest at h
    dsimp only at h
    split at h
    · cases h
      exact ⟨rfl, rfl⟩
    · cases h
  cases exponent with
  | ofNat e =>
    change (if digits ≠ 0 ∧ 400 < e then _ else _) = _ at h
    split at h
    · cases h
    · obtain ⟨hsign, hback⟩ := hnearest h
      refine ⟨hsign, beq_iff_eq.2 ?_⟩
      rcases eq_or_ne digits 0 with rfl | hdigits
      · rwa [Nat.zero_mul] at hback ⊢
      · rwa [if_neg hdigits] at hback
  | negSucc e =>
    change (if Nat.log2 digits + 1200 < 3 * e then _ else _) = _ at h
    split at h
    · cases h
      exact absurd hrank (Nat.lt_irrefl 0)
    · obtain ⟨hsign, hback⟩ := hnearest h
      exact ⟨hsign, beq_iff_eq.2 hback⟩

/-! ### Fifteen digits -/

/-- A number is smaller than the power of ten behind that of its first digit. -/
theorem lt_ten_pow_decade {num den : Nat} (hnum : 0 < num) (hden : 0 < den) :
    (num / den : ℚ) < 10 ^ (decade num den + 1) := by
  have hnum' : (0 : ℚ) < num := by exact_mod_cast hnum
  have hden' : (0 : ℚ) < den := by exact_mod_cast hden
  unfold decade
  split
  · rename_i hle
    have hlength := Text.lt_ten_pow_length (num / den)
    rw [sub_add_cancel, zpow_natCast, div_lt_iff₀ hden']
    exact_mod_cast (Nat.div_lt_iff_lt_mul hden).1 hlength
  · rename_i hless
    have hless : num < den := Nat.lt_of_not_le hless
    -- the other quotient is above the whole number before it
    have hround : ((den + num - 1) / num - 1) * num < den := by
      have := Nat.div_mul_le_self (den + num - 1) num
      have : 1 ≤ (den + num - 1) / num := (Nat.le_div_iff_mul_le hnum).2 (by omega)
      rw [Nat.sub_mul]
      omega
    have hcount : 0 < (den + num - 1) / num - 1 := by
      have : 2 ≤ (den + num - 1) / num := (Nat.le_div_iff_mul_le hnum).2 (by omega)
      omega
    have hdigits := Text.ten_pow_length_le hcount
    generalize (den + num - 1) / num - 1 = count at hround hcount hdigits ⊢
    obtain ⟨k, hk⟩ := Nat.exists_eq_add_of_le' (List.length_pos_iff.2 (Text.ofNat_ne_nil count))
    rw [hk, Nat.add_sub_cancel] at hdigits
    have hless : 10 ^ k * num < den := (Nat.mul_le_mul_right num hdigits).trans_lt hround
    rw [hk, show -((k + 1 : ℕ) : ℤ) + 1 = -k by push_cast; ring, zpow_neg, zpow_natCast,
      div_lt_iff₀ hden', lt_inv_mul_iff₀ (by positivity)]
    exact_mod_cast hless

/-- A numeral of up to fifteen digits is a multiple of the power of ten fourteen places behind the
first digit of its number. -/
theorem exists_multiple {y : ℚ} {top : ℤ} (hdigits : n.digits < 10 ^ 15)
    (htop : 10 ^ top ≤ y) (hnear : 2 ^ 53 * |n.value - y| ≤ y) :
    ∃ d : ℕ, n.value = d * 10 ^ (top - 14) := by
  obtain ⟨digits, exponent⟩ := n
  obtain hle | hless := le_or_gt (top - 14) exponent
  · obtain ⟨k, rfl⟩ := Int.le.dest hle
    refine ⟨digits * 10 ^ k, ?_⟩
    rw [Numeral.value, zpow_add₀ (by norm_num), zpow_natCast]
    push_cast
    ring
  · -- with the digits so far behind, the numeral would be below its number
    exfalso
    have hdigits : (digits : ℚ) ≤ 10 ^ 15 - 1 := by
      have hle : digits ≤ 10 ^ 15 - 1 := Nat.le_sub_one_of_lt hdigits
      have hcast : (digits : ℚ) ≤ ((10 ^ 15 - 1 : ℕ) : ℚ) := by exact_mod_cast hle
      norm_num at hcast ⊢
      exact hcast
    have hpower : (10 : ℚ) ^ exponent ≤ 10 ^ (top - 15) :=
      zpow_le_zpow_right₀ (by norm_num) (by omega)
    have hscale : (10 : ℚ) ^ (top - 15) * 10 ^ 15 = 10 ^ top := by
      rw [zpow_sub₀ (by norm_num)]
      field_simp
    have hvalue : Numeral.value ⟨digits, exponent⟩ ≤ (10 ^ 15 - 1) * 10 ^ (top - 15) :=
      mul_le_mul hdigits hpower (by positivity) (by norm_num)
    have hlow := (abs_le.1 (show |Numeral.value ⟨digits, exponent⟩ - y| ≤ y / 2 ^ 53 by
      linarith)).1
    have hpos : (0 : ℚ) < 10 ^ (top - 15) := by positivity
    linarith

/-- Two multiples of a power of ten that are near to the same number of fifteen digits are equal. -/
theorem multiple_unique {y : ℚ} {low : ℤ} {d d' : ℕ} (hhigh : y < 10 ^ (low + 15))
    (hd : 2 ^ 53 * |d * 10 ^ low - y| ≤ y) (hd' : 2 ^ 53 * |d' * 10 ^ low - y| ≤ y) : d = d' := by
  have hpower : (0 : ℚ) < 10 ^ low := by positivity
  rw [zpow_add₀ (by norm_num)] at hhigh
  obtain ⟨hd₁, hd₂⟩ := abs_le.1 (show |d * 10 ^ low - y| ≤ y / 2 ^ 53 by linarith)
  obtain ⟨hd₁', hd₂'⟩ := abs_le.1 (show |d' * 10 ^ low - y| ≤ y / 2 ^ 53 by linarith)
  have hless : (d : ℚ) < d' + 1 := by
    refine lt_of_mul_lt_mul_right ?_ hpower.le
    linarith
  have hless' : (d' : ℚ) < d + 1 := by
    refine lt_of_mul_lt_mul_right ?_ hpower.le
    linarith
  have : d < d' + 1 := by exact_mod_cast hless
  have : d' < d + 1 := by exact_mod_cast hless'
  omega

theorem exponent_of_candidate {exponent : Int} (h : candidate? rank exponent = some n) :
    n.exponent = exponent := by
  obtain ⟨d, hneighbours, -⟩ := exists_neighbours rank exponent
  rw [candidate?, hneighbours] at h
  dsimp only at h
  split at h
  · cases h
    rfl
  · split at h
    · cases h
      rfl
    · cases h

/-- A multiple that is read back and lies next to its number is one of the multiples around it. -/
theorem candidate?_isSome_of_multiple {low : ℤ} {d : ℕ} (hvalue : n.value = d * 10 ^ low)
    (hnear : |n.value - units rank / unitsPerOne| < 10 ^ low) (h : readsBack rank n = true) :
    (candidate? rank low).isSome = true := by
  obtain ⟨q, hneighbours, hlow, hhigh⟩ := exists_neighbours rank low
  have hpower : (0 : ℚ) < 10 ^ low := by positivity
  rw [hvalue] at hnear
  obtain ⟨hbelow, habove⟩ := abs_lt.1 hnear
  have hq : (q : ℚ) < d + 1 := by
    refine lt_of_mul_lt_mul_right ?_ hpower.le
    linarith
  have hq' : (d : ℚ) < q + 1 + 1 := by
    refine lt_of_mul_lt_mul_right ?_ hpower.le
    linarith
  have hq : q < d + 1 := by exact_mod_cast hq
  have hq' : d < q + 1 + 1 := by exact_mod_cast hq'
  refine candidate?_isSome ?_
  rw [hneighbours]
  obtain rfl | rfl : d = q ∨ d = q + 1 := by omega
  · exact .inl ((readsBack_congr hvalue).1 h)
  · exact .inr ((readsBack_congr hvalue).1 h)

/-- A numeral of up to fifteen digits has the value of the shortest numeral of its number. -/
theorem value_shortest_of_digits (hdigits : n.digits < 10 ^ 15) (hrank : perBinade ≤ rank)
    (h : readsBack rank n = true) : (shortest rank).value = n.value := by
  have hpos : 0 < rank := Nat.lt_of_lt_of_le (by decide) hrank
  have hunits : 0 < units rank := by simpa using units_lt_units hpos
  have hone : (0 : ℚ) < unitsPerOne := by exact_mod_cast unitsPerOne_pos
  have hlow := ten_pow_decade_le hunits unitsPerOne_pos
  have hhigh := lt_ten_pow_decade hunits unitsPerOne_pos
  have hnear {m : Numeral} (hm : readsBack rank m = true) :
      2 ^ 53 * |m.value - units rank / unitsPerOne| ≤ (units rank / unitsPerOne : ℚ) := by
    have hscaled : |m.value * unitsPerOne - units rank| =
        |m.value - units rank / unitsPerOne| * unitsPerOne := by
      rw [← abs_of_pos hone, ← abs_mul, abs_of_pos hone, sub_mul, div_mul_cancel₀ _ hone.ne']
    have hclose := near_of_readsBack hrank hm
    rw [hscaled, ← mul_assoc] at hclose
    rwa [le_div_iff₀ hone]
  have hfirst := exists_first hpos (k := 14) (by decide)
  have hcandidate {d : ℕ} {low : ℤ} (hvalue : n.value = d * 10 ^ low)
      (hnear : |n.value - units rank / unitsPerOne| < 10 ^ low) :
      (candidate? rank low).isSome = true := candidate?_isSome_of_multiple hvalue hnear h
  generalize decade (units rank) unitsPerOne = top at hlow hhigh hfirst
  generalize (units rank / unitsPerOne : ℚ) = y at hlow hhigh hnear hcandidate
  obtain ⟨d, hd⟩ := exists_multiple hdigits hlow (hnear h)
  have hhigh : y < 10 ^ (top - 14 + 15) := by rwa [show top - 14 + 15 = top + 1 by ring]
  have hclose := hnear h
  -- the numeral is next to its number, so it is a candidate
  have hnext : |n.value - y| < 10 ^ (top - 14) := by
    have hpower : (0 : ℚ) < 10 ^ (top - 14) := by positivity
    rw [zpow_add₀ (by norm_num)] at hhigh
    linarith
  obtain ⟨j, hj, m, hm, hshortest⟩ := hfirst (hcandidate hd hnext)
  obtain ⟨d', hd'⟩ : ∃ d' : ℕ, m.value = d' * 10 ^ (top - 14) := by
    refine ⟨m.digits * 10 ^ (14 - j), ?_⟩
    rw [Numeral.value, exponent_of_candidate hm, Nat.cast_mul, Nat.cast_pow, Nat.cast_ofNat, mul_assoc,
      ← zpow_natCast, ← zpow_add₀ (by norm_num)]
    congr 2
    omega
  have hclose' := hnear (readsBack_of_candidate hm)
  rw [hd] at hclose
  rw [hd'] at hclose'
  rw [hshortest, hd, hd', multiple_unique hhigh hclose' hclose]

/-! ### Short values -/

/-- A value that is written with at most fifteen digits, and with no more places before or behind the
point. -/
structure IsShort (a : ℚ) : Prop where
  below : |a| < 10 ^ 15
  digits : ∃ (d : ℕ) (e : ℤ), d < 10 ^ 15 ∧ |a| = d * 10 ^ e
  places : ∃ k : ℕ, |a| * 10 ^ 15 = k

theorem IsShort.of_abs_eq {a b : ℚ} (h : IsShort a) (hab : |a| = |b|) : IsShort b where
  below := hab ▸ h.below
  digits := hab ▸ h.digits
  places := hab ▸ h.places

/-- The value of a numeral with a sign. -/
def Numeral.signed (negative : Bool) (n : Numeral) : ℚ :=
  if negative then -n.value else n.value

/-- The value that the text of a finite number spells: its shortest numeral with the sign. -/
def printed? : Binary64 → Option ℚ
  | .finite negative rank => some ((shortest rank).signed negative)
  | _ => none

theorem Numeral.abs_signed (negative : Bool) (n : Numeral) : |n.signed negative| = n.value := by
  unfold signed
  split
  · rw [abs_neg, abs_of_nonneg n.value_nonneg]
  · exact abs_of_nonneg n.value_nonneg

theorem Numeral.signed_congr {negative : Bool} (h : n.value = m.value) :
    n.signed negative = m.signed negative := by
  rw [signed, signed, h]

/-- A short value is zero or of ordinary size. -/
theorem IsShort.eq_zero_or_le {a : ℚ} (h : IsShort a) : |a| = 0 ∨ 1 / 10 ^ 15 ≤ |a| := by
  obtain ⟨k, hk⟩ := h.places
  rw [← eq_div_iff (by norm_num)] at hk
  rcases Nat.eq_zero_or_pos k with rfl | hpos
  · exact .inl (by simpa using hk)
  · refine .inr ?_
    have hone : (1 : ℚ) ≤ k := by exact_mod_cast hpos
    rw [hk]
    gcongr

theorem value_shortest_zero : (shortest 0).value = 0 := by
  simp [shortest, Numeral.value]

/-- A numeral of a short value is printed with the same value. -/
theorem printed?_ofScientific (negative : Bool) (h : IsShort n.value) :
    (ofScientific negative n.digits n.exponent).printed? = some (n.signed negative) := by
  have hshort := h.eq_zero_or_le
  obtain ⟨d, e, hd, hvalue⟩ := h.digits
  have hbelow := h.below
  rw [abs_of_nonneg n.value_nonneg] at hshort hvalue hbelow
  obtain ⟨rank, heq, hback⟩ := exists_ofScientific negative hshort
    (hbelow.trans (by norm_num))
  rw [heq, printed?]
  refine congrArg some (Numeral.signed_congr ?_)
  rcases hshort with hzero | hsmall
  · have hrank : rank.val = 0 :=
      rank_unique hback ((readsBack_congr (m := ⟨0, 0⟩) (by rw [hzero]; simp [Numeral.value])).2
        readsBack_zero)
    rw [hrank, value_shortest_zero, hzero]
  · have hback' : readsBack rank ⟨d, e⟩ = true := (readsBack_congr hvalue).1 hback
    rw [value_shortest_of_digits hd (le_rank_of_value hback hsmall) hback', hvalue]
    rfl

/-! ### Other values -/

/-- What is printed of a numeral has its sign and is not far from it, unless it is zero. -/
theorem near_of_printed {negative : Bool} {b : ℚ}
    (h : (ofScientific negative n.digits n.exponent).printed? = some b) (hb : b ≠ 0) :
    ∃ m : Numeral, m.signed negative = b ∧ n.value ≤ 3 * m.value ∧ m.value ≤ 3 * n.value := by
  cases hx : ofScientific negative n.digits n.exponent with
  | nan =>
    rw [hx] at h
    cases h
  | infinite =>
    rw [hx] at h
    cases h
  | finite negative' rank =>
    rw [hx] at h
    have hb' : (shortest rank).signed negative' = b := Option.some.inj h
    have hrank : 0 < rank.val := by
      refine Nat.pos_of_ne_zero fun hzero => hb ?_
      rw [← hb', ← abs_eq_zero, Numeral.abs_signed, hzero, value_shortest_zero]
    obtain ⟨rfl, hback⟩ := readsBack_of_ofScientific hx hrank
    exact ⟨shortest rank, hb', value_le_three_mul hrank hback (readsBack_shortest rank),
      value_le_three_mul hrank (readsBack_shortest rank) hback⟩

/-- A numeral that zero is printed of is too small to be of ordinary size. -/
theorem lt_of_printed_zero {negative : Bool}
    (h : (ofScientific negative n.digits n.exponent).printed? = some 0) (hlarge : n.value < 10 ^ 200) :
    n.value < 1 / 10 ^ 15 := by
  by_contra hsmall
  obtain ⟨rank, heq, hback⟩ := exists_ofScientific negative (.inr (not_lt.1 hsmall)) hlarge
  have hrank : 0 < rank.val :=
    Nat.lt_of_lt_of_le (by decide) (le_rank_of_value hback (not_lt.1 hsmall))
  have hnear := value_le_three_mul hrank hback (readsBack_shortest rank)
  rw [heq] at h
  have hzero : (shortest rank).value = 0 := by
    rw [← (shortest rank).abs_signed negative, Option.some.inj h, abs_zero]
  rw [hzero, mul_zero] at hnear
  exact hsmall (hnear.trans_lt (by norm_num))

/-- Numerals are in the order of the numbers that they are read as. -/
theorem value_lt_of_lt {rank' : Nat} (h : rank < rank') (hn : readsBack rank n = true)
    (hm : readsBack rank' m = true) : n.value < m.value := by
  have hone : (0 : ℚ) < unitsPerOne := by exact_mod_cast unitsPerOne_pos
  have hself : (units rank : ℚ) ≤ units (rank' - 1) := by
    exact_mod_cast units_le_units (Nat.le_sub_one_of_lt h)
  have hnext : (units (rank + 1) : ℚ) ≤ units rank' := by exact_mod_cast units_le_units h
  refine lt_of_le_of_ne (le_of_mul_le_mul_right ?_ hone) fun heq =>
    h.ne (rank_unique ((readsBack_congr heq).1 hn) hm)
  linarith [value_le_of_readsBack hn, le_value_of_readsBack hm]

/-- A shortest numeral is below the one of another number exactly if its own number is below the value
of that one. -/
theorem value_shortest_lt_iff {limit : Nat} (hlimit : shortest limit = m)
    (hbelow : (units (limit - 1) : ℚ) < m.value * unitsPerOne)
    (habove : m.value * unitsPerOne ≤ (units limit : ℚ)) (rank : Nat) :
    (shortest rank).value < m.value ↔ (units rank : ℚ) < m.value * unitsPerOne := by
  have hback : readsBack limit m = true := hlimit ▸ readsBack_shortest limit
  obtain hless | rfl | hgreater := Nat.lt_trichotomy rank limit
  · have hself : (units rank : ℚ) ≤ units (limit - 1) := by
      exact_mod_cast units_le_units (Nat.le_sub_one_of_lt hless)
    exact iff_of_true (value_lt_of_lt hless (readsBack_shortest rank) hback) (hself.trans_lt hbelow)
  · exact iff_of_false (hlimit ▸ lt_irrefl _) (not_lt.2 habove)
  · have hself : (units limit : ℚ) ≤ units rank := by
      exact_mod_cast units_le_units (Nat.le_of_lt hgreater)
    exact iff_of_false (value_lt_of_lt hgreater hback (readsBack_shortest rank)).not_gt
      (not_lt.2 (habove.trans hself))

theorem value_shortest_pos (hrank : 0 < rank) : 0 < (shortest rank).value := by
  refine lt_of_le_of_ne (shortest rank).value_nonneg fun hzero => ?_
  have hback := (readsBack_congr (m := ⟨0, 0⟩) (by rw [← hzero]; simp [Numeral.value])).1
    (readsBack_shortest rank)
  exact hrank.ne (rank_unique readsBack_zero hback)

end Tender.Binary64
