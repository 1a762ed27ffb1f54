/-
Numbers that are read out of their own text.

* `Amount.plain_ordinary` — the text of a number of ordinary size is a numeral of its shortest numeral;
* `Amount.readNumeral?_small`, `Amount.exists_readNumeral?_large` — of a text with a power of ten, the
  digits are read but not the power;
* `Amount.parse_toText` — which numbers are read out of their text as what they are.
-/
import Tender.Proofs.Helper.Reading
import Tender.Value.Print

namespace Tender

open Text Binary64
open Decimal (digitsValue digitsValue_append digitsValue_lt digitsValue_ofNat digitsValue_zeros)

/-! ### The first digit -/

namespace Binary64

variable {rank : Nat}

/-- The power of ten that the first digit of a numeral stands for. -/
def Numeral.top (n : Numeral) : Int :=
  n.exponent + ((ofNat n.digits).length : Int) - 1

theorem Numeral.value_bounds {n : Numeral} (hn : 0 < n.digits) :
    10 ^ n.top ≤ n.value ∧ n.value < 10 ^ (n.top + 1) := by
  obtain ⟨length, hlength⟩ := Nat.exists_eq_add_of_le' (List.length_pos_iff.2 (ofNat_ne_nil n.digits))
  have hlow := ten_pow_length_le hn
  have hhigh := lt_ten_pow_length n.digits
  rw [hlength] at hlow hhigh
  rw [Nat.add_sub_cancel] at hlow
  have hlow : (10 ^ length : ℚ) ≤ n.digits := by exact_mod_cast hlow
  have hhigh : (n.digits : ℚ) < 10 ^ (length + 1) := by exact_mod_cast hhigh
  have hpower : (0 : ℚ) < 10 ^ n.exponent := by positivity
  have htop : n.top = length + n.exponent := by
    rw [top, hlength]
    push_cast
    ring
  have htop' : n.top + 1 = (length + 1 : ℕ) + n.exponent := by
    rw [htop]
    push_cast
    ring
  rw [htop', htop, zpow_add₀ (by norm_num), zpow_add₀ (by norm_num), zpow_natCast, zpow_natCast, value]
  exact ⟨mul_le_mul_of_nonneg_right hlow hpower.le, mul_lt_mul_of_pos_right hhigh hpower⟩

theorem Numeral.top_lt_iff {n : Numeral} (hn : 0 < n.digits) (k : ℤ) :
    n.top < k ↔ n.value < 10 ^ k := by
  obtain ⟨hlow, hhigh⟩ := value_bounds hn
  constructor
  · exact fun h => hhigh.trans_le (zpow_le_zpow_right₀ (by norm_num) h)
  · exact fun h => (zpow_lt_zpow_iff_right₀ (by norm_num)).1 (hlow.trans_lt h)

theorem digits_shortest_pos (hrank : 0 < rank) : 0 < (shortest rank).digits := by
  refine Nat.pos_of_ne_zero fun hzero => (value_shortest_pos hrank).ne' ?_
  rw [Numeral.value, hzero, Nat.cast_zero, zero_mul]

/-- The text of a number by the place of its first digit. -/
theorem plain_eq (rank : Nat) : plain rank =
    if -4 ≤ (shortest rank).top ∧ (shortest rank).top < 16 then
      if 0 ≤ (shortest rank).exponent then
        ofNat (shortest rank).digits ++ List.replicate (shortest rank).exponent.toNat '0' ++ lit ".0"
      else if 0 ≤ (shortest rank).top then
        (ofNat (shortest rank).digits).take ((shortest rank).top.toNat + 1) ++
          '.' :: (ofNat (shortest rank).digits).drop ((shortest rank).top.toNat + 1)
      else
        '0' :: '.' :: List.replicate (-(shortest rank).top - 1).toNat '0' ++
          ofNat (shortest rank).digits
    else
      (match ofNat (shortest rank).digits with
        | [d] => [d]
        | d :: rest => d :: '.' :: rest
        | [] => []) ++ 'e' :: (if (shortest rank).top < 0 then '-' else '+') ::
          padded 2 (shortest rank).top.natAbs := rfl

end Binary64

namespace Amount

variable {rank : Nat}

/-- The text of a number of ordinary size is a numeral of the same value as its shortest numeral. -/
theorem plain_ordinary (hlow : -4 ≤ (shortest rank).top) (hhigh : (shortest rank).top < 16) :
    ∃ whole fraction, AllDigits whole ∧ AllDigits fraction ∧ whole ++ fraction ≠ [] ∧
      plain rank = whole ++ '.' :: fraction ∧
        Numeral.value ⟨digitsValue (whole ++ fraction), -(fraction.length : Int)⟩ =
          (shortest rank).value := by
  rw [plain_eq, if_pos ⟨hlow, hhigh⟩]
  generalize shortest rank = n
  have hdigits := allDigits_ofNat n.digits
  have hne := ofNat_ne_nil n.digits
  have hlength := List.length_pos_iff.2 hne
  have hdef : n.top = n.exponent + ((ofNat n.digits).length : Int) - 1 := rfl
  rcases Int.lt_or_le n.exponent 0 with hexponent | hexponent
  · rw [if_neg (Int.not_le.2 hexponent)]
    rcases Int.lt_or_le n.top 0 with htop | htop
    · -- the digits stand behind the point and zeros
      rw [if_neg (Int.not_le.2 htop)]
      refine ⟨['0'], _, by decide, allDigits_append.2 ⟨allDigits_zeros _, hdigits⟩, by simp, rfl, ?_⟩
      have hvalue : digitsValue (['0'] ++ (List.replicate (-n.top - 1).toNat '0' ++ ofNat n.digits)) =
          n.digits := by
        rw [digitsValue_append, digitsValue_append, digitsValue_zeros, digitsValue_ofNat]
        simp [digitsValue]
      rw [hvalue, List.length_append, List.length_replicate]
      exact congrArg (fun e => Numeral.value ⟨n.digits, e⟩) (by omega)
    · -- the point stands inside the digits
      rw [if_pos htop]
      have hparts := List.take_append_drop (n.top.toNat + 1) (ofNat n.digits)
      refine ⟨_, _, fun c hc => hdigits c (List.mem_of_mem_take hc),
        fun c hc => hdigits c (List.mem_of_mem_drop hc), by rwa [hparts], rfl, ?_⟩
      rw [hparts, digitsValue_ofNat, List.length_drop]
      exact congrArg (fun e => Numeral.value ⟨n.digits, e⟩) (by omega)
  · -- all digits stand before the point
    rw [if_pos hexponent]
    refine ⟨ofNat n.digits ++ List.replicate n.exponent.toNat '0', ['0'],
      allDigits_append.2 ⟨hdigits, allDigits_zeros _⟩, by decide, by simp, by simp [lit], ?_⟩
    have hvalue : digitsValue (ofNat n.digits ++ List.replicate n.exponent.toNat '0' ++ ['0']) =
        n.digits * 10 ^ n.exponent.toNat * 10 := by
      rw [digitsValue_append, digitsValue_append, digitsValue_zeros, digitsValue_ofNat,
        List.length_replicate]
      simp [digitsValue, Nat.mul_comm]
    have hpower : (10 : ℚ) ^ n.exponent.toNat = 10 ^ n.exponent := by
      rw [← zpow_natCast, Int.toNat_of_nonneg hexponent]
    rw [hvalue, List.length_singleton, Numeral.value, Numeral.value, Nat.cast_one, zpow_neg_one]
    push_cast
    rw [hpower]
    ring

/-! ### Powers of ten -/

/-- The first digit of a number, and behind a point the others if there are any. -/
def mantissa (d : Char) (rest : Text) : Text :=
  d :: if rest = [] then [] else '.' :: rest

/-- The text of a number that is not of ordinary size. -/
theorem plain_power (h : ¬ (-4 ≤ (shortest rank).top ∧ (shortest rank).top < 16)) :
    ∃ d rest, ofNat (shortest rank).digits = d :: rest ∧
      plain rank = mantissa d rest ++
        'e' :: (if (shortest rank).top < 0 then '-' else '+') ::
          padded 2 (shortest rank).top.natAbs := by
  rw [plain_eq, if_neg h]
  generalize shortest rank = n
  cases hdigits : ofNat n.digits with
  | nil => exact absurd hdigits (ofNat_ne_nil _)
  | cons d rest =>
    refine ⟨d, rest, rfl, ?_⟩
    cases rest <;> rfl

section Mantissa

variable {d : Char} {rest tail : Text}

theorem filter_mantissa (h : AllDigits (d :: rest)) :
    (mantissa d rest).filter isNumeric = mantissa d rest := by
  have hrest : AllDigits rest := fun c hc => h c (List.mem_cons_of_mem d hc)
  rw [mantissa, List.filter_cons_of_pos (h.numeric List.mem_cons_self)]
  split
  · rfl
  · rw [List.filter_cons_of_pos (by decide), hrest.filter]

theorem readNumeral?_mantissa_sign (negative : Bool) (h : AllDigits (d :: rest)) (tail : Text) :
    readNumeral? (sign negative ++ (mantissa d rest ++ tail)) =
      readUnsigned? negative (mantissa d rest ++ tail) := by
  refine readNumeral?_sign negative fun hhead => ?_
  cases h '-' (Option.some.inj hhead ▸ List.mem_cons_self)

/-- What is no digit ends the mantissa. -/
theorem readUnsigned?_mantissa (negative : Bool) (h : AllDigits (d :: rest)) (htail : EndsDigits tail)
    (hpoint : '.' ∉ tail.head?) :
    readUnsigned? negative (mantissa d rest ++ tail) = some ⟨negative, [d], rest⟩ := by
  obtain ⟨hd, hrest⟩ := allDigits_append (s := [d]).1 h
  rw [mantissa]
  split
  · rename_i hnil
    rw [hnil]
    exact readUnsigned?_whole negative hd (List.cons_ne_nil d []) htail hpoint
  · exact (readUnsigned?_pointed negative hd hrest htail).trans (if_neg (by simp))

/-- Digits behind the mantissa are read as its last ones, so it is below the power of ten of their
number. -/
theorem exists_readUnsigned?_mantissa (negative : Bool) (h : AllDigits (d :: rest))
    (htail : AllDigits tail) : ∃ whole fraction, AllDigits (whole ++ fraction) ∧
      whole.length ≤ tail.length + 1 ∧
        readUnsigned? negative (mantissa d rest ++ tail) = some ⟨negative, whole, fraction⟩ := by
  obtain ⟨hd, hrest⟩ := allDigits_append (s := [d]).1 h
  rw [mantissa]
  split
  · refine ⟨d :: tail, [], ?_, Nat.le_refl _, ?_⟩
    · rw [List.append_nil]
      exact allDigits_append.2 ⟨hd, htail⟩
    · have hread := readUnsigned?_whole negative (allDigits_append.2 ⟨hd, htail⟩)
        (List.cons_ne_nil d _) endsDigits_nil nofun
      rwa [List.append_nil] at hread
  · refine ⟨[d], rest ++ tail, ?_, by simp, ?_⟩
    · exact allDigits_append.2 ⟨hd, allDigits_append.2 ⟨hrest, htail⟩⟩
    · have hread := readUnsigned?_pointed negative hd (allDigits_append.2 ⟨hrest, htail⟩)
        endsDigits_nil
      rw [List.append_nil] at hread
      exact hread.trans (if_neg (by simp))

end Mantissa

/-- The digits of a text with a negative power of ten are read, but not the power. -/
theorem readNumeral?_small (negative : Bool) (h : (shortest rank).top < -4) :
    ∃ d rest, ofNat (shortest rank).digits = d :: rest ∧
      readNumeral? ((sign negative ++ plain rank).filter isNumeric) =
        some ⟨negative, [d], rest⟩ := by
  have hpower : ¬ (-4 ≤ (shortest rank).top ∧ (shortest rank).top < 16) := by omega
  obtain ⟨d, rest, hdigits, hplain⟩ := plain_power hpower
  have hall : AllDigits (d :: rest) := hdigits ▸ allDigits_ofNat (shortest rank).digits
  refine ⟨d, rest, hdigits, ?_⟩
  rw [hplain, if_pos (by omega), List.filter_append, filter_sign, List.filter_append,
    filter_mantissa hall, List.filter_cons_of_neg (by decide), List.filter_cons_of_pos (by decide),
    (allDigits_padded _ _).filter, readNumeral?_mantissa_sign negative hall]
  exact readUnsigned?_mantissa negative hall (endsDigits_cons (by decide) _) (by simp)

/-- The digits of a text with a positive power of ten are read with those of the power behind them. -/
theorem exists_readNumeral?_large (negative : Bool) (h : 16 ≤ (shortest rank).top) :
    ∃ whole fraction, AllDigits (whole ++ fraction) ∧
      whole.length ≤ (padded 2 (shortest rank).top.natAbs).length + 1 ∧
        readNumeral? ((sign negative ++ plain rank).filter isNumeric) =
          some ⟨negative, whole, fraction⟩ := by
  have hpower : ¬ (-4 ≤ (shortest rank).top ∧ (shortest rank).top < 16) := by omega
  obtain ⟨d, rest, hdigits, hplain⟩ := plain_power hpower
  have hall : AllDigits (d :: rest) := hdigits ▸ allDigits_ofNat (shortest rank).digits
  rw [hplain, if_neg (by omega), List.filter_append, filter_sign, List.filter_append,
    filter_mantissa hall, List.filter_cons_of_neg (by decide), List.filter_cons_of_neg (by decide),
    (allDigits_padded _ _).filter, readNumeral?_mantissa_sign negative hall]
  exact exists_readUnsigned?_mantissa negative hall (allDigits_padded _ _)

/-! ### Reading the text of a number -/

theorem Reading.value_lt {r : Reading} (h : AllDigits (r.whole ++ r.fraction)) :
    r.numeral.value < 10 ^ r.whole.length := by
  have hvalue := digitsValue_lt h
  rw [List.length_append, Nat.pow_add] at hvalue
  have hvalue : (digitsValue (r.whole ++ r.fraction) : ℚ) <
      10 ^ r.whole.length * 10 ^ r.fraction.length := by exact_mod_cast hvalue
  rw [Reading.numeral, Numeral.value, zpow_neg, zpow_natCast, ← div_eq_mul_inv, div_lt_iff₀ (by positivity)]
  exact hvalue

theorem length_padded_lt {top : Nat} (h : 16 ≤ top) : (padded 2 top).length + 2 ≤ top := by
  obtain ⟨k, rfl⟩ := Nat.exists_eq_add_of_le h
  have hpower : 16 + k < 10 ^ (14 + k) := by
    have hk : k < 10 ^ k := Nat.lt_pow_self (by decide)
    rw [Nat.pow_add]
    omega
  have hlength := (length_ofNat_le_iff (by omega)).2 hpower
  rw [padded, List.length_append, List.length_replicate]
  omega

/-- What is read as a positive number reads back as it. -/
theorem readsBack_of_parseText {s : Text} {r : Reading} {negative : Bool} {rank : Fin ranks}
    (hrank : 0 < rank.val) (hread : readNumeral? (s.filter isNumeric) = some r)
    (h : parseText s = some (.finite negative rank)) : readsBack rank r.numeral = true := by
  rw [parseText, hread, Option.map_some, r.toBinary64_eq] at h
  exact (readsBack_of_ofScientific (Option.some.inj h) hrank).2

theorem parseText_ordinary {rank : Fin ranks} (negative : Bool) (hlow : -4 ≤ (shortest rank).top)
    (hhigh : (shortest rank).top < 16) :
    parseText (sign negative ++ plain rank) = some (.finite negative rank) := by
  obtain ⟨whole, fraction, hwhole, hfraction, hne, hplain, hvalue⟩ := plain_ordinary hlow hhigh
  have hnumeral := IsNumeral.pointed negative hwhole hfraction hne
  rw [List.append_assoc, ← hplain] at hnumeral
  generalize hr : (⟨negative, whole, fraction⟩ : Reading) = r at hnumeral
  have hvalue : r.numeral.value = (shortest rank).value := hr ▸ hvalue
  have hsize : ((shortest rank).value = 0 ∨ 1 / 10 ^ 15 ≤ (shortest rank).value) ∧
      (shortest rank).value < 10 ^ 200 := by
    rcases Nat.eq_zero_or_pos rank.val with hzero | hrank
    · rw [hzero, value_shortest_zero]
      norm_num
    · have hdigits := digits_shortest_pos hrank
      have hbelow := ((shortest rank).top_lt_iff hdigits 16).1 hhigh
      have habove := ((shortest rank).top_lt_iff hdigits (-4)).not.1 (not_lt.2 hlow)
      exact ⟨.inr ((show (1 / 10 ^ 15 : ℚ) ≤ 10 ^ (-4 : ℤ) by norm_num).trans (not_lt.1 habove)),
        hbelow.trans (by norm_num)⟩
  obtain ⟨rank', heq, hback⟩ := exists_ofScientific (n := r.numeral) negative (hvalue ▸ hsize.1)
    (hvalue ▸ hsize.2)
  have hrank : rank' = rank :=
    Fin.ext (rank_unique hback ((readsBack_congr hvalue).2 (readsBack_shortest rank)))
  rw [parseText, hnumeral.filter, readNumeral?_of_isNumeral hnumeral, Option.map_some, r.toBinary64_eq,
    ← hrank, ← heq, ← hr]

theorem parseText_small {rank : Fin ranks} (negative : Bool) (hrank : 0 < rank.val)
    (h : (shortest rank).top < -4) :
    parseText (sign negative ++ plain rank) ≠ some (.finite negative rank) := by
  intro hparse
  obtain ⟨d, rest, hdigits, hread⟩ := readNumeral?_small negative h
  have hback := readsBack_of_parseText hrank hread hparse
  have hnear := value_le_three_mul hrank hback (readsBack_shortest rank)
  have hbelow := ((shortest rank).top_lt_iff (digits_shortest_pos hrank) (-4)).1 h
  -- the first digit alone is at least one
  have habove : 1 ≤ Numeral.value (Reading.numeral ⟨negative, [d], rest⟩) := by
    have hpower := ten_pow_length_le (digits_shortest_pos hrank)
    have hcount : (ofNat (shortest rank).digits).length - 1 = rest.length := by rw [hdigits]; rfl
    have hvalue : digitsValue ([d] ++ rest) = (shortest rank).digits := by
      rw [List.singleton_append, ← hdigits, digitsValue_ofNat]
    rw [hcount] at hpower
    rw [Reading.numeral, hvalue, Numeral.value, zpow_neg, zpow_natCast, ← div_eq_mul_inv,
      one_le_div (by positivity)]
    exact_mod_cast hpower
  norm_num at hbelow
  linarith

theorem parseText_large {rank : Fin ranks} (negative : Bool) (h : 16 ≤ (shortest rank).top) :
    parseText (sign negative ++ plain rank) ≠ some (.finite negative rank) := by
  intro hparse
  have hrank : 0 < rank.val := by
    refine Nat.pos_of_ne_zero fun hzero => ?_
    rw [hzero] at h
    exact absurd h (by decide)
  obtain ⟨whole, fraction, hdigits, hlength, hread⟩ := exists_readNumeral?_large negative h
  have hback := readsBack_of_parseText hrank hread hparse
  have hnear := value_le_three_mul hrank (readsBack_shortest rank) hback
  have hvalue := Reading.value_lt (r := ⟨negative, whole, fraction⟩) hdigits
  have habove := (Numeral.value_bounds (digits_shortest_pos hrank)).1
  have htop : 16 ≤ (shortest rank).top.natAbs := by omega
  have hplaces := length_padded_lt htop
  have hpower : (10 : ℚ) ^ (whole.length + 1) ≤ 10 ^ (shortest rank).top := by
    rw [← zpow_natCast]
    exact zpow_le_zpow_right₀ (by norm_num) (by push_cast; omega)
  rw [pow_succ] at hpower
  dsimp only at hvalue
  have hpos : (0 : ℚ) < 10 ^ whole.length := by positivity
  linarith

/-! ### The numbers that are read back -/

/-- The rank of the least number whose text has no power of ten. -/
def plainLow : Nat := nearestRank 1 (Nat.pow 10 4)

/-- The rank of the least number whose text has a positive power of ten. -/
def plainHigh : Nat := nearestRank (Nat.pow 10 16) 1

theorem shortest_plainLow : shortest plainLow = ⟨1, -4⟩ := by
  decide +kernel

theorem shortest_plainHigh : shortest plainHigh = ⟨1, 16⟩ := by
  decide +kernel

theorem units_plainLow :
    units (plainLow - 1) * 10 ^ 4 < unitsPerOne ∧ unitsPerOne ≤ units plainLow * 10 ^ 4 := by
  decide +kernel

theorem units_plainHigh : units (plainHigh - 1) < 10 ^ 16 * unitsPerOne ∧
    10 ^ 16 * unitsPerOne ≤ units plainHigh := by
  decide +kernel

theorem top_lt_low_iff (hrank : 0 < rank) :
    (shortest rank).top < -4 ↔ (units rank / unitsPerOne : ℚ) < 1 / 10 ^ 4 := by
  have hone : (0 : ℚ) < unitsPerOne := by exact_mod_cast unitsPerOne_pos
  have hvalue : Numeral.value ⟨1, -4⟩ = 1 / 10 ^ 4 := by norm_num [Numeral.value]
  have hbelow : (units (plainLow - 1) * 10 ^ 4 : ℚ) < unitsPerOne := by
    exact_mod_cast units_plainLow.1
  have habove : (unitsPerOne : ℚ) ≤ units plainLow * 10 ^ 4 := by exact_mod_cast units_plainLow.2
  rw [Numeral.top_lt_iff (digits_shortest_pos hrank), show (10 : ℚ) ^ (-4 : ℤ) = 1 / 10 ^ 4 by norm_num,
    ← hvalue, value_shortest_lt_iff shortest_plainLow (by rw [hvalue]; linarith)
      (by rw [hvalue]; linarith), div_lt_iff₀ hone]

theorem top_lt_high_iff (hrank : 0 < rank) :
    (shortest rank).top < 16 ↔ (units rank / unitsPerOne : ℚ) < 10 ^ 16 := by
  have hone : (0 : ℚ) < unitsPerOne := by exact_mod_cast unitsPerOne_pos
  have hvalue : Numeral.value ⟨1, 16⟩ = 10 ^ 16 := by norm_num [Numeral.value]
  have hbelow : (units (plainHigh - 1) : ℚ) < 10 ^ 16 * unitsPerOne := by
    exact_mod_cast units_plainHigh.1
  have habove : (10 ^ 16 * unitsPerOne : ℚ) ≤ units plainHigh := by exact_mod_cast units_plainHigh.2
  rw [Numeral.top_lt_iff (digits_shortest_pos hrank), show (10 : ℚ) ^ (16 : ℤ) = 10 ^ 16 by norm_num,
    ← hvalue, value_shortest_lt_iff shortest_plainHigh (hvalue ▸ hbelow) (hvalue ▸ habove),
    div_lt_iff₀ hone]

theorem ofScientific_zero (negative : Bool) (digits : Nat) :
    ofScientific negative digits 0 = nearest negative digits 1 := by
  show (if digits ≠ 0 ∧ 400 < 0 then _ else
    nearest negative (digits * Nat.pow 10 (if digits = 0 then 0 else 0)) 1) = _
  rw [if_neg (by omega), ite_self, Nat.pow_eq, Nat.pow_zero, Nat.mul_one]

theorem parse_ofInt {n : Int} {x : Binary64} (h : ofInt? n = some x) :
    parse (.text (Text.ofInt n)) = .ok (some x) := by
  have htext : Text.ofInt n = sign (decide (n < 0)) ++ ofNat n.natAbs := by
    rw [Text.ofInt, sign]
    split <;> simp [*]
  have hnumeral := IsNumeral.whole (decide (n < 0)) (allDigits_ofNat n.natAbs) (ofNat_ne_nil _)
  rw [← htext] at hnumeral
  have hx : nearest (decide (n < 0)) n.natAbs 1 = x := (Option.guard_eq_some_iff.1 h).1
  have hread : Reading.toBinary64 ⟨decide (n < 0), ofNat n.natAbs, []⟩ = x := by
    rw [← hx, ← ofScientific_zero, Reading.toBinary64, List.append_nil, digitsValue_ofNat,
      List.length_nil, Nat.cast_zero, neg_zero]
  rw [show parse (.text (Text.ofInt n)) = .ok (parseText (Text.ofInt n)) from rfl, parseText,
    hnumeral.filter, readNumeral?_of_isNumeral hnumeral, Option.map_some, hread]

theorem parse_int {n : Int} {x : Binary64} (h : ofInt? n = some x) :
    parse (.int n) = .ok (some x) := by
  generalize hv : Value.int n = v
  fun_cases parse v with
  | case1 m y hy =>
    cases hv
    rw [← h, hy]
  | case2 m hm =>
    cases hv
    cases hm.symm.trans h
  | case3 => cases hv
  | case4 => cases hv
  | case5 => cases hv
  | case6 => cases hv
  | case7 v hint => exact absurd hv.symm (hint n)

theorem parse_float {x : Binary64} (h : x ≠ .nan) : parse (.float x) = .ok (some x) := by
  show Except.ok (if x = .nan then none else some x) = _
  rw [if_neg h]

theorem toText_finite (negative : Bool) (rank : Fin ranks) :
    Value.toText (.float (.finite negative rank)) = sign negative ++ plain rank := by
  simp only [Value.toText, Value.listed]
  cases negative <;> rfl

/-- A finite number is read out of its text as what it is exactly if it is zero or its text has no
power of ten. -/
theorem parseText_plain_iff {negative : Bool} {rank : Fin ranks} {q : ℚ}
    (hq : toRat? (.finite negative rank) = some q) :
    parseText (sign negative ++ plain rank) = some (.finite negative rank) ↔
      q = 0 ∨ 1 / 10 ^ 4 ≤ |q| ∧ |q| < 10 ^ 16 := by
  have habs := abs_eq_of_toRat? hq
  rcases Nat.eq_zero_or_pos rank.val with hzero | hrank
  · have htop : (shortest rank).top = 0 := by rw [hzero]; rfl
    have hq : q = 0 := by rw [← abs_eq_zero, habs, hzero, units_zero, Nat.cast_zero, zero_div]
    exact iff_of_true (parseText_ordinary negative (by omega) (by omega)) (.inl hq)
  · have hne : q ≠ 0 := by
      have hunits : 0 < units rank := by simpa using units_lt_units hrank
      have hone := unitsPerOne_pos
      rw [← abs_pos, habs]
      positivity
    rw [or_iff_right hne, habs, ← not_lt, ← top_lt_low_iff hrank, ← top_lt_high_iff hrank, not_lt]
    constructor
    · intro hparse
      exact ⟨not_lt.1 fun h => parseText_small negative hrank h hparse,
        not_le.1 fun h => parseText_large negative h hparse⟩
    · exact fun h => parseText_ordinary negative h.1 h.2

/-- An integer that is in the range of floats, or a finite float. -/
inductive IsNumber : Value → Prop
  | int {n : Int} {x : Binary64} (h : ofInt? n = some x) : IsNumber (.int n)
  | float (negative : Bool) (rank : Fin ranks) : IsNumber (.float (.finite negative rank))

/-- A number is read out of its text as what it is exactly if it is an integer, or a float that is zero
or of ordinary size. -/
theorem parse_toText {v : Value} (h : IsNumber v) : parse (.text v.toText) = parse v ↔
    ∀ x q, v = .float x → x.toRat? = some q → q = 0 ∨ 1 / 10 ^ 4 ≤ |q| ∧ |q| < 10 ^ 16 := by
  cases h with
  | int h =>
    rename_i n x
    have htext : Value.toText (.int n) = Text.ofInt n := by
      simp only [Value.toText, Value.listed]
    refine iff_of_true ?_ nofun
    rw [htext, parse_ofInt h, parse_int h]
  | float negative rank =>
    have hnan : Binary64.finite negative rank ≠ .nan := nofun
    rw [toText_finite, parse_float hnan]
    constructor
    · rintro hparse x q ⟨⟩ hq
      exact (parseText_plain_iff hq).1 (Except.ok.inj hparse)
    · intro hsize
      exact congrArg Except.ok ((parseText_plain_iff rfl).2 (hsize _ _ rfl rfl))

/-- An integer is written without a power of ten even where a float is not. -/
theorem parse_toText_largeInt : IsNumber (.int (10 ^ 22)) ∧
    parse (.text (lit "10000000000000000000000")) = parse (.int (10 ^ 22)) := by
  have hint : ofInt? (10 ^ 22) = some (ofScientific false 1 22) := by decide +kernel
  have htext : Value.toText (.int (10 ^ 22)) = lit "10000000000000000000000" := by
    simp only [Value.toText, Value.listed, lit]
    decide +kernel
  have hparse := (parse_toText (.int hint)).2 fun x q hfloat => by cases hfloat
  rw [htext] at hparse
  exact ⟨.int hint, hparse⟩

/-- The digits of the power stand behind the digit of the number. -/
theorem parse_power :
    Value.toText (.float (ofScientific false 1 22)) = lit "1e+22" ∧
      parse (.float (ofScientific false 1 22)) = .ok (some (ofScientific false 1 22)) ∧
      parse (.text (lit "1e+22")) = .ok (some (ofScientific false 122 0)) ∧
      ofScientific false 1 22 ≠ ofScientific false 122 0 := by
  refine ⟨?_, ?_, ?_, by decide +kernel⟩
  · simp only [Value.toText, Value.listed, lit]
    decide +kernel
  · have hnan : ofScientific false 1 22 ≠ .nan := by decide +kernel
    exact parse_float hnan
  · have hread : readNumeral? ((lit "1e+22").filter isNumeric) = some ⟨false, ['1', '2', '2'], []⟩ := by
      rw [lit]
      rfl
    rw [show parse (.text (lit "1e+22")) = .ok (parseText (lit "1e+22")) from rfl, parseText, hread]
    rfl

end Amount

end Tender
