/-
Amounts of money, exact to the cent.

* `Amount.exists_groups` — a whole number is written in groups of three digits;
* `Amount.abs_rounded_sub_le`, `Amount.abs_le_of_half` — the nearest cent, of two the one further from
  zero;
* `Amount.format_of_readAs` — what is read as an amount is written with the cents nearest to it;
* `Amount.format_spelled` — so is every amount of up to fifteen digits.
-/
import Tender.Proofs.Helper.Money
import Tender.Proofs.Helper.Reading
import Tender.Proofs.Text.Cut

namespace Tender

namespace Amount

open Text Binary64

variable {a : ℚ}

/-! ### Groups of digits -/

/-- The digits of a number in groups of three, the first of one to three. -/
structure Groups (n : Nat) (groups : List Text) : Prop where
  flatten : groups.flatten = ofNat n
  lead : ∀ g ∈ groups.head?, 1 ≤ g.length ∧ g.length ≤ 3
  rest : ∀ g ∈ groups.tail, g.length = 3

theorem Groups.ne_nil {n : Nat} {groups : List Text} (h : Groups n groups) : groups ≠ [] := by
  rintro rfl
  exact ofNat_ne_nil n h.flatten.symm

theorem joinWith_append_singleton {groups : List Text} (h : groups ≠ []) (g : Text) :
    joinWith [','] (groups ++ [g]) = joinWith [','] groups ++ ',' :: g := by
  induction groups with
  | nil => exact absurd rfl h
  | cons first groups ih =>
    cases groups with
    | nil => rw [List.singleton_append, joinWith_cons_cons, joinWith_singleton, joinWith_singleton,
        List.append_assoc, List.singleton_append]
    | cons second groups =>
      rw [List.cons_append, List.cons_append, joinWith_cons_cons, joinWith_cons_cons, ← List.cons_append,
        ih (List.cons_ne_nil _ _)]
      simp only [List.append_assoc]

/-- The last group stands behind the digits of the thousands. -/
theorem ofNat_thousands {n : Nat} (h : 1000 ≤ n) : ofNat (n / 1000) ++ padded 3 (n % 1000) = ofNat n := by
  have hthousands : 0 < n / 1000 := Nat.div_pos h (by decide)
  have hbelow : n % 1000 < 10 ^ 3 := Nat.mod_lt n (by decide)
  rw [ofNat_append_padded (by decide) hthousands hbelow]
  exact congrArg ofNat (Nat.div_add_mod n 1000)

/-- A whole number is written in groups of three digits. -/
theorem exists_groups (n : Nat) :
    ∃ groups, Groups n groups ∧ grouped n = joinWith [','] groups := by
  fun_induction grouped n with
  | case1 n hsmall =>
    have hlength : (ofNat n).length ≤ 3 := (length_ofNat_le_iff (by decide)).2 hsmall
    have hpos := List.length_pos_iff.2 (ofNat_ne_nil n)
    refine ⟨[ofNat n], ⟨List.flatten_singleton, ?_, nofun⟩, (joinWith_singleton _ _).symm⟩
    rintro g ⟨⟩
    exact ⟨hpos, hlength⟩
  | case2 n hlarge ih =>
    obtain ⟨groups, hgroups, heq⟩ := ih
    refine ⟨groups ++ [padded 3 (n % 1000)], ⟨?_, ?_, ?_⟩, ?_⟩
    · rw [List.flatten_append, List.flatten_singleton, hgroups.flatten,
        ofNat_thousands (Nat.le_of_not_lt hlarge)]
    · rw [List.head?_append_of_ne_nil _ hgroups.ne_nil]
      exact hgroups.lead
    · rw [List.tail_append_of_ne_nil hgroups.ne_nil]
      intro g hg
      rcases List.mem_append.1 hg with hg | hg
      · exact hgroups.rest g hg
      · rw [List.mem_singleton.1 hg]
        exact length_padded (by decide) (Nat.mod_lt n (by decide))
    · rw [heq, joinWith_append_singleton hgroups.ne_nil]

theorem padded_two {n : Nat} (h : n < 100) :
    padded 2 n = [Nat.digitChar (n / 10), Nat.digitChar (n % 10)] := by
  rw [padded_succ (by decide), padded_one, ofNat_of_lt_ten (by omega)]
  rfl

/-! ### The nearest cent -/

/-- The cents of an amount without its sign, half a cent counting as a whole. -/
def cents (a : ℚ) : Nat :=
  ⌊100 * |a| + 1 / 2⌋₊

/-- An amount to the nearest cent, half a cent away from zero. -/
def rounded (a : ℚ) : ℚ :=
  if a < 0 then -(cents a / 100) else cents a / 100

theorem abs_rounded (a : ℚ) : |rounded a| = cents a / 100 := by
  have hpos : (0 : ℚ) ≤ cents a / 100 := by positivity
  unfold rounded
  split
  · rw [abs_neg, abs_of_nonneg hpos]
  · exact abs_of_nonneg hpos

theorem rounded_neg_iff : rounded a < 0 ↔ a < 0 ∧ cents a ≠ 0 := by
  have hpos : (0 : ℚ) ≤ cents a / 100 := by positivity
  unfold rounded
  split
  · rename_i hneg
    rw [neg_neg_iff_pos, div_pos_iff_of_pos_right (by norm_num), Nat.cast_pos, Nat.pos_iff_ne_zero]
    exact (and_iff_right hneg).symm
  · rename_i hneg
    exact iff_of_false (not_lt.2 hpos) fun h => hneg h.1

/-- No more than half a cent is lost or won. -/
theorem abs_rounded_sub_le (a : ℚ) : |rounded a - a| ≤ 1 / 200 := by
  have hlow : (cents a : ℚ) ≤ 100 * |a| + 1 / 2 := Nat.floor_le (by positivity)
  have hhigh : 100 * |a| + 1 / 2 < cents a + 1 := Nat.lt_floor_add_one _
  unfold rounded
  split
  · rename_i hneg
    rw [abs_of_neg hneg] at hlow hhigh
    rw [abs_le]
    constructor <;> linarith
  · rename_i hneg
    rw [abs_of_nonneg (not_lt.1 hneg)] at hlow hhigh
    rw [abs_le]
    constructor <;> linarith

/-- Of two cents that are equally near, the one further from zero is taken. -/
theorem abs_le_of_half (h : |rounded a - a| = 1 / 200) : |a| ≤ |rounded a| := by
  have hhigh : 100 * |a| + 1 / 2 < cents a + 1 := Nat.lt_floor_add_one _
  rw [abs_rounded]
  unfold rounded at h
  split at h
  · rename_i hneg
    rw [abs_of_neg hneg] at hhigh ⊢
    rcases eq_or_eq_neg_of_abs_eq h with h | h <;> linarith
  · rename_i hneg
    rw [abs_of_nonneg (not_lt.1 hneg)] at hhigh ⊢
    rcases eq_or_eq_neg_of_abs_eq h with h | h <;> linarith

/-- An amount that is short enough has few enough cents. -/
theorem cents_le {limit : Nat} (h : |a| ≤ limit) : cents a ≤ 100 * limit := by
  refine Nat.le_of_lt_succ ((Nat.floor_lt (by positivity)).2 ?_)
  push_cast
  linarith

theorem roundCents_shortest {negative : Bool} {n : Numeral} (h : n.signed negative = a) :
    roundCents n.digits n.exponent = cents a := by
  rw [roundCents_eq, cents, ← h, n.abs_signed]

/-! ### Written amounts -/

/-- An amount as it is written: the sign, the currency symbol, the whole part and two places. -/
def written (symbol : Text) (a : ℚ) : Text :=
  sign (decide (rounded a < 0)) ++ symbol ++ grouped (cents a / 100) ++ '.' :: padded 2 (cents a % 100)

theorem write_eq_written {negative : Bool} {n : Numeral} (h : n.signed negative = a) (symbol : Text) :
    write symbol negative (cents a) = written symbol a := by
  have hsign : (negative && decide (cents a ≠ 0)) = decide (rounded a < 0) := by
    rw [Bool.eq_iff_iff, Bool.and_eq_true, decide_eq_true_iff, decide_eq_true_iff, rounded_neg_iff]
    refine and_congr_left fun hcents => ?_
    -- an amount with cents is not zero, so its sign is that of the numeral
    have hne : n.value ≠ 0 := fun hzero => hcents (by
      rw [cents, ← h, n.abs_signed, hzero]
      norm_num)
    have hpos : 0 < n.value := lt_of_le_of_ne n.value_nonneg hne.symm
    cases negative with
    | true =>
      refine iff_of_true rfl ?_
      rw [← h]
      exact neg_neg_of_pos hpos
    | false =>
      refine iff_of_false nofun (not_lt.2 ?_)
      rw [← h]
      exact hpos.le
  rw [write, written, hsign]
  rfl

/-- What is read as an amount is written with the cents nearest to it. -/
theorem format_of_readAs {v : Value} (h : ReadAs v a) (hlimit : cents a < centsLimit) (symbol : Text) :
    format (.value v) symbol = .ok (.value (.text (written symbol a))) := by
  obtain ⟨x, hparse, hprinted⟩ := h
  cases x with
  | nan => cases hprinted
  | infinite => cases hprinted
  | finite negative rank =>
    have hvalue := Option.some.inj hprinted
    have hnumber : writeNumber symbol negative rank = .ok (written symbol a) := by
      rw [writeNumber, roundCents_shortest hvalue, if_pos hlimit, write_eq_written hvalue]
    cases v with
    | null => cases hparse
    | _ =>
      unfold format
      dsimp only [Outcome.toValue]
      rw [hparse]
      show (do return .value (.text (← writeNumber symbol negative rank)) : Except Fault Outcome) = _
      rw [hnumber]
      rfl

/-- An amount of up to fifteen digits is written with the cents nearest to it, half a cent away from
zero, and has a sign exactly if what is left of it is below zero. -/
theorem format_spelled {v : Value} (h : Spells v a) (ha : IsShort a) (symbol : Text) :
    ∃ groups, Groups (cents a / 100) groups ∧
      format (.value v) symbol = .ok (.value (.text (sign (decide (rounded a < 0)) ++ symbol ++
        joinWith [','] groups ++
          ['.', Nat.digitChar (cents a / 10 % 10), Nat.digitChar (cents a % 10)]))) := by
  obtain ⟨groups, hgroups, heq⟩ := exists_groups (cents a / 100)
  have hlimit : cents a < centsLimit := by
    have hbound : cents a ≤ 100 * 10 ^ 15 := cents_le (by exact_mod_cast ha.below.le)
    exact hbound.trans_lt (by decide)
  have htens : cents a % 100 / 10 = cents a / 10 % 10 := by omega
  have hones : cents a % 100 % 10 = cents a % 10 := by omega
  refine ⟨groups, hgroups, ?_⟩
  rw [format_of_readAs (readAs_of_spells h ha) hlimit, written, heq,
    padded_two (Nat.mod_lt _ (by decide)), htens, hones]

/-- A carry over many nines behind a text with other characters in between. -/
theorem format_carry :
    Spells (.text (lit "$ -999,999.995 net")) (-999999995 / 1000) ∧ IsShort (-999999995 / 1000) ∧
      ∃ groups, Groups 1000000 groups ∧
        format (.value (.text (lit "$ -999,999.995 net"))) ['€'] =
          .ok (.value (.text ('-' :: '€' :: joinWith [','] groups ++ ['.', '0', '0']))) := by
  have hspells : Spells (.text (lit "$ -999,999.995 net")) (-999999995 / 1000) := by
    have hfilter : (lit "$ -999,999.995 net").filter isNumeric =
        sign true ++ ['9', '9', '9', '9', '9', '9'] ++ '.' :: ['9', '9', '5'] := by
      rw [lit]
      decide
    have hnumeral : IsNumeral (sign true ++ ['9', '9', '9', '9', '9', '9'] ++ '.' :: ['9', '9', '5'])
        ⟨true, ['9', '9', '9', '9', '9', '9'], ['9', '9', '5']⟩ :=
      .pointed true (by decide) (by decide) (by decide)
    have hvalue := Spells.text (hfilter ▸ hnumeral)
    have hread : Reading.numeral ⟨true, ['9', '9', '9', '9', '9', '9'], ['9', '9', '5']⟩ =
        ⟨999999995, -3⟩ := by decide
    rw [Reading.value, hread] at hvalue
    norm_num [Numeral.signed, Numeral.value] at hvalue ⊢
    exact hvalue
  have hshort : IsShort (-999999995 / 1000) :=
    ⟨by norm_num, ⟨999999995, -3, by norm_num⟩, ⟨999999995000000000000, by norm_num⟩⟩
  have hcents : cents (-999999995 / 1000) = 100000000 := by
    rw [cents, Nat.floor_eq_iff (by positivity)]
    norm_num
  have hneg : rounded (-999999995 / 1000) < 0 := rounded_neg_iff.2 ⟨by norm_num, by rw [hcents]; decide⟩
  have hformat := format_spelled hspells hshort ['€']
  rw [hcents, decide_eq_true hneg] at hformat
  exact ⟨hspells, hshort, hformat⟩

end Amount

end Tender
