/-
Written amounts that are read again.

* `Amount.isNumeral_written` — behind a symbol without numeric characters other than zeros, what is
  written is a numeral of the amount to the cent;
* `Amount.numeric_cases` — how any other row of numeric characters goes on when digits follow;
* `Amount.rereads_iff` — the symbols that every amount can be read behind.
-/
import Tender.Proofs.Helper.Cents

namespace Tender

namespace Amount

open Text Binary64 Decimal

variable {symbol : Text} {a : ℚ}

/-! ### Symbols without digits -/

theorem filter_grouped (n : Nat) : (grouped n).filter isNumeric = ofNat n := by
  fun_induction grouped n with
  | case1 n hsmall => exact (allDigits_ofNat n).filter
  | case2 n hlarge ih =>
    rw [List.filter_append, ih, List.filter_cons_of_neg (by decide), (allDigits_padded _ _).filter,
      ofNat_thousands (Nat.le_of_not_lt hlarge)]

/-- No numeric character of the symbol is anything but a zero. -/
def IsHarmless (symbol : Text) : Prop :=
  ∀ c ∈ symbol, isNumeric c = true → c = '0'

theorem IsHarmless.filter (h : IsHarmless symbol) :
    ∃ count, symbol.filter isNumeric = List.replicate count '0' :=
  ⟨_, List.eq_replicate_of_mem fun c hc => h c (List.mem_of_mem_filter hc) (List.of_mem_filter hc)⟩

theorem rounded_eq (a : ℚ) :
    Numeral.signed (decide (rounded a < 0)) ⟨cents a, -2⟩ = rounded a := by
  have hvalue : Numeral.value ⟨cents a, -2⟩ = |rounded a| := by
    rw [abs_rounded, Numeral.value, zpow_neg, div_eq_mul_inv]
    norm_num
  rw [Numeral.signed, hvalue]
  split
  · rename_i hneg
    rw [abs_of_neg (of_decide_eq_true hneg), neg_neg]
  · rename_i hneg
    exact abs_of_nonneg (not_lt.1 fun h => hneg (decide_eq_true h))

/-- What is written behind such a symbol is a numeral of the amount to the cent. -/
theorem isNumeral_written (h : IsHarmless symbol) (a : ℚ) :
    ∃ r, IsNumeral ((written symbol a).filter isNumeric) r ∧ r.value = rounded a := by
  obtain ⟨count, hsymbol⟩ := h.filter
  have hplaces : (padded 2 (cents a % 100)).length = 2 :=
    length_padded (by decide) (Nat.mod_lt _ (by decide))
  have hwhole : AllDigits (List.replicate count '0' ++ ofNat (cents a / 100)) :=
    allDigits_append.2 ⟨allDigits_zeros count, allDigits_ofNat _⟩
  refine ⟨⟨decide (rounded a < 0), List.replicate count '0' ++ ofNat (cents a / 100),
    padded 2 (cents a % 100)⟩, ?_, ?_⟩
  · have hfilter : (written symbol a).filter isNumeric = sign (decide (rounded a < 0)) ++
        (List.replicate count '0' ++ ofNat (cents a / 100)) ++ '.' :: padded 2 (cents a % 100) := by
      rw [written, List.filter_append, List.filter_append, List.filter_append, filter_sign, hsymbol,
        filter_grouped, List.filter_cons_of_pos (by decide), (allDigits_padded _ _).filter]
      simp only [List.append_assoc]
    rw [hfilter]
    refine .pointed _ hwhole (allDigits_padded _ _) fun hnil => ?_
    exact ofNat_ne_nil _ (List.append_eq_nil_iff.1 (List.append_eq_nil_iff.1 hnil).1).2
  · have hdigits : digitsValue (List.replicate count '0' ++ ofNat (cents a / 100) ++
        padded 2 (cents a % 100)) = cents a := by
      rw [digitsValue_append, digitsValue_append, digitsValue_zeros, digitsValue_ofNat,
        digitsValue_padded, hplaces]
      omega
    rw [Reading.value, Reading.numeral, hdigits, hplaces]
    exact rounded_eq a

/-- An amount of up to thirteen digits before the point is short when it has only cents. -/
theorem isShort_rounded (h : |a| < 10 ^ 13) : IsShort (rounded a) := by
  have hcents : cents a ≤ 100 * 10 ^ 13 := cents_le (by exact_mod_cast h.le)
  have hcents : cents a ≤ 10 ^ 15 := hcents.trans_eq (by norm_num)
  have hcents' : (cents a : ℚ) ≤ 10 ^ 15 := by exact_mod_cast hcents
  refine ⟨?_, ?_, ⟨cents a * 10 ^ 13, ?_⟩⟩
  · rw [abs_rounded]
    linarith
  · rw [abs_rounded]
    obtain heq | hless := hcents.eq_or_lt
    · exact ⟨1, 13, by norm_num, by rw [heq]; norm_num⟩
    · refine ⟨cents a, -2, hless, ?_⟩
      rw [zpow_neg, div_eq_mul_inv]
      norm_num
  · rw [abs_rounded]
    push_cast
    ring

theorem cents_rounded (a : ℚ) : cents (rounded a) = cents a := by
  rw [cents, abs_rounded, Nat.floor_eq_iff (by positivity)]
  constructor <;> linarith

theorem rounded_rounded (a : ℚ) : rounded (rounded a) = rounded a := by
  rw [rounded, cents_rounded, ← abs_rounded]
  split
  · rename_i hneg
    rw [abs_of_neg hneg, neg_neg]
  · rename_i hneg
    exact abs_of_nonneg (not_lt.1 hneg)

theorem written_rounded (symbol : Text) (a : ℚ) : written symbol (rounded a) = written symbol a := by
  rw [written, written, rounded_rounded, cents_rounded]

/-! ### Amounts that are read again -/

/-- An amount that is read back, to the cent, out of what is written of it, so that it is written again
as it was. -/
def Rereads (symbol : Text) (v : Value) (a : ℚ) : Prop :=
  ∃ t, format (.value v) symbol = .ok (.value (.text t)) ∧ ReadAs (.text t) (rounded a) ∧
    format (.value (.text t)) symbol = .ok (.value (.text t))

theorem cents_lt_centsLimit (h : |a| < 10 ^ 13) : cents a < centsLimit := by
  have hcents : cents a ≤ 100 * 10 ^ 13 := cents_le (by exact_mod_cast h.le)
  exact hcents.trans_lt (by decide)

theorem rereads_of_isHarmless (hsymbol : IsHarmless symbol) {v : Value} (h : ReadAs v a)
    (ha : |a| < 10 ^ 13) : Rereads symbol v a := by
  obtain ⟨r, hr, hvalue⟩ := isNumeral_written hsymbol a
  have hread : ReadAs (.text (written symbol a)) (rounded a) :=
    readAs_of_spells (hvalue ▸ .text hr) (isShort_rounded ha)
  have hcents := cents_lt_centsLimit ha
  have hagain := format_of_readAs hread (by rwa [cents_rounded]) symbol
  refine ⟨written symbol a, format_of_readAs h hcents symbol, hread, ?_⟩
  rwa [written_rounded] at hagain

/-! ### Other symbols -/

theorem exists_digits (s : Text) :
    ∃ digits rest, AllDigits digits ∧ EndsDigits rest ∧ s = digits ++ rest := by
  refine ⟨_, _, ?_, ?_, (List.takeWhile_append_dropWhile (p := Char.isDigit)).symm⟩
  · exact List.all_eq_true.1 List.all_takeWhile
  · intro c hc
    have hstop := List.head?_dropWhile_not Char.isDigit s
    rw [hc] at hstop
    exact hstop

/-- A row of numeric characters is a row of digits, starts with a hyphen, or has a single point and
digits after it; behind any other, nothing more is read. -/
theorem numeric_cases {x : Text} (h : ∀ c ∈ x, isNumeric c = true) :
    AllDigits x ∨ (∃ y, x = '-' :: y) ∨
      (∃ whole fraction, AllDigits whole ∧ AllDigits fraction ∧ x = whole ++ '.' :: fraction) ∨
      ∀ s t, readNumeral? (x ++ s) = readNumeral? (x ++ t) := by
  obtain ⟨whole, rest, hwhole, hrest, rfl⟩ := exists_digits x
  cases rest with
  | nil => exact .inl (by rwa [List.append_nil])
  | cons c rest =>
    have hc : c = '.' ∨ c = '-' := by
      have hnumeric := h c (by simp)
      rw [isNumeric, hrest c rfl] at hnumeric
      simpa using hnumeric
    rcases hc with rfl | rfl
    · obtain ⟨fraction, rest, hfraction, hrest', rfl⟩ := exists_digits rest
      cases rest with
      | nil => exact .inr (.inr (.inl ⟨whole, fraction, hwhole, hfraction, by rw [List.append_nil]⟩))
      | cons d rest =>
        have hread (s : Text) : readNumeral? (whole ++ '.' :: (fraction ++ d :: rest) ++ s) =
            if whole = [] ∧ fraction = [] then none else some ⟨false, whole, fraction⟩ := by
          have hcut : whole ++ '.' :: (fraction ++ d :: rest) ++ s =
              whole ++ '.' :: (fraction ++ d :: (rest ++ s)) := by simp
          rw [hcut, ← readUnsigned?_pointed false hwhole hfraction
            (endsDigits_cons (hrest' d rfl) (rest ++ s))]
          exact readNumeral?_sign false (head?_pointed hwhole)
        exact .inr (.inr (.inr fun s t => by rw [hread, hread]))
    · rcases eq_or_ne whole [] with rfl | hne
      · exact .inr (.inl ⟨rest, rfl⟩)
      · have hread (s : Text) : readNumeral? (whole ++ '-' :: rest ++ s) = some ⟨false, whole, []⟩ := by
          have hends : EndsDigits ('-' :: (rest ++ s)) := endsDigits_cons (by decide) _
          have hhead : '-' ∉ (whole ++ '-' :: (rest ++ s)).head? := by
            rw [List.head?_append_of_ne_nil _ hne]
            exact hwhole.head
          rw [List.append_assoc, List.cons_append,
            ← readUnsigned?_whole false hwhole hne hends (by simp)]
          exact readNumeral?_sign false hhead
        exact .inr (.inr (.inr fun s t => by rw [hread, hread]))

/-- A numeral that is printed as one is not negative and not far from one. -/
theorem near_one {r : Reading} (h : r.toBinary64.printed? = some 1) :
    r.negative = false ∧ 1 ≤ 3 * r.numeral.value ∧ r.numeral.value ≤ 3 := by
  obtain ⟨m, hm, hhigh, hlow⟩ := near_of_printed (n := r.numeral) h one_ne_zero
  cases hsign : r.negative with
  | true =>
    rw [hsign, Numeral.signed, if_pos rfl] at hm
    linarith [m.value_nonneg]
  | false =>
    rw [hsign, Numeral.signed, if_neg (by decide)] at hm
    rw [hm] at hhigh hlow
    exact ⟨rfl, hlow, by linarith⟩

/-- Before a one that is read as no more than three, only zeros can stand. -/
theorem digitsValue_eq_zero_of_read {x : Text} (h : AllDigits x) {r : Reading}
    (hread : readNumeral? (x ++ ['1', '.', '0', '0']) = some r) (hr : r.numeral.value ≤ 3) :
    digitsValue x = 0 := by
  have hnumeral : IsNumeral (x ++ ['1', '.', '0', '0']) ⟨false, x ++ ['1'], ['0', '0']⟩ := by
    have hpointed : IsNumeral (sign false ++ (x ++ ['1']) ++ '.' :: ['0', '0'])
        ⟨false, x ++ ['1'], ['0', '0']⟩ :=
      .pointed false (allDigits_append.2 ⟨h, by decide⟩) (by decide) (by simp)
    simpa [sign] using hpointed
  obtain rfl := Option.some.inj ((readNumeral?_of_isNumeral hnumeral).symm.trans hread)
  have hdigits : digitsValue (x ++ ['1'] ++ ['0', '0']) = 100 * (10 * digitsValue x + 1) := by
    rw [digitsValue_append, digitsValue_append]
    rfl
  have hvalue : Reading.numeral ⟨false, x ++ ['1'], ['0', '0']⟩ =
      ⟨100 * (10 * digitsValue x + 1), -2⟩ := congrArg (Numeral.mk · _) hdigits
  rw [hvalue, Numeral.value] at hr
  have hbound : (10 * digitsValue x + 1 : ℚ) ≤ 3 := by
    norm_num at hr
    linarith
  have hbound' : 10 * digitsValue x + 1 ≤ 3 := by exact_mod_cast hbound
  omega

/-- A digit behind a point and other digits counts one place less. -/
theorem numeral_pointed {whole fraction : Text} (hwhole : AllDigits whole)
    (hfraction : AllDigits fraction) {c : Char} (hc : c.isDigit = true) {r : Reading}
    (hread : readNumeral? (whole ++ '.' :: fraction ++ [c, '.', '0', '0']) = some r) :
    r.numeral.value = (10 * digitsValue (whole ++ fraction) + digitsValue [c]) *
      10 ^ (-(fraction.length + 1 : ℕ) : ℤ) := by
  have hcut : whole ++ '.' :: fraction ++ [c, '.', '0', '0'] =
      whole ++ '.' :: (fraction ++ [c] ++ ['.', '0', '0']) := by simp
  have hdigits : AllDigits (fraction ++ [c]) :=
    allDigits_append.2 ⟨hfraction, fun d hd => List.mem_singleton.1 hd ▸ hc⟩
  have hends : EndsDigits ['.', '0', '0'] := endsDigits_cons (by decide) _
  have hall := readUnsigned?_pointed false hwhole hdigits hends
  rw [if_neg (by simp), ← hcut, ← readNumeral?_sign false (by
    rw [hcut]
    exact head?_pointed hwhole)] at hall
  obtain rfl := Option.some.inj (hall.symm.trans hread)
  have hvalue : digitsValue (whole ++ (fraction ++ [c])) =
      10 * digitsValue (whole ++ fraction) + digitsValue [c] := by
    rw [← List.append_assoc, digitsValue_append]
    rfl
  rw [Reading.numeral, hvalue, Numeral.value, List.length_append]
  push_cast
  rfl

/-- A symbol that zero and one can be read behind has no numeric characters but zeros. -/
theorem isHarmless_of_readAs (h0 : ReadAs (.text (symbol ++ ['0', '.', '0', '0'])) 0)
    (h1 : ReadAs (.text (symbol ++ ['1', '.', '0', '0'])) 1) : IsHarmless symbol := by
  obtain ⟨r, hread, hprinted⟩ := readAs_text_iff.1 h0
  obtain ⟨r', hread', hprinted'⟩ := readAs_text_iff.1 h1
  obtain ⟨hsign, hlow, hhigh⟩ := near_one hprinted'
  have hzeros : ['0', '.', '0', '0'].filter isNumeric = ['0', '.', '0', '0'] := by decide
  have hones : ['1', '.', '0', '0'].filter isNumeric = ['1', '.', '0', '0'] := by decide
  rw [List.filter_append, hzeros] at hread
  rw [List.filter_append, hones] at hread'
  rcases numeric_cases (x := symbol.filter isNumeric) fun c hc => List.of_mem_filter hc with
    hdigits | ⟨y, hy⟩ | ⟨whole, fraction, hwhole, hfraction, hx⟩ | hsame
  · intro c hc hnumeric
    exact eq_zero_of_digitsValue hdigits (digitsValue_eq_zero_of_read hdigits hread' hhigh)
      (List.mem_filter.2 ⟨hc, hnumeric⟩)
  · -- one would be read as a negative number
    rw [hy] at hread'
    cases hsign.symm.trans (negative_of_readUnsigned? hread')
  · -- zero and one would be read as numbers that are apart by a tenth at most
    exfalso
    rw [hx] at hread hread'
    have hzero := numeral_pointed hwhole hfraction (by decide) hread
    have hone := numeral_pointed hwhole hfraction (by decide) hread'
    have hplace : (10 : ℚ) ^ (-(fraction.length + 1 : ℕ) : ℤ) ≤ 1 / 10 :=
      (zpow_le_zpow_right₀ (n := -1) (by norm_num) (by omega)).trans (by norm_num)
    have hchars : digitsValue ['0'] = 0 ∧ digitsValue ['1'] = 1 := ⟨rfl, rfl⟩
    rw [hchars.1, Nat.cast_zero, add_zero] at hzero
    rw [hchars.2, Nat.cast_one, add_mul, one_mul, ← hzero] at hone
    have hpos : (0 : ℚ) < 10 ^ (-(fraction.length + 1 : ℕ) : ℤ) := by positivity
    have hsmall := lt_of_printed_zero (n := r.numeral) hprinted (by
      have : r.numeral.value ≤ 3 := by linarith
      exact this.trans_lt (by norm_num))
    linarith
  · rw [hsame _ ['1', '.', '0', '0'], hread'] at hread
    rw [← Option.some.inj hread, hprinted'] at hprinted
    exact absurd (Option.some.inj hprinted) one_ne_zero

theorem isShort_of_lt_ten {n : Nat} (h : n < 10) : IsShort n := by
  have hless : (n : ℚ) < 10 := by exact_mod_cast h
  have habs : |(n : ℚ)| = n := Nat.abs_cast n
  exact ⟨by linarith, ⟨n, 0, by omega, by rw [habs, zpow_zero, mul_one]⟩,
    ⟨n * 10 ^ 15, by rw [habs]; push_cast; rfl⟩⟩

theorem cents_natCast (n : Nat) : cents n = 100 * n := by
  rw [cents, Nat.floor_eq_iff (by positivity), Nat.abs_cast]
  push_cast
  constructor <;> linarith

theorem rounded_natCast (n : Nat) : rounded n = n := by
  rw [rounded, if_neg (not_lt.2 (Nat.cast_nonneg n)), cents_natCast]
  push_cast
  ring

/-- What is written of a number of one digit. -/
theorem written_of_lt_ten (symbol : Text) {n : Nat} (h : n < 10) :
    written symbol n = symbol ++ [Nat.digitChar n, '.', '0', '0'] := by
  have hsign : ¬ rounded n < 0 := fun hneg =>
    not_lt.2 (Nat.cast_nonneg n) (rounded_neg_iff.1 hneg).1
  rw [written, cents_natCast, decide_eq_false hsign, Nat.mul_div_cancel_left n (by decide), Nat.mul_mod_right,
    grouped_small (by omega), ofNat_of_lt_ten h]
  simp [sign, padded_two]

/-- Every amount of up to thirteen digits before the point is read back behind a symbol exactly if no
numeric character of the symbol is anything but a zero. -/
theorem rereads_iff (symbol : Text) :
    (∀ v a, ReadAs v a ∨ Spells v a ∧ IsShort a → |a| < 10 ^ 13 → Rereads symbol v a) ↔
      ∀ c ∈ symbol, isNumeric c = true → c = '0' := by
  constructor
  · intro h
    have hback (n : Nat) (hn : n < 10) :
        ReadAs (.text (symbol ++ [Nat.digitChar n, '.', '0', '0'])) n := by
      have hbelow : |(n : ℚ)| < 10 ^ 13 := by
        rw [Nat.abs_cast]
        exact (show (n : ℚ) < 10 by exact_mod_cast hn).trans (by norm_num)
      have hspells : Spells (.decimal (.finite false n 0)) n :=
        .decimal (by simp [Decimal.toRat?, Rat.mkRat_eq_div])
      have hread := readAs_of_spells hspells (isShort_of_lt_ten hn)
      obtain ⟨t, ht, hback, -⟩ := h _ _ (.inl hread) hbelow
      rw [format_of_readAs hread (cents_lt_centsLimit hbelow), written_of_lt_ten symbol hn] at ht
      cases ht
      rwa [rounded_natCast] at hback
    have h0 := hback 0 (by decide)
    have h1 := hback 1 (by decide)
    rw [Nat.cast_zero] at h0
    rw [Nat.cast_one] at h1
    exact isHarmless_of_readAs h0 h1
  · rintro hsymbol v a (h | ⟨h, ha⟩) hbelow
    · exact rereads_of_isHarmless hsymbol h hbelow
    · exact rereads_of_isHarmless hsymbol (readAs_of_spells h ha) hbelow

/-- The point of an abbreviation is taken for the point of the amount. -/
theorem format_abbreviation :
    format (.value (.text (lit "5"))) (lit "Rs.") = .ok (.value (.text (lit "Rs.5.00"))) ∧
      ReadAs (.text (lit "Rs.5.00")) (1 / 2) ∧
      format (.value (.text (lit "Rs.5.00"))) (lit "Rs.") = .ok (.value (.text (lit "Rs.0.50"))) := by
  have hfive : ReadAs (.text (lit "5")) (5 : ℕ) := by
    refine readAs_text_iff.2 ⟨⟨false, ['5'], []⟩, by rw [lit]; rfl, ?_⟩
    have hprinted := printed?_ofScientific (n := ⟨5, 0⟩) false (by
      simpa [Numeral.value] using isShort_of_lt_ten (n := 5) (by decide))
    rwa [show Numeral.signed false ⟨5, 0⟩ = ((5 : ℕ) : ℚ) by norm_num [Numeral.signed, Numeral.value]]
      at hprinted
  have hhalf : ReadAs (.text (lit "Rs.5.00")) (1 / 2) := by
    refine readAs_text_iff.2 ⟨⟨false, [], ['5']⟩, by rw [lit]; rfl, ?_⟩
    have hshort : IsShort (Numeral.value ⟨5, -1⟩) := by
      norm_num [Numeral.value]
      exact ⟨by norm_num, ⟨5, -1, by norm_num⟩, ⟨500000000000000, by norm_num⟩⟩
    have hprinted := printed?_ofScientific (n := ⟨5, -1⟩) false hshort
    rwa [show Numeral.signed false ⟨5, -1⟩ = 1 / 2 by norm_num [Numeral.signed, Numeral.value]]
      at hprinted
  have hcents : cents (1 / 2) = 50 := by
    rw [cents, Nat.floor_eq_iff (by positivity)]
    norm_num
  have hwritten : written (lit "Rs.") (1 / 2) = lit "Rs.0.50" := by
    have hsign : ¬ rounded (1 / 2) < 0 := fun hneg =>
      absurd (rounded_neg_iff.1 hneg).1 (by norm_num)
    rw [written, hcents, decide_eq_false hsign, grouped_small (by decide), lit, lit]
    decide
  have hformat := format_of_readAs hfive (by rw [cents_natCast]; decide) (lit "Rs.")
  have hagain := format_of_readAs hhalf (by rw [hcents]; decide) (lit "Rs.")
  rw [written_of_lt_ten _ (by decide), show lit "Rs." ++ [Nat.digitChar 5, '.', '0', '0'] =
    lit "Rs.5.00" by rw [lit, lit]; decide] at hformat
  rw [hwritten] at hagain
  exact ⟨hformat, hhalf, hagain⟩

end Amount

end Tender
