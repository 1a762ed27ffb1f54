/-
Numbers that are read out of values.

* `Amount.readUnsigned?_whole`, `Amount.readUnsigned?_pointed` — how far a numeral is read;
* `Amount.readNumeral?_of_isNumeral` — a text that is a numeral is read to its end;
* `Amount.readAs_of_spells` — an amount of up to fifteen digits is read as what it is, out of a decimal
  number and out of a text with other characters in between.
-/
import Tender.Helper.Amount
import Tender.Proofs.Number.Decimal

namespace Tender

namespace Amount

open Text Binary64 Decimal

/-! ### Rows of digits -/

/-- All characters are digits. -/
def AllDigits (s : Text) : Prop := ∀ c ∈ s, c.isDigit = true

instance (s : Text) : Decidable (AllDigits s) :=
  decidable_of_iff (s.all Char.isDigit = true) List.all_eq_true

/-- What stands behind a row of digits and is no part of it. -/
def EndsDigits (s : Text) : Prop := ∀ c ∈ s.head?, c.isDigit = false

variable {s digits whole fraction rest : Text}

theorem allDigits_append {t : Text} : AllDigits (s ++ t) ↔ AllDigits s ∧ AllDigits t :=
  List.forall_mem_append

theorem allDigits_ofNat (n : Nat) : AllDigits (ofNat n) :=
  fun _ h => isDigit_of_mem_ofNat h

theorem allDigits_padded (width n : Nat) : AllDigits (padded width n) :=
  fun _ h => isDigit_of_mem_padded h

theorem allDigits_zeros (count : Nat) : AllDigits (List.replicate count '0') :=
  fun _ h => List.eq_of_mem_replicate h ▸ rfl

theorem endsDigits_nil : EndsDigits [] := nofun

theorem endsDigits_cons {c : Char} (h : c.isDigit = false) (s : Text) : EndsDigits (c :: s) :=
  fun _ hd => Option.some.inj hd ▸ h

theorem takeWhile_digits (h : AllDigits digits) (hrest : EndsDigits rest) :
    (digits ++ rest).takeWhile Char.isDigit = digits := by
  rw [List.takeWhile_append_of_pos h]
  cases rest with
  | nil => rw [List.takeWhile_nil, List.append_nil]
  | cons c rest => rw [List.takeWhile_cons_of_neg (by simp [hrest c rfl]), List.append_nil]

theorem dropWhile_digits (h : AllDigits digits) (hrest : EndsDigits rest) :
    (digits ++ rest).dropWhile Char.isDigit = rest := by
  rw [List.dropWhile_append_of_pos h]
  cases rest with
  | nil => rfl
  | cons c rest => exact List.dropWhile_cons_of_neg (by simp [hrest c rfl])

/-- Digits are numeric. -/
theorem AllDigits.numeric (h : AllDigits s) {c : Char} (hc : c ∈ s) : isNumeric c = true := by
  rw [isNumeric, h c hc]
  rfl

theorem AllDigits.filter (h : AllDigits s) : s.filter isNumeric = s :=
  List.filter_eq_self.2 fun _ hc => h.numeric hc

theorem AllDigits.head (h : AllDigits s) : '-' ∉ s.head? := by
  intro hhead
  cases h '-' (List.mem_of_head? hhead)

/-! ### Numerals -/

/-- Digits without a point behind them are a whole number. -/
theorem readUnsigned?_whole (negative : Bool) (hwhole : AllDigits whole) (hne : whole ≠ [])
    (hrest : EndsDigits rest) (hpoint : '.' ∉ rest.head?) :
    readUnsigned? negative (whole ++ rest) = some ⟨negative, whole, []⟩ := by
  rw [readUnsigned?, takeWhile_digits hwhole hrest, dropWhile_digits hwhole hrest]
  cases rest with
  | nil => exact if_neg fun h => hne h.1
  | cons c rest =>
    split
    · rename_i heq
      exact absurd (congrArg List.head? heq) hpoint
    · exact if_neg fun h => hne h.1

/-- Digits behind a point are read as well, if there are digits at all. -/
theorem readUnsigned?_pointed (negative : Bool) (hwhole : AllDigits whole)
    (hfraction : AllDigits fraction) (hrest : EndsDigits rest) :
    readUnsigned? negative (whole ++ '.' :: (fraction ++ rest)) =
      if whole = [] ∧ fraction = [] then none else some ⟨negative, whole, fraction⟩ := by
  have hpoint : EndsDigits ('.' :: (fraction ++ rest)) := endsDigits_cons (by decide) _
  rw [readUnsigned?, takeWhile_digits hwhole hpoint, dropWhile_digits hwhole hpoint]
  simp only [takeWhile_digits hfraction hrest]

/-- What is read has the sign that was read before. -/
theorem negative_of_readUnsigned? {negative : Bool} {r : Reading}
    (h : readUnsigned? negative s = some r) : r.negative = negative := by
  have hsign (whole fraction : Text) (h : (if whole = [] ∧ fraction = [] then none
      else some ⟨negative, whole, fraction⟩) = some r) : r.negative = negative := by
    split at h
    · cases h
    · cases h
      rfl
  exact hsign _ _ h

/-- The sign of a number as it is written. -/
def sign (negative : Bool) : Text :=
  if negative then ['-'] else []

theorem readNumeral?_sign (negative : Bool) (h : '-' ∉ s.head?) :
    readNumeral? (sign negative ++ s) = readUnsigned? negative s := by
  cases negative with
  | true => rfl
  | false =>
    show readNumeral? s = _
    unfold readNumeral?
    split
    · exact absurd rfl h
    · rfl

/-- A text that is a numeral: digits that a point may stand in, with a hyphen in front if the number is
negative. -/
inductive IsNumeral : Text → Reading → Prop
  | whole (negative : Bool) {whole : Text} (hwhole : AllDigits whole) (hne : whole ≠ []) :
    IsNumeral (sign negative ++ whole) ⟨negative, whole, []⟩
  | pointed (negative : Bool) {whole fraction : Text} (hwhole : AllDigits whole)
    (hfraction : AllDigits fraction) (hne : whole ++ fraction ≠ []) :
    IsNumeral (sign negative ++ whole ++ '.' :: fraction) ⟨negative, whole, fraction⟩

theorem head?_pointed (hwhole : AllDigits whole) : '-' ∉ (whole ++ '.' :: rest).head? := by
  cases whole with
  | nil => exact fun h => by cases h
  | cons c whole => exact hwhole.head

/-- A numeral is read to its end. -/
theorem readNumeral?_of_isNumeral {r : Reading} (h : IsNumeral s r) : readNumeral? s = some r := by
  cases h with
  | whole negative hwhole hne =>
    have hread := readUnsigned?_whole negative hwhole hne endsDigits_nil nofun
    rw [List.append_nil] at hread
    rw [readNumeral?_sign negative hwhole.head, hread]
  | pointed negative hwhole hfraction hne =>
    have hread := readUnsigned?_pointed negative hwhole hfraction endsDigits_nil
    rw [List.append_nil, if_neg fun h => hne (by rw [h.1, h.2, List.append_nil])] at hread
    rw [List.append_assoc, readNumeral?_sign negative (head?_pointed hwhole), hread]

theorem filter_sign (negative : Bool) : (sign negative).filter isNumeric = sign negative := by
  cases negative <;> rfl

theorem IsNumeral.filter {r : Reading} (h : IsNumeral s r) : s.filter isNumeric = s := by
  cases h with
  | whole negative hwhole hne => rw [List.filter_append, filter_sign, hwhole.filter]
  | pointed negative hwhole hfraction hne =>
    rw [List.filter_append, List.filter_append, filter_sign, hwhole.filter,
      List.filter_cons_of_pos (by decide), hfraction.filter]

/-! ### Values -/

/-- The digits of what is read as a numeral with a power of ten. -/
def Reading.numeral (r : Reading) : Numeral :=
  ⟨digitsValue (r.whole ++ r.fraction), -(r.fraction.length : Int)⟩

/-- The number that is read, as it is written. -/
def Reading.value (r : Reading) : ℚ :=
  r.numeral.signed r.negative

theorem Reading.toBinary64_eq (r : Reading) :
    r.toBinary64 = ofScientific r.negative r.numeral.digits r.numeral.exponent := rfl

/-- A value that is a decimal number, or a text that is a numeral with other characters in between. -/
inductive Spells : Value → ℚ → Prop
  | decimal {d : Decimal} {a : ℚ} (h : d.toRat? = some a) : Spells (.decimal d) a
  | text {s : Text} {r : Reading} (h : IsNumeral (s.filter isNumeric) r) : Spells (.text s) r.value

/-- The number that a value is read as is printed as this amount. -/
def ReadAs (v : Value) (a : ℚ) : Prop :=
  ∃ x, parse v = .ok (some x) ∧ x.printed? = some a

/-- What a text is read as depends on its numeric characters. -/
theorem readAs_text_iff {a : ℚ} : ReadAs (.text s) a ↔
    ∃ r, readNumeral? (s.filter isNumeric) = some r ∧ r.toBinary64.printed? = some a := by
  have hparse : parse (.text s) = .ok ((readNumeral? (s.filter isNumeric)).map Reading.toBinary64) :=
    rfl
  constructor
  · rintro ⟨x, hx, ha⟩
    rw [hparse] at hx
    obtain ⟨r, hr, rfl⟩ := Option.map_eq_some_iff.1 (Except.ok.inj hx)
    exact ⟨r, hr, ha⟩
  · rintro ⟨r, hr, ha⟩
    refine ⟨_, ?_, ha⟩
    rw [hparse, hr, Option.map_some]

theorem parse_finite (negative : Bool) (coefficient : Nat) (exponent : Int) {a : ℚ}
    (h : (ofScientific negative coefficient exponent).printed? = some a) :
    parse (.decimal (.finite negative coefficient exponent)) =
      .ok (some (ofScientific negative coefficient exponent)) := by
  have hnan : ofScientific negative coefficient exponent ≠ .nan := fun hnan => by
    rw [hnan] at h
    cases h
  show Except.ok (if ofScientific negative coefficient exponent = .nan then none else
    some (ofScientific negative coefficient exponent)) = _
  rw [if_neg hnan]

/-- The amount that a value spells is the one that it is read as. -/
theorem readAs_of_spells {v : Value} {a : ℚ} (h : Spells v a) (ha : IsShort a) : ReadAs v a := by
  have hprinted (negative : Bool) {n : Numeral} (hn : n.signed negative = a) :
      (ofScientific negative n.digits n.exponent).printed? = some a :=
    hn ▸ printed?_ofScientific negative (ha.of_abs_eq (by
      rw [← hn, n.abs_signed, abs_of_nonneg n.value_nonneg]))
  cases h with
  | decimal h =>
    obtain ⟨negative, coefficient, exponent, rfl, hvalue⟩ := exists_of_toRat? h
    have hread := hprinted negative hvalue
    exact ⟨_, parse_finite negative coefficient exponent hread, hread⟩
  | text h => exact readAs_text_iff.2 ⟨_, readNumeral?_of_isNumeral h, hprinted _ rfl⟩

end Amount

end Tender
