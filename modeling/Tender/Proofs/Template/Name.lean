/-
Names of entries.

* `Path.IsName.read_eq`, `Path.IsName.read_item` — how the name of an entry and the path to an item
  of the entry are read;
* `Path.isName_of_name` — a plain name is such a name, unless it stands for a value or the scope;
* `Compiler.eval_name`, `Compiler.eval_item` — what they come to where a page starts;
* `Compiler.parsable_name`, `Compiler.parsable_item` — and both can stand in the tags of a block.
-/
import Tender.Proofs.Number.Integer
import Tender.Proofs.Template.Call
import Tender.Proofs.Template.Word
import Tender.Proofs.Token
import Tender.Text.Identifier

namespace Tender

open Text

/-! ### Reading -/

namespace Path

variable {k name rest s : Text} {done segments : List Text}

/-- A word that names an entry: it is one lexeme and one segment of a path, a tag ends right behind
it, and it stands neither for a value nor for a scope nor for other data. -/
structure IsName (k : Text) : Prop where
  word : Lexeme.IsBareWord k
  segment : ∀ x ∈ k, isSegmentChar x = true
  closing : Bare Piece.closing k
  tilde : k.getLast? ≠ some '~'
  data : k.head? ≠ some '@'
  this : k ≠ thisWord
  keyword : Expr.keyword? k = none
  numeral : Expr.numeral? k = none

/-- The path to an item of an entry. -/
def item (k : Text) (i : Nat) : Text := k ++ '.' :: ofNat i

/-- A name is a segment up to what ends it. -/
theorem segment?_append (hname : ∀ x ∈ name, isSegmentChar x = true) (hne : name ≠ [])
    (hrest : ∀ x ∈ rest.head?, isSegmentChar x = false) :
    segment? (name ++ rest) = some (name, rest) := by
  obtain ⟨c, name, rfl⟩ := List.exists_cons_of_ne_nil hne
  have hend : rest.takeWhile isSegmentChar = [] ∧ rest.dropWhile isSegmentChar = rest := by
    cases rest with
    | nil => exact ⟨rfl, rfl⟩
    | cons x rest =>
      have hx : ¬ isSegmentChar x = true := by rw [hrest x rfl]; exact Bool.false_ne_true
      exact ⟨List.takeWhile_cons_of_neg hx, List.dropWhile_cons_of_neg hx⟩
  have htake : (c :: name ++ rest).takeWhile isSegmentChar = c :: name := by
    rw [List.takeWhile_append_of_pos hname, hend.1, List.append_nil]
  have hdrop : (c :: name ++ rest).dropWhile isSegmentChar = rest := by
    rw [List.dropWhile_append_of_pos hname, hend.2]
  unfold segment?
  split
  · rename_i heq
    cases (List.cons.inj heq).1
    cases hname '[' List.mem_cons_self
  · rw [htake, hdrop]

theorem segments?_of_last (h : segment? s = some (name, [])) :
    segments? done s = some (name :: done).reverse := by
  rw [segments?]
  split
  · rename_i hnone
    cases h.symm.trans hnone
  · rename_i hlast
    cases h.symm.trans hlast
    rfl
  · rename_i hmore
    cases h.symm.trans hmore

theorem segments?_of_more (h : segment? s = some (name, '.' :: rest)) (hrest : rest ≠ []) :
    segments? done s = segments? (name :: done) rest := by
  rw [segments?]
  split
  · rename_i hnone
    cases h.symm.trans hnone
  · rename_i hlast
    cases h.symm.trans hlast
  · rename_i hmore
    cases h.symm.trans hmore
    rw [if_pos ⟨.inl rfl, hrest⟩]

theorem segments?_last (hname : ∀ x ∈ name, isSegmentChar x = true) (hne : name ≠ []) :
    segments? done name = some (name :: done).reverse := by
  have hsegment : segment? (name ++ []) = some (name, []) :=
    segment?_append hname hne fun x hx => by cases hx
  rw [List.append_nil] at hsegment
  exact segments?_of_last hsegment

theorem segments?_point (hname : ∀ x ∈ name, isSegmentChar x = true) (hne : name ≠ [])
    (hrest : rest ≠ []) : segments? done (name ++ '.' :: rest) = segments? (name :: done) rest := by
  have hpoint : ∀ x ∈ ('.' :: rest).head?, isSegmentChar x = false := fun x hx => by
    cases hx
    rfl
  exact segments?_of_more (segment?_append hname hne hpoint) hrest

/-- A path that starts with a name, or with a segment in brackets, is read as its segments. -/
theorem read_segments (hdata : s.head? ≠ some '@') (hfirst : s.head? ≠ some '.')
    (hthis : s ≠ thisWord) (hsegments : readSegments s = .ok segments)
    (hhead : segments.head? ≠ some thisWord ∨ s.head? = some '[') :
    read s = .ok (.scope 0 false segments) := by
  have hnamed : ¬ (segments.head? = some thisWord ∧ s.head? ≠ some '[') := fun h =>
    hhead.elim (absurd h.1) (absurd · h.2)
  have hups : takeUps 0 s = (0, s) :=
    takeUps_ups 0 0 fun t ht => hfirst (by rw [ht]; rfl)
  have hpoint : s ≠ ['.'] := fun heq => hfirst (by rw [heq]; rfl)
  have hplain : ∀ t, s = '.' :: '/' :: t → False := fun t ht => hfirst (by rw [ht]; rfl)
  rw [read]
  · simp only [hups, hthis, hpoint, hsegments, hnamed, or_self, if_false]
    simp
  · rintro t rfl
    exact hdata rfl

namespace IsName

theorem ne_nil (h : IsName k) : k ≠ [] := h.word.ne_nil

theorem point_not_mem (h : IsName k) : '.' ∉ k := fun hmem => by
  cases h.segment '.' hmem

theorem head?_append (h : IsName k) (rest : Text) : (k ++ rest).head? = k.head? :=
  List.head?_append_of_ne_nil k h.ne_nil

theorem first (h : IsName k) : k.head? ≠ some '.' :=
  fun heq => h.point_not_mem (List.mem_of_mem_head? heq)

/-- A name is the path of itself. -/
theorem read_eq (h : IsName k) : read k = .ok (.scope 0 false [k]) := by
  refine read_segments h.data h.first h.this ?_ (.inl fun heq => h.this (Option.some.inj heq))
  rw [readSegments, if_neg h.ne_nil, segments?_last h.segment h.ne_nil]
  rfl

theorem isSegmentChar_of_mem_ofNat {i : Nat} {x : Char} (hx : x ∈ ofNat i) :
    isSegmentChar x = true :=
  of_mem_ofNat (by decide) hx

/-- The path to an item is the name and the number of the item. -/
theorem read_item (h : IsName k) (i : Nat) :
    read (item k i) = .ok (.scope 0 false [k, ofNat i]) := by
  have hne : item k i ≠ thisWord := by
    intro heq
    have hmem : '.' ∈ thisWord := by
      rw [← heq]
      exact List.mem_append_right k List.mem_cons_self
    exact absurd hmem (by decide)
  refine read_segments ?_ ?_ hne ?_ (.inl fun heq => h.this (Option.some.inj heq))
  · rw [item, h.head?_append]
    exact h.data
  · rw [item, h.head?_append]
    exact h.first
  · rw [readSegments, if_neg (by simp [item]), item, segments?_point h.segment h.ne_nil
      (ofNat_ne_nil i), segments?_last (fun x hx => isSegmentChar_of_mem_ofNat hx) (ofNat_ne_nil i)]
    rfl

end IsName

end Path

namespace Expr

open Path

variable {k : Text}

/-- A numeral is a sign, digits and a fraction. -/
theorem numeral?_eq_some {w whole : Text} {negative : Bool} {fraction : Option Text}
    (h : numeral? w = some (negative, whole, fraction)) :
    (∀ c ∈ whole, isDecimal c = true) ∧ whole ≠ [] ∧
      w = (if negative then ['-'] else []) ++ whole ++ fraction.elim [] ('.' :: ·) := by
  unfold numeral? at h
  split at h
  rename_i sign body hsign
  have hw : w = (if sign then ['-'] else []) ++ body := by
    split at hsign
    · cases hsign
      rfl
    · cases hsign
      rfl
  have hbody := List.takeWhile_append_dropWhile (p := isDecimal) (l := body)
  have hall : ∀ c ∈ body.takeWhile isDecimal, isDecimal c = true :=
    List.all_eq_true.1 List.all_takeWhile
  simp only at h
  split at h
  · cases h
  · rename_i hrest hne
    cases h
    rw [hrest] at hbody
    exact ⟨hall, hne, by rw [hw, List.append_assoc]; exact congrArg _ hbody.symm⟩
  · rename_i rest hrest hne
    split at h
    · cases h
      rw [hrest] at hbody
      exact ⟨hall, hne, by rw [hw, List.append_assoc]; exact congrArg _ hbody.symm⟩
    · cases h
  · cases h

/-- Digits behind a sign, or behind none, are a numeral. -/
theorem numeral?_digits {whole : Text} (negative : Bool) (hall : ∀ c ∈ whole, isDecimal c = true)
    (hne : whole ≠ []) :
    numeral? ((if negative then ['-'] else []) ++ whole) = some (negative, whole, none) := by
  have htake : whole.takeWhile isDecimal = whole ∧ whole.dropWhile isDecimal = [] := by
    have htake := @List.takeWhile_append_of_pos _ isDecimal whole [] hall
    have hdrop := @List.dropWhile_append_of_pos _ isDecimal whole [] hall
    simpa using And.intro htake hdrop
  obtain ⟨c, digits, rfl⟩ := List.exists_cons_of_ne_nil hne
  have hsign : c ≠ '-' := by
    rintro rfl
    exact absurd (hall '-' List.mem_cons_self) (by decide +kernel)
  cases negative with
  | true => simp [numeral?, htake]
  | false =>
    rw [numeral?]
    · simp [htake]
    · rintro s heq
      exact hsign (List.cons.inj heq).1

/-- No value is written with a point behind what is itself no numeral. -/
theorem numeral?_item (h : numeral? k = none) (hpoint : '.' ∉ k) (i : Nat) :
    numeral? (item k i) = none := by
  cases hitem : numeral? (item k i) with
  | none => rfl
  | some n =>
    obtain ⟨negative, whole, fraction⟩ := n
    obtain ⟨hall, hne, heq⟩ := numeral?_eq_some hitem
    have hwhole : '.' ∉ (if negative then ['-'] else []) ++ whole := by
      rw [List.mem_append, not_or]
      refine ⟨by cases negative <;> simp, fun hmem => ?_⟩
      exact absurd (hall '.' hmem) (by decide +kernel)
    cases fraction with
    | none =>
      have hmem : '.' ∈ item k i := List.mem_append_right k List.mem_cons_self
      rw [heq, Option.elim_none, List.append_nil] at hmem
      exact absurd hmem hwhole
    | some fraction =>
      rw [eq_of_append_cons_eq hpoint hwhole heq, numeral?_digits negative hall hne] at h
      cases h

theorem keyword?_item (i : Nat) : keyword? (item k i) = none :=
  keyword?_of_mem (List.mem_append_right k List.mem_cons_self) (by decide : '.'.isAlpha = false)

theorem readWord_name (h : IsName k) : readWord k = .ok (.path (.scope 0 false [k])) := by
  rw [readWord, h.keyword]
  simp only [h.numeral, h.read_eq]
  rfl

theorem readWord_item (h : IsName k) (i : Nat) :
    readWord (item k i) = .ok (.path (.scope 0 false [k, ofNat i])) := by
  rw [readWord, keyword?_item i]
  simp only [numeral?_item h.numeral h.point_not_mem i, h.read_item i]
  rfl

end Expr

namespace Path

variable {k : Text}

/-- Where a name starts there is no digit. -/
theorem not_isDecimal_of_isNameStart {c : Char} (hc : isNameStart c = true) :
    isDecimal c = false := by
  have hrange : 0x40 < c.toNat ∧ c.toNat < 0x80 := by
    rw [isNameStart, Bool.or_eq_true, isAlpha_iff, beq_iff_eq] at hc
    rcases hc with (⟨hlow, hhigh⟩ | ⟨hlow, hhigh⟩) | rfl
    · exact ⟨hlow, Nat.lt_of_le_of_lt hhigh (by decide)⟩
    · exact ⟨Nat.lt_of_lt_of_le (by decide) hlow, Nat.lt_of_le_of_lt hhigh (by decide)⟩
    · decide
  -- the digits of ASCII come before the letters, and all others behind them
  have hzeros : ∀ z ∈ zeros, z = 0x30 ∨ 0x80 ≤ z := by decide
  rw [isDecimal, decimalValue?, Option.isSome_eq_false_iff, Option.isNone_iff_eq_none,
    List.findSome?_eq_none_iff]
  intro z hz
  have := hzeros z hz
  exact if_neg (by omega)

theorem numeral?_name (hname : Text.isName k = true) : Expr.numeral? k = none := by
  cases hnumeral : Expr.numeral? k with
  | none => rfl
  | some n =>
    obtain ⟨negative, whole, fraction⟩ := n
    obtain ⟨hall, hne, heq⟩ := Expr.numeral?_eq_some hnumeral
    obtain ⟨d, whole, rfl⟩ := List.exists_cons_of_ne_nil hne
    have hd := hall d List.mem_cons_self
    cases negative with
    | true => exact absurd (by rw [heq]; simp : '-' ∈ k) (not_mem_name hname (by decide))
    | false =>
      have hstart : isNameStart d = true := by
        rw [heq] at hname
        exact (Bool.and_eq_true _ _ ▸ hname : _ ∧ _).1
      rw [not_isDecimal_of_isNameStart hstart] at hd
      cases hd

/-- A name that stands neither for a value nor for the scope itself names an entry. -/
theorem isName_of_name (hname : Text.isName k = true) (hthis : k ≠ thisWord)
    (hkeyword : Expr.keyword? k = none) : IsName k where
  word := Lexeme.isBareWord_name hname
  segment x hx := by
    have hrest := isNameRest_of_mem hname hx
    cases hsegment : isSegmentChar x with
    | true => rfl
    | false =>
      simp only [isSegmentChar, Bool.not_eq_false', Bool.or_eq_true, beq_iff_eq] at hsegment
      rcases hsegment with ((rfl | rfl) | rfl) | rfl <;> exact absurd hrest (by decide)
  closing := Bare.of_not_mem (not_mem_name hname (by decide))
  tilde hlast := not_mem_name hname (c := '~') (by decide) (List.mem_of_getLast? hlast)
  data hhead := not_mem_name hname (c := '@') (by decide) (List.mem_of_head? hhead)
  this := hthis
  keyword := hkeyword
  numeral := numeral?_name hname

end Path

/-! ### Values -/

/-- The item under the numeral of its number. -/
theorem Value.step_ofNat {xs : List Value} {i : Nat} (h : i < 10 ^ Integer.maxDigits) :
    step (.list xs) (ofNat i) = .ok (xs[i]?.getD .null) := by
  have hdigits : (ofNat i).all isDigitLike = true := List.all_eq_true.2 fun c hc =>
    isDigitLike_of_isDecimal (isDecimal_of_isDigit (isDigit_of_mem_ofNat hc))
  have hkey : ofNat i ≠ lengthKey := by
    intro heq
    have hdigit := isDigit_of_mem_ofNat (n := i) (c := 'l') (by rw [heq]; exact List.mem_cons_self)
    cases hdigit
  rw [step, if_neg hkey, if_pos ⟨ofNat_ne_nil i, hdigits⟩, Integer.ofDigits_ofNat h]
  rfl

theorem split_ofNat (n : Nat) : split (ofNat n) = ofNat n :=
  split_narrow fun _ hc => of_decide_eq_true (of_mem_ofNat (P := fun c => c.toNat < 0x10000)
    (by decide) hc)

/-- The value of an entry under a name as it is spelled inside a tag; null if there is none. -/
def Value.entry (es : Entries Value) (k : Text) : Value :=
  (Entries.get? (split k) es).getD .null

namespace Compiler

open Path

variable {c : Compiler} {k : Text} {es : Entries Value}

theorem eval_name (c : Compiler) (k : Text) (es : Entries Value) :
    Expr.eval (c.surroundings (.map es)) (.path (.scope 0 false [k])) =
      .ok (.value (Value.entry es k)) := by
  rw [Expr.eval]
  rfl

theorem eval_item (c : Compiler) (k : Text) (es : Entries Value) (i : Nat) :
    Expr.eval (c.surroundings (.map es)) (.path (.scope 0 false [k, ofNat i])) =
      ((Value.entry es k).step (ofNat i)).map .value := by
  have hwalk : Value.walk (.map es) [k, ofNat i] = (Value.entry es k).step (ofNat i) := by
    show (Value.step (Value.entry es k) (split (ofNat i)) >>= pure) = _
    rw [split_ofNat, bind_pure]
  rw [Expr.eval]
  exact congrArg (Except.map Outcome.value) hwalk

/-! ### Blocks on names -/

theorem parsable_bareWord {e : Expr} (hword : Lexeme.IsBareWord k)
    (hread : Expr.readWord k = .ok e) (hclosing : Bare Piece.closing k)
    (htilde : k.getLast? ≠ some '~') : c.Parsable k where
  reads := ⟨e, Expr.readParameter_bare hword hread⟩
  names hnames := by
    cases hword.chars ' ' (hnames.subset (by decide))
  closes := cut_append_of_bare (by decide) hclosing []
  tilde := htilde

theorem parsable_name (h : IsName k) : c.Parsable k :=
  parsable_bareWord h.word (Expr.readWord_name h) h.closing h.tilde

theorem isBareWord_item (h : IsName k) (i : Nat) : Lexeme.IsBareWord (item k i) where
  ne_nil hnil := h.ne_nil (List.append_eq_nil_iff.1 hnil).1
  chars x hx := by
    rw [item, List.mem_append, List.mem_cons] at hx
    rcases hx with hx | rfl | hx
    · exact h.word.chars x hx
    · rfl
    · exact of_mem_ofNat (by decide) hx

theorem parsable_item (h : IsName k) (i : Nat) : c.Parsable (item k i) := by
  have hnumeral : ∀ x ∈ '.' :: ofNat i, x ≠ '}' ∧ x ≠ '~' := by
    refine List.forall_mem_cons.2 ⟨by decide, fun x hx => ?_⟩
    exact of_decide_eq_true (of_mem_ofNat (P := fun x => x ≠ '}' ∧ x ≠ '~') (by decide) hx)
  refine parsable_bareWord (isBareWord_item h i) (Expr.readWord_item h i) ?_ fun hlast => ?_
  · exact h.closing.append (Bare.of_not_mem fun hmem => (hnumeral '}' hmem).1 rfl)
  · rw [item, List.getLast?_append_of_ne_nil k (List.cons_ne_nil '.' _)] at hlast
    exact (hnumeral '~' (List.mem_of_getLast? hlast)).2 rfl

theorem expr_name (h : IsName k) (kind : BlockKind) (body : Text) :
    Link.expr c ⟨kind, k, body⟩ = .path (.scope 0 false [k]) := by
  rw [Link.expr, Expr.readParameter_bare h.word (Expr.readWord_name h)]
  rfl

theorem expr_item (h : IsName k) (i : Nat) (kind : BlockKind) (body : Text) :
    Link.expr c ⟨kind, item k i, body⟩ = .path (.scope 0 false [k, ofNat i]) := by
  rw [Link.expr, Expr.readParameter_bare (isBareWord_item h i) (Expr.readWord_item h i)]
  rfl

end Compiler

end Tender
