/-
Literals in a row behind the name of a helper.

* `Lexeme.isWord_of_literal` — a word that stands for a value is a plain word;
* `Expr.IsLiteral.lexes` — a literal is one lexeme, wherever it stands, and is read as its value;
* `Expr.ofText_row` — so a word and literals behind it are read as the word and their values.
-/
import Tender.Proofs.Template.Spelling

namespace Tender

open Text

namespace Lexeme

/-- The marks that end a word or a tag. -/
def endMarks : Text := ['(', ')', '=', '"', '\'', '[', '|', '}', '~']

/-- No digit of any script ends a word or a tag. -/
theorem chars_of_isDecimal {c : Char} (hc : isDecimal c = true) :
    isWordChar c = true ∧ c ≠ '|' ∧ c ≠ '}' ∧ c ≠ '~' := by
  rw [isDecimal, decimalValue?, List.findSome?_isSome_iff] at hc
  obtain ⟨z, hz, hvalue⟩ := hc
  have hrange : z ≤ c.toNat ∧ c.toNat < z + 10 := by
    by_contra hout
    rw [if_neg hout] at hvalue
    cases hvalue
  have hapart : ∀ z ∈ zeros, ∀ n ∈ blanks ++ endMarks.map Char.toNat, n < z ∨ z + 10 ≤ n := by
    decide
  have hblank : isBlank c = false := by
    rw [isBlank, ← Bool.not_eq_true, List.contains_iff_mem]
    intro hmem
    have := hapart z hz _ (List.mem_append_left _ hmem)
    omega
  have hmark : c ∉ endMarks := by
    intro hmem
    have := hapart z hz _ (List.mem_append_right _ (List.mem_map_of_mem hmem))
    omega
  simp only [endMarks, List.mem_cons, List.not_mem_nil, or_false, not_or] at hmark
  simp [isWordChar, hblank, hmark]

end Lexeme

namespace Expr

open Lexeme

variable {isHelper : Text → Bool} {w a name : Text} {v : Value} {e : Expr} {args : List Text}
  {vs : List Value}

theorem mem_of_keyword? (h : keyword? w = some v) :
    w ∈ [lit "true", lit "false", lit "null", lit "undefined"] := by
  rw [keyword?] at h
  split at h
  · simp [*]
  · split at h
    · simp [*]
    · split at h
      · rename_i hnull
        rcases hnull with rfl | rfl <;> simp
      · cases h

theorem fraction_of_numeral? {whole fraction : Text} {negative : Bool}
    (h : numeral? w = some (negative, whole, some fraction)) :
    ∀ c ∈ fraction, isDecimal c = true := by
  unfold numeral? at h
  split at h
  simp only at h
  split at h
  · cases h
  · cases h
  · split at h
    · rename_i hall
      cases h
      exact List.all_eq_true.1 hall.2
    · cases h
  · cases h

/-- A word that stands for a value holds nothing that ends a word or a tag. -/
theorem isWord_of_literal (h : readWord w = .ok (.literal v)) : IsWord w := by
  rw [readWord] at h
  cases hkeyword : keyword? w with
  | some v' =>
    have hall : ∀ w ∈ [lit "true", lit "false", lit "null", lit "undefined"], IsWord w := by
      decide +kernel
    exact hall w (mem_of_keyword? hkeyword)
  | none =>
    rw [hkeyword] at h
    cases hnumeral : numeral? w with
    | none =>
      simp only [hnumeral] at h
      cases hpath : Path.read w with
      | error e =>
        rw [hpath] at h
        cases h
      | ok p =>
        rw [hpath] at h
        cases h
    | some n =>
      obtain ⟨negative, whole, fraction⟩ := n
      obtain ⟨hwhole, hne, rfl⟩ := numeral?_eq_some hnumeral
      have hsign : isWordChar '-' = true ∧ '-' ≠ '|' ∧ '-' ≠ '}' ∧ '-' ≠ '~' := by decide
      have hpoint : isWordChar '.' = true ∧ '.' ≠ '|' ∧ '.' ≠ '}' ∧ '.' ≠ '~' := by decide
      refine ⟨by simp [hne], fun x hx => ?_⟩
      simp only [List.mem_append] at hx
      rcases hx with (hx | hx) | hx
      · cases negative with
        | true =>
          rw [List.mem_singleton.1 hx]
          exact hsign
        | false => cases hx
      · exact chars_of_isDecimal (hwhole x hx)
      · cases fraction with
        | none => cases hx
        | some fraction =>
          rcases List.mem_cons.1 hx with rfl | hx
          · exact hpoint
          · exact chars_of_isDecimal (fraction_of_numeral? hnumeral x hx)

/-! ### Literals -/

/-- A text is a literal with a value: a text in quotes of either kind, or a word that stands for the
value. -/
inductive IsLiteral : Text → Value → Prop
  | quoted {quote : Char} {s : Text} (hquote : quote = '"' ∨ quote = '\'')
      (hs : IsQuotable quote s) : IsLiteral (quote :: (s ++ [quote])) (.text (unquote s))
  | word {w : Text} {v : Value} (hread : readWord w = .ok (.literal v)) : IsLiteral w v

namespace IsLiteral

/-- A literal is one lexeme, wherever it stands, and is read as its value. -/
theorem lexes (isHelper : Text → Bool) (h : IsLiteral a v) : ∃ l, LexesAs a [l] ∧ ∀ top outer,
    Machine.step isHelper ⟨top, outer, false⟩ l =
      Machine.addTerm ⟨top, outer, false⟩ (.ok (.literal v)) := by
  cases h with
  | @quoted quote s hquote hs => exact ⟨.quoted s, LexesAs.quoted hquote hs, fun top outer => rfl⟩
  | word hread =>
    refine ⟨.word a, LexesAs.word (isWord_of_literal hread).bare, fun top outer => ?_⟩
    rw [← hread]
    rfl

theorem endsSolid (h : IsLiteral a v) : EndsSolid a := by
  cases h with
  | @quoted quote s hquote hs =>
    refine ⟨quote :: s, quote, rfl, ?_⟩
    rcases hquote with rfl | rfl <;> decide
  | word hread => exact .of_word (isWord_of_literal hread).bare

/-- No tag ends in a literal that does not hold its end. -/
theorem bare_closing (h : IsLiteral a v) (hclosing : ¬ Piece.closing <:+: a) :
    Bare Piece.closing a := by
  cases h with
  | @quoted quote s hquote hs =>
    refine bare_of_not_infix hclosing ?_
    rintro ⟨v, hv, hnil, -, hpre⟩
    -- what a tag could end in would hold the last quote
    obtain ⟨x, hx⟩ := (List.mem_tails _ _).1 hv
    have hlast : v.getLast? = some quote := by
      rw [← List.getLast?_append_of_ne_nil x hnil, hx, ← List.cons_append, List.getLast?_concat]
    have hmem := hpre.subset (List.mem_of_getLast? hlast)
    rcases hquote with rfl | rfl <;> exact absurd hmem (by decide)
  | word hread =>
    exact Bare.of_not_mem fun hmem => ((isWord_of_literal hread).chars '}' hmem).2.2.1 rfl

theorem getLast?_ne_tilde (h : IsLiteral a v) : a.getLast? ≠ some '~' := by
  cases h with
  | @quoted quote s hquote hs =>
    rw [← List.cons_append, List.getLast?_concat]
    rcases hquote with rfl | rfl <;> decide
  | word hread =>
    exact fun hlast => ((isWord_of_literal hread).chars '~' (List.mem_of_getLast? hlast)).2.2.2 rfl

end IsLiteral

/-- Texts with a space in front of each. -/
def spaced (args : List Text) : Text := args.flatMap (' ' :: ·)

theorem spaced_cons (a : Text) (args : List Text) :
    spaced (a :: args) = ' ' :: (a ++ spaced args) :=
  List.flatMap_cons

theorem endsWord_spaced (args : List Text) : EndsWord (spaced args) := by
  cases args with
  | nil => exact fun _ hx => by cases hx
  | cons a args =>
    rw [spaced_cons]
    exact endsWord_gap isGap_space _

theorem endsSolid_spaced (hargs : List.Forall₂ IsLiteral args vs) :
    spaced args = [] ∨ EndsSolid (spaced args) := by
  induction hargs with
  | nil => exact .inl rfl
  | @cons a v args vs ha _ ih =>
    rw [spaced_cons]
    exact .inr ((ha.endsSolid.append_row ih).append [' '])

/-- Literals in a row are read as their values, behind the terms that have been read. -/
theorem lexes_spaced (isHelper : Text → Bool) (hargs : List.Forall₂ IsLiteral args vs) :
    ∃ ls, LexesAs (spaced args) ls ∧
    ∀ done, ls.foldlM (Machine.step isHelper) ⟨⟨none, done, [], none⟩, [], false⟩ =
      .ok ⟨⟨none, (vs.map Expr.literal).reverse ++ done, [], none⟩, [], false⟩ := by
  induction hargs with
  | nil => exact ⟨[], LexesAs.nil, fun done => rfl⟩
  | @cons a v args vs ha _ ih =>
    obtain ⟨l, hl, hstep⟩ := ha.lexes isHelper
    obtain ⟨ls, hls, hrest⟩ := ih
    have hspace : LexesAs (spaced (a :: args)) (l :: ls) := by
      rw [spaced_cons]
      exact (hl.append hls (endsWord_spaced args)).space isGap_space.2
    refine ⟨l :: ls, hspace, fun done => ?_⟩
    rw [List.foldlM_cons, hstep]
    show ls.foldlM (Machine.step isHelper) ⟨⟨none, .literal v :: done, [], none⟩, [], false⟩ = _
    rw [hrest, List.map_cons, List.reverse_cons, List.append_assoc]
    rfl

/-- A word with literals behind it is read as the word and the values of the literals. -/
theorem ofText_row (hw : IsBareWord w) (he : readWord w = .ok e)
    (hargs : List.Forall₂ IsLiteral args vs) :
    ofText isHelper (w ++ spaced args) = .ok (e :: vs.map Expr.literal, []) := by
  obtain ⟨ls, hls, hread⟩ := lexes_spaced isHelper hargs
  have hlexemes : ofText? (trim (w ++ spaced args)) = some (.word w :: ls) := by
    have hall := ((LexesAs.word hw).append hls (endsWord_spaced args)) [] [] fun x hx => by cases hx
    rw [List.append_nil, readAll_nil] at hall
    rw [((EndsSolid.of_word hw).append_row (endsSolid_spaced hargs)).trim_eq, Lexeme.ofText?,
      readAll_trimStart, hall]
    simp
  have hstep : Machine.step isHelper ⟨Frame.start none, [], false⟩ (.word w) =
      .ok ⟨⟨none, [e], [], none⟩, [], false⟩ := by
    show Machine.addTerm _ (readWord w) = _
    rw [he]
    rfl
  rw [ofText, hlexemes]
  simp only [readTerms]
  rw [List.foldlM_cons, hstep]
  show (ls.foldlM _ _ >>= _) = _
  rw [hread]
  show Except.ok (((vs.map Expr.literal).reverse ++ [e]).reverse, _) = _
  rw [List.reverse_append, List.reverse_reverse]
  rfl

end Expr

end Tender
