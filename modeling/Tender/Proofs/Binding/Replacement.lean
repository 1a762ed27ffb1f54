/-
What takes the place of tokens.

* `isReplacement_variable`, `isReplacement_selector` — in either mode and whatever is saved, it starts
  with an angle bracket and holds no brace.
-/
import Tender.Binding.Selector
import Tender.Proofs.Text.Markup

namespace Tender

namespace Binding

open Text

/-- A text that can take the place of a token: it starts with an angle bracket and holds no brace. -/
def IsReplacement (s : Text) : Prop :=
  (∃ rest, s = '<' :: rest) ∧ hasNoBrace s = true

theorem IsReplacement.of_head {head tail : Text} (hhead : IsReplacement head)
    (htail : hasNoBrace tail = true) : IsReplacement (head ++ tail) := by
  obtain ⟨⟨rest, hrest⟩, hbrace⟩ := hhead
  refine ⟨⟨rest ++ tail, ?_⟩, ?_⟩
  · rw [hrest, List.cons_append]
  · rw [hasNoBrace_append, hbrace, htail]
    rfl

theorem isReplacement_lit {rest : Text} (hrest : hasNoBrace rest = true) :
    IsReplacement (lit (String.ofList ('<' :: rest))) := by
  rw [lit_ofList]
  refine ⟨⟨rest, rfl⟩, ?_⟩
  rw [hasNoBrace_cons, hrest]
  rfl

theorem hasNoBrace_variableKey (t : Token) (n : Nat) : hasNoBrace (t.variableKey n) = true := by
  cases t with
  | custom k =>
    cases k <;>
    · simp only [Token.variableKey, VariableKind.name, hasNoBrace_append, hasNoBrace_cons,
        hasNoBrace_ofNat, Bool.and_true]
      rw [lit_ofList]
      decide
  | item c =>
    simp only [Token.variableKey, hasNoBrace_append, hasNoBrace_cons, hasNoBrace_ofNat,
      Bool.and_true]
    rw [lit_ofList]
    decide

theorem hasNoBrace_style (k : VariableKind) (value : Text) :
    hasNoBrace (Variable.inputStyle (Variable.appearance k) value) = true := by
  cases k <;>
  · simp only [Variable.inputStyle, Variable.appearance, hasNoBrace_append, hasNoBrace_ofInt,
      hasNoBrace_ofNat, Bool.and_true]
    repeat rw [lit_ofList]
    decide

theorem isReplacement_control (k : VariableKind) {key : Text} (hkey : hasNoBrace key = true)
    (value : Text) : IsReplacement (Variable.control (Variable.appearance k) key value) := by
  simp only [Variable.control, List.append_assoc]
  refine .of_head (isReplacement_lit (by decide)) ?_
  simp only [Variable.attr, hasNoBrace_append, hasNoBrace_cons, hasNoBrace_safe, hkey,
    hasNoBrace_style, Bool.and_true]
  cases k <;>
  · simp only [Variable.appearance, Variable.resize, hasNoBrace_append, hasNoBrace_ofNat,
      Bool.and_true]
    repeat rw [lit_ofList]
    decide

theorem isReplacement_placeholder (k : VariableKind) (value : Text) :
    IsReplacement (Variable.placeholder (Variable.appearance k) value) := by
  simp only [Variable.placeholder, List.append_assoc]
  refine .of_head (isReplacement_lit (by decide)) ?_
  have htail : hasNoBrace (lit "px;\">") = true ∧ hasNoBrace (lit "&nbsp;") = true ∧
      hasNoBrace (lit "</span>") = true := by
    repeat rw [lit_ofList]
    decide
  by_cases hvalue : value = []
  · rw [if_pos hvalue]
    simp only [hasNoBrace_append, hasNoBrace_ofNat, htail, Bool.and_true]
  · rw [if_neg hvalue]
    simp only [hasNoBrace_append, hasNoBrace_ofNat, hasNoBrace_safe, htail, Bool.and_true]

theorem isReplacement_variable (symbol : Text) (mode : Mode) (values : Entries Text)
    (k : VariableKind) (n : Nat) :
    IsReplacement (Variable.fill symbol mode values (.custom k) n) := by
  have hclose : hasNoBrace (lit "</span>") = true := by rw [lit_ofList]; decide
  cases mode with
  | edit =>
    have hcontrol := isReplacement_control k (hasNoBrace_variableKey (.custom k) n)
      (saved values ((Token.custom k).variableKey n))
    rw [Variable.fill, Variable.input]
    split
    · simp only [List.append_assoc]
      refine .of_head (isReplacement_lit (by decide)) ?_
      simp only [hasNoBrace_append, hasNoBrace_safe, hcontrol.2, hclose, Bool.and_true]
    · exact hcontrol
  | view =>
    have hshown := isReplacement_placeholder k (saved values ((Token.custom k).variableKey n))
    rw [Variable.fill, Variable.shown]
    split
    · simp only [List.append_assoc]
      refine .of_head (isReplacement_lit (by decide)) ?_
      simp only [hasNoBrace_append, hasNoBrace_safe, hshown.2, hclose, Bool.and_true]
    · exact hshown

theorem hasNoBrace_identity (c : Category) {key : Text} (hkey : hasNoBrace key = true) :
    hasNoBrace (Selector.identity c key) = true := by
  simp only [Selector.identity, Variable.attr, hasNoBrace_append, hasNoBrace_cons, hkey,
    Bool.and_true]
  cases c <;>
  · simp only [Category.key]
    repeat rw [lit_ofList]
    decide

theorem hasNoBrace_options (c : Category) (selected : Option Nat) (i : Nat)
    (items : List LineItem) :
    hasNoBrace (Selector.options c selected i items).flatten = true := by
  have hwords : hasNoBrace (lit "<option ") = true ∧ hasNoBrace (lit " selected") = true ∧
      hasNoBrace (lit "value") = true ∧ hasNoBrace (lit "=\"") = true ∧
      hasNoBrace (lit "</option>") = true := by
    repeat rw [lit_ofList]
    decide
  induction items generalizing i with
  | nil => rfl
  | cons item rest ih =>
    rw [Selector.options, List.flatten_cons, hasNoBrace_append, ih]
    simp only [Selector.option, Variable.attr, hasNoBrace_append, hasNoBrace_cons, hasNoBrace_safe,
      hwords, Bool.and_true]
    split <;> simp [hwords]

theorem hasNoBrace_label (c : Category) : hasNoBrace c.label = true := by
  cases c <;>
  · rw [Category.label, lit_ofList]
    decide

theorem isReplacement_select (c : Category) {key : Text} (hkey : hasNoBrace key = true)
    (items : List LineItem) (value : Text) :
    IsReplacement (Selector.select c key items value) := by
  have hidentity := hasNoBrace_identity c hkey
  have hstyle : hasNoBrace Selector.style = true ∧ hasNoBrace Selector.emptyStyle = true := by
    rw [Selector.style, Selector.emptyStyle]
    repeat rw [lit_ofList]
    decide
  have hwords : hasNoBrace (lit " disabled ") = true ∧ hasNoBrace (lit "style") = true ∧
      hasNoBrace (lit "=\"") = true ∧ hasNoBrace (lit "<option value=\"\" data-prompt>") = true ∧
      hasNoBrace (lit "No ") = true ∧ hasNoBrace (lit "Select ") = true ∧
      hasNoBrace (lit "...") = true ∧ hasNoBrace (lit "</option>") = true ∧
      hasNoBrace (lit "</select>") = true := by
    repeat rw [lit_ofList]
    decide
  rw [Selector.select]
  split <;>
  · simp only [List.append_assoc]
    refine .of_head (isReplacement_lit (by decide)) ?_
    simp only [Selector.prompt, Variable.attr, hasNoBrace_append, hasNoBrace_cons, hidentity,
      hasNoBrace_options, hasNoBrace_label, hstyle, hwords, Bool.and_true]
    rfl

theorem isReplacement_selector (e : Estimate) (mode : Mode) (values : Entries Text)
    (c : Category) (n : Nat) : IsReplacement (Selector.fill e mode values (.item c) n) := by
  cases mode with
  | edit => exact isReplacement_select c (hasNoBrace_variableKey (.item c) n) _ _
  | view =>
    have hwords : hasNoBrace (lit "&nbsp;") = true ∧ hasNoBrace (lit "</span>") = true := by
      repeat rw [lit_ofList]
      decide
    rw [Selector.fill, Selector.placeholder]
    simp only [List.append_assoc]
    refine .of_head (isReplacement_lit (by decide)) ?_
    split <;> simp only [hasNoBrace_append, hasNoBrace_safe, hwords, Bool.and_true]

end Binding
end Tender
