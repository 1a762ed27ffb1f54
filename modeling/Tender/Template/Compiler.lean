/-
The compiler: a table of helpers and the limits of a page.

Main statements: `register_ok`, a helper that is accepted is found under its name, and
`register_eq_ok_iff`, a name is accepted exactly if it is a name, no block and not protected.
-/
import Tender.Settings.Basic
import Tender.Template.Render

namespace Tender

/-- What pages are compiled with. -/
structure Compiler where
  settings : Settings
  /-- Names that no helper may take. -/
  protectedNames : List Text
  helpers : Helpers

namespace Compiler

/-- Registers a helper under a name; one that has the name already is replaced in its place. -/
def register (c : Compiler) (name : Text) (h : Helper) : Except Fault Compiler :=
  if c.protectedNames.contains name then .error (.protectedHelper name)
  else if (BlockKind.ofName? name).isSome ∨ ¬ Text.isName name then .error (.invalidHelper name)
  else .ok { c with helpers := Entries.put name h c.helpers }

theorem register_ok {c c' : Compiler} {name : Text} {h : Helper}
    (hr : c.register name h = .ok c') : Entries.get? name c'.helpers = some h := by
  unfold register at hr
  split at hr
  · simp at hr
  · split at hr
    · simp at hr
    · cases hr; simp

theorem register_eq_ok_iff {c : Compiler} {name : Text} {h : Helper} :
    (∃ c', c.register name h = .ok c') ↔
      c.protectedNames.contains name = false ∧ BlockKind.ofName? name = none ∧
        Text.isName name = true := by
  unfold register
  split
  · rename_i hp
    simp only [hp, reduceCtorEq, exists_false, Bool.true_eq_false, false_and]
  · rename_i hp
    rw [Bool.not_eq_true] at hp
    split
    · rename_i hn
      rcases hn with hn | hn
      · simp [Option.isSome_iff_ne_none.1 hn]
      · simp [hn]
    · rename_i hn
      simp only [not_or, Decidable.not_not, Option.not_isSome_iff_eq_none] at hn
      simp only [hp, hn.1, hn.2, Except.ok.injEq, exists_eq', and_self]

/-- The built-in helpers as the settings want them. -/
def standardHelpers (s : Settings) : Helpers :=
  Helpers.standard ++
    [(lit "formatCurrency", Amount.helperWith s.currencySymbol),
     (lit "formatDate", DateText.helperWith s.dateFormat)]

/-- A compiler with the built-in helpers. -/
def new (s : Settings) (protectedNames : List Text) : Except Fault Compiler :=
  (standardHelpers s).foldlM (fun c (name, h) => c.register name h) ⟨s, protectedNames, []⟩

/-- Whether there is a helper of this name. -/
def isHelper (c : Compiler) (name : Text) : Bool :=
  (Entries.get? name c.helpers).isSome

/-- Reads a page. -/
def read (c : Compiler) (source : Text) : Except Fault Page :=
  Page.read c.isHelper c.settings.maxTemplateTokens c.settings.maxBlockDepth source

/-- The surroundings of a page: its context is the one scope. -/
def surroundings (c : Compiler) (context : Value) : Surroundings :=
  ⟨c.helpers, context, [⟨context, none⟩]⟩

/-- Writes a page against a context. -/
def compile (c : Compiler) (source : Text) (context : Value) : Except Fault Text := do
  let page ← c.read source
  Node.renderAll c.settings.maxBlockDepth (c.surroundings context) page.nodes

end Compiler
end Tender
