/-
The renderer that settings make.

* `Compiler.registerAll_ok` — names that are accepted one by one are accepted in a row;
* `Renderer.new_eq` — under any settings there is a renderer, with the standard guard and compiler.
-/
import Tender.Document

namespace Tender

namespace Compiler

/-- The names that a compiler accepts for helpers. -/
def Accepts (c : Compiler) (name : Text) : Prop :=
  c.protectedNames.contains name = false ∧ BlockKind.ofName? name = none ∧
    Text.isName name = true

instance (c : Compiler) (name : Text) : Decidable (c.Accepts name) :=
  inferInstanceAs (Decidable (_ ∧ _ ∧ _))

/-- The compiler with the helpers of a table registered one after the other. -/
def withHelpers (c : Compiler) (table : Helpers) : Compiler :=
  { c with helpers := table.foldl (fun es (name, h) => Entries.put name h es) c.helpers }

theorem register_of_accepts {c : Compiler} {name : Text} (hname : c.Accepts name) (h : Helper) :
    c.register name h = .ok (c.withHelpers [(name, h)]) := by
  obtain ⟨c', hc'⟩ := register_eq_ok_iff.2 hname
  rw [hc', withHelpers]
  obtain ⟨hprotected, hblock, hisName⟩ := hname
  rw [register, hprotected, hblock, hisName] at hc'
  cases hc'
  rfl

theorem registerAll_ok {c : Compiler} {table : Helpers} (h : ∀ p ∈ table, c.Accepts p.1) :
    table.foldlM (fun c (name, h) => c.register name h) c = .ok (c.withHelpers table) := by
  induction table generalizing c with
  | nil => rfl
  | cons p table ih =>
    obtain ⟨name, helper⟩ := p
    have hrest : ∀ p ∈ table, (c.withHelpers [(name, helper)]).Accepts p.1 :=
      fun p hp => h p (List.mem_cons_of_mem _ hp)
    have hfirst := register_of_accepts (h (name, helper) List.mem_cons_self) helper
    rw [List.foldlM_cons]
    show (do let c ← c.register name helper; table.foldlM _ c) = _
    rw [hfirst]
    exact ih hrest

/-- The compiler with the built-in helpers that keeps the tokens for the binding passes. -/
def standard (s : Settings) : Compiler :=
  (⟨s, Token.names, []⟩ : Compiler).withHelpers (standardHelpers s)

theorem new_eq (s : Settings) : Compiler.new s Token.names = .ok (standard s) := by
  refine registerAll_ok fun p hp => ?_
  -- the names of the helpers do not depend on the settings
  have hnames : (standardHelpers s).map Prod.fst = (standardHelpers {}).map Prod.fst := rfl
  have haccepted : ∀ name ∈ (standardHelpers {}).map Prod.fst,
      (⟨{}, Token.names, []⟩ : Compiler).Accepts name := by decide +kernel
  exact haccepted p.1 (hnames ▸ List.mem_map_of_mem hp)

end Compiler

/-- The renderer of an application with the settings. -/
def Renderer.standard (s : Settings) : Renderer :=
  ⟨s, Guard.standard, Compiler.standard s⟩

theorem Renderer.new_eq (s : Settings) : Renderer.new s = .ok (Renderer.standard s) := by
  rw [Renderer.new]
  show (do let compiler ← Compiler.new s Token.names; _) = _
  rw [Compiler.new_eq]
  rfl

theorem exists_ok_of_toBool {α : Type} {x : Except Fault α} (h : x.toBool = true) :
    ∃ a, x = .ok a := by
  cases x with
  | error f => cases h
  | ok a => exact ⟨a, rfl⟩

end Tender
