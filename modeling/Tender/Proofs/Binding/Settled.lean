/-
A binding pass settles a page.

* `atoms_bind` — no token of the family is left, whatever stands beside the tokens of the page;
* `settles_bind` — so the pass changes nothing when it is run again;
* `bind_comm` — passes for different families can be run in either order;
* `passes_settle_and_commute` — both hold of the two passes over a page.
-/
import Tender.Proofs.Binding.Page

namespace Tender

namespace Binding

open Text

variable {family F G : List Token} {fill f g : Token → Nat → Text}

/-- A pass that leaves no token of a family in a page and, when it is run again with whatever
counters, changes neither the page nor the counters. -/
structure Settles (family : List Token) (pass : Counters → Text → Text × Counters) : Prop where
  complete : ∀ c html, ∀ t ∈ family, ¬ spelling t <:+: (pass c html).1
  idempotent : ∀ c html d, pass d (pass c html).1 = ((pass c html).1, d)

/-- A scan for the family reads the page after the pass as plain characters. -/
theorem atoms_bind (hsep : Separate family) (hfill : Replaces family fill) (c : Counters)
    (html : Text) :
    atoms family (bind family fill c html).1 = (bind family fill c html).1.map .char := by
  rw [bind_eq hsep]
  refine atoms_fill_of_bare (hfill.clean c html) fun (t, n) _ u hu => ?_
  -- what stands for a token is a replacement without braces, or the spelling of another token
  by_cases ht : t ∈ family
  · rw [overlay_of_mem ht]
    exact bare_of_no_brace (hfill.no_brace ht n) u
  · rw [overlay_of_not_mem ht]
    exact bare_spelling fun heq : u = t => ht (heq ▸ hu)

theorem settles_bind (hsep : Separate family) (hfill : Replaces family fill) :
    Settles family (bind family fill) := by
  refine ⟨fun c html => ?_, fun c html d => ?_⟩
  · exact not_infix_of_atoms (fun t _ => spelling_ne_nil t) (atoms_bind hsep hfill c html)
  · have hchars : ∀ s : Text, numberFrom [] d (s.map .char) = s.map .char := fun s => by
      simpa using numberFrom_chars d s []
    rw [bind, atoms_bind hsep hfill c html, hchars, Atom.fill_chars, tokens_chars]
    rfl

theorem overlay_comm (hdisjoint : ∀ t ∈ F, t ∉ G) (w : Token × Nat → Text) :
    overlay G g (overlay F f w) = overlay F f (overlay G g w) := by
  funext (t, n)
  by_cases ht : t ∈ F
  · rw [overlay_of_not_mem (hdisjoint t ht), overlay_of_mem ht, overlay_of_mem ht]
  · rw [overlay_of_not_mem ht]
    by_cases ht' : t ∈ G
    · rw [overlay_of_mem ht', overlay_of_mem ht']
    · rw [overlay_of_not_mem ht', overlay_of_not_mem ht', overlay_of_not_mem ht]

/-- Each token is filled in once, with its number in the page before both passes, whichever pass is
run first. -/
theorem bind_comm (hF : Separate F) (hG : Separate G) (hdisjoint : ∀ t ∈ F, t ∉ G)
    (hf : Replaces F f) (hg : Replaces G g) (c : Counters) (html : Text) :
    bind G g (bind F f c html).2 (bind F f c html).1 =
      bind F f (bind G g c html).2 (bind G g c html).1 := by
  rw [bind_bind hF hG hdisjoint hf, bind_bind hG hF (fun t hG hF => hdisjoint t hF hG) hg,
    overlay_comm hdisjoint]
  rw [← Counters.after_append, ← Counters.after_append,
    Counters.after_perm List.perm_append_comm]

/-- For every page, estimate, mode, map of saved values, currency symbol and counters: the pass for
the custom variables and the pass for the cost lines each leave no token of their family and change
nothing when run again, and the order of the two does not matter. -/
theorem passes_settle_and_commute (symbol : Text) (e : Estimate) (mode : Mode)
    (values : Entries Text) :
    Settles Variable.family (Variable.bind symbol mode values) ∧
    Settles Selector.family (Selector.bind e mode values) ∧
    ∀ (c : Counters) (html : Text),
      let (afterCustoms, d) := Variable.bind symbol mode values c html
      let (afterLines, d') := Selector.bind e mode values c html
      Selector.bind e mode values d afterCustoms = Variable.bind symbol mode values d' afterLines :=
  ⟨settles_bind separate_variables (replaces_variables symbol mode values),
    settles_bind separate_selectors (replaces_selectors e mode values),
    bind_comm separate_variables separate_selectors variable_not_selector
      (replaces_variables symbol mode values) (replaces_selectors e mode values)⟩

end Binding
end Tender
