/-
The binding of a page: the pass for the custom variables and then the pass for the cost lines.

* `bindPage_eq` — the two passes fill in every token of the page once, each with its number among
  all tokens of the page, and count them all.
-/
import Tender.Document
import Tender.Proofs.Binding.Pass

namespace Tender

namespace Binding

open Text

theorem mem_variables {t : Token} : t ∈ Variable.family ↔ ∃ k, t = .custom k := by
  constructor
  · intro h
    obtain ⟨k, -, rfl⟩ := List.mem_map.1 h
    exact ⟨k, rfl⟩
  · rintro ⟨k, rfl⟩
    cases k <;> decide

theorem mem_selectors {t : Token} : t ∈ Selector.family ↔ ∃ c, t = .item c := by
  constructor
  · intro h
    obtain ⟨c, -, rfl⟩ := List.mem_map.1 h
    exact ⟨c, rfl⟩
  · rintro ⟨c, rfl⟩
    exact List.mem_map.2 ⟨c, c.mem_all, rfl⟩

theorem separate_variables : Separate Variable.family := by
  intro t ht u hu
  obtain ⟨k, rfl⟩ := mem_variables.1 hu
  cases t with
  | custom j => exact absurd (mem_variables.2 ⟨j, rfl⟩) ht
  | item c => rfl

theorem separate_selectors : Separate Selector.family := by
  intro t ht u hu
  obtain ⟨c, rfl⟩ := mem_selectors.1 hu
  cases t with
  | custom k => rfl
  | item c => exact absurd (mem_selectors.2 ⟨c, rfl⟩) ht

theorem variable_not_selector : ∀ t ∈ Variable.family, t ∉ Selector.family := by
  intro t ht
  obtain ⟨k, rfl⟩ := mem_variables.1 ht
  simp [mem_selectors]

theorem replaces_variables (symbol : Text) (mode : Mode) (values : Entries Text) :
    Replaces Variable.family (Variable.fill symbol mode values) := by
  intro t ht n
  obtain ⟨k, rfl⟩ := mem_variables.1 ht
  exact isReplacement_variable symbol mode values k n

theorem replaces_selectors (e : Estimate) (mode : Mode) (values : Entries Text) :
    Replaces Selector.family (Selector.fill e mode values) := by
  intro t ht n
  obtain ⟨i, rfl⟩ := mem_selectors.1 ht
  exact isReplacement_selector e mode values i n

theorem after_filters (c : Counters) (ts : List Token) :
    (c.after (ts.filter (· ∈ Variable.family))).after (ts.filter (· ∈ Selector.family)) =
      c.after ts := by
  have hcompl : ts.filter (· ∈ Selector.family) =
      ts.filter (fun t => !decide (t ∈ Variable.family)) := by
    refine List.filter_congr fun t _ => ?_
    cases t with
    | custom k => simp [mem_variables, mem_selectors]
    | item c => simp [mem_variables, mem_selectors]
  rw [← Counters.after_append, hcompl]
  exact Counters.after_perm (List.filter_append_perm _ ts) c

end Binding

open Binding Text

/-- What stands for a token with a number in a bound page. -/
def Renderer.replacement (r : Renderer) (e : Estimate) (mode : Mode) (values : Entries Text) :
    Token × Nat → Text
  | (.custom k, n) => Variable.fill r.settings.currencySymbol mode values (.custom k) n
  | (.item c, n) => Selector.fill e mode values (.item c) n

/-- A token needs only what is saved under its own key. -/
theorem Renderer.replacement_congr (r : Renderer) (e : Estimate) (mode : Mode)
    {values values' : Entries Text} {t : Token} {n : Nat}
    (h : saved values (t.variableKey n) = saved values' (t.variableKey n)) :
    r.replacement e mode values (t, n) = r.replacement e mode values' (t, n) := by
  cases t with
  | custom k => simp only [Renderer.replacement, Variable.fill, h]
  | item c => simp only [Renderer.replacement, Selector.fill, h]

/-- The two passes fill in every token of a page once, in the order of the page, and the numbers do
not depend on what is filled in. -/
theorem Renderer.bindPage_eq (r : Renderer) (e : Estimate) (mode : Mode) (values : Entries Text)
    (c : Counters) (html : Text) :
    r.bindPage e mode values c html =
      (Atom.fill (r.replacement e mode values) (numberFrom [] c (atoms Token.all html)),
        c.after (tokens (atoms Token.all html))) := by
  let symbol := r.settings.currencySymbol
  have hboth : overlay Selector.family (Selector.fill e mode values)
      (overlay Variable.family (Variable.fill symbol mode values) written) =
        r.replacement e mode values := by
    funext (t, n)
    cases t with
    | custom k =>
      rw [overlay_of_not_mem (by simp [mem_selectors]), overlay_of_mem (by simp [mem_variables]),
        replacement]
    | item i => rw [overlay_of_mem (by simp [mem_selectors]), replacement]
  have hpasses := bind_bind separate_variables separate_selectors variable_not_selector
    (replaces_variables symbol mode values) (Selector.fill e mode values) c html
  rwa [hboth, after_filters] at hpasses

end Tender
