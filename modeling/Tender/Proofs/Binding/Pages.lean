/-
Where a document is cut into pages does not matter to its tokens.

* `atoms_pages` — pages that cut no token are read one after the other;
* `keys_numberFrom` — the tokens of one counter get the keys that follow one another;
* `bindPages_flatten` — pages bound one after the other are the bound text of all of them;
* `renderPages_bindPages` — a rendering binds its compiled pages in this way.
-/
import Tender.Proofs.Document
import Tender.Proofs.Harvest
import Tender.Proofs.Renderer

namespace Tender

open Binding Text

/-- Binds pages one after the other, each with both passes; the counters go on from page to page. -/
def Renderer.bindPages (r : Renderer) (e : Estimate) (mode : Mode) (values : Entries Text) :
    Counters → List Text → List Text × Counters
  | c, [] => ([], c)
  | c, html :: rest =>
    let (page, c) := r.bindPage e mode values c html
    let (pages, c) := r.bindPages e mode values c rest
    (page :: pages, c)

namespace Binding

/-- No token stands across a place where two pages meet; it may not reach over whole pages either. -/
def Unbroken (pages : List Text) : Prop :=
  ∀ i ≤ pages.length, ∀ t ∈ Token.all,
    ¬ Straddles (spelling t) (pages.take i).flatten (pages.drop i).flatten

instance (pages : List Text) : Decidable (Unbroken pages) :=
  inferInstanceAs (Decidable (∀ i ≤ pages.length, _))

theorem Unbroken.first {html : Text} {pages : List Text} (h : Unbroken (html :: pages)) :
    ∀ t ∈ Token.all, ¬ Straddles (spelling t) html pages.flatten := by
  have hfirst := h 1 (by simp)
  simpa using hfirst

theorem Unbroken.rest {html : Text} {pages : List Text} (h : Unbroken (html :: pages)) :
    Unbroken pages := by
  intro i hi t ht hacross
  refine h (i + 1) (by simpa using hi) t ht ?_
  rw [List.take_succ_cons, List.drop_succ_cons, List.flatten_cons]
  exact hacross.mono

theorem atoms_pages {html : Text} {pages : List Text} (h : Unbroken (html :: pages)) :
    atoms Token.all (html :: pages).flatten =
      atoms Token.all html ++ atoms Token.all pages.flatten := by
  rw [List.flatten_cons]
  refine atoms_append (fun t _ => spelling_ne_nil t) h.first fun v t _ u _ ht hu => ?_
  obtain ⟨rest, rfl⟩ := hu
  exact spelling_unique ht

theorem variableKey_eq_of_shares {t u : Token} (h : t.shares u = true) (n : Nat) :
    t.variableKey n = u.variableKey n := by
  cases t with
  | custom k =>
    cases u with
    | custom j => rw [of_decide_eq_true h]
    | item _ => cases h
  | item _ =>
    cases u with
    | custom j => cases h
    | item _ => rfl

/-- The keys of the tokens that share the counter of a token, in the order of the page. -/
def keysOf (t : Token) (row : List (Atom (Token × Nat))) : List Text :=
  ((Atom.items row).filter fun b => t.shares b.1).map fun b => b.1.variableKey b.2

/-- The `k`-th token of a counter gets the `k`-th key from where the counter stands. -/
theorem keys_numberFrom (c : Counters) (as : List (Atom Token)) (t : Token) :
    keysOf t (numberFrom [] c as) =
      (List.range ((tokens as).countP t.shares)).map fun k => t.variableKey (c.number t + k) := by
  induction as generalizing c with
  | nil => rfl
  | cons a as ih =>
    cases a with
    | char x =>
      rw [numberFrom_char, tokens_char, ← ih]
      rfl
    | item u =>
      have hrest := ih (c.next u)
      rw [keysOf, Counters.number_next] at hrest
      rw [keysOf, numberFrom_item, Atom.items_item, tokens_item, List.filter_cons,
        List.countP_cons]
      by_cases hu : t.shares u = true
      -- the counter moves on at this token, so the keys after it are those of the tokens after it
      · rw [if_pos hu] at hrest
        rw [if_pos hu, if_pos hu, List.map_cons, hrest, List.range_succ_eq_map, List.map_cons,
          List.map_map, ← variableKey_eq_of_shares hu, ← Counters.number_eq_of_shares hu]
        refine congrArg₂ List.cons rfl (List.map_congr_left fun k _ => ?_)
        show t.variableKey (c.number t + 1 + k) = t.variableKey (c.number t + (k + 1))
        rw [Nat.add_assoc, Nat.add_comm 1]
      · rw [if_neg hu] at hrest
        rw [if_neg hu, if_neg hu, hrest]
        rfl

end Binding

/-- What binding pages one after the other gives, by the tokens of all of them. -/
theorem Renderer.bindPages_eq (r : Renderer) (e : Estimate) (mode : Mode) (values : Entries Text)
    (c : Counters) {pages : List Text} (h : Unbroken pages) :
    (r.bindPages e mode values c pages).1.flatten =
        Atom.fill (r.replacement e mode values) (numberFrom [] c (atoms Token.all pages.flatten)) ∧
      (r.bindPages e mode values c pages).2 = c.after (tokens (atoms Token.all pages.flatten)) := by
  induction pages generalizing c with
  | nil => exact ⟨rfl, rfl⟩
  | cons html pages ih =>
    obtain ⟨hpages, hcounters⟩ := ih (c.after (tokens (atoms Token.all html))) h.rest
    rw [bindPages, bindPage_eq, atoms_pages h, numberFrom_append, Atom.fill_append,
      tokens_append, Counters.after_append]
    exact ⟨by rw [List.flatten_cons, hpages], hcounters⟩

/-- Page boundaries do not renumber tokens.  Pages that are bound one after the other with shared
counters give the text and the counters of all pages bound at once, and every token is filled in with
its number in the whole text: the `k`-th token of a kind of custom variable binds the `k`-th key of
the kind, and the `k`-th token of a cost line, of whichever category, the `k`-th key of cost lines,
counted from the counters at the start. -/
theorem Renderer.bindPages_flatten (r : Renderer) (e : Estimate) (mode : Mode)
    (values : Entries Text) (c : Counters) {pages : List Text} (h : Unbroken pages) :
    let row := numberFrom [] c (atoms Token.all pages.flatten)
    ((r.bindPages e mode values c pages).1.flatten, (r.bindPages e mode values c pages).2) =
      r.bindPage e mode values c pages.flatten ∧
    (r.bindPages e mode values c pages).1.flatten = Atom.fill (r.replacement e mode values) row ∧
    ∀ t, keysOf t row =
      (List.range ((tokens (atoms Token.all pages.flatten)).countP t.shares)).map
        fun k => t.variableKey (c.number t + k) := by
  obtain ⟨hpages, hcounters⟩ := r.bindPages_eq e mode values c h
  refine ⟨?_, hpages, keys_numberFrom c _⟩
  rw [hpages, hcounters, bindPage_eq]

/-- Pages that end and begin in parts of tokens, one of them empty. -/
def tornPages : List Text :=
  [lit "\x7b\x7bcustomText\x7d\x7d\x7b", lit "\x7b\x7blineItemTool\x7d\x7d \x7b\x7b", [],
    lit " customText\x7d\x7d\x7b\x7bcustomText\x7d\x7d"]

theorem Renderer.bindPages_flatten_tornPages :
    Unbroken tornPages ∧
      (((standard {}).bindPages default .view [] Counters.start tornPages).1.flatten,
        ((standard {}).bindPages default .view [] Counters.start tornPages).2) =
          (standard {}).bindPage default .view [] Counters.start tornPages.flatten ∧
      keysOf (.custom .text) (numberFrom [] Counters.start (atoms Token.all tornPages.flatten)) =
        [lit "customText_0", lit "customText_1"] := by
  have hunbroken : Unbroken tornPages := by decide +kernel
  have hbound := (standard {}).bindPages_flatten default .view [] Counters.start hunbroken
  refine ⟨hunbroken, hbound.1, (hbound.2.2 (.custom .text)).trans ?_⟩
  decide +kernel

/-! ### Renderings -/

/-- A rendering whose sources are compiled to these pages, within the limit, binds them one after
the other from its own counters on. -/
theorem Document.renderPages_bindPages {d : Document} {i : Nat} {sources compiled : List Text}
    (hready : d.stage.Ready) (hlimit : i + sources.length ≤ d.renderer.settings.maxPages)
    (h : List.Forall₂ (fun source html =>
      d.renderer.compilePage source (.map d.context) = .ok html) sources compiled) :
    let bound := d.renderer.bindPages d.estimate d.mode d.values d.counters compiled
    (d.renderPages i sources).2 = none ∧
      (d.renderPages i sources).1.pages = d.pages ++ bound.1 ∧
      (d.renderPages i sources).1.counters = bound.2 := by
  induction sources generalizing d i compiled with
  | nil =>
    cases h
    exact ⟨rfl, (List.append_nil _).symm, rfl⟩
  | cons source sources ih =>
    cases h with
    | @cons _ html _ compiled hpage hrest =>
      rw [List.length_cons] at hlimit
      have hlimit' : i + 1 + sources.length ≤ (d.addPage html).renderer.settings.maxPages := by
        show i + 1 + sources.length ≤ d.renderer.settings.maxPages
        omega
      obtain ⟨hfault, hpages, hcounters⟩ := ih (d := d.addPage html) (.inr rfl) hlimit' hrest
      rw [renderPages_cons, if_neg (by omega), renderPage_ok hready hpage, Renderer.bindPages,
        Renderer.bindPage_eq]
      refine ⟨hfault, ?_, hcounters⟩
      show ((d.addPage html).renderPages (i + 1) sources).1.pages = _
      rw [hpages, addPage, List.append_assoc]
      rfl

end Tender
