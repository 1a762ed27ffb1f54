/-
Sections of a document, split again, and pages, joined and split.

* `split_section` — the sections of a document are not split again;
* `unforged_of_marked`, `visible_splitOn_joinWith` — pages that are joined come back, without the
  blank ones, if the marker stands just where they were joined;
* `split_stable_joined` — both, for every marker with which a page break can be replaced.
-/
import Tender.Proofs.PageBreak.Form
import Tender.Proofs.Template.Written

namespace Tender

open Text

namespace Text

/-- What stands between patterns stands in the text. -/
theorem infix_of_mem_splitOn {pattern s part : Text} (h : pattern ≠ [])
    (hpart : part ∈ splitOn pattern h s) : part <:+: s := by
  induction hn : s.length using Nat.strongRecOn generalizing s with
  | _ n ih =>
    cases hcut : cut pattern s with
    | none =>
      rw [splitOn_of_none h hcut] at hpart
      rw [List.mem_singleton.1 hpart]
    | some found =>
      obtain ⟨a, b⟩ := found
      have hs := cut_eq hcut
      rw [splitOn_of_some h hcut] at hpart
      rcases List.mem_cons.1 hpart with rfl | hpart
      · exact ⟨[], pattern ++ b, by rw [hs]; simp⟩
      · have := length_of_cut hcut
        have := List.length_pos_iff.2 h
        refine (ih b.length (by omega) hpart rfl).trans ⟨a ++ pattern, [], by rw [hs]; simp⟩

end Text

namespace PageBreak

variable {marker : Text}

/-! ### Sections -/

/-- A section of a document is not split again: no page break is left in it, and no marker. -/
theorem split_section (h : marker ≠ []) (hplain : '\\' ∉ marker) (hopen : '<' ∉ marker)
    (hclose : '>' ∉ marker) (html : Text) : ∃ pages, split marker html = .ok pages ∧
      ∀ page ∈ pages, allBlank page = false ∧ split marker page = .ok [page] := by
  have hread := Marker.read_of_plain hplain
  refine ⟨_, split_of_read h hread html, fun page hpage => ?_⟩
  obtain ⟨hmem, hvisible⟩ := List.mem_filter.1 hpage
  have hnone := not_infix_of_mem_splitOn h hmem
  have hbroken := not_broken_of_infix hopen hclose (infix_of_mem_splitOn h hmem) hnone
  have hblank : allBlank page = false := by simpa using hvisible
  refine ⟨hblank, ?_⟩
  rw [split_of_not_broken h hbroken hread, splitOn_of_none h (cut_eq_none hnone), visible_cons,
    hblank]
  rfl

/-! ### Joined pages -/

/-- The characters and the markers of a text, searched from left to right without overlap. -/
def marked (marker s : Text) : List (Atom Unit) :=
  Text.atoms (Text.spelled (fun _ => marker) [()]) s

/-- The characters of pages, and a marker at each joint. -/
def jointed : List Text → List (Atom Unit)
  | [] => []
  | [page] => page.map .char
  | page :: next :: rest => page.map .char ++ .item () :: jointed (next :: rest)

theorem cut_of_marked (h : marker ≠ []) {w s : Text} {as : List (Atom Unit)}
    (hs : marked marker s = w.map .char ++ .item () :: as) :
    ∃ v, s = w ++ (marker ++ v) ∧ marked marker v = as ∧ cut marker s = some (w, v) := by
  have hne : ∀ a ∈ [()], (fun _ : Unit => marker) a ≠ [] := fun _ _ => h
  induction w generalizing s with
  | nil =>
    cases s with
    | nil => cases hs
    | cons c s =>
      rcases atoms_cons hne c s with ⟨-, heq⟩ | ⟨_, -, v, hv, heq⟩
      · rw [marked, heq] at hs
        cases hs
      · rw [marked, heq] at hs
        rw [hv]
        exact ⟨v, rfl, (List.cons.inj hs).2, cutFrom_pattern [] h v⟩
  | cons d w ih =>
    cases s with
    | nil => cases hs
    | cons c s =>
      rcases atoms_cons hne c s with ⟨hnone, heq⟩ | ⟨_, -, v, hv, heq⟩
      · rw [marked, heq] at hs
        obtain ⟨hc, hrest⟩ := List.cons.inj hs
        cases hc
        obtain ⟨v, rfl, hv, hcut⟩ := ih hrest
        refine ⟨v, rfl, hv, ?_⟩
        rw [cut, cutFrom_cons_of_none [] (hnone () List.mem_cons_self), cutFrom_seen, ← cut, hcut]
        rfl
      · rw [marked, heq] at hs
        cases hs

theorem unforged_of_marked (h : marker ≠ []) {pages : List Text}
    (hmarked : marked marker (joinWith marker pages) = jointed pages) : Unforged marker pages := by
  induction pages with
  | nil => exact True.intro
  | cons page rest ih =>
    cases rest with
    | nil =>
      rw [joinWith_singleton] at hmarked
      exact cut_eq_none (not_infix_of_atoms (fun _ _ => h) hmarked () List.mem_cons_self)
    | cons next rest =>
      obtain ⟨v, hjoin, hrest, hcut⟩ := cut_of_marked h hmarked
      rw [joinWith_cons_cons, List.append_assoc] at hjoin
      obtain rfl := List.append_cancel_left (List.append_cancel_left hjoin)
      rw [joinWith_cons_cons] at hcut
      exact ⟨cut_of_append (b := []) h hcut, ih hrest⟩

/-- Pages that were joined come back without the blank ones. -/
theorem visible_splitOn_joinWith (h : marker ≠ []) {pages : List Text}
    (hmarked : marked marker (joinWith marker pages) = jointed pages) :
    visible (splitOn marker h (joinWith marker pages)) = visible pages := by
  cases pages with
  -- no pages at all are joined to one blank text
  | nil =>
    have hnil : cut marker (joinWith marker []) = none :=
      cut_eq_none fun hin => h (List.infix_nil.1 hin)
    rw [splitOn_of_none h hnil]
    rfl
  | cons page rest =>
    rw [splitOn_joinWith h (List.cons_ne_nil _ _) (unforged_of_marked h hmarked)]

/-- Splitting is stable and undoes joining: the sections of any document are not blank and not split
again, with the standard marker; and whatever the marker is, pages in whose join no page break
stands, and the marker just at the joints, come back without the blank ones exactly if the marker can
be read as what is written for a page break. -/
theorem split_stable_joined (html marker : Text) (pages : List Text) :
    (∃ sections, split standardMarker html = .ok sections ∧
      ∀ s ∈ sections, allBlank s = false ∧ split standardMarker s = .ok [s]) ∧
    (marker ≠ [] → ¬ Broken (joinWith marker pages) →
      marked marker (joinWith marker pages) = jointed pages →
      (split marker (joinWith marker pages) = .ok (visible pages) ↔
        ∃ parts, Marker.read marker = .ok parts)) := by
  constructor
  · have hchars : '\\' ∉ standardMarker ∧ '<' ∉ standardMarker ∧ '>' ∉ standardMarker := by
      rw [standardMarker_eq]
      decide
    exact split_section standardMarker_ne_nil hchars.1 hchars.2.1 hchars.2.2 html
  · intro h hbroken hmarked
    constructor
    · intro hsplit
      cases hread : Marker.read marker with
      | ok parts => exact ⟨parts, rfl⟩
      | error e =>
        rw [split, hread] at hsplit
        cases hsplit
    · rintro ⟨parts, hread⟩
      rw [split_of_not_broken h hbroken hread, visible_splitOn_joinWith h hmarked]

/-- A document with a page break that spans another one. -/
def spannedBreak : Text :=
  lit "a<div style=\"page-break-after: always <!-- PageBreak --> \"> </DIV> b"

/-- Pages that start and end like a marker and like a page break. -/
def edgedPages : List Text := [lit "<!-- page break -->", lit "=\\g<0>", lit " "]

theorem split_stable_joined_edgedPages :
    (split standardMarker spannedBreak = .ok [lit "a", lit " b"] ∧
      split standardMarker (lit " b") = .ok [lit " b"]) ∧
    joinWith (lit "==") edgedPages = lit "<!-- page break -->===\\g<0>== " ∧
      split (lit "==") (joinWith (lit "==") edgedPages) = .ok (visible edgedPages) := by
  obtain ⟨hstable, hjoined⟩ := split_stable_joined spannedBreak (lit "==") edgedPages
  have hsections : split standardMarker spannedBreak = .ok [lit "a", lit " b"] :=
    ok_of_toOption (by decide +kernel)
  obtain ⟨pages, hpages, hstay⟩ := hstable
  obtain rfl := Except.ok.inj (hpages.symm.trans hsections)
  refine ⟨⟨hsections, (hstay (lit " b") (by simp)).2⟩, by decide +kernel, ?_⟩
  exact (hjoined (by decide +kernel) (by decide +kernel) (by decide +kernel)).2
    ⟨_, Marker.read_of_plain (by decide +kernel)⟩

/-- Pages do not come back if a page break cannot be replaced by the marker, though none stands in
their join. -/
theorem split_letterEscape :
    lit "\\q" ≠ [] ∧ ¬ Broken (joinWith (lit "\\q") [['a'], ['b']]) ∧
      marked (lit "\\q") (joinWith (lit "\\q") [['a'], ['b']]) = jointed [['a'], ['b']] ∧
      split (lit "\\q") (joinWith (lit "\\q") [['a'], ['b']]) ≠ .ok (visible [['a'], ['b']]) := by
  refine ⟨by decide +kernel, by decide +kernel, by decide +kernel, fun h => ?_⟩
  have hfault : (split (lit "\\q") (joinWith (lit "\\q") [['a'], ['b']])).toOption = none := by
    decide +kernel
  rw [h] at hfault
  cases hfault

end PageBreak

end Tender
