/-
Splitting pages that were joined.

* `splitOn_joinWith` — joined pages are split again into themselves, if the marker stands nowhere
  but between them (`Unforged`);
* `visible_splitOn_iff` — for the standard marker this is needed as well, even where blank pages are
  dropped.
-/
import Tender.PageBreak.Split
import Tender.Proofs.Text.Cut
import Tender.Proofs.Text.Scan

namespace Tender

open Text

/-! ### Splitting at a pattern -/

namespace Text

variable {pattern a b s : Text} (h : pattern ≠ [])

theorem splitFrom_of_none {done : List Text} (hcut : cut pattern s = none) :
    splitFrom pattern h done s = (s :: done).reverse := by
  unfold splitFrom
  split
  · rfl
  · rename_i hcut'
    rw [hcut] at hcut'
    cases hcut'

theorem splitFrom_of_some {done : List Text} (hcut : cut pattern s = some (a, b)) :
    splitFrom pattern h done s = splitFrom pattern h (a :: done) b := by
  conv => lhs; unfold splitFrom
  split
  · rename_i hcut'
    rw [hcut] at hcut'
    cases hcut'
  · rename_i hcut'
    rw [hcut] at hcut'
    cases hcut'
    rfl

theorem splitFrom_append (done more : List Text) (s : Text) :
    splitFrom pattern h (done ++ more) s = more.reverse ++ splitFrom pattern h done s := by
  fun_induction splitFrom pattern h done s with
  | case1 done s hcut =>
    rw [splitFrom_of_none h hcut]
    simp
  | case2 done s a b hcut ih =>
    rw [splitFrom_of_some h hcut]
    exact ih

theorem splitOn_of_none (hcut : cut pattern s = none) : splitOn pattern h s = [s] :=
  splitFrom_of_none h hcut

theorem splitOn_of_some (hcut : cut pattern s = some (a, b)) :
    splitOn pattern h s = a :: splitOn pattern h b := by
  rw [splitOn, splitFrom_of_some h hcut]
  exact splitFrom_append h [] [a] b

/-- The pattern stands in none of the parts. -/
theorem not_infix_of_mem_splitOn {part : Text} (hpart : part ∈ splitOn pattern h s) :
    ¬ pattern <:+: part := by
  induction hn : s.length using Nat.strongRecOn generalizing s with
  | _ n ih =>
    cases hcut : cut pattern s with
    | none =>
      rw [splitOn_of_none h hcut] at hpart
      rw [List.mem_singleton.1 hpart]
      exact not_infix_of_cut hcut
    | some found =>
      obtain ⟨a, b⟩ := found
      rw [splitOn_of_some h hcut] at hpart
      rcases List.mem_cons.1 hpart with rfl | hpart
      · rintro ⟨x, y, hxy⟩
        have hfirst := length_le_of_cut (x := x) (y := y ++ (pattern ++ b)) hcut (by
          rw [cut_eq hcut, ← hxy]
          simp only [List.append_assoc])
        have := congrArg List.length hxy
        have := List.length_pos_iff.2 h
        simp only [List.length_append] at *
        omega
      · have := length_of_cut hcut
        have := List.length_pos_iff.2 h
        exact ih b.length (by omega) hpart rfl

end Text

namespace PageBreak

/-! ### Pages with a marker between them -/

/-- The marker stands nowhere but between the pages, not even across the start of a marker. -/
def Unforged (marker : Text) : List Text → Prop
  | [] => True
  | [page] => cut marker page = none
  | page :: next :: rest =>
    cut marker (page ++ marker) = some (page, []) ∧ Unforged marker (next :: rest)

instance decidableUnforged (marker : Text) : (pages : List Text) → Decidable (Unforged marker pages)
  | [] => .isTrue True.intro
  | [page] => inferInstanceAs (Decidable (cut marker page = none))
  | page :: next :: rest =>
    have := decidableUnforged marker (next :: rest)
    inferInstanceAs (Decidable (cut marker (page ++ marker) = some (page, []) ∧
      Unforged marker (next :: rest)))

theorem splitOn_joinWith {marker : Text} (h : marker ≠ []) {pages : List Text}
    (hpages : pages ≠ []) (hunforged : Unforged marker pages) :
    splitOn marker h (joinWith marker pages) = pages := by
  induction pages with
  | nil => exact absurd rfl hpages
  | cons page rest ih =>
    cases rest with
    | nil =>
      rw [joinWith_singleton]
      exact splitOn_of_none h hunforged
    | cons next rest =>
      obtain ⟨hpage, hrest⟩ := hunforged
      rw [joinWith_cons_cons, splitOn_of_some h (cut_append h hpage _), List.nil_append,
        ih (List.cons_ne_nil _ _) hrest]

/-! ### The standard marker -/

/-- The marker that is used unless another one is set. -/
def standardMarker : Text := lit "___PAGE_BREAK___"

theorem standardMarker_eq : standardMarker =
    ['_', '_', '_', 'P', 'A', 'G', 'E', '_', 'B', 'R', 'E', 'A', 'K', '_', '_', '_'] := by
  rw [standardMarker, lit_ofList]

theorem length_standardMarker : standardMarker.length = 16 := by
  rw [standardMarker_eq]
  rfl

theorem standardMarker_ne_nil : standardMarker ≠ [] := by
  rw [standardMarker_eq]
  decide

/-- What can be left of a marker, up to its first letter, behind a marker that starts before it. -/
def leftovers : List Text := [['P'], ['_', 'P'], ['_', '_', 'P']]

/-- A part of a marker in front of a marker that has a marker at its start: it starts with low
lines, and what is left has fewer of them. -/
theorem leftover_of_overlap {u b : Text} (h : u ++ standardMarker = standardMarker ++ b)
    (hnil : u ≠ []) (hlength : u.length < 16) :
    ∃ w ∈ leftovers, w <+: b ∧ ['_', '_', '_'] <+: u := by
  have hle : u.length ≤ standardMarker.length :=
    length_standardMarker ▸ Nat.le_of_lt hlength
  have hu : u = standardMarker.take u.length := by
    have := congrArg (List.take u.length) h
    rw [List.take_left, List.take_append_of_le_length hle] at this
    exact this
  have hrest : standardMarker = standardMarker.drop u.length ++ b := by
    have := congrArg (List.drop u.length) h
    rw [List.drop_left, List.drop_append_of_le_length hle] at this
    exact this
  have hb : standardMarker.drop (16 - u.length) = b := by
    have := congrArg (List.drop (standardMarker.drop u.length).length) hrest
    rw [List.drop_left, List.length_drop, length_standardMarker] at this
    exact this
  have hall : ∀ k < 16, 0 < k → standardMarker.drop k <+: standardMarker →
      ∃ w ∈ leftovers, w <+: standardMarker.drop (16 - k) ∧
        ['_', '_', '_'] <+: standardMarker.take k := by
    rw [standardMarker_eq]
    decide
  obtain ⟨w, hw, hleft, hstart⟩ :=
    hall u.length hlength (List.length_pos_iff.2 hnil) ⟨b, hrest.symm⟩
  rw [hb] at hleft
  rw [← hu] at hstart
  exact ⟨w, hw, hleft, hstart⟩

/-- Behind a page in which no marker stands, the first marker is the one behind the page or it
starts in the page. -/
theorem overlap_of_cut {page a b : Text}
    (hcut : cut standardMarker (page ++ standardMarker) = some (a, b))
    (hpage : ¬ standardMarker <:+: page) :
    (a = page ∧ b = []) ∨ ∃ w ∈ leftovers, w <+: b ∧ a ++ ['_', '_', '_'] <+: page := by
  have hsplit := cut_eq hcut
  have hfirst := length_le_of_cut (y := []) hcut (by rw [List.append_nil])
  obtain ⟨u, rfl⟩ : a <+: page := List.prefix_of_prefix_length_le ⟨_, hsplit.symm⟩
    (List.prefix_append page standardMarker) hfirst
  rw [List.append_assoc] at hsplit
  have hrest : u ++ standardMarker = standardMarker ++ b := List.append_cancel_left hsplit
  by_cases hnil : u = []
  · rw [hnil, List.nil_append] at hrest
    exact .inl ⟨by rw [hnil, List.append_nil], List.self_eq_append_right.1 hrest⟩
  · have hlength : u.length < 16 := by
      by_contra hlong
      have hstarts : standardMarker <+: u := List.prefix_of_prefix_length_le
        ⟨b, hrest.symm⟩ (List.prefix_append u standardMarker)
        (length_standardMarker ▸ Nat.not_lt.1 hlong)
      exact hpage (hstarts.isInfix.trans (List.suffix_append a u).isInfix)
    obtain ⟨w, hw, hleft, hstart⟩ := leftover_of_overlap hrest hnil hlength
    exact .inr ⟨w, hw, hleft, (List.prefix_append_right_inj a).2 hstart⟩

theorem bare_leftover {w : Text} (hw : w ∈ leftovers) : Bare standardMarker w := by
  have hall : ∀ w ∈ leftovers, ¬ standardMarker <:+: w ∧ ¬ EndsInside standardMarker w := by
    rw [standardMarker_eq]
    decide
  exact bare_of_not_infix (hall w hw).1 (hall w hw).2

/-- A leftover of a marker stays at the start of the first part. -/
theorem splitOn_leftover {w : Text} (hw : w ∈ leftovers) (s : Text) :
    ∃ x rest, splitOn standardMarker standardMarker_ne_nil (w ++ s) = (w ++ x) :: rest := by
  have hcut := cut_bare_append (bare_leftover hw) s
  cases hs : cut standardMarker s with
  | none =>
    rw [hs] at hcut
    exact ⟨s, [], splitOn_of_none _ hcut⟩
  | some found =>
    rw [hs] at hcut
    exact ⟨found.1, _, splitOn_of_some _ hcut⟩

/-- The pages that show something. -/
def visible (pages : List Text) : List Text := pages.filter fun page => !allBlank page

theorem visible_cons_of_mem {c : Char} {page : Text} (hmem : c ∈ page) (hc : isBlank c = false)
    (rest : List Text) : visible (page :: rest) = page :: visible rest := by
  refine List.filter_cons_of_pos ?_
  rw [Bool.not_eq_true', allBlank]
  exact List.all_eq_false.2 ⟨c, hmem, by rw [hc]; exact Bool.false_ne_true⟩

/-- A page that starts as a leftover does does not start with three low lines, not even behind
blanks. -/
theorem leftover_ne {w x a page : Text} (hw : w ∈ leftovers) (ha : allBlank a = true)
    (hpage : a ++ ['_', '_', '_'] <+: page) : w ++ x ≠ page := by
  rintro rfl
  cases a with
  | nil =>
    simp only [leftovers, List.mem_cons, List.not_mem_nil, or_false] at hw
    rcases hw with rfl | rfl | rfl <;> simp at hpage
  | cons c a =>
    have hc : isBlank c = true := List.all_eq_true.1 ha c List.mem_cons_self
    have hhead : ∀ w ∈ leftovers, ∃ d w', w = d :: w' ∧ isBlank d = false := by
      intro w hw
      simp only [leftovers, List.mem_cons, List.not_mem_nil, or_false] at hw
      rcases hw with rfl | rfl | rfl <;> exact ⟨_, _, rfl, by decide⟩
    obtain ⟨d, w', rfl, hd⟩ := hhead w hw
    obtain ⟨rfl, -⟩ := List.cons_prefix_cons.1 hpage
    rw [hd] at hc
    cases hc

theorem visible_cons (page : Text) (rest : List Text) :
    visible (page :: rest) = if allBlank page then visible rest else page :: visible rest := by
  rw [visible, List.filter_cons]
  cases allBlank page <;> rfl

/-- If the pages come back, no marker stands in one. -/
theorem not_infix_of_visible {s : Text} {pages : List Text}
    (h : visible (splitOn standardMarker standardMarker_ne_nil s) = visible pages) {page : Text}
    (hpage : page ∈ pages) : ¬ standardMarker <:+: page := by
  intro hstands
  have hline : allBlank page = false := by
    refine List.all_eq_false.2 ⟨'_', hstands.subset ?_, by decide⟩
    rw [standardMarker_eq]
    exact List.mem_cons_self
  have hmem : page ∈ visible (splitOn standardMarker standardMarker_ne_nil s) := by
    rw [h]
    exact List.mem_filter.2 ⟨hpage, by rw [hline]; rfl⟩
  exact not_infix_of_mem_splitOn _ (List.mem_filter.1 hmem).1 hstands

theorem unforged_of_visible {pages : List Text}
    (h : visible (splitOn standardMarker standardMarker_ne_nil (joinWith standardMarker pages)) =
      visible pages) : Unforged standardMarker pages := by
  induction pages with
  | nil => exact True.intro
  | cons page rest ih =>
    have hpage := not_infix_of_visible h List.mem_cons_self
    cases rest with
    | nil => exact cut_eq_none hpage
    | cons next rest =>
      rw [joinWith_cons_cons] at h
      cases hcut : cut standardMarker (page ++ standardMarker) with
      | none => exact absurd (List.suffix_append page _).isInfix (not_infix_of_cut hcut)
      | some found =>
        obtain ⟨a, b⟩ := found
        rw [splitOn_of_some _ (cut_append standardMarker_ne_nil hcut _)] at h
        rcases overlap_of_cut hcut hpage with ⟨rfl, rfl⟩ | ⟨w, hw, ⟨v, rfl⟩, hstart⟩
        · refine ⟨hcut, ih ?_⟩
          rw [visible_cons, visible_cons] at h
          cases hblank : allBlank a with
          | true =>
            rw [hblank] at h
            exact h
          | false =>
            rw [hblank] at h
            exact (List.cons.inj h).2
        · -- the page ends in the start of a marker, so it does not come back as a whole
          exfalso
          obtain ⟨x, parts, hparts⟩ :=
            splitOn_leftover hw (v ++ joinWith standardMarker (next :: rest))
          have hline : '_' ∈ page := hstart.subset (by simp)
          rw [List.append_assoc, hparts, visible_cons_of_mem hline (by decide), visible_cons] at h
          cases hblank : allBlank a with
          | true =>
            have hall : ∀ w ∈ leftovers, 'P' ∈ w := by decide
            have hletter : 'P' ∈ w ++ x := List.mem_append_left x (hall w hw)
            rw [hblank, if_pos rfl, visible_cons_of_mem hletter (by decide)] at h
            exact leftover_ne hw hblank hstart (List.cons.inj h).1
          | false =>
            rw [hblank, if_neg Bool.false_ne_true] at h
            have hlength := hstart.length_le
            rw [(List.cons.inj h).1, List.length_append, List.length_cons] at hlength
            omega

theorem visible_splitOn_iff {pages : List Text} :
    visible (splitOn standardMarker standardMarker_ne_nil (joinWith standardMarker pages)) =
      visible pages ↔ Unforged standardMarker pages := by
  refine ⟨unforged_of_visible, fun h => ?_⟩
  cases pages with
  -- no pages at all are joined to one blank text
  | nil => decide +kernel
  | cons page rest => rw [splitOn_joinWith standardMarker_ne_nil (List.cons_ne_nil _ _) h]

end PageBreak

end Tender
