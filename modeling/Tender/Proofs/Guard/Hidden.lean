/-
Literal texts of a page whose tokens are hidden.

The compiler cuts a page in front of opening braces and behind closing ones only, and takes blanks
and a backslash off the ends, so it never cuts through a marker.

* `split_marker` — where a text with markers can be cut;
* `parts_piecesFrom`, `part_of_mem_textsOf` — the literal texts of a page are parts of its row.
-/
import Tender.Proofs.Guard
import Tender.Proofs.Template.Builder

namespace Tender.Guard

open Text

variable {row : List (Atom Text)} {s t u v : Text}

/-- All names in a row can be token names. -/
def Named (row : List (Atom Text)) : Prop := ∀ n, .item n ∈ row → isName n = true

/-! ### Where a text with markers can be cut -/

/-- A text with markers is cut into rows, if the cut is not inside a marker. -/
theorem split_marker (heq : Atom.fill marker row = u ++ v)
    (houtside : ∀ n, .item n ∈ row → ∀ x y, marker n = x ++ y → x ≠ [] → y ≠ [] →
      x <:+ u → ¬ y <+: v) :
    ∃ before after, row = before ++ after ∧ Atom.fill marker before = u ∧
      Atom.fill marker after = v := by
  induction row generalizing u with
  | nil =>
    obtain ⟨rfl, rfl⟩ := List.append_eq_nil_iff.1 heq.symm
    exact ⟨[], [], rfl, rfl, rfl⟩
  | cons a row ih =>
    by_cases hu : u = []
    · subst hu
      exact ⟨[], a :: row, rfl, rfl, heq⟩
    cases a with
    | char c =>
      obtain ⟨d, u, rfl⟩ := List.exists_cons_of_ne_nil hu
      obtain ⟨rfl, htail⟩ := List.cons.inj heq
      obtain ⟨before, after, rfl, rfl, rfl⟩ := ih htail fun n hn x y hxy hx hy hxu =>
        houtside n (List.mem_cons_of_mem _ hn) x y hxy hx hy (hxu.trans (List.suffix_cons _ u))
      exact ⟨.char c :: before, after, rfl, rfl, rfl⟩
    | item n =>
      rw [Atom.fill_item] at heq
      rcases List.append_eq_append_iff.1 heq with ⟨u', rfl, htail⟩ | ⟨w, hw, rfl⟩
      · obtain ⟨before, after, rfl, rfl, rfl⟩ := ih htail fun m hm x y hxy hx hy hxu =>
          houtside m (List.mem_cons_of_mem _ hm) x y hxy hx hy
            (hxu.trans (List.suffix_append (marker n) u'))
        exact ⟨.item n :: before, after, rfl, rfl, rfl⟩
      · by_cases hempty : w = []
        · subst hempty
          rw [List.append_nil] at hw
          refine ⟨[.item n], row, rfl, ?_, rfl⟩
          rw [Atom.fill_item, Atom.fill_nil, List.append_nil, hw]
        · exact absurd (List.prefix_append w _) (houtside n List.mem_cons_self u w hw hu hempty
            (List.suffix_refl u))

theorem split_before_brace (hrow : Named row) (heq : Atom.fill marker row = u ++ '{' :: v) :
    ∃ before after, row = before ++ after ∧ Atom.fill marker before = u ∧
      Atom.fill marker after = '{' :: v := by
  refine split_marker heq fun n hn x y hxy hx hy _ hpre => ?_
  -- the opening brace of a marker is its first character
  obtain ⟨c, x, rfl⟩ := List.exists_cons_of_ne_nil hx
  obtain ⟨d, y, rfl⟩ := List.exists_cons_of_ne_nil hy
  obtain ⟨rfl, -⟩ := List.cons_prefix_cons.1 hpre
  rw [marker_eq] at hxy
  have hmem : '{' ∈ markerHead ++ n ++ ['~', '}'] := by
    rw [(List.cons.inj hxy).2]
    simp
  simp [brace_not_mem_markerHead.1, not_mem_name (hrow n hn) (c := '{') (by decide)] at hmem

theorem split_after_brace (hrow : Named row) (heq : Atom.fill marker row = u ++ v)
    (hu : ['}'] <:+ u) :
    ∃ before after, row = before ++ after ∧ Atom.fill marker before = u ∧
      Atom.fill marker after = v := by
  refine split_marker heq fun n hn x y hxy hx hy hxu _ => ?_
  -- the closing brace of a marker is its last character
  have hend : ['}'] <:+ x := by
    rcases List.suffix_or_suffix_of_suffix hu hxu with h | h
    · exact h
    · rcases List.suffix_cons_iff.1 h with rfl | h
      · exact List.suffix_refl _
      · exact absurd (List.suffix_nil.1 h) hx
  obtain ⟨x, rfl⟩ := hend
  obtain ⟨y, d, rfl⟩ := List.eq_nil_or_concat y |>.resolve_left hy
  have hshort : '{' :: (markerHead ++ n ++ ['~']) = x ++ '}' :: y := by
    have hlast : ('{' :: (markerHead ++ n ++ ['~'])) ++ ['}'] = (x ++ '}' :: y) ++ [d] := by
      rw [marker_eq] at hxy
      simpa using hxy
    exact List.append_inj_left' hlast rfl
  have hmem : '}' ∈ '{' :: (markerHead ++ n ++ ['~']) := by
    rw [hshort]
    simp
  simp [brace_not_mem_markerHead.2, not_mem_name (hrow n hn) (c := '}') (by decide)] at hmem

/-! ### Parts of a row -/

/-- A text is the text of a part of a row. -/
def Part (row : List (Atom Text)) (s : Text) : Prop :=
  ∃ part, part <:+: row ∧ Atom.fill marker part = s

namespace Part

/-- Blanks stand between markers, not in them. -/
theorem trimStart (h : Part row s) : Part row (trimStart s) := by
  obtain ⟨part, hpart, rfl⟩ := h
  induction part with
  | nil => exact ⟨[], hpart, rfl⟩
  | cons a part ih =>
    cases a with
    | char c =>
      cases hc : isBlank c with
      | true =>
        rw [Atom.fill_char, Text.trimStart, List.dropWhile_cons_of_pos hc]
        exact ih ((List.suffix_cons _ part).isInfix.trans hpart)
      | false =>
        rw [Atom.fill_char, Text.trimStart, List.dropWhile_cons_of_neg (by simp [hc])]
        exact ⟨_, hpart, rfl⟩
    | item n =>
      rw [Atom.fill_item, marker_eq, List.cons_append, Text.trimStart,
        List.dropWhile_cons_of_neg (by decide)]
      exact ⟨_, hpart, by rw [Atom.fill_item, marker_eq, List.cons_append]⟩

theorem trimEnd (h : Part row s) : Part row (trimEnd s) := by
  obtain ⟨part, hpart, rfl⟩ := h
  induction part using List.reverseRecOn with
  | nil => exact ⟨[], hpart, rfl⟩
  | append_singleton part a ih =>
    cases a with
    | char c =>
      rw [Atom.fill_append, Atom.fill_char, Atom.fill_nil]
      cases hc : isBlank c with
      | true =>
        have htrim : Text.trimEnd (Atom.fill marker part ++ [c]) =
            Text.trimEnd (Atom.fill marker part) := by
          rw [Text.trimEnd, Text.trimEnd, List.reverse_append, List.reverse_singleton,
            List.singleton_append, List.dropWhile_cons_of_pos hc]
        rw [htrim]
        exact ih ((List.prefix_append part _).isInfix.trans hpart)
      | false =>
        rw [trimEnd_append hc]
        exact ⟨_, hpart, by rw [Atom.fill_append, Atom.fill_char, Atom.fill_nil]; rfl⟩
    | item n =>
      have hend : Atom.fill marker (part ++ [.item n]) =
          Atom.fill marker part ++ '{' :: (markerHead ++ n ++ ['~']) ++ ['}'] := by
        rw [Atom.fill_append, Atom.fill_item, Atom.fill_nil, marker_eq]
        simp
      rw [hend, trimEnd_append (by decide)]
      exact ⟨_, hpart, hend⟩

theorem dropLast (h : Part row s) (hlast : s.getLast? = some '\\') : Part row s.dropLast := by
  obtain ⟨part, hpart, rfl⟩ := h
  rcases List.eq_nil_or_concat part with rfl | ⟨part, a, rfl⟩
  · cases hlast
  · rw [List.concat_eq_append] at hpart hlast ⊢
    rw [Atom.fill_append] at hlast ⊢
    cases a with
    | char c =>
      rw [Atom.fill_char, Atom.fill_nil, List.dropLast_concat]
      exact ⟨part, (List.prefix_append part _).isInfix.trans hpart, rfl⟩
    | item n =>
      rw [Atom.fill_item, Atom.fill_nil, List.append_nil, marker_eq,
        List.append_cons _ '~' ['}'], ← List.cons_append, ← List.append_assoc,
        List.getLast?_concat] at hlast
      cases hlast

theorem trimmable (row : List (Atom Text)) : Builder.Trimmable (Part row) :=
  ⟨fun _ => trimStart, fun _ => trimEnd⟩

end Part

/-- A text is the text of the end of a row. -/
def Tail (row : List (Atom Text)) (s : Text) : Prop :=
  ∃ part, part <:+ row ∧ Atom.fill marker part = s

theorem Tail.part (h : Tail row s) : Part row s := by
  obtain ⟨part, hpart, hs⟩ := h
  exact ⟨part, hpart.isInfix, hs⟩

/-- A page is cut in front of opening braces. -/
theorem Tail.cut_before (hrow : Named row) (h : Tail row (u ++ (Piece.opening ++ v))) :
    Part row u ∧ Tail row (Piece.opening ++ v) := by
  obtain ⟨part, hpart, hs⟩ := h
  have hnamed : Named part := fun n hn => hrow n (hpart.subset hn)
  obtain ⟨before, after, rfl, hbefore, hafter⟩ := split_before_brace hnamed hs
  exact ⟨⟨before, (List.prefix_append before after).isInfix.trans hpart.isInfix, hbefore⟩,
    ⟨after, (List.suffix_append before after).trans hpart, hafter⟩⟩

/-- A page is cut behind a closing brace. -/
theorem Tail.cut_after (hrow : Named row) (h : Tail row (u ++ v)) (hu : ['}'] <:+ u) :
    Part row u ∧ Tail row v := by
  obtain ⟨part, hpart, hs⟩ := h
  have hnamed : Named part := fun n hn => hrow n (hpart.subset hn)
  obtain ⟨before, after, rfl, hbefore, hafter⟩ := split_after_brace hnamed hs hu
  exact ⟨⟨before, (List.prefix_append before after).isInfix.trans hpart.isInfix, hbefore⟩,
    ⟨after, (List.suffix_append before after).trans hpart, hafter⟩⟩

/-- A tag ends in a closing brace. -/
theorem ends_of_readTag? {p : Piece} {rest : Text} (h : Piece.readTag? s = some (p, rest)) :
    ∃ w, s = w ++ rest ∧ ['}'] <:+ w := by
  have hends {pattern a b : Text} {c : Text} (hcut : cut pattern c = some (a, b))
      (hpattern : ['}'] <:+ pattern) (x : Text) : x ++ c = x ++ (a ++ pattern) ++ b ∧
        ['}'] <:+ x ++ (a ++ pattern) := by
    refine ⟨by rw [cut_eq hcut, List.append_assoc, List.append_assoc], ?_⟩
    exact (hpattern.trans (List.suffix_append a pattern)).trans (List.suffix_append x _)
  unfold Piece.readTag? at h
  split at h <;>
    obtain ⟨⟨a, b⟩, hcut, heq⟩ := Option.map_eq_some_iff.1 h <;>
    cases heq
  · exact ⟨_, hends hcut ⟨['-', '-', '}'], rfl⟩ ['!', '-', '-']⟩
  · exact ⟨_, hends hcut ⟨['}', '}'], rfl⟩ ['{']⟩
  · exact ⟨_, hends hcut ⟨['}'], rfl⟩ []⟩
  · exact ⟨_, hends hcut ⟨['}'], rfl⟩ []⟩

/-- The literal texts of some pieces are parts of a row. -/
def AllParts (row : List (Atom Text)) (ps : List Piece) : Prop :=
  ∀ p ∈ ps, ∀ t ∈ p.literal?, Part row t

theorem AllParts.cons {done : List Piece} {p : Piece} (hp : ∀ t ∈ p.literal?, Part row t)
    (h : AllParts row done) : AllParts row (p :: done) :=
  List.forall_mem_cons.2 ⟨hp, h⟩

theorem AllParts.text {done : List Piece} (ht : Part row t) (h : AllParts row done) :
    AllParts row (.text t :: done) :=
  h.cons fun _ ht' => Option.some.inj ht' ▸ ht

theorem AllParts.reverse {done : List Piece} (h : AllParts row done) : AllParts row done.reverse :=
  fun p hp => h p (List.mem_reverse.1 hp)

theorem parts_piecesFrom (hrow : Named row) {budget : Nat} {done : List Piece} (hs : Tail row s)
    (hdone : AllParts row done) : AllParts row (Piece.piecesFrom budget done s) := by
  fun_induction Piece.piecesFrom budget done s with
  | case1 budget done s hcut =>
    refine AllParts.reverse ?_
    split
    · exact hdone
    · exact hdone.text hs.part
  | case2 budget done s before after hcut hescaped hclose =>
    rw [cut_eq hcut] at hs
    obtain ⟨hbefore, hrest⟩ := hs.cut_before hrow
    exact .reverse (.text hrest.part (.text (hbefore.dropLast hescaped) hdone))
  | case3 budget done s before after hcut hescaped body rest hclose ih =>
    rw [cut_eq hcut] at hs
    obtain ⟨hbefore, htag⟩ := hs.cut_before hrow
    rw [cut_eq hclose, ← List.append_assoc, ← List.append_assoc] at htag
    have hend : ['}'] <:+ Piece.opening ++ body ++ Piece.closing :=
      List.IsSuffix.trans ⟨['}'], rfl⟩ (List.suffix_append (Piece.opening ++ body) Piece.closing)
    obtain ⟨hbody, hrest⟩ := htag.cut_after hrow hend
    exact ih hrest (.text hbody (.text (hbefore.dropLast hescaped) hdone))
  | case4 done s before after hcut =>
    rw [cut_eq hcut] at hs
    obtain ⟨hbefore, hrest⟩ := hs.cut_before hrow
    exact .reverse (.cons (fun t ht => Option.some.inj ht ▸ hrest.part) (.text hbefore hdone))
  | case5 done s before after hcut =>
    rw [cut_eq hcut] at hs
    obtain ⟨hbefore, hrest⟩ := hs.cut_before hrow
    exact .reverse (.cons (fun t ht => Option.some.inj ht ▸ hrest.part) (.text hbefore hdone))
  | case6 done s before after hcut hplain budget p rest htag ih =>
    rw [cut_eq hcut] at hs
    obtain ⟨hbefore, hopen⟩ := hs.cut_before hrow
    obtain ⟨w, rfl, hend⟩ := ends_of_readTag? htag
    rw [← List.append_assoc] at hopen
    obtain ⟨-, hrest⟩ := hopen.cut_after hrow (hend.trans (List.suffix_append Piece.opening w))
    refine ih hrest (.cons (fun t ht => ?_) (.text hbefore hdone))
    rw [Piece.literal?_of_readTag? htag] at ht
    cases ht

/-- The literal texts of a page with hidden tokens are parts of its row. -/
theorem part_of_mem_textsOf (hrow : Named row) {isHelper : Text → Bool} {maxTags maxDepth : Nat}
    {page : Page} (h : Page.read isHelper maxTags maxDepth (Atom.fill marker row) = .ok page) :
    ∀ s ∈ Node.textsOf page.nodes, Part row s := by
  refine Page.texts_read (Part.trimmable row) h fun p hp s hs => ?_
  exact parts_piecesFrom hrow ⟨row, List.suffix_refl row, rfl⟩ (fun q hq => by cases hq) p hp s hs

end Tender.Guard
