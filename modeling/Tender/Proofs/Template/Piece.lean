/-
How a page is taken apart into pieces.

* `piecesFrom_plain` and its companions — what the scan does at the next mustache;
* `infix_of_mem_ofPage` — the literal texts of the pieces stand in the page;
* `piecesFrom_bare_append` — plain text in front of a text goes into the first piece;
* `Scanned.piecesFrom_append` — a text in which every mustache is closed is taken apart in the same
  way whatever follows it.
-/
import Tender.Proofs.Text.Cut
import Tender.Template.Piece

namespace Tender

open Text

namespace Piece

variable {budget : Nat} {done : List Piece} {source s before after : Text}

/-! ### The next mustache -/

theorem piecesFrom_plain (h : cut opening s = none) :
    piecesFrom budget done s = (if s = [] then done else .text s :: done).reverse := by
  unfold piecesFrom
  split
  · rfl
  · rename_i hcut
    rw [h] at hcut
    cases hcut

theorem piecesFrom_escaped {body rest : Text} (h : cut opening s = some (before, after))
    (hescaped : before.getLast? = some '\\') (hclose : cut closing after = some (body, rest)) :
    piecesFrom budget done s =
      piecesFrom budget
        (.text (opening ++ body ++ closing) :: .text before.dropLast :: done) rest := by
  conv => lhs; unfold piecesFrom
  split
  · rename_i hcut
    rw [h] at hcut
    cases hcut
  · rename_i hcut
    rw [h] at hcut
    cases hcut
    rw [if_pos hescaped]
    split
    · rename_i hcut
      rw [hclose] at hcut
      cases hcut
    · rename_i hcut
      rw [hclose] at hcut
      cases hcut
      rfl

theorem piecesFrom_limit (h : cut opening s = some (before, after))
    (hplain : before.getLast? ≠ some '\\') :
    piecesFrom 0 done s = (.overLimit (opening ++ after) :: .text before :: done).reverse := by
  unfold piecesFrom
  split
  · rename_i hcut
    rw [h] at hcut
    cases hcut
  · rename_i hcut
    rw [h] at hcut
    cases hcut
    rw [if_neg hplain]

theorem piecesFrom_tag {p : Piece} {rest : Text} (h : cut opening s = some (before, after))
    (hplain : before.getLast? ≠ some '\\') (htag : readTag? after = some (p, rest)) :
    piecesFrom (budget + 1) done s = piecesFrom budget (p :: .text before :: done) rest := by
  conv => lhs; unfold piecesFrom
  split
  · rename_i hcut
    rw [h] at hcut
    cases hcut
  · rename_i hcut
    rw [h] at hcut
    cases hcut
    rw [if_neg hplain]
    simp only
    split
    · rename_i hread
      rw [htag] at hread
      cases hread
    · rename_i hread
      rw [htag] at hread
      cases hread
      rfl

theorem piecesFrom_unclosed (h : cut opening s = some (before, after))
    (hplain : before.getLast? ≠ some '\\') (htag : readTag? after = none) :
    piecesFrom (budget + 1) done s =
      (.unclosed (opening ++ after) :: .text before :: done).reverse := by
  conv => lhs; unfold piecesFrom
  split
  · rename_i hcut
    rw [h] at hcut
    cases hcut
  · rename_i hcut
    rw [h] at hcut
    cases hcut
    rw [if_neg hplain]
    simp only
    split
    · rfl
    · rename_i hread
      rw [htag] at hread
      cases hread

theorem piecesFrom_escaped_unclosed (h : cut opening s = some (before, after))
    (hescaped : before.getLast? = some '\\') (hclose : cut closing after = none) :
    piecesFrom budget done s =
      (.text (opening ++ after) :: .text before.dropLast :: done).reverse := by
  conv => lhs; unfold piecesFrom
  split
  · rename_i hcut
    rw [h] at hcut
    cases hcut
  · rename_i hcut
    rw [h] at hcut
    cases hcut
    rw [if_pos hescaped]
    split
    · rfl
    · rename_i hcut
      rw [hclose] at hcut
      cases hcut

theorem piecesFrom_append (more : List Piece) :
    piecesFrom budget (done ++ more) s = more.reverse ++ piecesFrom budget done s := by
  fun_induction piecesFrom budget done s with
  | case1 budget done s hcut =>
    rw [piecesFrom_plain hcut]
    split <;> simp
  | case2 budget done s before after hcut hescaped hclose =>
    rw [piecesFrom_escaped_unclosed hcut hescaped hclose]
    simp
  | case3 budget done s before after hcut hescaped body rest hclose ih =>
    rw [piecesFrom_escaped hcut hescaped hclose]
    exact ih
  | case4 done s before after hcut hplain =>
    rw [piecesFrom_limit hcut hplain]
    simp
  | case5 done s before after hcut hplain budget htag =>
    rw [piecesFrom_unclosed hcut hplain htag]
    simp
  | case6 done s before after hcut hplain budget p rest htag ih =>
    rw [piecesFrom_tag hcut hplain htag]
    exact ih

/-- The pieces found so far are only put in front. -/
theorem piecesFrom_eq (budget : Nat) (done : List Piece) (s : Text) :
    piecesFrom budget done s = done.reverse ++ piecesFrom budget [] s := by
  rw [← piecesFrom_append, List.nil_append]

/-! ### Literal texts -/

/-- The literal text that a piece brings to its page. -/
def literal? : Piece → Option Text
  | .text s => some s
  | .unclosed rest => some rest
  | .overLimit rest => some rest
  | _ => none

/-- All literal texts of some pieces stand in a text. -/
def AllInside (source : Text) (ps : List Piece) : Prop :=
  ∀ p ∈ ps, ∀ t ∈ p.literal?, t <:+: source

theorem AllInside.cons {p : Piece} (hp : ∀ t ∈ p.literal?, t <:+: source)
    (h : AllInside source done) : AllInside source (p :: done) := by
  intro q hq
  rcases List.mem_cons.1 hq with rfl | hq
  · exact hp
  · exact h q hq

theorem AllInside.text {t : Text} (ht : t <:+: source) (h : AllInside source done) :
    AllInside source (.text t :: done) :=
  h.cons fun t' ht' => by
    cases ht'
    exact ht

theorem AllInside.reverse (h : AllInside source done) : AllInside source done.reverse :=
  fun p hp => h p (List.mem_reverse.1 hp)

theorem literal?_of_readTag? {p : Piece} {rest : Text} (h : readTag? s = some (p, rest)) :
    p.literal? = none := by
  unfold readTag? at h
  split at h <;>
  · obtain ⟨⟨a, b⟩, -, heq⟩ := Option.map_eq_some_iff.1 h
    cases heq
    rfl

theorem suffix_of_cut {pattern a b : Text} (h : cut pattern s = some (a, b)) : b <:+ s :=
  ⟨a ++ pattern, by rw [cut_eq h, List.append_assoc]⟩

theorem prefix_of_cut {pattern a b : Text} (h : cut pattern s = some (a, b)) : a <+: s :=
  ⟨pattern ++ b, (cut_eq h).symm⟩

theorem suffix_of_readTag? {p : Piece} {rest : Text} (h : readTag? s = some (p, rest)) :
    rest <:+ s := by
  unfold readTag? at h
  split at h <;>
    obtain ⟨⟨a, b⟩, hcut, heq⟩ := Option.map_eq_some_iff.1 h <;>
    cases heq
  · exact (suffix_of_cut hcut).trans ⟨['!', '-', '-'], rfl⟩
  · exact (suffix_of_cut hcut).trans (List.suffix_cons _ _)
  · exact suffix_of_cut hcut
  · exact suffix_of_cut hcut

theorem inside_of_cut {before after : Text} (hs : s <:+ source)
    (h : cut opening s = some (before, after)) :
    before <:+: source ∧ opening ++ after <:+: source ∧ after <:+ source := by
  have hafter : opening ++ after <:+ s := ⟨before, (cut_eq h).symm⟩
  have hbefore : before <+: s := ⟨opening ++ after, (cut_eq h).symm⟩
  exact ⟨hbefore.isInfix.trans hs.isInfix, (hafter.trans hs).isInfix, (suffix_of_cut h).trans hs⟩

theorem allInside_piecesFrom (hs : s <:+ source) (hdone : AllInside source done) :
    AllInside source (piecesFrom budget done s) := by
  fun_induction piecesFrom budget done s with
  | case1 budget done s hcut =>
    refine AllInside.reverse ?_
    split
    · exact hdone
    · exact hdone.text hs.isInfix
  | case2 budget done s before after hcut =>
    obtain ⟨hbefore, hrest, -⟩ := inside_of_cut hs hcut
    exact .reverse (.text hrest (.text ((List.dropLast_prefix before).isInfix.trans hbefore) hdone))
  | case3 budget done s before after hcut hescaped body rest hclose ih =>
    obtain ⟨hbefore, hrest, hafter⟩ := inside_of_cut hs hcut
    refine ih ((suffix_of_cut hclose).trans hafter) (.text ?_ (.text ?_ hdone))
    · refine List.IsInfix.trans ⟨[], rest, ?_⟩ hrest
      rw [cut_eq hclose, List.nil_append, List.append_assoc, List.append_assoc]
    · exact (List.dropLast_prefix before).isInfix.trans hbefore
  | case4 done s before after hcut =>
    obtain ⟨hbefore, hrest, -⟩ := inside_of_cut hs hcut
    exact .reverse (.cons (fun t ht => Option.some.inj ht ▸ hrest) (.text hbefore hdone))
  | case5 done s before after hcut =>
    obtain ⟨hbefore, hrest, -⟩ := inside_of_cut hs hcut
    exact .reverse (.cons (fun t ht => Option.some.inj ht ▸ hrest) (.text hbefore hdone))
  | case6 done s before after hcut _ budget p rest htag ih =>
    obtain ⟨hbefore, -, hafter⟩ := inside_of_cut hs hcut
    refine ih ((suffix_of_readTag? htag).trans hafter) (.cons (fun t ht => ?_) (.text hbefore hdone))
    rw [literal?_of_readTag? htag] at ht
    cases ht

theorem infix_of_mem_ofPage {limit : Nat} {p : Piece} {t : Text} (hp : p ∈ ofPage limit source)
    (ht : t ∈ p.literal?) : t <:+: source :=
  allInside_piecesFrom (List.suffix_refl source) (fun q hq => by cases hq) p hp t ht

/-! ### Plain text in front -/

/-- Pieces with a text put in front of the first text. -/
def prepend (w : Text) : List Piece → List Piece
  | .text s :: ps => .text (w ++ s) :: ps
  | ps => if w = [] then ps else .text w :: ps

theorem bare_opening_of_cut {w : Text} (h : cut opening w = none) (hlast : w.getLast? ≠ some '{') :
    Bare opening w := by
  refine bare_of_not_infix (not_infix_of_cut h) ?_
  rintro ⟨v, hv, hnil, hne, hpre⟩
  obtain ⟨u, rfl⟩ := (List.mem_tails _ _).1 hv
  have hv : v = ['{'] := by
    obtain ⟨c, v, rfl⟩ := List.exists_cons_of_ne_nil hnil
    obtain ⟨rfl, hrest⟩ := List.cons_prefix_cons.1 hpre
    rcases List.prefix_cons_iff.1 hrest with rfl | ⟨v', rfl, hend⟩
    · rfl
    · rw [List.prefix_nil.1 hend] at hne
      exact absurd rfl hne
  rw [hv] at hlast
  exact hlast List.getLast?_concat

/-- Plain text in front of a text goes into the first piece. -/
theorem piecesFrom_bare_append {w : Text} (hw : Bare opening w) (hback : w.getLast? ≠ some '\\')
    (budget : Nat) (s : Text) :
    piecesFrom budget [] (w ++ s) = prepend w (piecesFrom budget [] s) := by
  have hcutAppend := cut_bare_append hw s
  cases hcut : cut opening s with
  | none =>
    rw [hcut] at hcutAppend
    rw [piecesFrom_plain hcut, piecesFrom_plain hcutAppend]
    by_cases hs : s = []
    · by_cases hnil : w = [] <;> simp [hs, hnil, prepend]
    · simp [hs, prepend]
  | some found =>
    obtain ⟨before, after⟩ := found
    rw [hcut] at hcutAppend
    change cut opening (w ++ s) = some (w ++ before, after) at hcutAppend
    by_cases hescaped : before.getLast? = some '\\'
    · -- the backslash that is dropped stands in what follows the text
      have hne : before ≠ [] := by
        rintro rfl
        cases hescaped
      have hescaped' : (w ++ before).getLast? = some '\\' := by
        rw [List.getLast?_append, hescaped]
        rfl
      cases hclose : cut closing after with
      | none =>
        rw [piecesFrom_escaped_unclosed hcut hescaped hclose,
          piecesFrom_escaped_unclosed hcutAppend hescaped' hclose,
          List.dropLast_append_of_ne_nil hne]
        rfl
      | some found =>
        obtain ⟨body, rest⟩ := found
        rw [piecesFrom_escaped hcut hescaped hclose,
          piecesFrom_escaped hcutAppend hescaped' hclose, piecesFrom_eq,
          piecesFrom_eq _ [_, _], List.dropLast_append_of_ne_nil hne]
        rfl
    · have hplain : (w ++ before).getLast? ≠ some '\\' := by
        rw [List.getLast?_append]
        cases hlast : before.getLast? with
        | none => simpa using hback
        | some c => simpa [hlast] using hescaped
      cases budget with
      | zero =>
        rw [piecesFrom_limit hcut hescaped, piecesFrom_limit hcutAppend hplain]
        rfl
      | succ budget =>
        cases htag : readTag? after with
        | none =>
          rw [piecesFrom_unclosed hcut hescaped htag, piecesFrom_unclosed hcutAppend hplain htag]
          rfl
        | some found =>
          obtain ⟨p, rest⟩ := found
          rw [piecesFrom_tag hcut hescaped htag, piecesFrom_tag hcutAppend hplain htag,
            piecesFrom_eq, piecesFrom_eq _ [_, _]]
          rfl

/-! ### Texts in which every mustache is closed -/

/-- A tag that is read as plain is cut off at the first closing braces. -/
theorem cut_of_readTag {body rest : Text} (h : readTag? s = some (.tag body, rest)) :
    cut closing s = some (body, rest) ∧ s.head? ≠ some '{' ∧ s.head? ≠ some '!' := by
  unfold readTag? at h
  split at h
  · obtain ⟨⟨x, y⟩, -, heq⟩ := Option.map_eq_some_iff.1 h
    cases heq
  · obtain ⟨⟨x, y⟩, -, heq⟩ := Option.map_eq_some_iff.1 h
    cases heq
  · obtain ⟨⟨x, y⟩, -, heq⟩ := Option.map_eq_some_iff.1 h
    cases heq
  · rename_i hbrace hbang
    obtain ⟨⟨x, y⟩, hcut, heq⟩ := Option.map_eq_some_iff.1 h
    cases heq
    refine ⟨hcut, ?_, ?_⟩
    · intro hhead
      cases s with
      | nil => cases hhead
      | cons c s => cases hhead; exact hbrace s rfl
    · intro hhead
      cases s with
      | nil => cases hhead
      | cons c s => cases hhead; exact hbang s rfl

theorem readTag_of_cut {body rest : Text} (h : cut closing s = some (body, rest))
    (hbrace : s.head? ≠ some '{') (hbang : s.head? ≠ some '!') :
    readTag? s = some (.tag body, rest) := by
  unfold readTag?
  split
  · exact absurd rfl hbang
  · exact absurd rfl hbrace
  · exact absurd rfl hbang
  · rw [h]
    rfl

/-- A comment that does not start with two hyphens ends at the first closing braces. -/
theorem readTag?_bang (h : ¬ ['-', '-'] <+: s) :
    readTag? ('!' :: s) =
      (cut closing ('!' :: s)).map fun (a, b) => (.comment (opening ++ a ++ closing), b) := by
  conv => lhs; unfold readTag?
  split
  · rename_i rest heq
    cases heq
    exact absurd ⟨rest, rfl⟩ h
  · rename_i heq
    cases heq
  · rename_i heq
    cases heq
    rfl
  · rename_i hbang
    exact absurd rfl (hbang s)

/-- A tag is read in the same way whatever follows it. -/
theorem readTag?_append {p : Piece} {rest : Text} (h : readTag? s = some (p, rest)) (t : Text) :
    readTag? (s ++ t) = some (p, rest ++ t) := by
  unfold readTag? at h
  split at h <;>
    obtain ⟨⟨a, b⟩, hcut, heq⟩ := Option.map_eq_some_iff.1 h <;>
    cases heq
  · rename_i s
    show (cut ['-', '-', '}', '}'] (s ++ t)).map _ = _
    rw [cut_append (by decide) hcut]
    rfl
  · rename_i s
    show (cut ['}', '}', '}'] (s ++ t)).map _ = _
    rw [cut_append (by decide) hcut]
    rfl
  · rename_i s hdash
    -- a third character stands before the closing braces end, so the hyphens are not completed
    have hlength : 2 ≤ s.length := by
      have hs := cut_eq hcut
      cases a with
      | nil => cases hs
      | cons c a =>
        have hlen := congrArg List.length hs
        simp only [List.length_cons, List.length_append, closing, List.length_nil] at hlen
        omega
    have hdash' : ¬ ['-', '-'] <+: s ++ t := fun hpre => by
      obtain ⟨rest, rfl⟩ := List.prefix_of_prefix_length_le hpre (List.prefix_append s t) hlength
      exact hdash rest rfl
    rw [List.cons_append, readTag?_bang hdash', ← List.cons_append, cut_append (by decide) hcut]
    rfl
  · rename_i hbrace hbang
    have hne : s ≠ [] := by
      rintro rfl
      cases hcut
    obtain ⟨c, s, rfl⟩ := List.exists_cons_of_ne_nil hne
    refine readTag_of_cut (cut_append (by decide) hcut t) (fun hc => ?_) fun hc => ?_
    · cases hc
      exact hbrace s rfl
    · cases hc
      exact hbang s rfl

/-- What follows a tag does not decide how the tag is read. -/
theorem readTag?_of_append {t rest : Text} {p : Piece} (h : readTag? (s ++ t) = some (p, rest ++ t)) :
    readTag? s = some (p, rest) := by
  generalize hu : s ++ t = u at h
  unfold readTag? at h
  split at h <;>
    obtain ⟨⟨a, b⟩, hcut, heq⟩ := Option.map_eq_some_iff.1 h <;>
    cases heq
  · rename_i v
    obtain ⟨w, rfl, hw⟩ := cut_of_append_behind (q := ['!', '-', '-']) (by decide) hu hcut
    show (cut ['-', '-', '}', '}'] w).map _ = _
    rw [hw]
    rfl
  · rename_i v
    obtain ⟨w, rfl, hw⟩ := cut_of_append_behind (q := ['{']) (by decide) hu hcut
    show (cut ['}', '}', '}'] w).map _ = _
    rw [hw]
    rfl
  · rename_i v hdash
    obtain ⟨_, rfl, hw⟩ := cut_of_append_behind (q := []) (by decide) hu hcut
    cases s with
    | nil => cases hw
    | cons c s =>
      obtain ⟨rfl, hv⟩ := List.cons.inj hu
      have hdash' : ¬ ['-', '-'] <+: s := by
        rintro ⟨x, rfl⟩
        exact hdash (x ++ t) hv.symm
      rw [readTag?_bang hdash', hw]
      rfl
  · rename_i hbrace hbang
    obtain ⟨_, rfl, hw⟩ := cut_of_append_behind (q := []) (by decide) hu hcut
    cases s with
    | nil => cases hw
    | cons c s =>
      refine readTag_of_cut hw (fun hc => ?_) fun hc => ?_
      · cases hc
        exact hbrace (s ++ t) hu.symm
      · cases hc
        exact hbang (s ++ t) hu.symm

/-- A text is scanned as some pieces, with a number of tags among them, and then as plain text. -/
inductive Scanned : Text → List Piece → Nat → Text → Prop
  | plain {s : Text} (h : cut opening s = none) : Scanned s [] 0 s
  | escaped {s before after body rest tail : Text} {ps : List Piece} {tags : Nat}
      (h : cut opening s = some (before, after)) (hescaped : before.getLast? = some '\\')
      (hclose : cut closing after = some (body, rest)) (hrest : Scanned rest ps tags tail) :
      Scanned s (.text before.dropLast :: .text (opening ++ body ++ closing) :: ps) tags tail
  | tag {s before after rest tail : Text} {p : Piece} {ps : List Piece} {tags : Nat}
      (h : cut opening s = some (before, after)) (hplain : before.getLast? ≠ some '\\')
      (htag : readTag? after = some (p, rest)) (hrest : Scanned rest ps tags tail) :
      Scanned s (.text before :: p :: ps) (tags + 1) tail

/-- A text is scanned to its end without a mustache being open there. -/
def Closed (s : Text) : Prop := ∃ ps tags tail, Scanned s ps tags tail

/-- No tag of a text is past a limit. -/
def WithinLimit (limit : Nat) (s : Text) : Prop :=
  ∀ rest, .overLimit rest ∉ ofPage limit s

namespace Scanned

variable {ps : List Piece} {tags : Nat} {tail : Text}

theorem tail_suffix (h : Scanned s ps tags tail) : tail <:+ s := by
  induction h with
  | plain => exact List.suffix_refl _
  | escaped h _ hclose _ ih => exact (ih.trans (suffix_of_cut hclose)).trans (suffix_of_cut h)
  | tag h _ htag _ ih => exact (ih.trans (suffix_of_readTag? htag)).trans (suffix_of_cut h)

theorem cut_tail (h : Scanned s ps tags tail) : cut opening tail = none := by
  induction h with
  | plain h => exact h
  | escaped _ _ _ _ ih => exact ih
  | tag _ _ _ _ ih => exact ih

/-- The pieces of a closed text do not depend on what follows it. -/
theorem piecesFrom_append (h : Scanned s ps tags tail) (budget : Nat) (rest : Text) :
    piecesFrom (budget + tags) [] (s ++ rest) = ps ++ piecesFrom budget [] (tail ++ rest) := by
  induction h with
  | plain h => rfl
  | escaped h hescaped hclose _ ih =>
    rw [piecesFrom_escaped (cut_append (by decide) h rest) hescaped
      (cut_append (by decide) hclose rest), piecesFrom_eq, ih]
    rfl
  | tag h hplain htag _ ih =>
    rw [← Nat.add_assoc, piecesFrom_tag (cut_append (by decide) h rest) hplain
      (readTag?_append htag rest), piecesFrom_eq, ih]
    rfl

/-- If a closed text and what follows it are within a limit, so is the closed text. -/
theorem tags_le (h : Scanned s ps tags tail) {budget : Nat} {rest : Text}
    (hlimit : ∀ more, .overLimit more ∉ piecesFrom budget [] (s ++ rest)) :
    tags ≤ budget := by
  induction h generalizing budget with
  | plain => exact Nat.zero_le _
  | escaped h hescaped hclose _ ih =>
    rw [piecesFrom_escaped (cut_append (by decide) h rest) hescaped
      (cut_append (by decide) hclose rest), piecesFrom_eq] at hlimit
    exact ih fun more hmem => hlimit more (List.mem_append_right _ hmem)
  | tag h hplain htag _ ih =>
    cases budget with
    | zero =>
      rw [piecesFrom_limit (cut_append (by decide) h rest) hplain] at hlimit
      exact absurd (List.mem_reverse.2 List.mem_cons_self) (hlimit _)
    | succ budget =>
      rw [piecesFrom_tag (cut_append (by decide) h rest) hplain (readTag?_append htag rest),
        piecesFrom_eq] at hlimit
      have := ih fun more hmem => hlimit more (List.mem_append_right _ hmem)
      omega

end Scanned

/-- Pieces start with a text that the source starts with, if there are any. -/
theorem piecesFrom_head_prefix (budget : Nat) (s : Text) :
    piecesFrom budget [] s = [] ∨
      ∃ t ps, piecesFrom budget [] s = .text t :: ps ∧ t <+: s := by
  fun_cases piecesFrom budget [] s with
  | case1 =>
    split
    · exact .inl rfl
    · exact .inr ⟨_, _, rfl, List.prefix_refl s⟩
  | case2 budget before after hcut =>
    exact .inr ⟨_, _, rfl, (List.dropLast_prefix _).trans (prefix_of_cut hcut)⟩
  | case3 budget before after hcut =>
    rw [piecesFrom_eq]
    exact .inr ⟨_, _, rfl, (List.dropLast_prefix _).trans (prefix_of_cut hcut)⟩
  | case4 before after hcut => exact .inr ⟨_, _, rfl, prefix_of_cut hcut⟩
  | case5 before after hcut => exact .inr ⟨_, _, rfl, prefix_of_cut hcut⟩
  | case6 before after hcut =>
    rw [piecesFrom_eq]
    exact .inr ⟨_, _, rfl, prefix_of_cut hcut⟩

theorem piecesFrom_head (budget : Nat) (s : Text) :
    piecesFrom budget [] s = [] ∨ ∃ t ps, piecesFrom budget [] s = .text t :: ps := by
  rcases piecesFrom_head_prefix budget s with h | ⟨t, ps, h, -⟩
  · exact .inl h
  · exact .inr ⟨t, ps, h⟩

/-- Where no tag is past the limit, one more tag may be read. -/
theorem piecesFrom_succ (hlimit : ∀ more, .overLimit more ∉ piecesFrom budget done s) :
    piecesFrom (budget + 1) done s = piecesFrom budget done s := by
  fun_induction piecesFrom budget done s with
  | case1 budget done s hcut => exact piecesFrom_plain hcut
  | case2 budget done s before after hcut hescaped hclose =>
    exact piecesFrom_escaped_unclosed hcut hescaped hclose
  | case3 budget done s before after hcut hescaped body rest hclose ih =>
    rw [piecesFrom_escaped hcut hescaped hclose, ih hlimit]
  | case4 done s before after hcut hplain =>
    exact absurd (List.mem_reverse.2 List.mem_cons_self) (hlimit _)
  | case5 done s before after hcut hplain budget htag =>
    exact piecesFrom_unclosed hcut hplain htag
  | case6 done s before after hcut hplain budget p rest htag ih =>
    rw [piecesFrom_tag hcut hplain htag, ih hlimit]

end Piece

end Tender
