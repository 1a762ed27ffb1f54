/-
The walk through the tree of a page.

The tree is walked in order, the first branch of a block before the second.  However the blocks of
the page stand, the walk meets what the scan found, each piece once and in its place.

* `Span.source_ofPage` — the spans of a page make up its source: text that is kept, the backslashes
  of escaped mustaches, and mustaches;
* `walked_closeChain` — closing a block moves nothing;
* `brings_add`, `brings_addAll` — reading a piece adds at the end of the walk what the piece brings:
  its text, its value, or the problem with it;
* `filterMap_spliceOpen`, `problems_spliceOpen_perm` — opening the blocks that are left adds their
  problems and nothing else;
* `Compiler.walk_read` — so the walk through a page that is read meets all text that is kept, all
  values that are shown, and all problems of the reading; only terms that break keep a page from being
  read.
-/
import Tender.Proofs.Template.Concat

namespace Tender

open Text

/-! ### The walk -/

mutual
/-- The nodes below a node that are no blocks, in order. -/
def Node.leaves : Node → List Node
  | .text s => [.text s]
  | .problem p => [.problem p]
  | .shown e raw => [.shown e raw]
  | .block _ _ _ _ body inverse => Node.leavesOf body ++ Node.leavesOf inverse

/-- The nodes of some trees that are no blocks, in order. -/
def Node.leavesOf : List Node → List Node
  | [] => []
  | n :: ns => n.leaves ++ Node.leavesOf ns
end

namespace Node

/-- The text of a text node. -/
def text? : Node → Option Text
  | .text s => some s
  | _ => none

/-- The problem of a problem node. -/
def problem? : Node → Option Problem
  | .problem p => some p
  | _ => none

/-- What a node shows, and whether it does so as markup. -/
def shown? : Node → Option (Expr × Bool)
  | .shown e raw => some (e, raw)
  | _ => none

@[simp] theorem leavesOf_nil : leavesOf [] = [] := by
  rw [leavesOf]

theorem leavesOf_cons (n : Node) (ns : List Node) : leavesOf (n :: ns) = n.leaves ++ leavesOf ns := by
  rw [leavesOf]

theorem leavesOf_singleton (n : Node) : leavesOf [n] = n.leaves := by
  rw [leavesOf_cons, leavesOf_nil, List.append_nil]

theorem leavesOf_append (a b : List Node) : leavesOf (a ++ b) = leavesOf a ++ leavesOf b := by
  induction a with
  | nil => rw [leavesOf_nil, List.nil_append, List.nil_append]
  | cons n a ih => rw [List.cons_append, leavesOf_cons, leavesOf_cons, ih, List.append_assoc]

/-- Nodes are collected with the last one first. -/
theorem leavesOf_reverse_cons (n : Node) (ns : List Node) :
    leavesOf (n :: ns).reverse = leavesOf ns.reverse ++ n.leaves := by
  rw [List.reverse_cons, leavesOf_append, leavesOf_singleton]

theorem leaves_close (o : OpenBlock) (nodes : List Node) :
    (Builder.OpenBlock.close o nodes).leaves =
      leavesOf (o.body.getD []).reverse ++ leavesOf nodes.reverse := by
  rw [Builder.OpenBlock.close]
  cases o.body with
  | none =>
    rw [leaves, leavesOf_nil, List.append_nil, Option.getD_none, List.reverse_nil, leavesOf_nil,
      List.nil_append]
  | some body => rw [leaves, Option.getD_some]

end Node

/-! ### The spans of a source -/

namespace Piece

/-- The part of the source that a piece stands for. -/
def source : Piece → Text
  | .text s => s
  | .comment source => source
  | .raw body => ['{', '{', '{'] ++ body ++ ['}', '}', '}']
  | .tag body => opening ++ body ++ closing
  | .unclosed rest => rest
  | .overLimit rest => rest

/-- What a tag with a trimmed body shows, and whether it does so as markup, if it is no tag of a
block. -/
def shownTerms? (body : Text) : Option (Text × Bool) :=
  if Builder.IsElse body then none
  else match body with
    | '#' :: _ => none
    | '/' :: _ => none
    | '>' :: _ => none
    | '^' :: _ => none
    | '&' :: s => some (s, true)
    | s => some (s, false)

/-- A tag with the sign of a block or of a partial in front shows nothing. -/
theorem shownTerms?_signed {c : Char} (hc : c = '#' ∨ c = '/' ∨ c = '>' ∨ c = '^') (s : Text) :
    shownTerms? (c :: s) = none := by
  unfold shownTerms?
  split
  · rfl
  · obtain rfl | rfl | rfl | rfl := hc <;> rfl

theorem shownTerms?_markup {s : Text} (helse : ¬ Builder.IsElse ('&' :: s)) :
    shownTerms? ('&' :: s) = some (s, true) :=
  if_neg helse

/-- A tag without a sign in front shows its terms. -/
theorem shownTerms?_plain {body : Text} (helse : ¬ Builder.IsElse body)
    (hopen : ∀ s, body ≠ '#' :: s) (hclose : ∀ s, body ≠ '/' :: s) (hpartial : ∀ s, body ≠ '>' :: s)
    (hinverse : ∀ s, body ≠ '^' :: s) (hmarkup : ∀ s, body ≠ '&' :: s) :
    shownTerms? body = some (body, false) := by
  unfold shownTerms?
  rw [if_neg helse]
  split
  · exact absurd rfl (hopen _)
  · exact absurd rfl (hclose _)
  · exact absurd rfl (hpartial _)
  · exact absurd rfl (hinverse _)
  · exact absurd rfl (hmarkup _)
  · rfl

/-- What a piece shows, if it is a tag that shows a value and its terms can be read. -/
def output? (isHelper : Text → Bool) : Piece → Option (Expr × Bool)
  | .raw body => (Expr.readShown isHelper body).toOption.map fun e => (e, true)
  | .tag body => (shownTerms? (trim (Builder.splitTildes body).2.1)).bind fun (terms, markup) =>
      (Expr.readShown isHelper terms).toOption.map fun e => (e, markup)
  | _ => none

theorem source_of_readTag? {p : Piece} {s rest : Text} (h : readTag? s = some (p, rest)) :
    p.source ++ rest = opening ++ s := by
  unfold readTag? at h
  split at h <;>
    obtain ⟨⟨a, b⟩, hcut, heq⟩ := Option.map_eq_some_iff.1 h <;>
    cases heq <;>
    rw [source]
  · rw [cut_eq hcut]
    simp [closing]
  · rw [cut_eq hcut]
    simp [opening]
  · rw [cut_eq hcut]
    simp [closing]
  · rw [cut_eq hcut]
    simp [closing]

end Piece

/-- A part of the source of a page. -/
inductive Span where
  /-- Text of the page. -/
  | kept (s : Text)
  /-- The backslash that makes a mustache text. -/
  | backslash
  /-- A comment or a tag. -/
  | mustache (p : Piece)

namespace Span

/-- The part of the source that a span is. -/
def source : Span → Text
  | .kept s => s
  | .backslash => ['\\']
  | .mustache p => p.source

/-- What is left of a span where backslashes and mustaches are deleted. -/
def literal : Span → Text
  | .kept s => s
  | _ => []

/-- The mustache that a span is. -/
def mustache? : Span → Option Piece
  | .mustache p => some p
  | _ => none

/-- The spans of a text with at most `budget` mustaches; what follows them, or a mustache without
its end, is kept. -/
def scan (budget : Nat) (s : Text) : List Span :=
  match _h : cut Piece.opening s with
  | none => [.kept s]
  | some (before, after) =>
    if before.getLast? = some '\\' then
      match _hc : cut Piece.closing after with
      | none => [.kept before.dropLast, .backslash, .kept (Piece.opening ++ after)]
      | some (body, rest) =>
        .kept before.dropLast :: .backslash :: .kept (Piece.opening ++ body ++ Piece.closing) ::
          scan budget rest
    else
      match budget with
      | 0 => [.kept before, .kept (Piece.opening ++ after)]
      | budget + 1 =>
        match _ht : Piece.readTag? after with
        | none => [.kept before, .kept (Piece.opening ++ after)]
        | some (p, rest) => .kept before :: .mustache p :: scan budget rest
termination_by s.length
decreasing_by
  · have h₁ := length_of_cut _h
    have h₂ := length_of_cut _hc
    simp only [Piece.opening, List.length_cons, List.length_nil] at h₁
    omega
  · have h₁ := length_of_cut _h
    have h₂ := Piece.length_readTag _ht
    omega

/-- The spans of a text make it up. -/
theorem source_scan (budget : Nat) (s : Text) : (scan budget s).flatMap source = s := by
  fun_induction scan budget s with
  | case1 budget s hcut => simp [source]
  | case2 budget s before after hcut hescaped hclose =>
    rw [cut_eq hcut]
    nth_rewrite 2 [(List.dropLast_append_getLast? '\\' hescaped).symm]
    simp [source]
  | case3 budget s before after hcut hescaped body rest hclose ih =>
    rw [cut_eq hcut, cut_eq hclose]
    nth_rewrite 2 [(List.dropLast_append_getLast? '\\' hescaped).symm]
    simp only [List.flatMap_cons, ih, source, List.append_assoc]
  | case4 s before after hcut hplain =>
    rw [cut_eq hcut]
    simp [source]
  | case5 s before after hcut hplain budget htag =>
    rw [cut_eq hcut]
    simp [source]
  | case6 s before after hcut hplain budget p rest htag ih =>
    rw [cut_eq hcut]
    simp only [List.flatMap_cons, ih, source, Piece.source_of_readTag? htag]

/-- The spans hold what the pieces of the text hold. -/
theorem scan_pieces (isHelper : Text → Bool) (budget : Nat) (s : Text) :
    (scan budget s).flatMap literal =
        (Piece.piecesFrom budget [] s).flatMap (fun p => p.literal?.getD []) ∧
      ((scan budget s).filterMap mustache?).filterMap (Piece.output? isHelper) =
        (Piece.piecesFrom budget [] s).filterMap (Piece.output? isHelper) := by
  fun_induction scan budget s with
  | case1 budget s hcut =>
    rw [Piece.piecesFrom_plain hcut]
    split
    · rename_i hs
      rw [hs]
      exact ⟨rfl, rfl⟩
    · exact ⟨rfl, rfl⟩
  | case2 budget s before after hcut hescaped hclose =>
    rw [Piece.piecesFrom_escaped_unclosed hcut hescaped hclose]
    exact ⟨rfl, rfl⟩
  | case3 budget s before after hcut hescaped body rest hclose ih =>
    rw [Piece.piecesFrom_escaped hcut hescaped hclose, Piece.piecesFrom_eq]
    exact ⟨congrArg (fun t => before.dropLast ++ (Piece.opening ++ body ++ Piece.closing ++ t)) ih.1,
      ih.2⟩
  | case4 s before after hcut hplain =>
    rw [Piece.piecesFrom_limit hcut hplain]
    exact ⟨rfl, rfl⟩
  | case5 s before after hcut hplain budget htag =>
    rw [Piece.piecesFrom_unclosed hcut hplain htag]
    exact ⟨rfl, rfl⟩
  | case6 s before after hcut hplain budget p rest htag ih =>
    rw [Piece.piecesFrom_tag hcut hplain htag, Piece.piecesFrom_eq]
    obtain ⟨hliteral, houtput⟩ := ih
    constructor
    · show before ++ (scan budget rest).flatMap literal =
        before ++ (p.literal?.getD [] ++ (Piece.piecesFrom budget [] rest).flatMap _)
      rw [hliteral, Piece.literal?_of_readTag? htag]
      rfl
    · show (p :: (scan budget rest).filterMap mustache?).filterMap (Piece.output? isHelper) =
        (p :: Piece.piecesFrom budget [] rest).filterMap (Piece.output? isHelper)
      rw [List.filterMap_cons, List.filterMap_cons, houtput]

end Span

/-! ### Walking what has been read -/

namespace Builder

open Node

variable {isHelper : Text → Bool} {b b' b'' : Builder} {maxTags maxDepth : Nat} {token : Text}

/-- The walk through what stands in front of the innermost open branch. -/
def walkedOpen : List OpenBlock → List Node
  | [] => []
  | o :: stack =>
    walkedOpen stack ++ leavesOf o.before.reverse ++ leavesOf (o.body.getD []).reverse

/-- The walk through what has been read. -/
def walked (b : Builder) : List Node :=
  walkedOpen b.stack ++ leavesOf b.nodes.reverse

/-- Closing blocks moves nothing. -/
theorem walked_closeChain (stack : List OpenBlock) (nodes : List Node) :
    walkedOpen (closeChain stack nodes).1 ++ leavesOf (closeChain stack nodes).2.reverse =
      walkedOpen stack ++ leavesOf nodes.reverse := by
  induction stack generalizing nodes with
  | nil => rfl
  | cons o stack ih =>
    have hclosed : walkedOpen stack ++ leavesOf (OpenBlock.close o nodes :: o.before).reverse =
        walkedOpen (o :: stack) ++ leavesOf nodes.reverse := by
      rw [leavesOf_reverse_cons, leaves_close, walkedOpen]
      simp only [List.append_assoc]
    rw [closeChain]
    split
    · exact (ih _).trans hclosed
    · exact hclosed

/-! #### Steps -/

/-- A step of the reading that adds to the end of the walk: a text, values that are shown, and a
problem node for each problem that it reports. -/
def Brings (b b' : Builder) (literal : Text) (outputs : List (Expr × Bool)) : Prop :=
  ∃ more, b'.walked = b.walked ++ more ∧
    b'.problems = (more.filterMap problem?).reverse ++ b.problems ∧
    (more.filterMap text?).flatten = literal ∧ more.filterMap shown? = outputs

theorem Brings.nothing (hwalked : b'.walked = b.walked) (hproblems : b'.problems = b.problems) :
    Brings b b' [] [] :=
  ⟨[], by rw [hwalked, List.append_nil], hproblems, rfl, rfl⟩

theorem Brings.trans {literal literal' : Text} {outputs outputs' : List (Expr × Bool)}
    (h : Brings b b' literal outputs) (h' : Brings b' b'' literal' outputs') :
    Brings b b'' (literal ++ literal') (outputs ++ outputs') := by
  obtain ⟨more, hwalked, hproblems, rfl, rfl⟩ := h
  obtain ⟨more', hwalked', hproblems', rfl, rfl⟩ := h'
  refine ⟨more ++ more', ?_, ?_, ?_, List.filterMap_append⟩
  · rw [hwalked', hwalked, List.append_assoc]
  · rw [hproblems', hproblems, List.filterMap_append, List.reverse_append, List.append_assoc]
  · rw [List.filterMap_append, List.flatten_append]

theorem brings_addProblem (b : Builder) (p : Problem) : Brings b (b.addProblem p) [] [] := by
  refine ⟨[.problem p], ?_, rfl, rfl, rfl⟩
  rw [walked, addProblem, leavesOf_reverse_cons, leaves, walked, List.append_assoc]

theorem brings_shown (b : Builder) (e : Expr) (raw : Bool) :
    Brings b { b with nodes := .shown e raw :: b.nodes } [] [(e, raw)] := by
  refine ⟨[.shown e raw], ?_, rfl, rfl, rfl⟩
  rw [walked, leavesOf_reverse_cons, leaves, walked, List.append_assoc]

theorem brings_addText (hstrip : b.strip = false) (s : Text) : Brings b (b.addText s) s [] := by
  rw [addText, hstrip]
  simp only [Bool.false_eq_true, if_false]
  split
  · rename_i hs
    rw [hs]
    exact .nothing rfl rfl
  · refine ⟨[.text s], ?_, rfl, ?_, rfl⟩
    · rw [walked, leavesOf_reverse_cons, leaves, walked, List.append_assoc]
    · simp [text?]

theorem brings_addShown {terms : Text} {markup : Bool}
    (h : b.addShown isHelper token terms markup = .ok b') :
    Brings b b' [] ((Expr.readShown isHelper terms).toOption.map fun e => (e, markup)).toList := by
  rw [addShown] at h
  cases hread : Expr.readShown isHelper terms with
  | ok e =>
    rw [hread] at h
    cases h
    exact brings_shown b e markup
  | error e =>
    rw [hread] at h
    cases e with
    | problem cause =>
      cases h
      exact brings_addProblem b _
    | fault f => cases h

theorem brings_openBlock {s : Text} (h : b.openBlock isHelper maxDepth token s = .ok b') :
    Brings b b' [] [] := by
  rcases settle_ok h with ⟨⟨kind, param⟩, -, rfl⟩ | ⟨p, rfl⟩
  · refine .nothing ?_ rfl
    simp [walked, walkedOpen]
  · exact brings_addProblem b p

/-- The end of a first branch moves nothing: there is no second branch yet. -/
theorem brings_endBranch {top : OpenBlock} {outer : List OpenBlock} (hstack : b.stack = top :: outer)
    (hbody : top.body = none) : Brings b (b.endBranch top outer) [] [] := by
  refine .nothing ?_ rfl
  rw [endBranch, walked, walked, walkedOpen, hstack, walkedOpen, hbody]
  simp

theorem brings_addElse {chain : Text} (h : b.addElse isHelper token chain = .ok b') :
    Brings b b' [] [] := by
  unfold addElse at h
  split at h
  · cases h
    exact brings_addProblem b _
  · rename_i top outer hstack
    split at h
    · cases h
      exact brings_addProblem b _
    · rename_i hbody
      have hend := brings_endBranch hstack (Option.not_isSome_iff_eq_none.1 hbody)
      simp only at h
      split at h
      · cases h
        exact hend
      · rcases settle_ok h with ⟨⟨kind, param⟩, -, rfl⟩ | ⟨p, rfl⟩
        · refine hend.trans (.nothing ?_ rfl)
          simp [walked, walkedOpen, endBranch]
        · exact hend.trans (brings_addProblem _ p)

theorem brings_closeBlock (b : Builder) (token name : Text) :
    Brings b (b.closeBlock token name) [] [] := by
  rw [closeBlock]
  split
  · exact brings_addProblem b _
  · split
    · exact .nothing (walked_closeChain b.stack b.nodes) rfl
    · exact brings_addProblem b _

theorem brings_addTag {body : Text} (h : b.addTag isHelper maxDepth token body = .ok b') :
    Brings b b' [] ((Piece.shownTerms? body).bind fun (terms, markup) =>
      (Expr.readShown isHelper terms).toOption.map fun e => (e, markup)).toList := by
  have hnone (helse : IsElse body) : Piece.shownTerms? body = none := if_pos helse
  unfold addTag at h
  split at h
  · rename_i hbody
    rw [hnone (hbody.elim .inl fun hbody => .inr (.inl hbody))]
    exact brings_addElse h
  · rename_i hbranch
    split at h
    · rename_i chain hchain
      rw [hnone (.inr (.inr (by rw [hchain]; rfl)))]
      exact brings_addElse h
    · rename_i hchain
      have helse : ¬ IsElse body := by
        rintro (hbody | hbody | hbody)
        · exact hbranch (.inl hbody)
        · exact hbranch (.inr hbody)
        · rw [hchain] at hbody
          cases hbody
      -- the tag is no branch, so its sign alone says what it does
      split at h
      · rw [Piece.shownTerms?_signed (.inl rfl)]
        exact brings_openBlock h
      · cases h
        rw [Piece.shownTerms?_signed (.inr (.inl rfl))]
        exact brings_closeBlock b token _
      · cases h
        rw [Piece.shownTerms?_signed (.inr (.inr (.inl rfl)))]
        exact brings_addProblem b _
      · cases h
        rw [Piece.shownTerms?_signed (.inr (.inr (.inr rfl)))]
        exact brings_addProblem b _
      · rw [Piece.shownTerms?_markup helse]
        exact brings_addShown h
      · rename_i hopen hclose hpartial hinverse hmarkup
        rw [Piece.shownTerms?_plain helse hopen hclose hpartial hinverse hmarkup]
        exact brings_addShown h

/-- A piece brings its text and what it shows. -/
theorem brings_add {p : Piece} (hp : p.KeepsBlanks) (hstrip : b.strip = false)
    (h : b.add isHelper maxTags maxDepth p = .ok b') :
    Brings b b' (p.literal?.getD []) (p.output? isHelper).toList := by
  cases p with
  | text s =>
    cases h
    exact brings_addText hstrip s
  | comment s =>
    cases h
    exact .nothing rfl rfl
  | raw body => exact brings_addShown h
  | tag body =>
    have htildes : splitTildes body = (false, body, false) := hp
    rw [add, htildes] at h
    rw [Piece.output?, htildes]
    have hflag : Brings b { b with strip := false } [] [] := .nothing rfl rfl
    exact hflag.trans (brings_addTag h)
  | unclosed rest =>
    cases h
    exact (brings_addProblem b _).trans (brings_addText (b := b.addProblem _) hstrip rest)
  | overLimit rest =>
    cases h
    exact (brings_addProblem b _).trans (brings_addText (b := b.addProblem _) hstrip rest)

/-- A row of pieces brings what each of them brings, in the same order. -/
theorem brings_addAll {ps : List Piece} (hps : ∀ p ∈ ps, p.KeepsBlanks) (hstrip : b.strip = false)
    (h : ps.foldlM (add isHelper maxTags maxDepth) b = .ok b') :
    Brings b b' (ps.flatMap fun p => p.literal?.getD []) (ps.filterMap (Piece.output? isHelper)) := by
  induction ps generalizing b with
  | nil =>
    cases h
    exact .nothing rfl rfl
  | cons p ps ih =>
    rw [List.foldlM_cons] at h
    obtain ⟨c, hc, hrest⟩ := ok_of_bind h
    have hp := hps p List.mem_cons_self
    have hstep := (brings_add hp hstrip hc).trans
      (ih (fun q hq => hps q (List.mem_cons_of_mem p hq)) (strip_add hp hstrip hc) hrest)
    rw [List.flatMap_cons, List.filterMap_cons]
    cases hshown : p.output? isHelper with
    | none =>
      rw [hshown] at hstep
      exact hstep
    | some shown =>
      rw [hshown] at hstep
      exact hstep

/-! #### Blocks that are left open -/

/-- The walk through the branches of an open block that are put in its place, behind `more`. -/
theorem walkedOpen_splice (o : OpenBlock) (stack : List OpenBlock) (nodes more : List Node) :
    walkedOpen stack ++ leavesOf (nodes ++ o.body.getD [] ++ (more ++ o.before)).reverse =
      walkedOpen stack ++ leavesOf o.before.reverse ++ leavesOf more.reverse ++
        leavesOf (o.body.getD []).reverse ++ leavesOf nodes.reverse := by
  simp only [List.reverse_append, leavesOf_append, List.append_assoc]

/-- The problem nodes apart, the walk is the same once the blocks that are left are opened. -/
theorem filterMap_spliceOpen {α : Type} {f : Node → Option α} (hf : ∀ p, f (.problem p) = none)
    (stack : List OpenBlock) (nodes : List Node) (problems : List Problem) :
    (leavesOf (spliceOpen stack nodes problems).1.reverse).filterMap f =
      (walkedOpen stack ++ leavesOf nodes.reverse).filterMap f := by
  induction stack generalizing nodes problems with
  | nil => rfl
  | cons o stack ih =>
    rw [spliceOpen, walkedOpen]
    simp only
    split
    · rw [ih, ← List.nil_append o.before, walkedOpen_splice]
      simp
    · rw [ih, ← List.singleton_append, walkedOpen_splice]
      simp [leavesOf_singleton, leaves, hf]

/-- Each block that is left and not chained gets one problem node. -/
theorem problems_spliceOpen_perm {stack : List OpenBlock} {nodes : List Node}
    {problems : List Problem}
    (h : ((walkedOpen stack ++ leavesOf nodes.reverse).filterMap problem?).Perm problems) :
    ((leavesOf (spliceOpen stack nodes problems).1.reverse).filterMap problem?).Perm
      (spliceOpen stack nodes problems).2 := by
  induction stack generalizing nodes problems with
  | nil => exact h
  | cons o stack ih =>
    rw [walkedOpen] at h
    rw [spliceOpen]
    simp only
    split
    · refine ih ?_
      rw [← List.nil_append o.before, walkedOpen_splice]
      simpa using h
    · refine ih ?_
      rw [← List.singleton_append, walkedOpen_splice]
      have hfront (a b c : List Problem) (p : Problem) :
          (a ++ (b ++ p :: c)).Perm (p :: (a ++ (b ++ c))) := by
        rw [← List.append_assoc, ← List.append_assoc a b c]
        exact List.perm_middle
      refine List.Perm.trans ?_ (h.cons _)
      simp only [List.filterMap_append, List.append_assoc, List.reverse_singleton,
        leavesOf_singleton, leaves, List.filterMap_cons, problem?, List.singleton_append]
      exact hfront _ _ _ _

end Builder

/-! ### Whole pages -/

/-- The walk through a page meets what its source holds: literal text that is the source without its
mustaches and escaping backslashes, what each tag shows that can be read, in the order of the source,
and a problem node for each problem that is reported while the page is read, which are all problems
of the page but those of blocks that are too deep. -/
structure Compiler.Walks (c : Compiler) (source : Text) (page : Page) : Prop where
  texts : ((Node.leavesOf page.nodes).filterMap Node.text?).flatten =
    (Span.scan c.settings.maxTemplateTokens source).flatMap Span.literal
  outputs : (Node.leavesOf page.nodes).filterMap Node.shown? =
    ((Span.scan c.settings.maxTemplateTokens source).filterMap Span.mustache?).filterMap
      (Piece.output? c.isHelper)
  problems : ∃ reported,
    page.problems = reported ++ Node.depthProblemsOf c.settings.maxBlockDepth page.nodes ∧
      ((Node.leavesOf page.nodes).filterMap Node.problem?).Perm reported

theorem Compiler.walks_of_read {c : Compiler} {source : Text} {page : Page}
    (htildes : ∀ p ∈ Piece.ofPage c.settings.maxTemplateTokens source, p.KeepsBlanks)
    (hpage : c.read source = .ok page) : c.Walks source page := by
  rw [read, Page.read] at hpage
  obtain ⟨b, hb, hpage⟩ := ok_of_bind hpage
  cases hpage
  obtain ⟨hliteral, houtputs⟩ :=
    Span.scan_pieces c.isHelper c.settings.maxTemplateTokens source
  obtain ⟨more, hwalked, hproblems, htexts, hshown⟩ := Builder.brings_addAll htildes rfl hb
  -- nothing has been read before, so the walk is what the pieces bring
  change b.walked = more at hwalked
  rw [← hwalked] at htexts hshown hproblems
  have hreported : (b.walked.filterMap Node.problem?).Perm b.problems := by
    rw [hproblems]
    show (b.walked.filterMap Node.problem?).Perm ((b.walked.filterMap Node.problem?).reverse ++ [])
    rw [List.append_nil]
    exact (List.reverse_perm _).symm
  refine ⟨?_, ?_, _, rfl, ?_⟩
  · rw [Builder.filterMap_spliceOpen fun p => rfl, hliteral]
    exact htexts
  · rw [Builder.filterMap_spliceOpen fun p => rfl, houtputs]
    exact hshown
  · exact (Builder.problems_spliceOpen_perm hreported).trans (List.reverse_perm _).symm

/-- Reading a page without tildes loses and doubles nothing: the source is made up of its spans, and a
page that is read is one whose walk meets what they hold.  It is read exactly if the reading comes to
no terms that break. -/
theorem Compiler.walk_read {c : Compiler} {source : Text}
    (htildes : ∀ p ∈ Piece.ofPage c.settings.maxTemplateTokens source, p.KeepsBlanks) :
    (Span.scan c.settings.maxTemplateTokens source).flatMap Span.source = source ∧
    ((∃ page, c.read source = .ok page ∧ c.Walks source page) ↔
      ¬ Page.Breaks c.isHelper c.settings.maxTemplateTokens c.settings.maxBlockDepth source) := by
  refine ⟨Span.source_scan _ source, ?_⟩
  rw [← Page.read_ok_iff]
  constructor
  · rintro ⟨page, hpage, -⟩
    exact ⟨page, hpage⟩
  · rintro ⟨page, hpage⟩
    exact ⟨page, hpage, walks_of_read htildes hpage⟩

/-- A page with an escaped mustache, a block that is left open, one that is closed as another, a stray
branch, a comment, a tag that cannot be read and one without an end. -/
def tornPage : Text :=
  lit "a \\\x7b\x7bx\x7d\x7d\x7b\x7b#if y\x7d\x7db\x7b\x7b! c \x7d\x7d\x7b\x7belse\x7d\x7d\x7b\x7b/each\x7d\x7d\x7b\x7bz\x7d\x7d\x7b\x7belse\x7d\x7d\x7b\x7b(\x7d\x7d\x7b\x7b&w\x7d\x7d d\x7b\x7be"

/-- The torn page holds four texts and two values, and five problems are reported. -/
theorem Compiler.walk_read_tornPage :
    ∃ page, (standard {}).read tornPage = .ok page ∧
      ((Node.leavesOf page.nodes).filterMap Node.text?).flatten =
        lit "a \x7b\x7bx\x7d\x7db d\x7b\x7be" ∧
      ((Node.leavesOf page.nodes).filterMap Node.shown?).length = 2 ∧
      ∃ reported, page.problems = reported ++ Node.depthProblemsOf 16 page.nodes ∧
        ((Node.leavesOf page.nodes).filterMap Node.problem?).Perm reported := by
  have hread : ((standard {}).read tornPage).toBool = true := by decide +kernel
  have hkeeps : ∀ p ∈ Piece.ofPage 5000 tornPage, p.KeepsBlanks :=
    Piece.keepsBlanks_of_not_mem (by decide +kernel)
  have hliteral : (Span.scan 5000 tornPage).flatMap Span.literal =
      lit "a \x7b\x7bx\x7d\x7db d\x7b\x7be" := by decide +kernel
  have hshown : (((Span.scan 5000 tornPage).filterMap Span.mustache?).filterMap
      (Piece.output? (standard {}).isHelper)).length = 2 := by decide +kernel
  obtain ⟨-, hwalks⟩ := walk_read (c := standard {}) hkeeps
  obtain ⟨page, hpage, hmeets⟩ := hwalks.2 (Page.read_ok_iff.1 (exists_ok_of_toBool hread))
  exact ⟨page, hpage, hmeets.texts.trans hliteral,
    (congrArg List.length hmeets.outputs).trans hshown, hmeets.problems⟩

/-- A page without tildes that breaks the reading off: a data path that is empty, between two texts. -/
theorem Compiler.walk_emptyDataPath :
    (∀ p ∈ Piece.ofPage 5000 (lit "a \x7b\x7b@./this\x7d\x7d b"), p.KeepsBlanks) ∧
      ¬ ∃ page, (standard {}).read (lit "a \x7b\x7b@./this\x7d\x7d b") = .ok page := by
  refine ⟨Piece.keepsBlanks_of_not_mem (by decide +kernel), ?_⟩
  have hread : ((standard {}).read (lit "a \x7b\x7b@./this\x7d\x7d b")).toBool = false := by
    decide +kernel
  rintro ⟨page, h⟩
  rw [h] at hread
  cases hread

end Tender
