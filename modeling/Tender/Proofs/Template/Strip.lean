/-
Whitespace control.

A tag with a tilde at each end takes the blanks from the text on both sides, whatever the tag does to
the blocks between them.

* `piecesFrom_tilded` — the pieces around such a tag, among blanks;
* `trimLast_addTag`, `trimLast_addAll` — behind a mustache that is no comment there is no text that
  could lose blanks;
* `kin_tilded`, `Kin.addText_blank` — so the text on the left is what it is without the blanks, and so
  is the text on the right;
* `Compiler.compile_tilded` — and a page without problems is compiled as the page without the tildes
  and without the blanks.
-/
import Tender.Proofs.Template.Kin

namespace Tender

open Text

namespace Piece

variable {s w t before after tail : Text} {p : Piece} {ps : List Piece} {tags budget : Nat}

/-! ### Pieces -/

/-- Plain text behind a closed text goes to its plain tail. -/
theorem Scanned.append_bare (h : Scanned s ps tags tail) (hbrace : s.getLast? ≠ some '{')
    (hw : Bare opening w) : Scanned (s ++ w) ps tags (tail ++ w) := by
  induction h with
  | plain h =>
    exact .plain (cut_of_bare (by decide) ((bare_opening_of_cut h hbrace).append hw))
  | escaped h hescaped hclose _ ih =>
    have hrest := (suffix_of_cut hclose).trans (suffix_of_cut h)
    exact .escaped (cut_append (by decide) h _) hescaped (cut_append (by decide) hclose _)
      (ih (getLast?_of_suffix hrest hbrace))
  | tag h hplain htag _ ih =>
    have hrest := (suffix_of_readTag? htag).trans (suffix_of_cut h)
    exact .tag (cut_append (by decide) h _) hplain (readTag?_append htag _)
      (ih (getLast?_of_suffix hrest hbrace))

/-- If a closed text ends with a mustache that is text, a closing brace ends it. -/
theorem Scanned.getLast?_literal (h : Scanned s ps tags tail) (hp : ps.getLast? = some p) :
    ∀ u ∈ p.literal?, u.getLast? = some '}' := by
  induction h with
  | plain => cases hp
  | @escaped s before after body rest tail ps tags _ _ _ _ ih =>
    cases ps with
    | nil =>
      cases hp
      intro u hu
      cases hu
      rw [closing, List.append_cons, List.getLast?_concat]
    | cons q ps => exact ih hp
  | @tag s before after rest tail q ps tags _ _ htag _ ih =>
    cases ps with
    | nil =>
      obtain rfl : q = p := Option.some.inj hp
      rw [literal?_of_readTag? htag]
      intro u hu
      cases hu
    | cons q ps => exact ih hp

/-- What stands between the tildes of a tag, so that the tag without them is read as the same one. -/
structure Tildable (t : Text) : Prop where
  closing : ¬ closing <:+: t
  head : t.head? ≠ some '!' ∧ t.head? ≠ some '{' ∧ t.head? ≠ some '~'
  last : t.getLast? ≠ some '~' ∧ t.getLast? ≠ some '}'

theorem Tildable.bare (h : Tildable t) : Bare Piece.closing t := by
  refine bare_of_not_infix h.closing ?_
  rintro ⟨v, hv, hnil, hne, hpre⟩
  -- a start of the closing braces at the end of the text is one brace
  obtain ⟨u, rfl⟩ := (List.mem_tails _ _).1 hv
  obtain ⟨c, v, rfl⟩ := List.exists_cons_of_ne_nil hnil
  obtain ⟨rfl, hrest⟩ := List.cons_prefix_cons.1 hpre
  rcases List.prefix_cons_iff.1 hrest with rfl | ⟨v', rfl, hend⟩
  · exact h.last.2 List.getLast?_concat
  · rw [List.prefix_nil.1 hend] at hne
    exact hne rfl

theorem Tildable.readTag? (h : Tildable t) : readTag? (t ++ Piece.closing) = some (.tag t, []) := by
  have hcut := cut_append_of_bare (by decide) h.bare []
  rw [List.append_nil] at hcut
  refine readTag_of_cut hcut ?_ ?_
  · cases t with
    | nil => decide
    | cons c t => exact h.head.2.1
  · cases t with
    | nil => decide
    | cons c t => exact h.head.1

/-- A tag with a tilde at each end. -/
def tilded (t : Text) : Text := '~' :: t ++ ['~']

theorem Tildable.readTag?_tilded (h : Tildable t) :
    Piece.readTag? (tilded t ++ Piece.closing) = some (.tag (tilded t), []) := by
  have htilde : Bare Piece.closing ['~'] := Bare.of_not_mem (by decide)
  have hbare : Bare Piece.closing (tilded t) := (htilde.append h.bare).append htilde
  have hcut := cut_append_of_bare (by decide) hbare []
  rw [List.append_nil] at hcut
  exact readTag_of_cut hcut (by simp [tilded]) (by simp [tilded])

theorem bare_blank (hw : ∀ x ∈ w, isBlank x = true) : Bare opening w := by
  refine Bare.of_not_mem ?_
  intro h
  cases hw _ h

/-- Blanks in front of a text go into its first piece. -/
theorem piecesFrom_blank_append (hw : ∀ x ∈ w, isBlank x = true) (budget : Nat) (s : Text) :
    piecesFrom budget [] (w ++ s) = prepend w (piecesFrom budget [] s) := by
  refine piecesFrom_bare_append (bare_blank hw) ?_ budget s
  intro h
  cases hw _ (List.mem_of_getLast? h)

theorem splitTildes_tilded (t : Text) : Builder.splitTildes (tilded t) = (true, t, true) := by
  unfold Builder.splitTildes tilded
  simp only [List.cons_append, List.getLast?_concat, List.dropLast_concat]

end Piece

namespace Builder

open Node

variable {isHelper : Text → Bool} {b b' : Builder} {maxTags maxDepth limit : Nat} {token : Text}

/-! ### Behind a mustache -/

/-- Closing a block leaves the block, and no text, behind. -/
theorem trimLast_closeChain {stack : List OpenBlock} {nodes : List Node}
    (h : stack ≠ [] ∨ trimLast nodes = nodes) :
    trimLast (closeChain stack nodes).2 = (closeChain stack nodes).2 := by
  induction stack generalizing nodes with
  | nil => exact h.resolve_left fun hne => hne rfl
  | cons o stack ih =>
    have hclosed : trimLast (OpenBlock.close o nodes :: o.before) = _ :=
      trimLast_cons (isText_close o nodes) o.before
    rw [closeChain]
    split
    · exact ih (.inr hclosed)
    · exact hclosed

theorem trimLast_settle {α : Type} {r : Reading α} {add : α → Builder}
    (h : b.settle token r add = .ok b')
    (hadd : ∀ a, trimLast (add a).nodes = (add a).nodes) : trimLast b'.nodes = b'.nodes := by
  rcases settle_ok h with ⟨a, -, rfl⟩ | ⟨p, rfl⟩
  · exact hadd a
  · rfl

theorem trimLast_addElse {chain : Text} (h : b.addElse isHelper token chain = .ok b') :
    trimLast b'.nodes = b'.nodes := by
  unfold addElse at h
  split at h
  · cases h
    rfl
  · split at h
    · cases h
      rfl
    · simp only at h
      split at h
      · cases h
        rfl
      · exact trimLast_settle h fun _ => rfl

theorem trimLast_closeBlock (b : Builder) (token name : Text) :
    trimLast (b.closeBlock token name).nodes = (b.closeBlock token name).nodes := by
  rw [closeBlock]
  split
  · rfl
  · rename_i o hfind
    split
    · -- there is a block to be closed
      refine trimLast_closeChain (.inl ?_)
      intro hnil
      rw [hnil] at hfind
      cases hfind
    · rfl

/-- Behind a tag there is no text that could lose blanks. -/
theorem trimLast_addTag {body : Text} (h : b.addTag isHelper maxDepth token body = .ok b') :
    trimLast b'.nodes = b'.nodes := by
  unfold addTag at h
  split at h
  · exact trimLast_addElse h
  · split at h
    · exact trimLast_addElse h
    · split at h
      · exact trimLast_settle h fun _ => rfl
      · cases h
        exact trimLast_closeBlock b token _
      · cases h
        rfl
      · cases h
        rfl
      · exact trimLast_settle h fun _ => rfl
      · exact trimLast_settle h fun _ => rfl

/-- A text that a closing brace ends keeps its end, also if it loses blanks at its start. -/
theorem trimLast_addText {u : Text} (hu : u.getLast? = some '}') :
    trimLast (b.addText u).nodes = (b.addText u).nodes := by
  obtain ⟨v, rfl⟩ := List.getLast?_eq_some_iff.1 hu
  obtain ⟨v', hv'⟩ : ∃ v', (if b.strip then trimStart (v ++ ['}']) else v ++ ['}']) = v' ++ ['}'] := by
    split
    · exact ⟨trimStart v, trimStart_append (by decide) v []⟩
    · exact ⟨v, rfl⟩
  rw [addText, hv']
  simp only [List.append_eq_nil_iff, List.cons_ne_nil, and_false, if_false, trimLast]
  rw [trimEnd_append (by decide)]
  rfl

theorem trimLast_add {p : Piece} (hliteral : ∀ u ∈ p.literal?, u.getLast? = some '}')
    (hcomment : ∀ source, p ≠ .comment source)
    (h : b.add isHelper maxTags maxDepth p = .ok b') : trimLast b'.nodes = b'.nodes := by
  cases p with
  | text u =>
    cases h
    exact trimLast_addText (hliteral u rfl)
  | comment source => exact absurd rfl (hcomment source)
  | raw body => exact trimLast_settle h fun _ => rfl
  | tag body => exact trimLast_addTag h
  | unclosed rest =>
    cases h
    exact trimLast_addText (hliteral rest rfl)
  | overLimit rest =>
    cases h
    exact trimLast_addText (hliteral rest rfl)

/-- Behind a closed text that does not end with a comment there is no text that could lose blanks, its
plain tail apart. -/
theorem trimLast_addAll {s tail : Text} {ps : List Piece} {tags : Nat}
    (hscanned : Piece.Scanned s ps tags tail)
    (hcomment : ∀ source, ps.getLast? ≠ some (.comment source))
    (h : ps.foldlM (add isHelper maxTags maxDepth) start = .ok b) : trimLast b.nodes = b.nodes := by
  rcases List.eq_nil_or_concat' ps with rfl | ⟨init, p, rfl⟩
  · cases h
    rfl
  · rw [List.foldlM_append] at h
    obtain ⟨c, -, hp⟩ := ok_of_bind h
    rw [List.foldlM_cons] at hp
    obtain ⟨d, hd, hnil⟩ := ok_of_bind hp
    cases hnil
    refine trimLast_add (hscanned.getLast?_literal List.getLast?_concat) ?_ hd
    rintro source rfl
    exact hcomment source List.getLast?_concat

/-! ### Beside a tag with tildes -/

theorem nodes_addText_nil (b : Builder) : (b.addText []).nodes = b.nodes := by
  rw [addText]
  simp [trimStart]

/-- Blanks alone in front of a tag with a tilde leave an empty text or none. -/
theorem sameEnd_blank {w : Text} (hw : ∀ x ∈ w, isBlank x = true)
    (hnodes : trimLast b.nodes = b.nodes) :
    SameEnd (trimLast (b.addText w).nodes) (b.addText []).nodes := by
  have hblank : ∀ x ∈ (if b.strip then trimStart w else w), isBlank x = true := by
    split
    · exact fun x hx => hw x ((trimStart_isSuffix w).subset hx)
    · exact hw
  have hadded : (b.addText w).nodes = if (if b.strip then trimStart w else w) = [] then b.nodes else
      .text (if b.strip then trimStart w else w) :: b.nodes := rfl
  rw [nodes_addText_nil, hadded]
  generalize (if b.strip then trimStart w else w) = v at hblank
  split
  · rw [hnodes]
    exact .refl b.nodes
  · rw [trimLast, trimEnd_eq_nil hblank]
    refine ⟨.text_nil b.nodes, ?_⟩
    rw [hnodes]
    exact .text_nil b.nodes

/-- Blanks behind a text that ends with none are lost in front of a tag with a tilde. -/
theorem trimLast_addText_blank {u w : Text} {x : Char} (hx : isBlank x = false)
    (hw : ∀ y ∈ w, isBlank y = true) :
    trimLast (b.addText (u ++ [x] ++ w)).nodes = (b.addText (u ++ [x])).nodes := by
  -- the blanks at the start of the text are lost in both readings
  have hstart (v : Text) : (if b.strip then trimStart (u ++ x :: v) else u ++ x :: v) =
      (if b.strip then trimStart u else u) ++ x :: v := by
    split
    · exact trimStart_append hx u v
    · rfl
  rw [List.append_assoc, List.singleton_append, addText, addText, hstart w, hstart []]
  simp only [List.append_eq_nil_iff, List.cons_ne_nil, and_false, if_false, trimLast]
  rw [trimEnd_append hx, trimEnd_eq_nil hw]

/-- In front of a tag with a tilde, blanks make no difference. -/
theorem kin_tilded (hstack : ∀ o ∈ b.stack, o.tooDeep = false) {tail w : Text}
    (hw : ∀ x ∈ w, isBlank x = true) (htail : ∀ x, tail.getLast? = some x → isBlank x = false)
    (hnodes : tail = [] → trimLast b.nodes = b.nodes) :
    Kin (b.addText (tail ++ w)).stripBefore (b.addText tail) := by
  rw [stripBefore_eq]
  refine ⟨?_, List.forall₂_same.2 fun o ho => .refl (hstack o ho)⟩
  rcases List.eq_nil_or_concat' tail with rfl | ⟨u, x, rfl⟩
  · exact sameEnd_blank hw (hnodes rfl)
  · show SameEnd (trimLast _) _
    rw [trimLast_addText_blank (htail x List.getLast?_concat) hw]
    exact .refl _

/-- Behind a tag with a tilde, blanks make no difference. -/
theorem Kin.addText_blank (h : Kin b b') (hstrip : b.strip = true) (hstrip' : b'.strip = false)
    {w u : Text} (hw : ∀ x ∈ w, isBlank x = true)
    (hu : ∀ x, u.head? = some x → isBlank x = false) : Kin (b.addText (w ++ u)) (b'.addText u) := by
  refine h.addText ?_
  rw [hstrip, hstrip', if_pos rfl, if_neg Bool.false_ne_true, trimStart_append_of_blank hw,
    trimStart_of_head hu]

/-- A tag with tildes among blanks leaves what the tag without them leaves, and so do the pieces that
follow it. -/
theorem kin_around {tail w₁ w₂ t : Text} {rest : List Piece} {e : Builder}
    (htail : ∀ x, tail.getLast? = some x → isBlank x = false)
    (hnodes : tail = [] → trimLast b.nodes = b.nodes) (hw₁ : ∀ x ∈ w₁, isBlank x = true)
    (htag : Piece.Tildable t) (hw₂ : ∀ x ∈ w₂, isBlank x = true)
    (hrest : rest = [] ∨ ∃ u ps, rest = .text u :: ps ∧
      ∀ x, u.head? = some x → isBlank x = false)
    (he : (.text (tail ++ w₁) :: .tag (Piece.tilded t) :: Piece.prepend w₂ rest).foldlM
      (add isHelper maxTags maxDepth) b = .ok e)
    (hclean : e.problems = []) (hshallow : e.Shallow limit) :
    ∃ e', (.text tail :: .tag t :: rest).foldlM (add isHelper maxTags maxDepth) b = .ok e' ∧
      Kin e e' := by
  have hbefore := (hshallow.of_addAll he (Nat.le_refl _)).1
  rw [List.foldlM_cons] at he
  obtain ⟨c, hc, he⟩ := ok_of_bind he
  cases hc
  rw [List.foldlM_cons] at he
  obtain ⟨d, hd, he⟩ := ok_of_bind he
  have hfound : d.problems = [] := List.subset_nil.1 (hclean ▸ problems_of_foldlM he)
  have hfits := (hshallow.of_addAll he (Nat.le_refl _)).1
  -- the tag does the same to what is left in front of it
  rw [add, Piece.splitTildes_tilded] at hd
  have hfront := kin_tilded (fun o ho => (hbefore.stack o ho).1) hw₁ htail hnodes
  obtain ⟨d', hd', hkin⟩ := (hfront.withStrip true false).addTag (trim t) d hd hfound hfits
  have hadd : (b.addText tail).add isHelper maxTags maxDepth (.tag t) = .ok d' := by
    rw [add_tag htag.head.2.2 htag.last.1]
    exact hd'
  have hstrip : d.strip = true := strip_addTag hd
  have hstrip' : d'.strip = false := strip_addTag hd'
  have hread (ps : List Piece) : (.text tail :: .tag t :: ps).foldlM
      (add isHelper maxTags maxDepth) b = ps.foldlM (add isHelper maxTags maxDepth) d' := by
    rw [List.foldlM_cons]
    show (.tag t :: ps).foldlM (add isHelper maxTags maxDepth) (b.addText tail) = _
    rw [List.foldlM_cons, hadd]
    rfl
  rw [hread]
  rcases hrest with rfl | ⟨u, ps, rfl, hu⟩
  · refine ⟨d', rfl, ?_⟩
    rw [Piece.prepend_nil] at he
    split at he
    · cases he
      exact hkin
    · cases he
      have hblank := hkin.addText_blank hstrip hstrip' hw₂ (u := []) (fun x hx => by cases hx)
      rw [List.append_nil] at hblank
      exact ⟨nodes_addText_nil d' ▸ hblank.nodes, hblank.stack⟩
  · exact (hkin.addText_blank hstrip hstrip' hw₂ hu).addAll rfl he hclean hshallow

/-! ### Pages without problems -/

/-- No chained block is too deep: it is opened where its chain is. -/
def ChainsFit (b : Builder) : Prop := ∀ o ∈ b.stack, o.chained = true → o.tooDeep = false

theorem ChainsFit.move (h : b.ChainsFit) (hmove : Move token b b') : b'.ChainsFit := by
  have hbranch {top : OpenBlock} {outer : List OpenBlock} (hstack : b.stack = top :: outer) :
      (b.endBranch top outer).ChainsFit := by
    intro o ho
    rcases List.mem_cons.1 ho with rfl | ho
    · exact h top (hstack ▸ List.mem_cons_self)
    · exact h o (hstack ▸ List.mem_cons_of_mem top ho)
  cases hmove with
  | problem p => exact h
  | shown e raw => exact h
  | opening kind param tooDeep =>
    intro o ho
    rcases List.mem_cons.1 ho with rfl | ho
    · intro hchained
      cases hchained
    · exact h o ho
  | closing =>
    intro o ho
    change o ∈ (closeChain b.stack b.nodes).1 at ho
    rw [closeChain_stack] at ho
    exact h o ((List.dropWhile_suffix _).subset (List.mem_of_mem_drop ho))
  | branch hstack => exact hbranch hstack
  | brokenBranch hstack p => exact hbranch hstack
  | chain hstack kind param =>
    intro o ho
    rcases List.mem_cons.1 ho with rfl | ho
    · exact fun _ => rfl
    · exact hbranch hstack o ho

theorem ChainsFit.add (h : b.ChainsFit) {p : Piece}
    (hadd : b.add isHelper maxTags maxDepth p = .ok b') : b'.ChainsFit := by
  cases p with
  | text s =>
    cases hadd
    exact h
  | comment s =>
    cases hadd
    exact h
  | raw body => exact h.move (addShown_ok hadd)
  | tag body =>
    -- the tildes change the text around the tag, but no block
    have hstripped (nodes : List Node) (strip : Bool) :
        ChainsFit ⟨nodes, b.stack, strip, b.problems⟩ := h
    rw [Builder.add, stripBefore_eq] at hadd
    rcases hsplit : splitTildes body with ⟨left, inner, right⟩
    rw [hsplit] at hadd
    cases left with
    | true => exact (hstripped _ _).move (addTag_ok hadd)
    | false => exact (hstripped _ _).move (addTag_ok hadd)
  | unclosed rest =>
    cases hadd
    exact h
  | overLimit rest =>
    cases hadd
    exact h

theorem ChainsFit.addAll (h : b.ChainsFit) {ps : List Piece}
    (hadd : ps.foldlM (Builder.add isHelper maxTags maxDepth) b = .ok b') : b'.ChainsFit := by
  induction ps generalizing b with
  | nil =>
    cases hadd
    exact h
  | cons p ps ih =>
    rw [List.foldlM_cons] at hadd
    obtain ⟨c, hc, hrest⟩ := ok_of_bind hadd
    exact ih (h.add hc) hrest

/-- If no block is reported and none shows that is too deep, then none is. -/
theorem shallow_of_spliceOpen {stack : List OpenBlock} {nodes : List Node} {strip : Bool}
    {problems : List Problem} (hfit : ChainsFit ⟨nodes, stack, strip, problems⟩)
    (hclean : (spliceOpen stack nodes problems).2 = [])
    (hshallow : Node.Shallow limit (spliceOpen stack nodes problems).1) :
    Shallow limit ⟨nodes, stack, strip, problems⟩ := by
  induction stack generalizing nodes with
  | nil => exact ⟨hshallow, fun o ho => by cases ho⟩
  | cons o stack ih =>
    have hchained := chained_of_spliceOpen hclean o List.mem_cons_self
    rw [spliceOpen_chained hchained] at hclean hshallow
    have hrest := ih (fun o' ho' => hfit o' (List.mem_cons_of_mem o ho')) hclean hshallow
    have hmem : ∀ n, n ∈ nodes ∨ n ∈ o.body.getD [] ∨ n ∈ o.before →
        n.depthProblems limit = [] := by
      intro n hn
      refine hrest.nodes n ?_
      simpa [or_assoc] using hn
    refine ⟨fun n hn => hmem n (.inl hn), fun o' ho' => ?_⟩
    rcases List.mem_cons.1 ho' with rfl | ho'
    · refine ⟨hfit o' List.mem_cons_self hchained, fun n hn => hmem n (.inr (.inr hn)), ?_⟩
      intro body hbody n hn
      refine hmem n (.inr (.inl ?_))
      rw [Option.mem_def.1 hbody]
      exact hn
    · exact hrest.stack o' ho'

end Builder

namespace Page

variable {isHelper : Text → Bool} {maxTags maxDepth : Nat} {source : Text} {page : Page}

/-- A page without problems has no tag past the limit. -/
theorem withinLimit_of_clean (h : read isHelper maxTags maxDepth source = .ok page)
    (hclean : page.problems = []) : Piece.WithinLimit maxTags source := by
  intro rest hmem
  obtain ⟨before, after, hsplit⟩ := List.append_of_mem hmem
  obtain ⟨b, hb, -⟩ := problems_of_read h
  rw [hsplit, List.foldlM_append] at hb
  obtain ⟨c, hc, -⟩ := ok_of_bind hb
  have hcause : (Demand.ofPiece maxTags c.stack (.overLimit rest)).verdict isHelper =
      refuse (.tooManyTags maxTags) := rfl
  have hreported := mem_problems h ⟨before, after, hsplit, hc⟩ hcause
  rw [hclean] at hreported
  cases hreported

/-- What has been read of a page without problems. -/
theorem read_clean (h : read isHelper maxTags maxDepth source = .ok page)
    (hclean : page.problems = []) :
    ∃ b, (Piece.ofPage maxTags source).foldlM (Builder.add isHelper maxTags maxDepth)
        Builder.start = .ok b ∧ b.problems = [] ∧ b.Shallow maxDepth ∧
      (Builder.spliceOpen b.stack b.nodes b.problems).2 = [] := by
  rw [read] at h
  obtain ⟨b, hb, h⟩ := ok_of_bind h
  cases h
  obtain ⟨hreported, hdeep⟩ := List.append_eq_nil_iff.1 hclean
  rw [List.reverse_eq_nil_iff] at hreported
  rw [Node.Shallow.depthProblemsOf_iff, Node.Shallow.reverse_iff] at hdeep
  have hfound := (Builder.problems_of_spliceOpen b.stack b.nodes b.problems).1
  rw [hreported] at hfound
  have hfit : b.ChainsFit := Builder.ChainsFit.addAll (fun o ho => by cases ho) hb
  exact ⟨b, hb, List.subset_nil.1 hfound, Builder.shallow_of_spliceOpen hfit hreported hdeep,
    hreported⟩

end Page

/-! ### Whole pages -/

namespace Compiler

variable {c : Compiler} {before after t w₁ w₂ : Text} {page : Page}

/-- Whitespace control is an edit of the source: a tag with a tilde at each end, among blanks, is
compiled as the tag without the tildes and the blanks, if no problem is found in the page.

The text before is closed and does not end with a blank or a comment, and the text after does not
start with a blank. -/
theorem compile_tilded (hclosed : Piece.Closed before)
    (hends : ∀ x, before.getLast? = some x → x ≠ '{' ∧ x ≠ '\\' ∧ isBlank x = false)
    (hcomment : ∀ source, (Piece.pieces before).getLast? ≠ some (.comment source))
    (hw₁ : ∀ x ∈ w₁, isBlank x = true) (htag : Piece.Tildable t)
    (hw₂ : ∀ x ∈ w₂, isBlank x = true) (hstarts : ∀ x, after.head? = some x → isBlank x = false)
    (hread : c.read (before ++ w₁ ++ Link.tag (Piece.tilded t) ++ (w₂ ++ after)) = .ok page)
    (hclean : page.problems = []) (context : Value) :
    c.compile (before ++ w₁ ++ Link.tag (Piece.tilded t) ++ (w₂ ++ after)) context =
      c.compile (before ++ Link.tag t ++ after) context := by
  obtain ⟨ps, tags, tail, hscanned⟩ := hclosed
  have hbrace : before.getLast? ≠ some '{' := fun h => (hends _ h).1 rfl
  have hback : before.getLast? ≠ some '\\' := fun h => (hends _ h).2.1 rfl
  -- where the blanks in front of the tag end, no brace follows and no backslash
  have hends₁ : ∀ x, (before ++ w₁).getLast? = some x → x ≠ '{' ∧ x ≠ '\\' := by
    intro x hx
    rcases List.eq_nil_or_concat' w₁ with rfl | ⟨v, y, rfl⟩
    · rw [List.append_nil] at hx
      exact ⟨(hends x hx).1, (hends x hx).2.1⟩
    · rw [← List.append_assoc, List.getLast?_concat] at hx
      cases hx
      have hx := hw₁ x (by simp)
      constructor
      · rintro rfl
        cases hx
      · rintro rfl
        cases hx
  have hbrace₁ : (before ++ w₁).getLast? ≠ some '{' := fun h => (hends₁ _ h).1 rfl
  have hback₁ : (before ++ w₁).getLast? ≠ some '\\' := fun h => (hends₁ _ h).2 rfl
  have hscanned₁ := hscanned.append_bare hbrace (Piece.bare_blank hw₁)
  obtain ⟨budget, hbudget⟩ := Piece.exists_budget hscanned₁ hbrace₁ hback₁
    (Page.withinLimit_of_clean hread hclean)
  have hleft : Piece.ofPage c.settings.maxTemplateTokens
      (before ++ w₁ ++ Link.tag (Piece.tilded t) ++ (w₂ ++ after)) = ps ++ .text (tail ++ w₁) ::
        .tag (Piece.tilded t) :: Piece.prepend w₂ (Piece.piecesFrom budget [] after) := by
    rw [Piece.ofPage, hbudget, ← Piece.piecesFrom_blank_append hw₂]
    exact Piece.piecesFrom_around hscanned₁ hbrace₁ hback₁ htag.readTag?_tilded budget
  have hright : Piece.ofPage c.settings.maxTemplateTokens (before ++ Link.tag t ++ after) =
      ps ++ .text tail :: .tag t :: Piece.piecesFrom budget [] after := by
    rw [Piece.ofPage, hbudget]
    exact Piece.piecesFrom_around hscanned hbrace hback htag.readTag? budget
  obtain ⟨e, he, hfound, hshallow, hreported⟩ := Page.read_clean hread hclean
  have hwhole := he
  rw [hleft, List.foldlM_append] at he
  obtain ⟨b, hb, he⟩ := ok_of_bind he
  -- without a plain tail, the last piece before the tag is the last piece of the text before
  have hnodes : tail = [] → Node.trimLast b.nodes = b.nodes := by
    intro htail
    refine Builder.trimLast_addAll hscanned (fun source hsource => hcomment source ?_) hb
    rw [hscanned.pieces_eq, htail, Piece.prepend_nil, if_pos rfl, List.append_nil]
    exact hsource
  have hrest : Piece.piecesFrom budget [] after = [] ∨ ∃ u qs,
      Piece.piecesFrom budget [] after = .text u :: qs ∧
        ∀ x, u.head? = some x → isBlank x = false := by
    rcases Piece.piecesFrom_head_prefix budget after with hnil | ⟨u, qs, hqs, v, hv⟩
    · exact .inl hnil
    · refine .inr ⟨u, qs, hqs, fun x hx => hstarts x ?_⟩
      rw [← hv, List.head?_append, hx]
      rfl
  have htail : ∀ x, tail.getLast? = some x → isBlank x = false := by
    intro x hx
    obtain ⟨v, hv⟩ := hscanned.tail_suffix
    refine (hends x ?_).2.2
    rw [← hv, List.getLast?_append, hx]
    rfl
  obtain ⟨e', he', hkin⟩ :=
    Builder.kin_around htail hnodes hw₁ htag hw₂ hrest he hfound hshallow
  rw [compile_eq, compile_eq, hright, List.foldlM_append, hb, hwhole]
  show _ = ((List.foldlM _ b _) >>= _)
  rw [he']
  exact hkin.written hreported _

/-- A tag between two branches, with a tilde at each end and a line on each side. -/
theorem compile_tilded_else :
    (standard {}).compile (lit "\x7b\x7b#if rates\x7d\x7dyes" ++ lit " \n" ++
        Link.tag (Piece.tilded (lit "else")) ++ (lit "\n\t" ++ lit "no\x7b\x7b/if\x7d\x7d"))
      rates =
    (standard {}).compile (lit "\x7b\x7b#if rates\x7d\x7dyes" ++ Link.tag (lit "else") ++
      lit "no\x7b\x7b/if\x7d\x7d") rates := by
  have hopening : cut Piece.opening (lit "\x7b\x7b#if rates\x7d\x7dyes") =
      some ([], lit "#if rates\x7d\x7dyes") := by decide +kernel
  have hopener : Piece.readTag? (lit "#if rates\x7d\x7dyes") =
      some (.tag (lit "#if rates"), lit "yes") := by decide +kernel
  have hclosed : Piece.Closed (lit "\x7b\x7b#if rates\x7d\x7dyes") :=
    ⟨_, _, _, .tag hopening (by decide) hopener (.plain (by decide +kernel))⟩
  have hlast : (lit "\x7b\x7b#if rates\x7d\x7dyes").getLast? = some 's' := by decide +kernel
  have hpieces : (Piece.pieces (lit "\x7b\x7b#if rates\x7d\x7dyes")).getLast? =
      some (.text (lit "yes")) := by decide +kernel
  have hhead : (lit "no\x7b\x7b/if\x7d\x7d").head? = some 'n' := by decide +kernel
  have hread : ((standard {}).read (lit "\x7b\x7b#if rates\x7d\x7dyes" ++ lit " \n" ++
      Link.tag (Piece.tilded (lit "else")) ++ (lit "\n\t" ++ lit "no\x7b\x7b/if\x7d\x7d"))
        ).toOption.map (fun page => page.problems.isEmpty) = some true := by decide +kernel
  obtain ⟨page, hpage, hclean⟩ := Option.map_eq_some_iff.1 hread
  have hblank : (lit " \n").all isBlank = true ∧ (lit "\n\t").all isBlank = true := by
    decide +kernel
  refine compile_tilded hclosed ?_ ?_ (List.all_eq_true.1 hblank.1)
    ⟨by decide +kernel, by decide +kernel, by decide +kernel⟩ (List.all_eq_true.1 hblank.2) ?_
    (ok_of_toOption hpage) (List.isEmpty_iff.1 hclean) rates
  · intro x hx
    rw [hlast] at hx
    cases hx
    decide
  · intro source hsource
    rw [hpieces] at hsource
    cases hsource
  · intro x hx
    rw [hhead] at hx
    cases hx
    decide

end Compiler

end Tender
