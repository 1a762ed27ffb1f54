/-
Chains of `else` tags.

* `carries_branches`, `carries_nested` — what a chain and blocks within blocks are read as, above
  any open blocks;
* `sameText_chainNodes` — which is written in the same way if no block is too deep;
* `Compiler.compile_chain` — so a chain is compiled as the blocks within blocks, and `unless` as
  `if` with its branches exchanged.
-/
import Tender.Proofs.Template.Link

namespace Tender

open Text

/-! ### What a chain is read as -/

namespace Compiler

open Builder

variable {c : Compiler} {first : Link} {rest : List Link} {last : Text}

/-- The nodes of blocks within blocks where so many blocks are open, the last one first. -/
def nestedNodes (c : Compiler) : (depth : Nat) → List Link → Text → List Node
  | depth, [], last => c.nodesOf (c.settings.maxBlockDepth - depth) last
  | depth, l :: ls, last =>
    [.block l.kind (l.expr c) (Link.tag ('#' :: l.call))
      (decide (c.settings.maxBlockDepth < depth + 1))
      (c.nodesOf (c.settings.maxBlockDepth - (depth + 1)) l.body).reverse
      (c.nestedNodes (depth + 1) ls last).reverse]

/-- The nodes of the branches of a chain where so many blocks are open, the last one first. -/
def chainNodes (c : Compiler) (depth : Nat) : List Link → Text → List Node
  | [], last => c.nodesOf (c.settings.maxBlockDepth - depth) last
  | l :: ls, last =>
    [.block l.kind (l.expr c) (Link.tag (elseWord ++ ' ' :: l.call)) false
      (c.nodesOf (c.settings.maxBlockDepth - depth) l.body).reverse
      (c.chainNodes depth ls last).reverse]

/-- How many tags blocks within blocks have. -/
def nestedTags : List Link → Text → Nat
  | [], last => Piece.mustaches last
  | l :: ls, last => Piece.mustaches l.body + nestedTags ls last + 3

/-- How many tags the branches of a chain have. -/
def branchTags : List Link → Text → Nat
  | [], last => Piece.mustaches last + 1
  | l :: ls, last => Piece.mustaches l.body + branchTags ls last + 1

theorem branchTags_le (ls : List Link) (last : Text) :
    branchTags ls last ≤ nestedTags ls last + 1 := by
  induction ls with
  | nil => exact Nat.le_refl _
  | cons l ls ih =>
    rw [branchTags, nestedTags]
    omega

/-- A tag right behind another one. -/
theorem carries_tag {t : Text} {p : Piece} {b b' : Builder} (hstrip : b.strip = false)
    (htag : Piece.readTag? t = some (p, []))
    (hadd : b.add c.isHelper c.settings.maxTemplateTokens c.settings.maxBlockDepth p = .ok b') :
    c.Carries (Piece.opening ++ t) 1 b b' := by
  obtain ⟨nodes, stack, strip, problems⟩ := b
  obtain rfl : strip = false := hstrip
  refine ⟨_, (Piece.Scanned.plain (s := []) rfl).snoc (by decide) (by decide) htag, ?_⟩
  show (Builder.add _ _ _ ⟨nodes, stack, false, problems⟩ p >>= _) = _
  rw [hadd]
  rfl

theorem readTag?_else :
    Piece.readTag? (elseWord ++ Piece.closing) = some (.tag elseWord, []) := by
  decide

theorem readTag?_closer (k : BlockKind) :
    Piece.readTag? ('/' :: k.name ++ Piece.closing) = some (.tag ('/' :: k.name), []) := by
  cases k <;> decide

theorem closeTop_of_not_chained {o : OpenBlock} (h : o.chained = false) (nodes : List Node)
    (stack : List OpenBlock) (strip : Bool) (problems : List Problem) :
    Builder.closeTop ⟨nodes, o :: stack, strip, problems⟩ =
      ⟨OpenBlock.close o nodes :: o.before, stack, strip, problems⟩ := by
  rw [Builder.closeTop, closeChain, h]
  rfl

theorem height_cons (o : OpenBlock) (stack : List OpenBlock) :
    height (o :: stack) = if o.chained then height stack else height stack + 1 := by
  rw [height, List.countP_cons]
  cases o.chained <;> rfl

/-- The rest of a block with more blocks in its second branch, behind its opening tag. -/
theorem carries_nested (hrest : ∀ l ∈ rest, c.Sound l) (hlast : c.Balanced last)
    (hbody : c.Balanced first.body) {o : OpenBlock} (hkind : o.kind = first.kind)
    (hchained : o.chained = false) (hnone : o.body = none) (stack : List OpenBlock)
    (earlier : List Problem) :
    ∃ problems, c.Carries
      (first.body ++ (Link.tag elseWord ++ (Link.nested rest last ++
        Link.tag ('/' :: first.kind.name))))
      (Piece.mustaches first.body + nestedTags rest last + 2)
      ⟨[], o :: stack, false, earlier⟩
      ⟨OpenBlock.close (branched o
          (c.nodesOf (c.settings.maxBlockDepth - height (o :: stack)) first.body))
          (c.nestedNodes (height (o :: stack)) rest last) :: o.before, stack, false, problems⟩ := by
  induction rest generalizing first o stack earlier with
  | nil =>
    obtain ⟨problems, hfirst⟩ := hbody.carries (o :: stack) earlier
    have helse := hfirst readTag?_else (add_else rfl hnone)
    obtain ⟨problems', hsecond⟩ := hlast.carries (branched o _ :: stack) problems
    have hclose := hsecond (readTag?_closer o.kind) (add_closer (o := branched o _)
      (List.find?_cons_of_pos (show (!o.chained) = true by rw [hchained]; rfl)))
    have hwhole := helse.append hclose
    rw [closeTop_of_not_chained (o := branched o _) hchained, hkind, List.append_assoc] at hwhole
    have htags : Piece.mustaches first.body + 1 + (Piece.mustaches last + 1) =
        Piece.mustaches first.body + nestedTags [] last + 2 := by
      rw [nestedTags]
      omega
    rw [htags] at hwhole
    exact ⟨problems', hwhole⟩
  | cons l ls ih =>
    have hl := hrest l List.mem_cons_self
    obtain ⟨problems, hfirst⟩ := hbody.carries (o :: stack) earlier
    have helse := hfirst readTag?_else (add_else rfl hnone)
    -- the block in the second branch is opened and closed with this one open
    let nodes := c.nodesOf (c.settings.maxBlockDepth - height (o :: stack)) first.body
    let inner : OpenBlock := ⟨l.kind, l.expr c, Link.tag ('#' :: l.call), false,
      c.settings.maxBlockDepth < height (o :: stack) + 1, [], none⟩
    have hheight : height (inner :: branched o nodes :: stack) = height (o :: stack) + 1 :=
      height_cons inner (branched o nodes :: stack)
    have hopen := c.carries_tag (b := ⟨[], branched o nodes :: stack, false, problems⟩) rfl
      (Link.readTag?_call hl.param [] (by decide) (by decide) (by decide))
      (add_opener hl.param)
    obtain ⟨problems', hinner⟩ := ih (fun l' hl' => hrest l' (List.mem_cons_of_mem l hl')) hl.body
      (o := inner) rfl rfl rfl (branched o nodes :: stack) problems
    have hclose := c.carries_tag (b := ⟨c.nestedNodes (height (o :: stack)) (l :: ls) last,
      branched o nodes :: stack, false, problems'⟩) rfl
      (readTag?_closer o.kind) (add_closer (o := branched o nodes)
      (List.find?_cons_of_pos (show (!o.chained) = true by rw [hchained]; rfl)))
    rw [hheight] at hinner
    rw [closeTop_of_not_chained (o := branched o nodes) hchained, hkind] at hclose
    have hwhole := ((helse.append hopen).append hinner).append hclose
    have htags : Piece.mustaches first.body + 1 + 1 +
        (Piece.mustaches l.body + nestedTags ls last + 2) + 1 =
          Piece.mustaches first.body + nestedTags (l :: ls) last + 2 := by
      rw [nestedTags]
      omega
    rw [htags] at hwhole
    refine ⟨problems', ?_⟩
    have htext : first.body ++ (Piece.opening ++ (elseWord ++ Piece.closing)) ++
        (Piece.opening ++ ('#' :: [] ++ l.call ++ Piece.closing)) ++ (l.body ++
        (Link.tag elseWord ++ (Link.nested ls last ++ Link.tag ('/' :: l.kind.name)))) ++
        (Piece.opening ++ ('/' :: first.kind.name ++ Piece.closing)) =
        first.body ++ (Link.tag elseWord ++ (Link.nested (l :: ls) last ++
          Link.tag ('/' :: first.kind.name))) := by
      simp [Link.nested, Link.tag]
    rw [htext] at hwhole
    exact hwhole

theorem closeTop_of_chained {o : OpenBlock} (h : o.chained = true) (nodes : List Node)
    (stack : List OpenBlock) (strip : Bool) (problems : List Problem) :
    Builder.closeTop ⟨nodes, o :: stack, strip, problems⟩ =
      Builder.closeTop ⟨OpenBlock.close o nodes :: o.before, stack, strip, problems⟩ := by
  rw [Builder.closeTop, closeChain, h]
  rfl

theorem find_branched (o : OpenBlock) (nodes : List Node) (stack : List OpenBlock) :
    ((branched o nodes :: stack).find? fun o => !o.chained).map OpenBlock.kind =
      ((o :: stack).find? fun o => !o.chained).map OpenBlock.kind := by
  rw [List.find?_cons, List.find?_cons]
  show Option.map _ (match !o.chained with | true => _ | false => _) = _
  cases o.chained <;> rfl

/-- The tag that closes a chain. -/
theorem add_chainCloser {b : Builder} {kind : BlockKind}
    (hbase : (b.stack.find? fun o => !o.chained).map OpenBlock.kind = some kind) :
    b.add c.isHelper c.settings.maxTemplateTokens c.settings.maxBlockDepth
      (.tag ('/' :: kind.name)) = .ok { b.closeTop with strip := false } := by
  obtain ⟨o, hfind, rfl⟩ := Option.map_eq_some_iff.1 hbase
  exact add_closer hfind

/-- The rest of a chain behind the tag that opened one of its blocks: the closing tag closes all
blocks down to the one that is not chained. -/
theorem carries_branches (hrest : ∀ l ∈ rest, c.Sound l) (hlast : c.Balanced last)
    (hbody : c.Balanced first.body) {o : OpenBlock} (hnone : o.body = none)
    (stack : List OpenBlock) (earlier : List Problem) {kind : BlockKind}
    (hbase : ((o :: stack).find? fun o => !o.chained).map OpenBlock.kind = some kind) :
    ∃ problems, c.Carries (first.body ++ (Link.branches rest last ++ Link.tag ('/' :: kind.name)))
      (Piece.mustaches first.body + branchTags rest last + 1)
      ⟨[], o :: stack, false, earlier⟩
      (Builder.closeTop ⟨c.chainNodes (height (o :: stack)) rest last, branched o
          (c.nodesOf (c.settings.maxBlockDepth - height (o :: stack)) first.body) :: stack, false,
        problems⟩) := by
  induction rest generalizing first o stack earlier with
  | nil =>
    obtain ⟨problems, hfirst⟩ := hbody.carries (o :: stack) earlier
    have helse := hfirst readTag?_else (add_else rfl hnone)
    let nodes := c.nodesOf (c.settings.maxBlockDepth - height (o :: stack)) first.body
    obtain ⟨problems', hsecond⟩ := hlast.carries (branched o nodes :: stack) problems
    have hclose := hsecond (readTag?_closer kind) (add_chainCloser
      ((find_branched o nodes stack).trans hbase))
    have hwhole := helse.append hclose
    have htags : Piece.mustaches first.body + 1 + (Piece.mustaches last + 1) =
        Piece.mustaches first.body + branchTags [] last + 1 := by
      rw [branchTags]
      omega
    have htext : first.body ++ (Piece.opening ++ (elseWord ++ Piece.closing)) ++
        (last ++ (Piece.opening ++ ('/' :: kind.name ++ Piece.closing))) =
        first.body ++ (Link.branches [] last ++ Link.tag ('/' :: kind.name)) := by
      simp [Link.branches, Link.tag]
    rw [htags, htext] at hwhole
    exact ⟨problems', hwhole⟩
  | cons l ls ih =>
    have hl := hrest l List.mem_cons_self
    have htag : Piece.readTag? (elseWord ++ ' ' :: l.call ++ Piece.closing) =
        some (.tag (elseWord ++ ' ' :: l.call), []) :=
      Link.readTag?_call hl.param ['l', 's', 'e', ' '] (by decide) (by decide)
        (by decide)
    obtain ⟨problems, hfirst⟩ := hbody.carries (o :: stack) earlier
    have helse := hfirst htag (add_elseOpener hl.param rfl hnone)
    -- a chained block does not count for the depth, and is closed with the one below it
    let nodes := c.nodesOf (c.settings.maxBlockDepth - height (o :: stack)) first.body
    let inner : OpenBlock := ⟨l.kind, l.expr c, Link.tag (elseWord ++ ' ' :: l.call), true, false,
      [], none⟩
    have hheight : height (inner :: branched o nodes :: stack) = height (o :: stack) :=
      height_cons inner (branched o nodes :: stack)
    obtain ⟨problems', hinner⟩ := ih (fun l' hl' => hrest l' (List.mem_cons_of_mem l hl')) hl.body
      (o := inner) rfl (branched o nodes :: stack) problems
      ((find_branched o nodes stack).trans hbase)
    rw [hheight, closeTop_of_chained (o := branched inner _) rfl] at hinner
    have hwhole := helse.append hinner
    have htags : Piece.mustaches first.body + 1 +
        (Piece.mustaches l.body + branchTags ls last + 1) =
          Piece.mustaches first.body + branchTags (l :: ls) last + 1 := by
      rw [branchTags]
      omega
    have htext : first.body ++ (Piece.opening ++ (elseWord ++ ' ' :: l.call ++ Piece.closing)) ++
        (l.body ++ (Link.branches ls last ++ Link.tag ('/' :: kind.name))) =
        first.body ++ (Link.branches (l :: ls) last ++ Link.tag ('/' :: kind.name)) := by
      simp [Link.branches, Link.tag]
    rw [htags, htext] at hwhole
    exact ⟨problems', hwhole⟩

end Compiler

/-! ### Chains are blocks within blocks -/

/-- A block that is not too deep is written without its tag. -/
theorem Node.Same.block_of_shallow {kind : BlockKind} {param : Expr} {token token' : Text}
    {body body' inverse inverse' : List Node}
    (hbody : ∀ maxDepth env, renderAll maxDepth env body = renderAll maxDepth env body')
    (hinverse : ∀ maxDepth env, renderAll maxDepth env inverse = renderAll maxDepth env inverse') :
    Same (.block kind param token false body inverse)
      (.block kind param token' false body' inverse') := by
  intro maxDepth env
  rw [render, render]
  simp only [hbody, hinverse, Bool.false_eq_true, if_false]

/-- With its branches exchanged, `unless` is written as `if`. -/
theorem Node.same_unless (param : Expr) (token token' : Text) (body inverse : List Node) :
    Same (.block .unless param token false body inverse)
      (.block .when param token' false inverse body) := by
  intro maxDepth env
  rw [render, render]
  simp only [Bool.false_eq_true, if_false]

namespace Compiler

open Builder

variable {c : Compiler} {first : Link} {rest : List Link} {last before after s : Text}
variable {ps : List Piece} {tags : Nat} {tail : Text} {b b' : Builder}

/-- The branches of a chain are written as the blocks within blocks, if none of these is too
deep. -/
theorem sameText_chainNodes (hrest : ∀ l ∈ rest, c.Sound l) (hlast : c.Balanced last)
    {depth depth' : Nat} (hle : depth' ≤ depth)
    (h : Node.Shallow c.settings.maxBlockDepth (c.nestedNodes depth rest last)) :
    Node.SameText (c.chainNodes depth' rest last) (c.nestedNodes depth rest last) := by
  induction rest generalizing depth with
  | nil =>
    rw [chainNodes, nestedNodes, hlast.nodesOf_eq (by omega) h]
    exact .refl _
  | cons l ls ih =>
    obtain ⟨hdeep, hbody, hinverse⟩ := Node.Shallow.block_iff.1 h.head
    rw [Node.Shallow.reverse_iff] at hbody hinverse
    have hroom : c.settings.maxBlockDepth - (depth + 1) ≤ c.settings.maxBlockDepth - depth' := by
      omega
    rw [chainNodes, nestedNodes, hdeep,
      (hrest l List.mem_cons_self).body.nodesOf_eq hroom hbody]
    refine .cons (.block_of_shallow (fun _ _ => rfl) ?_) (.refl [])
    exact ih (fun l' hl' => hrest l' (List.mem_cons_of_mem l hl')) (by omega) hinverse

theorem Carries.tags_le (h : c.Carries s tags b b') {limit : Nat}
    (hlimit : Piece.WithinLimit limit (s ++ after)) : tags ≤ limit := by
  obtain ⟨ps, hscanned, -⟩ := h
  exact hscanned.tags_le hlimit

/-- Where no tag is past the limit, more tags may be read. -/
theorem piecesFrom_add {budget : Nat} (hlimit : ∀ more, .overLimit more ∉
    Piece.piecesFrom budget [] after) (room : Nat) :
    Piece.piecesFrom (budget + room) [] after = Piece.piecesFrom budget [] after := by
  induction room with
  | zero => rfl
  | succ room ih =>
    rw [← Nat.add_assoc, Piece.piecesFrom_succ (by rwa [ih]), ih]

theorem Carries.not_overLimit (h : c.Carries s tags b b') {budget : Nat}
    (hlimit : Piece.WithinLimit (budget + tags) (s ++ after)) (more : Text) :
    .overLimit more ∉ Piece.piecesFrom budget [] after := by
  obtain ⟨ps, hscanned, -⟩ := h
  rw [Piece.WithinLimit, Piece.ofPage, hscanned.piecesFrom_append] at hlimit
  exact fun hmem => hlimit more (List.mem_append_right _ hmem)

/-- A page goes on where the text in front of it has led to. -/
theorem Carries.compile_onward (h : c.Carries s tags Builder.start b) (budget : Nat)
    (hbudget : c.settings.maxTemplateTokens = budget + tags) (after : Text) (context : Value) :
    c.compile (s ++ after) context =
      ((Piece.piecesFrom budget [] after).foldlM
          (Builder.add c.isHelper c.settings.maxTemplateTokens c.settings.maxBlockDepth) b >>=
        Builder.written c.settings.maxBlockDepth (c.surroundings context)) := by
  obtain ⟨ps, hscanned, hread⟩ := h
  have hpieces : Piece.ofPage c.settings.maxTemplateTokens (s ++ after) =
      ps ++ Piece.piecesFrom budget [] after := by
    rw [hbudget, Piece.ofPage, hscanned.piecesFrom_append]
    rfl
  rw [compile_eq, hpieces, List.foldlM_append, hread]
  rfl

theorem Carries.readAlone_eq (h : c.Carries s tags Builder.start b) :
    c.readAlone c.settings.maxBlockDepth s = .ok b := by
  obtain ⟨ps, hscanned, hread⟩ := h
  rw [readAlone, hscanned.pieces_eq, List.foldlM_append, hread]
  rfl

/-- A page breaks where the text in front of it does. -/
theorem compile_of_fault (hscanned : Piece.Scanned before ps tags tail)
    (htags : tags ≤ c.settings.maxTemplateTokens) {f : Fault}
    (hread : ps.foldlM (Builder.add c.isHelper c.settings.maxTemplateTokens
      c.settings.maxBlockDepth) Builder.start = .error f) (s : Text) (context : Value) :
    c.compile (before ++ s) context = .error f := by
  obtain ⟨budget, hbudget⟩ := Nat.exists_eq_add_of_le' htags
  have hpieces : Piece.ofPage c.settings.maxTemplateTokens (before ++ s) =
      ps ++ Piece.piecesFrom budget [] (tail ++ s) := by
    rw [hbudget, Piece.ofPage, hscanned.piecesFrom_append]
  rw [compile_eq, hpieces, List.foldlM_append, hread]
  rfl

/-- What stands in front of a block, its opening tag, and the rest of the block. -/
theorem carries_block (hscanned : Piece.Scanned before ps tags tail)
    (hbrace : before.getLast? ≠ some '{') (hback : before.getLast? ≠ some '\\')
    (hread : ps.foldlM (Builder.add c.isHelper c.settings.maxTemplateTokens
      c.settings.maxBlockDepth) Builder.start = .ok b) (hparam : c.Parsable first.param)
    {tags' : Nat} (hblock : c.Carries s tags' ⟨[], opened c first c.settings.maxBlockDepth
      (b.addText tail) :: (b.addText tail).stack, false, (b.addText tail).problems⟩ b') :
    c.Carries (before ++ (Link.tag ('#' :: first.call) ++ s)) (tags + 1 + tags') Builder.start
      b' := by
  have hopen : c.Carries (before ++ (Piece.opening ++ ('#' :: first.call ++ Piece.closing)))
      (tags + 1) Builder.start ⟨[], opened c first c.settings.maxBlockDepth (b.addText tail) ::
        (b.addText tail).stack, false, (b.addText tail).problems⟩ := by
    refine ⟨_, hscanned.snoc hbrace hback (Link.readTag?_call hparam [] (by decide)
      (by decide) (by decide)), ?_⟩
    rw [List.foldlM_append, hread]
    show (Builder.add _ _ _ (b.addText tail) (.tag ('#' :: first.call)) >>= _) = _
    rw [add_opener hparam]
    rfl
  have hwhole := hopen.append hblock
  rw [List.append_assoc] at hwhole
  exact hwhole

/-- Blocks within blocks behind other text. -/
theorem carries_nested_behind (hscanned : Piece.Scanned before ps tags tail)
    (hbrace : before.getLast? ≠ some '{') (hback : before.getLast? ≠ some '\\')
    (hread : ps.foldlM (Builder.add c.isHelper c.settings.maxTemplateTokens
      c.settings.maxBlockDepth) Builder.start = .ok b)
    (hlinks : ∀ l ∈ first :: rest, c.Sound l) (hlast : c.Balanced last) :
    ∃ problems, c.Carries (before ++ Link.nested (first :: rest) last)
      (tags + nestedTags (first :: rest) last) Builder.start
      ⟨OpenBlock.close (branched (opened c first c.settings.maxBlockDepth (b.addText tail))
          (c.nodesOf (c.settings.maxBlockDepth - (b.depth + 1)) first.body))
          (c.nestedNodes (b.depth + 1) rest last) :: (b.addText tail).nodes,
        b.stack, false, problems⟩ := by
  have hfirst := hlinks first List.mem_cons_self
  let o := opened c first c.settings.maxBlockDepth (b.addText tail)
  have hheight : height (o :: (b.addText tail).stack) = b.depth + 1 := height_cons o _
  obtain ⟨problems, hblock⟩ := carries_nested (fun l hl => hlinks l (List.mem_cons_of_mem _ hl))
    hlast hfirst.body (o := o) rfl rfl rfl (b.addText tail).stack (b.addText tail).problems
  rw [hheight] at hblock
  have hwhole := carries_block hscanned hbrace hback hread hfirst.param hblock
  have htags : tags + 1 + (Piece.mustaches first.body + nestedTags rest last + 2) =
      tags + nestedTags (first :: rest) last := by
    rw [nestedTags]
    omega
  rw [htags] at hwhole
  exact ⟨problems, hwhole⟩

/-- A chain behind other text. -/
theorem carries_chained_behind (hscanned : Piece.Scanned before ps tags tail)
    (hbrace : before.getLast? ≠ some '{') (hback : before.getLast? ≠ some '\\')
    (hread : ps.foldlM (Builder.add c.isHelper c.settings.maxTemplateTokens
      c.settings.maxBlockDepth) Builder.start = .ok b)
    (hlinks : ∀ l ∈ first :: rest, c.Sound l) (hlast : c.Balanced last) :
    ∃ problems, c.Carries (before ++ Link.chained first rest last)
      (tags + (Piece.mustaches first.body + branchTags rest last + 2)) Builder.start
      ⟨OpenBlock.close (branched (opened c first c.settings.maxBlockDepth (b.addText tail))
          (c.nodesOf (c.settings.maxBlockDepth - (b.depth + 1)) first.body))
          (c.chainNodes (b.depth + 1) rest last) :: (b.addText tail).nodes,
        b.stack, false, problems⟩ := by
  have hfirst := hlinks first List.mem_cons_self
  let o := opened c first c.settings.maxBlockDepth (b.addText tail)
  have hheight : height (o :: (b.addText tail).stack) = b.depth + 1 := height_cons o _
  obtain ⟨problems, hblock⟩ := carries_branches (fun l hl => hlinks l (List.mem_cons_of_mem _ hl))
    hlast hfirst.body (o := o) rfl (b.addText tail).stack (b.addText tail).problems
    (show _ = some first.kind from rfl)
  rw [hheight, closeTop_of_not_chained (o := branched o _) rfl] at hblock
  have hwhole := carries_block hscanned hbrace hback hread hfirst.param hblock
  rw [Nat.add_assoc, Nat.add_comm 1] at hwhole
  exact ⟨problems, hwhole⟩

/-- Text in front of a block leaves the same blocks open on its own. -/
theorem exists_readAlone (hscanned : Piece.Scanned before ps tags tail)
    (hread : ps.foldlM (Builder.add c.isHelper c.settings.maxTemplateTokens
      c.settings.maxBlockDepth) Builder.start = .ok b) :
    ∃ b', c.readAlone c.settings.maxBlockDepth before = .ok b' ∧ b'.depth = b.depth := by
  rw [readAlone, hscanned.pieces_eq, List.foldlM_append, hread, Piece.prepend_nil]
  split
  · exact ⟨b, rfl, rfl⟩
  · exact ⟨b.addText tail, rfl, rfl⟩

/-- In the block at the end of a text that is read on its own no block is too deep. -/
def EndsShallow (c : Compiler) (s : Text) : Prop :=
  ∀ b n, c.readAlone c.settings.maxBlockDepth s = .ok b → b.nodes.head? = some n →
    n.depthProblems c.settings.maxBlockDepth = []

/-- A block that is written in the same way as another one can stand in its place. -/
theorem twin_close {n m : Node} (hsame : Node.Same n m) (hn : n.isText = false)
    (hm : m.isText = false) (nodes : List Node) (stack : List OpenBlock) (strip : Bool)
    (problems problems' : List Problem) :
    Twin ⟨n :: nodes, stack, strip, problems⟩ ⟨m :: nodes, stack, strip, problems'⟩ :=
  ⟨.cons hsame hn hm (.refl nodes), List.forall₂_same.2 fun o _ => OpenBlock.Twin.refl o, rfl⟩

/-- A chain is compiled as the blocks within blocks. -/
theorem compile_chained (hscanned : Piece.Scanned before ps tags tail)
    (hbrace : before.getLast? ≠ some '{') (hback : before.getLast? ≠ some '\\')
    (hlinks : ∀ l ∈ first :: rest, c.Sound l) (hlast : c.Balanced last)
    (hshallow : c.EndsShallow (before ++ Link.nested (first :: rest) last))
    (hlimit : Piece.WithinLimit c.settings.maxTemplateTokens
      (before ++ Link.nested (first :: rest) last ++ after)) (context : Value) :
    c.compile (before ++ Link.chained first rest last ++ after) context =
      c.compile (before ++ Link.nested (first :: rest) last ++ after) context := by
  cases hread : ps.foldlM (Builder.add c.isHelper c.settings.maxTemplateTokens
      c.settings.maxBlockDepth) Builder.start with
  | error f =>
    rw [List.append_assoc] at hlimit
    rw [List.append_assoc, List.append_assoc,
      compile_of_fault hscanned (hscanned.tags_le hlimit) hread,
      compile_of_fault hscanned (hscanned.tags_le hlimit) hread]
  | ok b =>
    obtain ⟨problems, hnested⟩ := carries_nested_behind hscanned hbrace hback hread hlinks hlast
    obtain ⟨problems', hchained⟩ :=
      carries_chained_behind hscanned hbrace hback hread hlinks hlast
    obtain ⟨-, hsecond, -⟩ := shallow_close (hshallow _ _ hnested.readAlone_eq rfl)
    have hsame := (OpenBlock.Twin.refl (branched (opened c first c.settings.maxBlockDepth
      (b.addText tail)) (c.nodesOf (c.settings.maxBlockDepth - (b.depth + 1)) first.body))).close
      (sameText_chainNodes (fun l hl => hlinks l (List.mem_cons_of_mem _ hl)) hlast
        (Nat.le_refl _) hsecond)
    -- the chain has no more tags, so the text behind it is within the limit as well
    obtain ⟨budget, hbudget⟩ := Nat.exists_eq_add_of_le' (hnested.tags_le hlimit)
    obtain ⟨room, hroom⟩ : ∃ room, nestedTags (first :: rest) last =
        room + (Piece.mustaches first.body + branchTags rest last + 2) := by
      have := branchTags_le rest last
      exact Nat.exists_eq_add_of_le' (by rw [nestedTags]; omega)
    rw [hbudget] at hlimit
    rw [hnested.compile_onward budget hbudget, hchained.compile_onward (budget + room) (by omega),
      piecesFrom_add (hnested.not_overLimit hlimit)]
    exact ((twin_close hsame (isText_close _ _) (isText_close _ _) _ _ _ _ _).addAll _ _
      _).written _ _

/-- With its branches exchanged, `unless` is compiled as `if`. -/
theorem compile_unless (hscanned : Piece.Scanned before ps tags tail)
    (hbrace : before.getLast? ≠ some '{') (hback : before.getLast? ≠ some '\\')
    {param body inverse : Text} (hparam : c.Parsable param) (hbody : c.Balanced body)
    (hinverse : c.Balanced inverse)
    (hdepth : ∀ b, c.readAlone c.settings.maxBlockDepth before = .ok b →
      b.depth < c.settings.maxBlockDepth)
    (hlimit : Piece.WithinLimit c.settings.maxTemplateTokens
      (before ++ Link.nested [⟨.unless, param, body⟩] inverse)) (context : Value) :
    c.compile (before ++ Link.nested [⟨.unless, param, body⟩] inverse ++ after) context =
      c.compile (before ++ Link.nested [⟨.when, param, inverse⟩] body ++ after) context := by
  have hsound (kind : BlockKind) {s : Text} (hs : c.Balanced s) :
      ∀ l ∈ [(⟨kind, param, s⟩ : Link)], c.Sound l := by
    intro l hl
    cases List.mem_singleton.1 hl
    exact ⟨hparam, hs⟩
  cases hread : ps.foldlM (Builder.add c.isHelper c.settings.maxTemplateTokens
      c.settings.maxBlockDepth) Builder.start with
  | error f =>
    rw [List.append_assoc, List.append_assoc,
      compile_of_fault hscanned (hscanned.tags_le hlimit) hread,
      compile_of_fault hscanned (hscanned.tags_le hlimit) hread]
  | ok b =>
    obtain ⟨problems, hunless⟩ := carries_nested_behind hscanned hbrace hback hread
      (hsound .unless hbody) hinverse
    obtain ⟨problems', hwhen⟩ := carries_nested_behind hscanned hbrace hback hread
      (hsound .when hinverse) hbody
    -- the tag would show if the block were too deep
    have hfits : decide (c.settings.maxBlockDepth < (b.addText tail).depth + 1) = false := by
      obtain ⟨b', hb', hsame⟩ := exists_readAlone hscanned hread
      have hless : b.depth < c.settings.maxBlockDepth := hsame ▸ hdepth b' hb'
      exact decide_eq_false (Nat.not_lt.2 hless)
    rw [OpenBlock.close, branched, opened, hfits] at hunless hwhen
    have htags (kind : BlockKind) (s s' : Text) : nestedTags [⟨kind, param, s⟩] s' =
        Piece.mustaches s + Piece.mustaches s' + 3 := rfl
    rw [htags] at hunless hwhen
    rw [← List.append_nil (before ++ _)] at hlimit
    obtain ⟨budget, hbudget⟩ := Nat.exists_eq_add_of_le' (hunless.tags_le hlimit)
    rw [hunless.compile_onward budget hbudget, hwhen.compile_onward budget (by omega)]
    exact ((twin_close (Node.same_unless _ _ _ _ _) rfl rfl _ _ _ _ _).addAll _ _ _).written _ _

/-- A chain of `else` tags is compiled as blocks within blocks, if these are within the limits, and
`unless` is compiled as `if` with its branches exchanged.  The blocks may stand anywhere in a page
where they are not part of another mustache. -/
theorem compile_chain (hclosed : Piece.Closed before) (hbrace : before.getLast? ≠ some '{')
    (hback : before.getLast? ≠ some '\\') (after : Text) (context : Value) :
    (∀ first rest last, (∀ l ∈ first :: rest, c.Sound l) → c.Balanced last →
      c.EndsShallow (before ++ Link.nested (first :: rest) last) →
      Piece.WithinLimit c.settings.maxTemplateTokens
        (before ++ Link.nested (first :: rest) last ++ after) →
      c.compile (before ++ Link.chained first rest last ++ after) context =
        c.compile (before ++ Link.nested (first :: rest) last ++ after) context) ∧
    ∀ param body inverse, c.Parsable param → c.Balanced body → c.Balanced inverse →
      (∀ b, c.readAlone c.settings.maxBlockDepth before = .ok b →
        b.depth < c.settings.maxBlockDepth) →
      Piece.WithinLimit c.settings.maxTemplateTokens
        (before ++ Link.nested [⟨.unless, param, body⟩] inverse) →
      c.compile (before ++ Link.nested [⟨.unless, param, body⟩] inverse ++ after) context =
        c.compile (before ++ Link.nested [⟨.when, param, inverse⟩] body ++ after) context := by
  obtain ⟨ps, tags, tail, hscanned⟩ := hclosed
  refine ⟨fun first rest last hlinks hlast hshallow hlimit => ?_,
    fun param body inverse hparam hbody hinverse hdepth hlimit => ?_⟩
  · exact compile_chained hscanned hbrace hback hlinks hlast hshallow hlimit context
  · exact compile_unless hscanned hbrace hback hparam hbody hinverse hdepth hlimit context

/-- The tag of a loop over rates. -/
def loopOpener : Text := lit "\x7b\x7b#each rates\x7d\x7d"

/-- The tag behind the loop. -/
def loopCloser : Text := lit "\x7b\x7b/each\x7d\x7d"

/-- Shows a loop of its own for the first item. -/
def firstItem : Link := ⟨.when, lit "@first", loopPage⟩

/-- Shows a letter for an item that holds something. -/
def otherItem : Link := ⟨.scope, lit "this", ['a']⟩

theorem balanced_loopPage : (standard {}).Balanced loopPage where
  toComplete := complete_loopPage
  inside b hb q hq := by
    have hproblems : ((standard {}).readAlone 16 loopPage).toOption.map
        (fun b => b.problems.isEmpty) = some true := by decide +kernel
    rw [show (standard {}).readAlone 16 loopPage = .ok b from hb] at hproblems
    rw [List.isEmpty_iff.1 (Option.some.inj hproblems)] at hq
    cases hq

theorem balanced_letter {x : Char} (hread : ((standard {}).readAlone 16 [x]).toOption.map
    (fun b => (b.stack.isEmpty, b.problems.isEmpty)) = some (true, true))
    (hbrace : x ≠ '{') (hback : x ≠ '\\') : (standard {}).Balanced [x] := by
  obtain ⟨b, hb, hempty⟩ := Option.map_eq_some_iff.1 hread
  obtain ⟨hstack, hproblems⟩ := Prod.mk.inj hempty
  refine ⟨⟨⟨_, _, _, .plain ?_⟩, ⟨b, ok_of_toOption hb, List.isEmpty_iff.1 hstack⟩, ?_, ?_⟩, ?_⟩
  · exact cut_of_bare (by decide) (Bare.of_not_mem (by simpa using hbrace.symm))
  · simpa using hbrace
  · simpa using hback
  · intro b' hb' q hq
    cases (ok_of_toOption hb).symm.trans hb'
    rw [List.isEmpty_iff.1 hproblems] at hq
    cases hq

theorem parsable_of_decide {param : Text}
    (hread : (Expr.readParameter (standard {}).isHelper param).toOption.isSome = true)
    (hrest : ¬ namesWord <:+: param ∧
      cut Piece.closing (param ++ Piece.closing) = some (param, []) ∧
      param.getLast? ≠ some '~') : (standard {}).Parsable param :=
  ⟨(Option.isSome_iff_exists.1 hread).imp fun _ => ok_of_toOption, hrest.1, hrest.2.1, hrest.2.2⟩

/-- A chain in a loop shows its first branch for the first item and its second one for the other. -/
theorem compile_chain_inLoop :
    (standard {}).compile (loopOpener ++ Link.chained firstItem [otherItem] ['b'] ++ loopCloser)
        rates =
      (standard {}).compile (loopOpener ++ Link.nested [firstItem, otherItem] ['b'] ++ loopCloser)
        rates ∧
    ((standard {}).compile (loopOpener ++ Link.nested [firstItem, otherItem] ['b'] ++ loopCloser)
        rates).toOption = some (lit "\x7b\x7brate\x7d\x7da") ∧
    (standard {}).compile (loopOpener ++
        Link.nested [⟨.unless, lit "@first", ['b']⟩] loopPage ++ loopCloser) rates =
      (standard {}).compile (loopOpener ++
        Link.nested [⟨.when, lit "@first", loopPage⟩] ['b'] ++ loopCloser) rates := by
  have hopener : cut Piece.opening loopOpener = some ([], lit "#each rates\x7d\x7d") := by
    decide +kernel
  have htag : Piece.readTag? (lit "#each rates\x7d\x7d") = some (.tag (lit "#each rates"), []) := by
    decide +kernel
  have hfirst : (standard {}).Parsable (lit "@first") :=
    parsable_of_decide (by decide +kernel) (by decide +kernel)
  have hthis : (standard {}).Parsable (lit "this") :=
    parsable_of_decide (by decide +kernel) (by decide +kernel)
  have ha : (standard {}).Balanced ['a'] :=
    balanced_letter (by decide +kernel) (by decide) (by decide)
  have hb : (standard {}).Balanced ['b'] :=
    balanced_letter (by decide +kernel) (by decide) (by decide)
  have hclosed : Piece.Closed loopOpener := ⟨_, _, _, .tag hopener (by decide) htag (.plain rfl)⟩
  have hboth := compile_chain (c := standard {}) hclosed (by decide +kernel) (by decide +kernel)
    loopCloser rates
  refine ⟨hboth.1 firstItem [otherItem] ['b'] (fun l hl => ?_) hb (fun b n hread hn => ?_)
    (fun rest hrest => ?_), by decide +kernel,
    hboth.2 (lit "@first") ['b'] loopPage hfirst hb balanced_loopPage (fun b hread => ?_)
    (fun rest hrest => ?_)⟩
  · rcases List.mem_cons.1 hl with rfl | hl
    · exact ⟨hfirst, balanced_loopPage⟩
    · cases List.mem_singleton.1 hl
      exact ⟨hthis, ha⟩
  · have hshallow : (((standard {}).readAlone 16 (loopOpener ++
        Link.nested [firstItem, otherItem] ['b'])).toOption.bind fun b =>
          b.nodes.head?.map fun n => (n.depthProblems 16).isEmpty) = some true := by decide +kernel
    rw [show (standard {}).readAlone 16 _ = .ok b from hread] at hshallow
    change (b.nodes.head?.map _) = _ at hshallow
    rw [hn] at hshallow
    exact List.isEmpty_iff.1 (Option.some.inj hshallow)
  · have hlimit : ((Piece.ofPage 5000 (loopOpener ++ Link.nested [firstItem, otherItem] ['b'] ++
        loopCloser)).all fun p => match p with
          | .overLimit _ => false
          | _ => true) = true := by decide +kernel
    cases List.all_eq_true.1 hlimit _ hrest
  · have hdepth : ((standard {}).readAlone 16 loopOpener).toOption.map Builder.depth = some 1 := by
      decide +kernel
    rw [show (standard {}).readAlone 16 loopOpener = .ok b from hread] at hdepth
    rw [Option.some.inj hdepth]
    show 1 < 16
    decide
  · have hlimit : ((Piece.ofPage 5000 (loopOpener ++
        Link.nested [⟨.unless, lit "@first", ['b']⟩] loopPage)).all fun p => match p with
          | .overLimit _ => false
          | _ => true) = true := by decide +kernel
    cases List.all_eq_true.1 hlimit _ hrest

end Compiler

end Tender
