/-
Pages that are one block, or a body within blocks.

* `Compiler.carries_whens` — a body within `if` blocks without `else` is read as such behind any
  tag;
* `Compiler.compile_whens` — and is compiled if all of their parameters hold;
* `Compiler.compile_block`, `Compiler.compile_branches` — a block with two branches is compiled as
  the one that its parameter decides on;
* `Compiler.balanced_of_no_tag` — a text without tags can stand in any block.
-/
import Tender.Proofs.Template.Chain

namespace Tender

open Text

/-! ### Blocks without a second branch -/

namespace Link

/-- An `if` block on a parameter. -/
def onParam (param : Text) : Link := ⟨.when, param, []⟩

/-- A body within `if` blocks, the first parameter being that of the outermost one. -/
def whens : List Text → Text → Text
  | [], body => body
  | param :: params, body =>
    tag ('#' :: (onParam param).call) ++ (whens params body ++ tag ('/' :: BlockKind.when.name))

end Link

namespace Compiler

open Builder

variable {c : Compiler} {body s : Text} {params : List Text} {param : Text} {context : Value}

/-- The nodes of a body within `if` blocks where so many blocks are open, the last one first. -/
def whenNodes (c : Compiler) : (depth : Nat) → List Text → Text → List Node
  | depth, [], body => c.nodesOf (c.settings.maxBlockDepth - depth) body
  | depth, param :: params, body =>
    [.block .when ((Link.onParam param).expr c) (Link.tag ('#' :: (Link.onParam param).call))
      (decide (c.settings.maxBlockDepth < depth + 1))
      (c.whenNodes (depth + 1) params body).reverse []]

/-- A body within `if` blocks is read as such behind any other tag. -/
theorem carries_whens (hparams : ∀ p ∈ param :: params, c.Parsable p) (hbody : c.Balanced body)
    (nodes : List Node) (stack : List OpenBlock) (earlier : List Problem) :
    ∃ problems, c.Carries (Link.whens (param :: params) body)
      (Piece.mustaches body + 2 * (params.length + 1)) ⟨nodes, stack, false, earlier⟩
      ⟨c.whenNodes (height stack) (param :: params) body ++ nodes, stack, false, problems⟩ := by
  induction params generalizing param nodes stack earlier with
  | nil =>
    have hparam : c.Parsable (Link.onParam param).param := hparams param List.mem_cons_self
    have hopen := c.carries_tag (b := ⟨nodes, stack, false, earlier⟩) rfl
      (Link.readTag?_call hparam [] (by decide) (by decide) (by decide)) (add_opener hparam)
    let o := opened c (Link.onParam param) c.settings.maxBlockDepth ⟨nodes, stack, false, earlier⟩
    obtain ⟨problems, hinner⟩ := hbody.carries (o :: stack) earlier
    have hclose := hinner (readTag?_closer .when) (add_closer (o := o) rfl)
    rw [closeTop_of_not_chained (o := o) rfl, height_cons o stack] at hclose
    have hwhole := hopen.append hclose
    rw [Nat.add_comm 1] at hwhole
    exact ⟨problems, hwhole⟩
  | cons next params ih =>
    have hparam : c.Parsable (Link.onParam param).param := hparams param List.mem_cons_self
    have hopen := c.carries_tag (b := ⟨nodes, stack, false, earlier⟩) rfl
      (Link.readTag?_call hparam [] (by decide) (by decide) (by decide)) (add_opener hparam)
    let o := opened c (Link.onParam param) c.settings.maxBlockDepth ⟨nodes, stack, false, earlier⟩
    obtain ⟨problems, hinner⟩ := ih (fun p hp => hparams p (List.mem_cons_of_mem param hp)) []
      (o :: stack) earlier
    have hclose := c.carries_tag
      (b := ⟨c.whenNodes (height (o :: stack)) (next :: params) body ++ [], o :: stack, false,
        problems⟩) rfl (readTag?_closer .when) (add_closer (o := o) rfl)
    rw [closeTop_of_not_chained (o := o) rfl, height_cons o stack, List.append_nil] at hclose
    rw [height_cons o stack, List.append_nil] at hinner
    have hwhole := (hopen.append hinner).append hclose
    have htags : 1 + (Piece.mustaches body + 2 * (params.length + 1)) + 1 =
        Piece.mustaches body + 2 * ((next :: params).length + 1) := by
      rw [List.length_cons]
      omega
    have htext : Piece.opening ++ ('#' :: [] ++ (Link.onParam param).call ++ Piece.closing) ++
        Link.whens (next :: params) body ++
        (Piece.opening ++ ('/' :: BlockKind.when.name ++ Piece.closing)) =
          Link.whens (param :: next :: params) body := by
      simp [Link.whens, Link.tag]
    rw [htags, htext] at hwhole
    exact ⟨problems, hwhole⟩

/-- A page that ends behind a tag with no block open is written node by node. -/
theorem compile_of_carries {tags : Nat} {nodes : List Node} {problems : List Problem}
    (h : c.Carries s tags Builder.start ⟨nodes, [], false, problems⟩)
    (htags : tags ≤ c.settings.maxTemplateTokens) (context : Value) :
    c.compile s context =
      Node.renderAll c.settings.maxBlockDepth (c.surroundings context) nodes.reverse := by
  obtain ⟨budget, hbudget⟩ := Nat.exists_eq_add_of_le' htags
  have honward := h.compile_onward budget hbudget [] context
  rw [List.append_nil, Piece.piecesFrom_plain rfl] at honward
  exact honward

/-- There is room for a body within so many blocks: it is balanced, no block in it is too deep
there, and all tags are within the limit. -/
structure Fits (c : Compiler) (blocks : Nat) (body : Text) : Prop where
  balanced : c.Balanced body
  depth : blocks ≤ c.settings.maxBlockDepth
  shallow : Node.Shallow c.settings.maxBlockDepth
    (c.nodesOf (c.settings.maxBlockDepth - blocks) body)
  tags : Piece.mustaches body + 2 * blocks ≤ c.settings.maxTemplateTokens

/-- A body for which there is room is read as on its own. -/
theorem Fits.nodesOf_eq {blocks : Nat} (h : c.Fits blocks body) :
    c.nodesOf (c.settings.maxBlockDepth - blocks) body = c.nodesOf c.settings.maxBlockDepth body :=
  (h.balanced.nodesOf_eq (Nat.sub_le _ _) h.shallow).symm

theorem Fits.mono {blocks blocks' : Nat} (h : c.Fits blocks body) (hle : blocks' ≤ blocks) :
    c.Fits blocks' body where
  balanced := h.balanced
  depth := hle.trans h.depth
  shallow := by
    have heq := h.balanced.nodesOf_eq (Nat.sub_le_sub_left hle c.settings.maxBlockDepth) h.shallow
    rw [heq]
    exact h.shallow
  tags := by
    have := h.tags
    omega

/-- A balanced page is written node by node. -/
theorem Fits.compile_eq {blocks : Nat} (h : c.Fits blocks body) (context : Value) :
    c.compile body context = Node.renderAll c.settings.maxBlockDepth (c.surroundings context)
      (c.nodesOf c.settings.maxBlockDepth body).reverse := by
  obtain ⟨b, hb, hnodes, hstack, -⟩ := h.balanced.readAlone_ok c.settings.maxBlockDepth
  have hlimit : Piece.mustaches body ≤ c.settings.maxTemplateTokens := by
    have := h.tags
    omega
  rw [readAlone] at hb
  rw [Compiler.compile_eq, Piece.ofPage_of_mustaches hlimit, hb, ← hnodes]
  show b.written _ _ = _
  rw [Builder.written, hstack]
  rfl

/-! ### Rendering conditions -/

variable {env : Surroundings} {e : Expr} {o : Outcome} {yes : Bool}

theorem render_when (maxDepth : Nat) (he : e.eval env = .ok o) (ho : o.truth = .ok yes)
    (token : Text) (nodes inverse : List Node) :
    Node.render maxDepth env (.block .when e token false nodes inverse) =
      if yes then Node.renderAll maxDepth env nodes else Node.renderAll maxDepth env inverse := by
  rw [Node.render, he]
  simp only [Bool.false_eq_true, if_false, Bind.bind, Except.bind, ho]

theorem render_unless (maxDepth : Nat) (he : e.eval env = .ok o) (ho : o.truth = .ok yes)
    (token : Text) (nodes inverse : List Node) :
    Node.render maxDepth env (.block .unless e token false nodes inverse) =
      if yes then Node.renderAll maxDepth env inverse else Node.renderAll maxDepth env nodes := by
  rw [Node.render, he]
  simp only [Bool.false_eq_true, if_false, Bind.bind, Except.bind, ho]

theorem renderAll_singleton (maxDepth : Nat) (n : Node) :
    Node.renderAll maxDepth env [n] = Node.render maxDepth env n := by
  rw [Node.renderAll]
  cases Node.render maxDepth env n with
  | error f => rfl
  | ok html => exact congrArg Except.ok (List.append_nil html)

/-- A parameter that comes to an outcome which a block tests so. -/
def Holds (c : Compiler) (context : Value) (param : Text) (yes : Bool) : Prop :=
  ∃ e o, Expr.readParameter c.isHelper param = .ok e ∧ e.eval (c.surroundings context) = .ok o ∧
    o.truth = .ok yes

theorem Holds.eval (h : c.Holds context param yes) :
    ∃ o, ((Link.onParam param).expr c).eval (c.surroundings context) = .ok o ∧
      o.truth = .ok yes := by
  obtain ⟨e, o, hread, heval, htruth⟩ := h
  refine ⟨o, ?_, htruth⟩
  rw [Link.expr, show Expr.readParameter c.isHelper (Link.onParam param).param = .ok e from hread]
  exact heval

/-- A body within `if` blocks is written if all of their parameters hold. -/
theorem render_whenNodes {tests : List Bool} (hholds : List.Forall₂ (c.Holds context) params tests)
    {depth : Nat} (hdepth : depth + params.length ≤ c.settings.maxBlockDepth) :
    Node.renderAll c.settings.maxBlockDepth (c.surroundings context)
        (c.whenNodes depth params body).reverse =
      if tests.all id then Node.renderAll c.settings.maxBlockDepth (c.surroundings context)
        (c.nodesOf (c.settings.maxBlockDepth - (depth + params.length)) body).reverse
      else .ok [] := by
  induction hholds generalizing depth with
  | nil => rfl
  | @cons param yes params tests hparam _ ih =>
    rw [List.length_cons] at hdepth
    obtain ⟨o, heval, htruth⟩ := hparam.eval
    have hfits : decide (c.settings.maxBlockDepth < depth + 1) = false :=
      decide_eq_false (by omega)
    rw [whenNodes, hfits, List.reverse_singleton, renderAll_singleton,
      render_when _ heval htruth, ih (by omega), List.all_cons, List.length_cons,
      Nat.add_assoc, Nat.add_comm 1]
    cases yes with
    | true => rfl
    | false => rfl

/-- A page that is a body within `if` blocks is compiled to what the body is compiled to if all
parameters hold, and to nothing if not. -/
theorem compile_whens {tests : List Bool} (hparams : ∀ p ∈ params, c.Parsable p)
    (hholds : List.Forall₂ (c.Holds context) params tests) (hfits : c.Fits params.length body) :
    c.compile (Link.whens params body) context =
      if tests.all id then c.compile body context else .ok [] := by
  cases params with
  | nil =>
    cases hholds
    rfl
  | cons param params =>
    obtain ⟨problems, hcarries⟩ := carries_whens hparams hfits.balanced [] [] []
    rw [List.append_nil, show height [] = 0 from rfl] at hcarries
    have hdepth : 0 + (param :: params).length ≤ c.settings.maxBlockDepth := by
      rw [Nat.zero_add]
      exact hfits.depth
    rw [compile_of_carries hcarries hfits.tags, render_whenNodes hholds hdepth, Nat.zero_add,
      hfits.nodesOf_eq, hfits.compile_eq]

section

variable {kind : BlockKind} {inverse : Text} (hparam : c.Parsable param) (hbody : c.Balanced body)
  (hinverse : c.Balanced inverse) (hdepth : 0 < c.settings.maxBlockDepth)
  (htags : Piece.mustaches body + Piece.mustaches inverse + 3 ≤ c.settings.maxTemplateTokens)

include hparam hbody hinverse hdepth htags

/-- A page that is a block with two branches is that one node. -/
theorem compile_block (kind : BlockKind) (context : Value) :
    ∃ token, c.compile (Link.nested [⟨kind, param, body⟩] inverse) context =
      Node.render c.settings.maxBlockDepth (c.surroundings context)
        (.block kind ((Link.onParam param).expr c) token false
          (c.nodesOf (c.settings.maxBlockDepth - 1) body).reverse
          (c.nodesOf (c.settings.maxBlockDepth - 1) inverse).reverse) := by
  have hsound : ∀ l ∈ [(⟨kind, param, body⟩ : Link)], c.Sound l := by
    intro l hl
    cases List.mem_singleton.1 hl
    exact ⟨hparam, hbody⟩
  have hfits : decide (c.settings.maxBlockDepth < (Builder.start.addText []).depth + 1) = false :=
    decide_eq_false (Nat.not_lt.2 hdepth)
  have htags' : 0 + nestedTags [⟨kind, param, body⟩] inverse ≤ c.settings.maxTemplateTokens := by
    rw [Nat.zero_add]
    exact htags
  obtain ⟨problems, hblock⟩ := carries_nested_behind (Piece.Scanned.plain (s := []) rfl) (by decide)
    (by decide) rfl hsound hinverse
  rw [OpenBlock.close, branched, opened, hfits] at hblock
  have hpage := compile_of_carries hblock htags' context
  rw [List.nil_append] at hpage
  exact ⟨_, hpage.trans (renderAll_singleton _ _)⟩

/-- A block with two branches is written as the one that its parameter decides on. -/
theorem compile_branches (hholds : c.Holds context param yes) :
    c.compile (Link.nested [⟨.when, param, body⟩] inverse) context =
        Node.renderAll c.settings.maxBlockDepth (c.surroundings context)
          (c.nodesOf (c.settings.maxBlockDepth - 1) (if yes then body else inverse)).reverse ∧
      c.compile (Link.nested [⟨.unless, param, body⟩] inverse) context =
        Node.renderAll c.settings.maxBlockDepth (c.surroundings context)
          (c.nodesOf (c.settings.maxBlockDepth - 1) (if yes then inverse else body)).reverse := by
  obtain ⟨o, heval, htruth⟩ := hholds.eval
  obtain ⟨token, hwhen⟩ := compile_block hparam hbody hinverse hdepth htags .when context
  obtain ⟨token', hunless⟩ := compile_block hparam hbody hinverse hdepth htags .unless context
  rw [hwhen, hunless, render_when _ heval htruth, render_unless _ heval htruth]
  cases yes with
  | true => exact ⟨rfl, rfl⟩
  | false => exact ⟨rfl, rfl⟩

end

/-! ### Texts without tags -/

/-- A text without tags is read as one node. -/
theorem readAlone_of_no_tag {s : Text} (h : cut Piece.opening s = none) (hs : s ≠ []) (room : Nat) :
    c.readAlone room s = .ok ⟨[.text s], [], false, []⟩ := by
  rw [readAlone, Piece.pieces, Piece.pieces_plain h hs]
  show Except.ok (Builder.start.addText s) = _
  rw [Builder.addText]
  exact congrArg Except.ok (congrArg (Builder.mk · [] false []) (if_neg hs))

/-- A text without tags is written as it is. -/
theorem renderAll_nodesOf_of_no_tag {s : Text} (h : cut Piece.opening s = none) (hs : s ≠ [])
    (room maxDepth : Nat) (env : Surroundings) :
    Node.renderAll maxDepth env (c.nodesOf room s).reverse = .ok s := by
  rw [nodesOf, readAlone_of_no_tag h hs]
  show (Node.render maxDepth env (.text s) >>= _) = _
  exact congrArg Except.ok (List.append_nil s)

theorem balanced_of_no_tag {s : Text} (h : cut Piece.opening s = none) (hs : s ≠ [])
    (hbrace : s.getLast? ≠ some '{') (hback : s.getLast? ≠ some '\\') : c.Balanced s where
  mustaches := ⟨_, _, _, .plain h⟩
  blocks := ⟨_, readAlone_of_no_tag h hs c.settings.maxBlockDepth, rfl⟩
  brace := hbrace
  backslash := hback
  inside b hb q hq := by
    rw [readAlone_of_no_tag h hs] at hb
    cases hb
    cases hq

end Compiler
end Tender
