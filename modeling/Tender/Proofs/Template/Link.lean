/-
The tags of a chain of blocks.

* `Link.chained`, `Link.nested` — blocks one in the second branch of the other, written as a chain
  with one closing tag and as blocks within blocks;
* `Link.readBlock_call` — the name of a block and a parameter that it can take are read alike in an
  opening and in an `else` tag;
* `Builder.add_opener`, `Builder.add_else`, `Builder.add_elseOpener`, `Builder.add_closer` — what
  the tags do to the open blocks.
-/
import Tender.Proofs.Template.Body

namespace Tender

open Text

/-- A link of a chain: a block with its parameter, and the branch that shows for it. -/
structure Link where
  kind : BlockKind
  param : Text
  body : Text

namespace Link

/-- A tag with its braces. -/
def tag (body : Text) : Text := Piece.opening ++ (body ++ Piece.closing)

/-- The name of a block and its parameter. -/
def call (l : Link) : Text := l.kind.name ++ ' ' :: l.param

/-- Blocks one in the second branch of the other, each with a closing tag of its own. -/
def nested : List Link → Text → Text
  | [], last => last
  | l :: ls, last => tag ('#' :: l.call) ++ (l.body ++ (tag Builder.elseWord ++
      (nested ls last ++ tag ('/' :: l.kind.name))))

/-- The branches of a chain behind the first one. -/
def branches : List Link → Text → Text
  | [], last => tag Builder.elseWord ++ last
  | l :: ls, last => tag (Builder.elseWord ++ ' ' :: l.call) ++ (l.body ++ branches ls last)

/-- Blocks one in the second branch of the other, as a chain with one closing tag. -/
def chained (first : Link) (rest : List Link) (last : Text) : Text :=
  tag ('#' :: first.call) ++ (first.body ++ (branches rest last ++ tag ('/' :: first.kind.name)))

end Link

/-- The text in front of the names that a block could give its items. -/
def namesWord : Text := [' ', 'a', 's', ' ', '|']

/-- A parameter that a block can take: it is one term and names no items, and its tag ends right
behind it, without a tilde. -/
structure Compiler.Parsable (c : Compiler) (param : Text) : Prop where
  reads : ∃ e, Expr.readParameter c.isHelper param = .ok e
  names : ¬ namesWord <:+: param
  closes : cut Piece.closing (param ++ Piece.closing) = some (param, [])
  tilde : param.getLast? ≠ some '~'

/-- A link whose parameter is read and whose branch is balanced. -/
structure Compiler.Sound (c : Compiler) (l : Link) : Prop where
  param : c.Parsable l.param
  body : c.Balanced l.body

/-! ### Reading the tags of a chain -/

namespace Builder

variable {isHelper : Text → Bool} {b : Builder} {maxTags maxDepth : Nat} {body : Text}

theorem splitTildes_of_ends (hhead : body.head? ≠ some '~') (hlast : body.getLast? ≠ some '~') :
    splitTildes body = (false, body, false) := by
  unfold splitTildes
  split
  rename_i left inner heq
  split at heq
  · exact absurd rfl hhead
  · cases heq
    split
    · rename_i hend
      exact absurd hend hlast
    · rfl

theorem add_tag (hhead : body.head? ≠ some '~') (hlast : body.getLast? ≠ some '~') :
    b.add isHelper maxTags maxDepth (.tag body) =
      ({ b with strip := false } : Builder).addTag isHelper maxDepth (Link.tag body)
        (trim body) := by
  rw [add, splitTildes_of_ends hhead hlast]
  rw [Link.tag, ← List.append_assoc]
  rfl

end Builder

namespace BlockKind

theorem ofName?_name (k : BlockKind) : ofName? k.name = some k := by
  cases k <;> rfl

theorem name_eq_cons (k : BlockKind) : ∃ x s, k.name = x :: s ∧ isBlank x = false := by
  cases k <;> exact ⟨_, _, rfl, rfl⟩

theorem not_mem_name (k : BlockKind) :
    ' ' ∉ k.name ∧ '}' ∉ k.name ∧ '~' ∉ k.name := by
  cases k <;> decide

end BlockKind

namespace Link

variable {c : Compiler} {l : Link}

/-- The parameter of a link as an expression. -/
def expr (c : Compiler) (l : Link) : Expr :=
  ((Expr.readParameter c.isHelper l.param).toOption).getD (.literal .null)

/-- The parameter is read without the blanks at its end. -/
theorem readParameter_trimEnd (h : c.Parsable l.param) :
    Expr.readParameter c.isHelper (trimEnd l.param) = .ok (l.expr c) := by
  obtain ⟨e, he⟩ := h.reads
  have hblanks : Expr.readParameter c.isHelper (trimEnd l.param) =
      Expr.readParameter c.isHelper l.param := by
    rw [Expr.readParameter, Expr.readParameter, Expr.ofText, Expr.ofText, trim_trimEnd]
  rw [expr, hblanks, he]
  rfl

theorem trim_param_ne_nil (h : c.Parsable l.param) : trim l.param ≠ [] := by
  intro hnil
  obtain ⟨e, he⟩ := h.reads
  have hlexemes : Lexeme.ofText? [] = some [] := by
    unfold Lexeme.ofText? Lexeme.readAll
    rfl
  rw [Expr.readParameter, Expr.ofText, hnil, hlexemes] at he
  cases he

theorem trimEnd_call (h : c.Parsable l.param) (start : Text) :
    trimEnd (start ++ l.call) = start ++ (l.kind.name ++ ' ' :: trimEnd l.param) := by
  have hparam : trimEnd (start ++ l.kind.name ++ [' '] ++ l.param) = _ :=
    trimEnd_append_right (trim_param_ne_nil h)
  simpa [call] using hparam

theorem trim_call (h : c.Parsable l.param) :
    trim (l.kind.name ++ ' ' :: trimEnd l.param) = l.kind.name ++ ' ' :: trimEnd l.param := by
  have hcall : trimEnd l.call = l.kind.name ++ ' ' :: trimEnd l.param := trimEnd_call h []
  obtain ⟨x, s, hname, hx⟩ := l.kind.name_eq_cons
  rw [← hcall, trim_trimEnd, call, hname, List.cons_append, trim_cons hx]
  exact (trimEnd_append hx [] _).symm

theorem readBlock_call (h : c.Parsable l.param) (allowNames : Bool) :
    Builder.readBlock c.isHelper allowNames (l.kind.name ++ ' ' :: trimEnd l.param) =
      .ok (l.kind, l.expr c) := by
  have hname : Builder.splitName (l.kind.name ++ ' ' :: trimEnd l.param) =
      (l.kind.name, trimEnd l.param) := by
    have hbare : Bare [' '] l.kind.name := Bare.of_not_mem l.kind.not_mem_name.1
    have hcut := cut_append_of_bare (by decide) hbare (trimEnd l.param)
    rw [Builder.splitName]
    exact congrArg (Option.getD · _) hcut
  have hnames : occursIn [' ', 'a', 's', ' ', '|'] (trimEnd l.param) = false := by
    have hcut : cut namesWord (trimEnd l.param) = none := cut_eq_none fun hstands =>
      h.names (hstands.trans (trimEnd_isPrefix l.param).isInfix)
    rw [occursIn, show cut [' ', 'a', 's', ' ', '|'] (trimEnd l.param) = none from hcut]
    rfl
  rw [Builder.readBlock, hname]
  simp only [BlockKind.ofName?_name, hnames, Bool.and_false, Bool.false_eq_true, if_false,
    readParameter_trimEnd h]
  rfl

/-- The tag of a block ends behind its parameter. -/
theorem readTag?_call (h : c.Parsable l.param) {x : Char} (start : Text)
    (hstart : '}' ∉ x :: start) (hbrace : x ≠ '{') (hbang : x ≠ '!') :
    Piece.readTag? (x :: start ++ l.call ++ Piece.closing) =
      some (.tag (x :: start ++ l.call), []) := by
  have hbare : Bare Piece.closing (x :: start ++ l.kind.name ++ [' ']) := by
    refine Bare.of_not_mem ?_
    have hname := l.kind.not_mem_name.2.1
    rw [List.mem_append, List.mem_append, List.mem_singleton]
    rintro ((hmem | hmem) | hmem)
    · exact hstart hmem
    · exact hname hmem
    · cases hmem
  have hcut := cut_bare_append hbare (l.param ++ Piece.closing)
  rw [h.closes] at hcut
  refine Piece.readTag_of_cut ?_ (fun hx => hbrace (Option.some.inj hx)) fun hx =>
    hbang (Option.some.inj hx)
  simpa [call] using hcut

theorem getLast?_call (h : c.Parsable l.param) (start : Text) :
    (start ++ l.call).getLast? ≠ some '~' := by
  have hne : l.param ≠ [] := by
    intro hnil
    exact trim_param_ne_nil h (by rw [hnil]; rfl)
  rw [call, ← List.append_assoc, ← List.singleton_append (l := l.param), ← List.append_assoc,
    List.getLast?_append_of_ne_nil _ hne]
  exact h.tilde

end Link

namespace Builder

variable {c : Compiler} {l : Link} {b : Builder} {maxTags maxDepth : Nat}

/-- The block of a link that is opened behind what has been read. -/
def opened (c : Compiler) (l : Link) (maxDepth : Nat) (b : Builder) : OpenBlock :=
  ⟨l.kind, l.expr c, Link.tag ('#' :: l.call), false, maxDepth < b.depth + 1, b.nodes, none⟩

theorem add_opener (h : c.Parsable l.param) :
    b.add c.isHelper maxTags maxDepth (.tag ('#' :: l.call)) =
      .ok ⟨[], opened c l maxDepth b :: b.stack, false, b.problems⟩ := by
  have hlast : ('#' :: l.call).getLast? ≠ some '~' := Link.getLast?_call h ['#']
  have htrim : trim ('#' :: l.call) = '#' :: (l.kind.name ++ ' ' :: trimEnd l.param) := by
    rw [trim_cons (by decide)]
    exact congrArg _ (Link.trimEnd_call h [])
  have hnone : ¬ ('#' :: (l.kind.name ++ ' ' :: trimEnd l.param) = ['^'] ∨
      '#' :: (l.kind.name ++ ' ' :: trimEnd l.param) = elseWord) := by
    simp [elseWord]
  rw [add_tag (by simp) hlast, htrim]
  unfold addTag
  rw [if_neg hnone]
  show openBlock _ _ _ _ _ = _
  rw [openBlock, Link.readBlock_call h]
  rfl

/-- A block whose first branch has ended with some nodes. -/
def branched (o : OpenBlock) (nodes : List Node) : OpenBlock := { o with body := some nodes }

theorem add_else {top : OpenBlock} {outer : List OpenBlock} (hstack : b.stack = top :: outer)
    (hbody : top.body = none) :
    b.add c.isHelper maxTags maxDepth (.tag elseWord) =
      .ok ⟨[], branched top b.nodes :: outer, false, b.problems⟩ := by
  obtain ⟨nodes, stack, strip, problems⟩ := b
  obtain rfl : stack = top :: outer := hstack
  rw [add_tag (by decide) (by decide), show trim elseWord = elseWord by decide]
  unfold addTag
  rw [if_pos (.inr rfl), addElse]
  simp only [hbody]
  rfl

theorem add_elseOpener (h : c.Parsable l.param) {top : OpenBlock} {outer : List OpenBlock}
    (hstack : b.stack = top :: outer) (hbody : top.body = none) :
    b.add c.isHelper maxTags maxDepth (.tag (elseWord ++ ' ' :: l.call)) =
      .ok ⟨[], ⟨l.kind, l.expr c, Link.tag (elseWord ++ ' ' :: l.call), true, false, [], none⟩ ::
        branched top b.nodes :: outer, false, b.problems⟩ := by
  obtain ⟨nodes, stack, strip, problems⟩ := b
  obtain rfl : stack = top :: outer := hstack
  have hlast : (elseWord ++ ' ' :: l.call).getLast? ≠ some '~' :=
    Link.getLast?_call h (elseWord ++ [' '])
  have htrim : trim (elseWord ++ ' ' :: l.call) =
      elseWord ++ ' ' :: (l.kind.name ++ ' ' :: trimEnd l.param) := by
    show trim ('e' :: (['l', 's', 'e', ' '] ++ l.call)) = _
    rw [trim_cons (by decide), Link.trimEnd_call h]
    rfl
  have hnone : ¬ (elseWord ++ ' ' :: (l.kind.name ++ ' ' :: trimEnd l.param) = ['^'] ∨
      elseWord ++ ' ' :: (l.kind.name ++ ' ' :: trimEnd l.param) = elseWord) := by
    simp [elseWord]
  have hchain : after? (elseWord ++ [' ']) (elseWord ++ ' ' :: (l.kind.name ++ ' ' ::
      trimEnd l.param)) = some (l.kind.name ++ ' ' :: trimEnd l.param) :=
    after?_append (elseWord ++ [' ']) _
  rw [add_tag (by simp [elseWord]) hlast, htrim]
  unfold addTag
  rw [if_neg hnone, hchain]
  show addElse _ _ _ (trim _) = _
  rw [Link.trim_call h, addElse]
  simp only [hbody, Option.isSome_none, Bool.false_eq_true, if_false, Link.readBlock_call h, settle]
  rw [if_neg (by simp)]
  rfl

theorem add_closer {o : OpenBlock} (hfind : (b.stack.find? fun o => !o.chained) = some o) :
    b.add c.isHelper maxTags maxDepth (.tag ('/' :: o.kind.name)) =
      .ok { b.closeTop with strip := false } := by
  have hends : ('/' :: o.kind.name).getLast? ≠ some '~' ∧
      trim ('/' :: o.kind.name) = '/' :: o.kind.name ∧ trim o.kind.name = o.kind.name := by
    cases o.kind <;> decide
  have hnone : ¬ ('/' :: o.kind.name = ['^'] ∨ '/' :: o.kind.name = elseWord) := by
    simp [elseWord]
  rw [add_tag (by simp) hends.1, hends.2.1]
  unfold addTag
  rw [if_neg hnone]
  show Except.ok (closeBlock _ _ (trim o.kind.name)) = _
  rw [hends.2.2, closeBlock]
  simp only [hfind, if_true]
  rfl

end Builder

end Tender
