/-
Pages that differ in their nodes but not in what is written.

* `SameText`, `SameEnd` — nodes that are written in the same way, also after the text before a tag has
  lost its blanks;
* `Twin.add`, `Twin.addAll` — a piece that is added to two readings of the same kind leaves two
  readings of the same kind, whatever the piece does to the open blocks;
* `Twin.written` — and in the end the same page is written.
-/
import Mathlib.Data.List.Forall2
import Tender.Proofs.Template.Written
import Tender.Proofs.Text.Blank

namespace Tender

open Text

/-! ### Nodes that are written in the same way -/

namespace Node

variable {a b c d : List Node} {n m : Node}

/-- Nodes, the last one first, that are written as the same text against any data. -/
def SameText (a b : List Node) : Prop :=
  ∀ maxDepth env, renderAll maxDepth env a.reverse = renderAll maxDepth env b.reverse

/-- Two nodes that are written as the same text against any data. -/
def Same (n m : Node) : Prop := ∀ maxDepth env, render maxDepth env n = render maxDepth env m

namespace SameText

theorem refl (a : List Node) : SameText a a := fun _ _ => rfl

theorem symm (h : SameText a b) : SameText b a := fun maxDepth env => (h maxDepth env).symm

theorem trans (h : SameText a b) (h' : SameText b c) : SameText a c :=
  fun maxDepth env => (h maxDepth env).trans (h' maxDepth env)

theorem append (h : SameText a b) (h' : SameText c d) : SameText (a ++ c) (b ++ d) := by
  intro maxDepth env
  rw [List.reverse_append, List.reverse_append, renderAll_append, renderAll_append, h, h']

theorem cons (hn : Same n m) (h : SameText a b) : SameText (n :: a) (m :: b) := by
  refine append (a := [n]) (b := [m]) (fun maxDepth env => ?_) h
  show renderAll maxDepth env [n] = renderAll maxDepth env [m]
  simp only [renderAll, hn maxDepth env]

/-- An empty text writes nothing. -/
theorem text_nil (a : List Node) : SameText (.text [] :: a) a := by
  intro maxDepth env
  rw [List.reverse_cons, renderAll_append]
  cases renderAll maxDepth env a.reverse with
  | error f => rfl
  | ok s => exact congrArg Except.ok (List.append_nil s)

/-- Two texts in a row are written as one. -/
theorem text_append (s t : Text) (a : List Node) :
    SameText (.text t :: .text s :: a) (.text (s ++ t) :: a) := by
  refine append (a := [.text t, .text s]) (b := [.text (s ++ t)]) (fun maxDepth env => ?_) (refl a)
  show Except.ok (s ++ (t ++ [])) = Except.ok (s ++ t ++ [])
  rw [List.append_nil, List.append_nil]

end SameText

theorem Same.refl (n : Node) : Same n n := fun _ _ => rfl

/-- A problem is written as its diagnostic. -/
theorem Same.problem (p : Problem) : Same (.problem p) (.text p.diagnostic) := fun _ _ => rfl

/-- A block is written in the same way if its branches are. -/
theorem Same.block {body body' inverse inverse' : List Node} (kind : BlockKind) (param : Expr)
    (token : Text) (tooDeep : Bool)
    (hbody : ∀ maxDepth env, renderAll maxDepth env body = renderAll maxDepth env body')
    (hinverse : ∀ maxDepth env, renderAll maxDepth env inverse = renderAll maxDepth env inverse') :
    Same (.block kind param token tooDeep body inverse)
      (.block kind param token tooDeep body' inverse') := by
  intro maxDepth env
  rw [render, render]
  simp only [hbody, hinverse]

/-- Nodes, the last one first, whose last text has lost the blanks at its end. -/
def trimLast : List Node → List Node
  | .text s :: rest => .text (trimEnd s) :: rest
  | ns => ns

/-- Whether a node is a literal text. -/
def isText : Node → Bool
  | .text _ => true
  | _ => false

theorem trimLast_cons (hn : n.isText = false) (a : List Node) : trimLast (n :: a) = n :: a := by
  cases n with
  | text => cases hn
  | problem => rfl
  | shown => rfl
  | block => rfl

theorem trimLast_trimLast (a : List Node) : trimLast (trimLast a) = trimLast a := by
  cases a with
  | nil => rfl
  | cons n a =>
    cases n with
    | text s => rw [trimLast, trimLast, trimEnd_trimEnd]
    | problem => rfl
    | shown => rfl
    | block => rfl

/-- Nodes that are written in the same way, also if their last text loses the blanks at its end. -/
structure SameEnd (a b : List Node) : Prop where
  same : SameText a b
  trimmed : SameText (trimLast a) (trimLast b)

namespace SameEnd

theorem refl (a : List Node) : SameEnd a a := ⟨.refl a, .refl _⟩

theorem trimLast (h : SameEnd a b) : SameEnd (trimLast a) (trimLast b) := by
  refine ⟨h.trimmed, ?_⟩
  rw [trimLast_trimLast, trimLast_trimLast]
  exact h.trimmed

theorem text (s : Text) (h : SameEnd a b) : SameEnd (.text s :: a) (.text s :: b) :=
  ⟨.cons (.refl _) h.same, .cons (.refl _) h.same⟩

theorem cons (hn : Same n m) (htext : n.isText = false) (htext' : m.isText = false)
    (h : SameText a b) : SameEnd (n :: a) (m :: b) := by
  refine ⟨.cons hn h, ?_⟩
  rw [trimLast_cons htext, trimLast_cons htext']
  exact .cons hn h

end SameEnd

end Node

/-! ### Readings of the same kind -/

namespace Builder

open Node

/-- Two open blocks that differ only in nodes that are written in the same way. -/
structure OpenBlock.Twin (o o' : OpenBlock) : Prop where
  kind : o.kind = o'.kind
  param : o.param = o'.param
  token : o.token = o'.token
  chained : o.chained = o'.chained
  tooDeep : o.tooDeep = o'.tooDeep
  before : SameText o.before o'.before
  body : Option.Rel SameText o.body o'.body

/-- Two readings that differ only in problems and in nodes that are written in the same way. -/
structure Twin (b b' : Builder) : Prop where
  nodes : SameEnd b.nodes b'.nodes
  stack : List.Forall₂ OpenBlock.Twin b.stack b'.stack
  strip : b.strip = b'.strip

/-- Two steps that end with the same fault or with readings of the same kind. -/
inductive Alike : Except Fault Builder → Except Fault Builder → Prop
  | fault (f : Fault) : Alike (.error f) (.error f)
  | ok {b b' : Builder} (h : Twin b b') : Alike (.ok b) (.ok b')

variable {isHelper : Text → Bool} {b b' : Builder} {o o' : OpenBlock} {token : Text}
variable {stack stack' : List OpenBlock} {nodes nodes' : List Node}

/-! #### Blocks -/

theorem OpenBlock.Twin.refl (o : OpenBlock) : OpenBlock.Twin o o := by
  refine ⟨rfl, rfl, rfl, rfl, rfl, .refl _, ?_⟩
  cases o.body with
  | none => exact .none
  | some body => exact .some (.refl body)

theorem OpenBlock.Twin.close (h : OpenBlock.Twin o o') (hnodes : SameText nodes nodes') :
    Same (OpenBlock.close o nodes) (OpenBlock.close o' nodes') := by
  rw [OpenBlock.close, OpenBlock.close, h.kind, h.param, h.token, h.tooDeep]
  have hbody := h.body
  revert hbody
  cases o.body <;> cases o'.body <;> intro hbody <;> cases hbody
  · exact Same.block _ _ _ _ hnodes fun _ _ => rfl
  · rename_i hbody
    exact Same.block _ _ _ _ hbody hnodes

theorem isText_close (o : OpenBlock) (nodes : List Node) :
    (OpenBlock.close o nodes).isText = false := by
  rw [OpenBlock.close]
  split <;> rfl

/-! Stacks whose blocks correspond to each other, and are chained alike. -/

section Corresponding

variable {R : OpenBlock → OpenBlock → Prop} (hchained : ∀ o o', R o o' → o.chained = o'.chained)

include hchained

theorem closeChain_rel
    (hclose : ∀ o o' nodes nodes', R o o' → SameText nodes nodes' →
      Same (OpenBlock.close o nodes) (OpenBlock.close o' nodes') ∧ SameText o.before o'.before)
    (hstack : List.Forall₂ R stack stack') (hnodes : SameEnd nodes nodes') :
    List.Forall₂ R (closeChain stack nodes).1 (closeChain stack' nodes').1 ∧
      SameEnd (closeChain stack nodes).2 (closeChain stack' nodes').2 := by
  induction hstack generalizing nodes nodes' with
  | nil => exact ⟨.nil, hnodes⟩
  | @cons o o' stack stack' ho hstack ih =>
    obtain ⟨hsame, hbefore⟩ := hclose o o' nodes nodes' ho hnodes.same
    have hclosed : SameEnd (OpenBlock.close o nodes :: o.before)
        (OpenBlock.close o' nodes' :: o'.before) :=
      .cons hsame (isText_close _ _) (isText_close _ _) hbefore
    rw [closeChain, closeChain, hchained o o' ho]
    split
    · exact ih hclosed
    · exact ⟨hstack, hclosed⟩

theorem find_rel (hstack : List.Forall₂ R stack stack') :
    Option.Rel R (stack.find? fun o => !o.chained) (stack'.find? fun o => !o.chained) := by
  induction hstack with
  | nil => exact .none
  | @cons o o' stack stack' ho hstack ih =>
    rw [List.find?_cons, List.find?_cons, hchained o o' ho]
    cases o'.chained with
    | true => exact ih
    | false => exact .some ho

theorem depth_rel (hstack : List.Forall₂ R stack stack') :
    (stack.countP fun o => !o.chained) = stack'.countP fun o => !o.chained := by
  induction hstack with
  | nil => rfl
  | @cons o o' stack stack' ho hstack ih =>
    rw [List.countP_cons, List.countP_cons, ih, hchained o o' ho]

end Corresponding

/-- The first branch of a block, or nothing. -/
theorem sameText_getD {body body' : Option (List Node)} (h : Option.Rel SameText body body') :
    SameText (body.getD []) (body'.getD []) := by
  cases h with
  | none => exact .refl []
  | some h => exact h

/-- Blocks that are left open are put in their places in the same way. -/
theorem sameText_spliceOpen (hstack : List.Forall₂ OpenBlock.Twin stack stack')
    (hnodes : SameText nodes nodes') (problems problems' : List Problem) :
    SameText (spliceOpen stack nodes problems).1 (spliceOpen stack' nodes' problems').1 := by
  induction hstack generalizing nodes nodes' problems problems' with
  | nil => exact hnodes
  | @cons o o' stack stack' ho hstack ih =>
    have hbody := sameText_getD ho.body
    rw [spliceOpen, spliceOpen, ho.chained, ho.token]
    split
    · exact ih ((hnodes.append hbody).append ho.before) _ _
    · exact ih ((hnodes.append hbody).append (.cons (.refl _) ho.before)) _ _

/-! #### Steps -/

theorem stripBefore_eq (b : Builder) : b.stripBefore = { b with nodes := trimLast b.nodes } := by
  obtain ⟨nodes, stack, strip, problems⟩ := b
  cases nodes with
  | nil => rfl
  | cons n nodes => cases n <;> rfl

namespace Twin

theorem depth (h : Twin b b') : b.depth = b'.depth :=
  depth_rel (fun _ _ ho => ho.chained) h.stack

theorem push (h : Twin b b') {n : Node} (hn : n.isText = false) :
    Twin { b with nodes := n :: b.nodes } { b' with nodes := n :: b'.nodes } :=
  ⟨.cons (.refl n) hn hn h.nodes.same, h.stack, h.strip⟩

theorem addProblem (h : Twin b b') (p : Problem) : Twin (b.addProblem p) (b'.addProblem p) :=
  ⟨.cons (.refl _) rfl rfl h.nodes.same, h.stack, h.strip⟩

theorem addText (h : Twin b b') (s : Text) : Twin (b.addText s) (b'.addText s) := by
  refine ⟨?_, h.stack, rfl⟩
  have htext : ∀ t, SameEnd (if t = [] then b.nodes else .text t :: b.nodes)
      (if t = [] then b'.nodes else .text t :: b'.nodes) := by
    intro t
    split
    · exact h.nodes
    · exact h.nodes.text t
  rw [Builder.addText, Builder.addText, h.strip]
  exact htext _

theorem stripBefore (h : Twin b b') : Twin b.stripBefore b'.stripBefore := by
  rw [stripBefore_eq, stripBefore_eq]
  exact ⟨h.nodes.trimLast, h.stack, h.strip⟩

theorem settle {α : Type} (h : Twin b b') (r : Reading α) {add add' : α → Builder}
    (hadd : ∀ a, Twin (add a) (add' a)) :
    Alike (b.settle token r add) (b'.settle token r add') := by
  cases r with
  | ok a => exact .ok (hadd a)
  | error e =>
    cases e with
    | problem cause => exact .ok (h.addProblem _)
    | fault f => exact .fault f

theorem addShown (h : Twin b b') (body : Text) (raw : Bool) :
    Alike (b.addShown isHelper token body raw) (b'.addShown isHelper token body raw) :=
  h.settle _ fun _ => h.push rfl

theorem openBlock (h : Twin b b') (maxDepth : Nat) (s : Text) :
    Alike (b.openBlock isHelper maxDepth token s) (b'.openBlock isHelper maxDepth token s) := by
  refine h.settle _ fun ⟨kind, param⟩ => ⟨.refl [], ?_, h.strip⟩
  refine .cons ⟨rfl, rfl, rfl, rfl, ?_, h.nodes.same, .none⟩ h.stack
  show decide (maxDepth < b.depth + 1) = decide (maxDepth < b'.depth + 1)
  rw [h.depth]

theorem endBranch (h : Twin b b') {top top' : OpenBlock} {outer outer' : List OpenBlock}
    (htop : OpenBlock.Twin top top') (houter : List.Forall₂ OpenBlock.Twin outer outer') :
    Twin { b with nodes := [], stack := { top with body := some b.nodes } :: outer }
      { b' with nodes := [], stack := { top' with body := some b'.nodes } :: outer' } :=
  ⟨.refl [], .cons { htop with body := .some h.nodes.same } houter, h.strip⟩

theorem addElse (h : Twin b b') (chain : Text) :
    Alike (b.addElse isHelper token chain) (b'.addElse isHelper token chain) := by
  have hstack := h.stack
  unfold Builder.addElse
  rcases hs : b.stack with _ | ⟨top, outer⟩ <;> rcases hs' : b'.stack with _ | ⟨top', outer'⟩ <;>
    rw [hs, hs'] at hstack <;> cases hstack
  · exact .ok (h.addProblem _)
  · rename_i htop houter
    have hbody : top.body.isSome = top'.body.isSome := by
      have hbody := htop.body
      revert hbody
      cases top.body <;> cases top'.body <;> intro hbody <;> cases hbody <;> rfl
    have hend := h.endBranch htop houter
    simp only [hbody]
    split
    · exact .ok (h.addProblem _)
    · split
      · exact .ok hend
      · refine hend.settle _ fun ⟨kind, param⟩ => ⟨hend.nodes, ?_, hend.strip⟩
        exact .cons ⟨rfl, rfl, rfl, rfl, rfl, hend.nodes.same, .none⟩ hend.stack

theorem closeBlock (h : Twin b b') (name : Text) :
    Twin (b.closeBlock token name) (b'.closeBlock token name) := by
  have hfind := find_rel (fun _ _ ho => OpenBlock.Twin.chained ho) h.stack
  rw [Builder.closeBlock, Builder.closeBlock]
  revert hfind
  cases b.stack.find? fun o => !o.chained <;> cases b'.stack.find? fun o => !o.chained <;>
    intro hfind <;> cases hfind
  · exact h.addProblem _
  · rename_i ho
    simp only [ho.kind, ho.token]
    split
    · obtain ⟨hstack, hnodes⟩ := closeChain_rel (fun _ _ ho => OpenBlock.Twin.chained ho)
        (fun _ _ _ _ ho hnodes => ⟨ho.close hnodes, ho.before⟩) h.stack h.nodes
      exact ⟨hnodes, hstack, h.strip⟩
    · exact h.addProblem _

theorem addTag (h : Twin b b') (maxDepth : Nat) (body : Text) :
    Alike (b.addTag isHelper maxDepth token body) (b'.addTag isHelper maxDepth token body) := by
  unfold Builder.addTag
  split
  · exact h.addElse []
  · split
    · exact h.addElse _
    · split
      · exact h.openBlock maxDepth _
      · exact .ok (h.closeBlock _)
      · exact .ok (h.addProblem _)
      · exact .ok (h.addProblem _)
      · exact h.addShown _ true
      · exact h.addShown _ false

/-- A piece leaves two readings of the same kind, or it is read with the same fault. -/
theorem add (h : Twin b b') (maxTags maxDepth : Nat) (p : Piece) :
    Alike (b.add isHelper maxTags maxDepth p) (b'.add isHelper maxTags maxDepth p) := by
  cases p with
  | text s => exact .ok (h.addText s)
  | comment s => exact .ok h
  | raw body => exact h.addShown body true
  | tag body =>
    rw [Builder.add, Builder.add]
    rcases splitTildes body with ⟨left, inner, right⟩
    cases left with
    | true =>
      have hstripped : Twin { b.stripBefore with strip := right }
          { b'.stripBefore with strip := right } :=
        ⟨h.stripBefore.nodes, h.stripBefore.stack, rfl⟩
      exact hstripped.addTag maxDepth _
    | false =>
      have hkept : Twin { b with strip := right } { b' with strip := right } :=
        ⟨h.nodes, h.stack, rfl⟩
      exact hkept.addTag maxDepth _
  | unclosed rest => exact .ok ((h.addProblem _).addText rest)
  | overLimit rest => exact .ok ((h.addProblem _).addText rest)

theorem addAll (h : Twin b b') (maxTags maxDepth : Nat) (ps : List Piece) :
    Alike (ps.foldlM (Builder.add isHelper maxTags maxDepth) b)
      (ps.foldlM (Builder.add isHelper maxTags maxDepth) b') := by
  induction ps generalizing b b' with
  | nil => exact .ok h
  | cons p ps ih =>
    rw [List.foldlM_cons, List.foldlM_cons]
    have hstep : Alike (b.add isHelper maxTags maxDepth p) (b'.add isHelper maxTags maxDepth p) :=
      h.add maxTags maxDepth p
    revert hstep
    cases b.add isHelper maxTags maxDepth p <;> cases b'.add isHelper maxTags maxDepth p <;>
      intro hstep <;> cases hstep
    · exact .fault _
    · rename_i htwin
      exact ih htwin

end Twin

/-! #### Whole pages -/

/-- The page that is written from what has been read. -/
def written (maxDepth : Nat) (env : Surroundings) (b : Builder) : Except Fault Text :=
  Node.renderAll maxDepth env (spliceOpen b.stack b.nodes b.problems).1.reverse

theorem Twin.written (h : Twin b b') (maxDepth : Nat) (env : Surroundings) :
    b.written maxDepth env = b'.written maxDepth env :=
  sameText_spliceOpen h.stack h.nodes.same _ _ maxDepth env

theorem Alike.written {x x' : Except Fault Builder} (h : Alike x x') (maxDepth : Nat)
    (env : Surroundings) :
    (x >>= Builder.written maxDepth env) = (x' >>= Builder.written maxDepth env) := by
  cases h with
  | fault f => rfl
  | ok h => exact h.written maxDepth env

end Builder

theorem Compiler.compile_eq (c : Compiler) (source : Text) (context : Value) :
    c.compile source context =
      ((Piece.ofPage c.settings.maxTemplateTokens source).foldlM
          (Builder.add c.isHelper c.settings.maxTemplateTokens c.settings.maxBlockDepth)
          Builder.start >>=
        Builder.written c.settings.maxBlockDepth (c.surroundings context)) := by
  rw [compile, read, Page.read]
  cases (Piece.ofPage c.settings.maxTemplateTokens source).foldlM
      (Builder.add c.isHelper c.settings.maxTemplateTokens c.settings.maxBlockDepth)
      Builder.start with
  | error f => rfl
  | ok b => rfl

end Tender
