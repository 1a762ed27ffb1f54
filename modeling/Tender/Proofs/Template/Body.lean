/-
Texts that stand between the tags of a block.

* `Alongside.addAll` — which blocks are open, and which problems are found, does not depend on how
  deep blocks may be nested;
* `addAll_above` — above blocks that are open already, a text whose own tags close nothing else is
  read as it is read on its own;
* `addAll_of_shallow` — a reading in which no block is too deep is the same one where there is more
  room;
* `Compiler.Balanced.carries` — so a balanced body is read alike wherever it stands.
-/
import Tender.Proofs.Template.Concat

namespace Tender

open Text

namespace Builder

open Node

variable {isHelper : Text → Bool} {b b' : Builder} {maxTags maxDepth maxDepth' : Nat} {token : Text}

/-! ### Other depths -/

/-- What the tags behind it can tell of an open block. -/
def frame (o : OpenBlock) : BlockKind × Text × Bool × Bool :=
  (o.kind, o.token, o.chained, o.body.isSome)

/-- Two readings with the same blocks open and the same problems found. -/
structure Alongside (b b' : Builder) : Prop where
  stack : List.Forall₂ (fun o o' => frame o = frame o') b.stack b'.stack
  problems : b.problems = b'.problems

/-- Two steps that end with the same fault or with readings alongside each other. -/
inductive Along : Except Fault Builder → Except Fault Builder → Prop
  | fault (f : Fault) : Along (.error f) (.error f)
  | ok {b b' : Builder} (h : Alongside b b') : Along (.ok b) (.ok b')

theorem closeChain_stack (stack : List OpenBlock) (nodes : List Node) :
    (closeChain stack nodes).1 = (stack.dropWhile OpenBlock.chained).drop 1 := by
  induction stack generalizing nodes with
  | nil => rfl
  | cons o stack ih =>
    rw [closeChain, List.dropWhile_cons]
    split
    · exact ih _
    · rfl

namespace Alongside

theorem refl (b : Builder) : Alongside b b := ⟨List.forall₂_same.2 fun _ _ => rfl, rfl⟩

theorem addProblem (h : Alongside b b') (p : Problem) :
    Alongside (b.addProblem p) (b'.addProblem p) :=
  ⟨h.stack, congrArg (p :: ·) h.problems⟩

theorem settle {α : Type} (h : Alongside b b') (r : Reading α) {add add' : α → Builder}
    (hadd : ∀ a, Alongside (add a) (add' a)) :
    Along (b.settle token r add) (b'.settle token r add') := by
  cases r with
  | ok a => exact .ok (hadd a)
  | error e =>
    cases e with
    | problem cause => exact .ok (h.addProblem _)
    | fault f => exact .fault f

theorem addShown (h : Alongside b b') (body : Text) (raw : Bool) :
    Along (b.addShown isHelper token body raw) (b'.addShown isHelper token body raw) :=
  h.settle _ fun _ => ⟨h.stack, h.problems⟩

theorem openBlock (h : Alongside b b') (s : Text) :
    Along (b.openBlock isHelper maxDepth token s) (b'.openBlock isHelper maxDepth' token s) :=
  h.settle _ fun _ => ⟨.cons rfl h.stack, h.problems⟩

theorem addElse (h : Alongside b b') (chain : Text) :
    Along (b.addElse isHelper token chain) (b'.addElse isHelper token chain) := by
  have hstack := h.stack
  unfold Builder.addElse
  rcases hs : b.stack with _ | ⟨top, outer⟩ <;> rcases hs' : b'.stack with _ | ⟨top', outer'⟩ <;>
    rw [hs, hs'] at hstack <;> cases hstack
  · exact .ok (h.addProblem _)
  · rename_i htop houter
    simp only [frame, Prod.mk.injEq] at htop
    obtain ⟨hkind, htoken, hchained, hbody⟩ := htop
    have hend : Alongside (b.endBranch top outer) (b'.endBranch top' outer') := by
      refine ⟨.cons ?_ houter, h.problems⟩
      show (top.kind, top.token, top.chained, true) = (top'.kind, top'.token, top'.chained, true)
      rw [hkind, htoken, hchained]
    simp only [hbody]
    split
    · exact .ok (h.addProblem _)
    · split
      · exact .ok hend
      · exact hend.settle _ fun _ => ⟨.cons rfl hend.stack, hend.problems⟩

/-- The block that a closing tag is for, and what is open behind it. -/
theorem closing {stack stack' : List OpenBlock}
    (h : List.Forall₂ (fun o o' => frame o = frame o') stack stack') :
    (stack.find? fun o => !o.chained).map frame = (stack'.find? fun o => !o.chained).map frame ∧
      List.Forall₂ (fun o o' => frame o = frame o') ((stack.dropWhile OpenBlock.chained).drop 1)
        ((stack'.dropWhile OpenBlock.chained).drop 1) := by
  induction h with
  | nil => exact ⟨rfl, .nil⟩
  | @cons o o' stack stack' ho hstack ih =>
    have hchained : o.chained = o'.chained := congrArg (fun f => f.2.2.1) ho
    rw [List.find?_cons, List.find?_cons, List.dropWhile_cons, List.dropWhile_cons, hchained]
    cases o'.chained with
    | true => exact ih
    | false => exact ⟨congrArg some ho, hstack⟩

theorem closeBlock (h : Alongside b b') (name : Text) :
    Alongside (b.closeBlock token name) (b'.closeBlock token name) := by
  obtain ⟨hfind, hrest⟩ := closing h.stack
  rw [← closeChain_stack _ b.nodes, ← closeChain_stack _ b'.nodes] at hrest
  rw [Builder.closeBlock, Builder.closeBlock]
  revert hfind
  cases b.stack.find? fun o => !o.chained with
  | none =>
    cases b'.stack.find? fun o => !o.chained with
    | none => exact fun _ => h.addProblem _
    | some o' => exact fun hfind => by cases hfind
  | some o =>
    cases b'.stack.find? fun o => !o.chained with
    | none => exact fun hfind => by cases hfind
    | some o' =>
      intro hfind
      have hframe := Option.some.inj hfind
      simp only [frame, Prod.mk.injEq] at hframe
      simp only [hframe.1, hframe.2.1]
      split
      · exact ⟨hrest, h.problems⟩
      · exact h.addProblem _

theorem addTag (h : Alongside b b') (body : Text) :
    Along (b.addTag isHelper maxDepth token body) (b'.addTag isHelper maxDepth' token body) := by
  unfold Builder.addTag
  split
  · exact h.addElse []
  · split
    · exact h.addElse _
    · split
      · exact h.openBlock _
      · exact .ok (h.closeBlock _)
      · exact .ok (h.addProblem _)
      · exact .ok (h.addProblem _)
      · exact h.addShown _ true
      · exact h.addShown _ false

theorem add (h : Alongside b b') (p : Piece) :
    Along (b.add isHelper maxTags maxDepth p) (b'.add isHelper maxTags maxDepth' p) := by
  cases p with
  | text s => exact .ok ⟨h.stack, h.problems⟩
  | comment s => exact .ok h
  | raw body => exact h.addShown body true
  | tag body =>
    rw [Builder.add, Builder.add, stripBefore_eq, stripBefore_eq]
    rcases splitTildes body with ⟨left, inner, right⟩
    -- a tilde takes blanks from a text, which changes no block
    have hstripped (nodes nodes' : List Node) : Alongside
        ⟨nodes, b.stack, right, b.problems⟩ ⟨nodes', b'.stack, right, b'.problems⟩ :=
      ⟨h.stack, h.problems⟩
    cases left with
    | true => exact (hstripped _ _).addTag _
    | false => exact (hstripped _ _).addTag _
  | unclosed rest => exact .ok ⟨h.stack, (h.addProblem _).problems⟩
  | overLimit rest => exact .ok ⟨h.stack, (h.addProblem _).problems⟩

theorem addAll (h : Alongside b b') (ps : List Piece) :
    Along (ps.foldlM (Builder.add isHelper maxTags maxDepth) b)
      (ps.foldlM (Builder.add isHelper maxTags maxDepth') b') := by
  induction ps generalizing b b' with
  | nil => exact .ok h
  | cons p ps ih =>
    rw [List.foldlM_cons, List.foldlM_cons]
    have hstep : Along (b.add isHelper maxTags maxDepth p) (b'.add isHelper maxTags maxDepth' p) :=
      h.add p
    revert hstep
    cases b.add isHelper maxTags maxDepth p <;> cases b'.add isHelper maxTags maxDepth' p <;>
      intro hstep <;> cases hstep
    · exact .fault _
    · rename_i halong
      exact ih halong

end Alongside

/-! ### Above other blocks -/

/-- Whether a problem is an `else` or a closing tag that belongs to no block. -/
def isOutside (q : Problem) : Bool :=
  match q.cause with
  | .elseOutside => true
  | .unexpectedClose => true
  | _ => false

/-- No `else` or closing tag has been found outside of the blocks. -/
def Inside (b : Builder) : Prop := ∀ q ∈ b.problems, isOutside q = false

/-- How many blocks of a stack count for the depth. -/
def height (stack : List OpenBlock) : Nat :=
  stack.countP fun o => !o.chained

/-- What has been read, above blocks that were open before and with the problems found earlier. -/
def above (base : List OpenBlock) (earlier : List Problem) (b : Builder) : Builder :=
  { b with stack := b.stack ++ base, problems := b.problems ++ earlier }

variable (base : List OpenBlock) (earlier : List Problem)

theorem not_inside_addProblem {q : Problem} (hq : isOutside q = true) :
    ¬ (b.addProblem q).Inside := by
  intro h
  rw [h q List.mem_cons_self] at hq
  cases hq

theorem settle_above {α : Type} (r : Reading α) {add add' : α → Builder}
    (hadd : ∀ a, add' a = (add a).above base earlier) :
    (b.above base earlier).settle token r add' =
      (b.settle token r add).map (above base earlier) := by
  cases r with
  | ok a => exact congrArg Except.ok (hadd a)
  | error e =>
    cases e with
    | problem cause => rfl
    | fault f => rfl

theorem addShown_above (body : Text) (raw : Bool) :
    (b.above base earlier).addShown isHelper token body raw =
      (b.addShown isHelper token body raw).map (above base earlier) :=
  settle_above base earlier _ fun _ => rfl

theorem openBlock_above (s : Text) :
    (b.above base earlier).openBlock isHelper maxDepth token s =
      (b.openBlock isHelper (maxDepth - height base) token s).map (above base earlier) := by
  refine settle_above base earlier _ fun (kind, param) => ?_
  have hdepth : (b.above base earlier).depth = b.depth + height base := by
    rw [depth, above, List.countP_append]
    rfl
  -- what the blocks below take of the depth is missing on its own
  have hdeep : decide (maxDepth < (b.above base earlier).depth + 1) =
      decide (maxDepth - height base < b.depth + 1) := by
    rw [hdepth]
    exact decide_eq_decide.2 (by omega)
  simp only [hdeep]
  rfl

theorem addElse_above (chain : Text)
    (hin : ∀ b', b.addElse isHelper token chain = .ok b' → b'.Inside) :
    (b.above base earlier).addElse isHelper token chain =
      (b.addElse isHelper token chain).map (above base earlier) := by
  obtain ⟨nodes, stack, strip, problems⟩ := b
  cases stack with
  | nil => exact absurd (hin _ rfl) (not_inside_addProblem rfl)
  | cons top outer =>
    rw [addElse, addElse]
    show (if top.body.isSome = true then _ else _) = _
    simp only
    split
    · rfl
    · split
      · rfl
      · exact settle_above base earlier (b := endBranch ⟨nodes, top :: outer, strip, problems⟩ top
          outer) (readBlock isHelper true chain) fun _ => rfl

theorem closeChain_above {stack : List OpenBlock} {o : OpenBlock}
    (h : (stack.find? fun o => !o.chained) = some o) (nodes : List Node) :
    closeChain (stack ++ base) nodes =
      ((closeChain stack nodes).1 ++ base, (closeChain stack nodes).2) := by
  induction stack generalizing nodes with
  | nil => cases h
  | cons top stack ih =>
    rw [List.find?_cons] at h
    rw [List.cons_append, closeChain, closeChain]
    cases hchained : top.chained with
    | true =>
      rw [hchained] at h
      exact ih h _
    | false => rfl

theorem closeBlock_above (name : Text) (hin : (b.closeBlock token name).Inside) :
    (b.above base earlier).closeBlock token name =
      (b.closeBlock token name).above base earlier := by
  rw [closeBlock] at hin ⊢
  rw [closeBlock]
  cases hfind : b.stack.find? fun o => !o.chained with
  | none =>
    rw [hfind] at hin
    exact absurd hin (not_inside_addProblem rfl)
  | some o =>
    have hfind' : ((b.above base earlier).stack.find? fun o => !o.chained) = some o := by
      rw [above, List.find?_append, hfind]
      rfl
    rw [hfind']
    simp only
    split
    · show ({ b with
        stack := (closeChain (b.stack ++ base) b.nodes).1
        nodes := (closeChain (b.stack ++ base) b.nodes).2
        problems := b.problems ++ earlier } : Builder) = _
      rw [closeChain_above base hfind]
      rfl
    · rfl

theorem addTag_above (body : Text)
    (hin : ∀ b', b.addTag isHelper (maxDepth - height base) token body = .ok b' → b'.Inside) :
    (b.above base earlier).addTag isHelper maxDepth token body =
      (b.addTag isHelper (maxDepth - height base) token body).map (above base earlier) := by
  unfold addTag at hin ⊢
  split
  · rename_i helse
    rw [if_pos helse] at hin
    exact addElse_above base earlier [] hin
  · rename_i helse
    rw [if_neg helse] at hin
    split
    · rename_i hchain
      rw [hchain] at hin
      exact addElse_above base earlier _ hin
    · rename_i hchain
      rw [hchain] at hin
      split
      · exact openBlock_above base earlier _
      · exact congrArg Except.ok (closeBlock_above base earlier _ (hin _ rfl))
      · rfl
      · rfl
      · exact addShown_above base earlier _ true
      · exact addShown_above base earlier _ false

/-- Above open blocks a piece is read as on its own, unless it would end a branch or a block
there. -/
theorem add_above (p : Piece)
    (hin : ∀ b', b.add isHelper maxTags (maxDepth - height base) p = .ok b' → b'.Inside) :
    (b.above base earlier).add isHelper maxTags maxDepth p =
      (b.add isHelper maxTags (maxDepth - height base) p).map (above base earlier) := by
  cases p with
  | text s => rfl
  | comment s => rfl
  | raw body => exact addShown_above base earlier body true
  | tag body =>
    rw [add, stripBefore_eq] at hin ⊢
    rw [add, stripBefore_eq]
    rcases hsplit : splitTildes body with ⟨left, inner, right⟩
    rw [hsplit] at hin
    cases left with
    | true =>
      exact addTag_above (b := { b with nodes := trimLast b.nodes, strip := right }) base earlier _
        hin
    | false => exact addTag_above (b := { b with strip := right }) base earlier _ hin
  | unclosed rest => rfl
  | overLimit rest => rfl

theorem Inside.of_addAll {ps : List Piece} (h : b'.Inside)
    (hadd : ps.foldlM (add isHelper maxTags maxDepth) b = .ok b') : b.Inside :=
  fun q hq => h q (problems_of_foldlM hadd hq)

theorem addAll_above {ps : List Piece}
    (hadd : ps.foldlM (add isHelper maxTags (maxDepth - height base)) b = .ok b')
    (hin : b'.Inside) :
    ps.foldlM (add isHelper maxTags maxDepth) (b.above base earlier) =
      .ok (b'.above base earlier) := by
  induction ps generalizing b with
  | nil =>
    cases hadd
    rfl
  | cons p ps ih =>
    rw [List.foldlM_cons] at hadd ⊢
    obtain ⟨c, hc, hrest⟩ := ok_of_bind hadd
    have hstep : (b.above base earlier).add isHelper maxTags maxDepth p = _ :=
      add_above base earlier p fun d hd => by
        cases hc.symm.trans hd
        exact hin.of_addAll hrest
    rw [hstep, hc]
    exact ih hrest

end Builder

/-! ### More room -/

/-- No block among some nodes is too deep. -/
def Node.Shallow (limit : Nat) (nodes : List Node) : Prop := ∀ n ∈ nodes, n.depthProblems limit = []

namespace Node.Shallow

variable {limit : Nat} {n : Node} {a : List Node}

theorem nil : Shallow limit [] := fun n hn => by cases hn

theorem cons (hn : n.depthProblems limit = []) (h : Shallow limit a) : Shallow limit (n :: a) := by
  intro m hm
  rcases List.mem_cons.1 hm with rfl | hm
  · exact hn
  · exact h m hm

theorem head (h : Shallow limit (n :: a)) : n.depthProblems limit = [] := h n List.mem_cons_self

theorem tail (h : Shallow limit (n :: a)) : Shallow limit a :=
  fun m hm => h m (List.mem_cons_of_mem n hm)

theorem reverse_iff : Shallow limit a.reverse ↔ Shallow limit a := by
  simp only [Shallow, List.mem_reverse]

theorem depthProblemsOf_iff : depthProblemsOf limit a = [] ↔ Shallow limit a := by
  induction a with
  | nil =>
    rw [depthProblemsOf]
    exact ⟨fun _ => nil, fun _ => rfl⟩
  | cons n a ih =>
    rw [depthProblemsOf, List.append_eq_nil_iff, ih]
    exact ⟨fun h => cons h.1 h.2, fun h => ⟨h.head, h.tail⟩⟩

theorem block_iff {kind : BlockKind} {param : Expr} {token : Text} {tooDeep : Bool}
    {body inverse : List Node} :
    (Node.block kind param token tooDeep body inverse).depthProblems limit = [] ↔
      tooDeep = false ∧ Shallow limit body ∧ Shallow limit inverse := by
  rw [depthProblems]
  cases tooDeep with
  | true => simp
  | false =>
    rw [if_neg Bool.false_ne_true, List.append_eq_nil_iff, depthProblemsOf_iff,
      depthProblemsOf_iff]
    exact ⟨fun h => ⟨rfl, h⟩, fun h => h.2⟩

end Node.Shallow

namespace Builder

open Node

variable {isHelper : Text → Bool} {b b' : Builder} {maxTags maxDepth maxDepth' limit : Nat}
variable {token : Text}

/-- No block that has been read is too deep. -/
structure Shallow (limit : Nat) (b : Builder) : Prop where
  nodes : Node.Shallow limit b.nodes
  stack : ∀ o ∈ b.stack, o.tooDeep = false ∧ Node.Shallow limit o.before ∧
    ∀ body ∈ o.body, Node.Shallow limit body

theorem shallow_close {o : OpenBlock} {nodes : List Node}
    (h : (OpenBlock.close o nodes).depthProblems limit = []) :
    o.tooDeep = false ∧ Node.Shallow limit nodes ∧ ∀ body ∈ o.body, Node.Shallow limit body := by
  rw [OpenBlock.close] at h
  split at h
  · rename_i hbody
    obtain ⟨hdeep, hnodes, -⟩ := Node.Shallow.block_iff.1 h
    refine ⟨hdeep, Node.Shallow.reverse_iff.1 hnodes, fun body hmem => ?_⟩
    rw [hbody] at hmem
    cases hmem
  · rename_i body hbody
    obtain ⟨hdeep, hfirst, hnodes⟩ := Node.Shallow.block_iff.1 h
    refine ⟨hdeep, Node.Shallow.reverse_iff.1 hnodes, fun body' hmem => ?_⟩
    cases hbody.symm.trans hmem
    exact Node.Shallow.reverse_iff.1 hfirst

theorem shallow_closeChain {stack : List OpenBlock} {nodes : List Node} {strip : Bool}
    {problems problems' : List Problem}
    (h : Shallow limit ⟨(closeChain stack nodes).2, (closeChain stack nodes).1, strip, problems⟩) :
    Shallow limit ⟨nodes, stack, strip, problems'⟩ := by
  induction stack generalizing nodes with
  | nil => exact ⟨h.nodes, h.stack⟩
  | cons o stack ih =>
    have hclosed :
        Shallow limit ⟨OpenBlock.close o nodes :: o.before, stack, strip, problems'⟩ := by
      rw [closeChain] at h
      split at h
      · exact ih h
      · exact ⟨h.nodes, h.stack⟩
    obtain ⟨hdeep, hnodes, hbody⟩ := shallow_close hclosed.nodes.head
    refine ⟨hnodes, fun o' ho' => ?_⟩
    rcases List.mem_cons.1 ho' with rfl | ho'
    · exact ⟨hdeep, hclosed.nodes.tail, hbody⟩
    · exact hclosed.stack o' ho'

theorem Shallow.of_addProblem {q : Problem} (h : (b.addProblem q).Shallow limit) :
    b.Shallow limit :=
  ⟨h.nodes.tail, h.stack⟩

theorem Shallow.of_addText {s : Text} (h : (b.addText s).Shallow limit) : b.Shallow limit := by
  refine ⟨?_, h.stack⟩
  have htext : ∀ t, Node.Shallow limit (if t = [] then b.nodes else .text t :: b.nodes) →
      Node.Shallow limit b.nodes := by
    intro t ht
    split at ht
    · exact ht
    · exact ht.tail
  exact htext _ h.nodes

theorem Shallow.of_trimLast {nodes : List Node} (h : Node.Shallow limit (trimLast nodes)) :
    Node.Shallow limit nodes := by
  unfold trimLast at h
  split at h
  · exact .cons rfl h.tail
  · exact h

theorem Shallow.of_addShown {body : Text} {raw : Bool}
    (hadd : b.addShown isHelper token body raw = .ok b') (h : b'.Shallow limit) :
    b.Shallow limit := by
  rcases settle_ok hadd with ⟨e, -, rfl⟩ | ⟨q, rfl⟩
  · exact ⟨h.nodes.tail, h.stack⟩
  · exact h.of_addProblem

theorem Shallow.of_endBranch {top : OpenBlock} {outer : List OpenBlock}
    (hstack : b.stack = top :: outer) (hbody : top.body = none)
    (h : (b.endBranch top outer).Shallow limit) : b.Shallow limit := by
  obtain ⟨hdeep, hbefore, hnodes⟩ := h.stack _ List.mem_cons_self
  refine ⟨hnodes b.nodes rfl, fun o ho => ?_⟩
  rw [hstack] at ho
  rcases List.mem_cons.1 ho with rfl | ho
  · refine ⟨hdeep, hbefore, fun body hmem => ?_⟩
    rw [hbody] at hmem
    cases hmem
  · exact h.stack o (List.mem_cons_of_mem _ ho)

theorem Shallow.of_addElse {chain : Text} (hadd : b.addElse isHelper token chain = .ok b')
    (h : b'.Shallow limit) : b.Shallow limit := by
  unfold addElse at hadd
  split at hadd
  · cases hadd
    exact h.of_addProblem
  · rename_i top outer hstack
    split at hadd
    · cases hadd
      exact h.of_addProblem
    · rename_i hbody
      have hnone : top.body = none := by simpa using hbody
      refine Shallow.of_endBranch hstack hnone ?_
      simp only at hadd
      split at hadd
      · cases hadd
        exact h
      · rcases settle_ok hadd with ⟨⟨kind, param⟩, -, rfl⟩ | ⟨q, rfl⟩
        · exact ⟨h.nodes, fun o ho => h.stack o (List.mem_cons_of_mem _ ho)⟩
        · exact h.of_addProblem

theorem Shallow.of_closeBlock {name : Text} (h : (b.closeBlock token name).Shallow limit) :
    b.Shallow limit := by
  rw [closeBlock] at h
  split at h
  · exact h.of_addProblem
  · split at h
    · have hclosed : Shallow limit ⟨b.nodes, b.stack, b.strip, b.problems⟩ := shallow_closeChain h
      exact hclosed
    · exact h.of_addProblem

/-- A block that is opened and is not too deep is opened in the same way where there is more
room. -/
theorem Shallow.of_openBlock {s : Text}
    (hadd : b.openBlock isHelper maxDepth token s = .ok b') (h : b'.Shallow limit)
    (hroom : maxDepth ≤ maxDepth') :
    b.Shallow limit ∧ b.openBlock isHelper maxDepth' token s = .ok b' := by
  unfold openBlock at hadd ⊢
  cases hread : readBlock isHelper false s with
  | ok found =>
    rw [hread] at hadd
    cases hadd
    obtain ⟨hdeep, hbefore, -⟩ := h.stack _ List.mem_cons_self
    refine ⟨⟨hbefore, fun o ho => h.stack o (List.mem_cons_of_mem _ ho)⟩, ?_⟩
    have hfits : decide (maxDepth < b.depth + 1) = decide (maxDepth' < b.depth + 1) := by
      have := of_decide_eq_false hdeep
      exact decide_eq_decide.2 (by omega)
    simp only [settle, hfits]
  | error e =>
    rw [hread] at hadd
    cases e with
    | problem cause =>
      cases hadd
      exact ⟨h.of_addProblem, rfl⟩
    | fault f => cases hadd

theorem Shallow.of_addTag {body : Text}
    (hadd : b.addTag isHelper maxDepth token body = .ok b') (h : b'.Shallow limit)
    (hroom : maxDepth ≤ maxDepth') :
    b.Shallow limit ∧ b.addTag isHelper maxDepth' token body = .ok b' := by
  revert hadd
  unfold addTag
  split
  · exact fun hadd => ⟨h.of_addElse hadd, hadd⟩
  · split
    · exact fun hadd => ⟨h.of_addElse hadd, hadd⟩
    · split
      · exact fun hadd => h.of_openBlock hadd hroom
      · intro hadd
        cases hadd
        exact ⟨h.of_closeBlock, rfl⟩
      · intro hadd
        cases hadd
        exact ⟨h.of_addProblem, rfl⟩
      · intro hadd
        cases hadd
        exact ⟨h.of_addProblem, rfl⟩
      · exact fun hadd => ⟨h.of_addShown hadd, hadd⟩
      · exact fun hadd => ⟨h.of_addShown hadd, hadd⟩

theorem Shallow.of_add {p : Piece} (hadd : b.add isHelper maxTags maxDepth p = .ok b')
    (h : b'.Shallow limit) (hroom : maxDepth ≤ maxDepth') :
    b.Shallow limit ∧ b.add isHelper maxTags maxDepth' p = .ok b' := by
  cases p with
  | text s =>
    cases hadd
    exact ⟨h.of_addText, rfl⟩
  | comment s =>
    cases hadd
    exact ⟨h, rfl⟩
  | raw body => exact ⟨h.of_addShown hadd, hadd⟩
  | tag body =>
    rw [add, stripBefore_eq] at hadd ⊢
    rcases hsplit : splitTildes body with ⟨left, inner, right⟩
    rw [hsplit] at hadd
    cases left with
    | true =>
      obtain ⟨hstripped, hmore⟩ := h.of_addTag hadd hroom
      exact ⟨⟨Shallow.of_trimLast hstripped.nodes, hstripped.stack⟩, hmore⟩
    | false =>
      obtain ⟨hstripped, hmore⟩ := h.of_addTag hadd hroom
      exact ⟨⟨hstripped.nodes, hstripped.stack⟩, hmore⟩
  | unclosed rest =>
    cases hadd
    exact ⟨h.of_addText.of_addProblem, rfl⟩
  | overLimit rest =>
    cases hadd
    exact ⟨h.of_addText.of_addProblem, rfl⟩

/-- A reading in which no block is too deep is the same one where there is more room. -/
theorem Shallow.of_addAll {ps : List Piece}
    (hadd : ps.foldlM (add isHelper maxTags maxDepth) b = .ok b') (h : b'.Shallow limit)
    (hroom : maxDepth ≤ maxDepth') :
    b.Shallow limit ∧ ps.foldlM (add isHelper maxTags maxDepth') b = .ok b' := by
  induction ps generalizing b with
  | nil =>
    cases hadd
    exact ⟨h, rfl⟩
  | cons p ps ih =>
    rw [List.foldlM_cons] at hadd ⊢
    obtain ⟨c, hc, hrest⟩ := ok_of_bind hadd
    obtain ⟨hshallow, hmore⟩ := ih hrest
    obtain ⟨hfirst, hstep⟩ := hshallow.of_add hc hroom
    rw [hstep]
    exact ⟨hfirst, hmore⟩

end Builder

/-! ### Texts that end behind a tag -/

namespace Piece

variable {s s' t tail : Text} {ps ps' : List Piece} {tags tags' : Nat} {p : Piece}

/-- A closed text and a tag behind it. -/
theorem Scanned.snoc (h : Scanned s ps tags tail) (hbrace : s.getLast? ≠ some '{')
    (hback : s.getLast? ≠ some '\\') (htag : readTag? t = some (p, [])) :
    Scanned (s ++ (opening ++ t)) (ps ++ [.text tail, p]) (tags + 1) [] := by
  induction h with
  | plain h =>
    exact .tag (cut_append_of_bare (by decide) (bare_opening_of_cut h hbrace) t) hback htag
      (.plain rfl)
  | escaped h hescaped hclose _ ih =>
    have hrest := (suffix_of_cut hclose).trans (suffix_of_cut h)
    exact .escaped (cut_append (by decide) h _) hescaped (cut_append (by decide) hclose _)
      (ih (getLast?_of_suffix hrest hbrace) (getLast?_of_suffix hrest hback))
  | tag h hplain hread _ ih =>
    have hrest := (suffix_of_readTag? hread).trans (suffix_of_cut h)
    exact .tag (cut_append (by decide) h _) hplain (readTag?_append hread _)
      (ih (getLast?_of_suffix hrest hbrace) (getLast?_of_suffix hrest hback))

theorem Scanned.append (h : Scanned s ps tags tail) (htail : tail = [])
    (h' : Scanned s' ps' tags' t) : Scanned (s ++ s') (ps ++ ps') (tags + tags') t := by
  induction h with
  | plain h =>
    rw [htail, Nat.zero_add]
    exact h'
  | escaped h hescaped hclose _ ih =>
    exact .escaped (cut_append (by decide) h _) hescaped (cut_append (by decide) hclose _)
      (ih htail)
  | tag h hplain hread _ ih =>
    rw [Nat.add_right_comm]
    exact .tag (cut_append (by decide) h _) hplain (readTag?_append hread _) (ih htail)

end Piece

/-- A text with a number of tags ends behind a tag, and reading it leads from one state to
another. -/
def Compiler.Carries (c : Compiler) (s : Text) (tags : Nat) (b b' : Builder) : Prop :=
  ∃ ps, Piece.Scanned s ps tags [] ∧
    ps.foldlM (Builder.add c.isHelper c.settings.maxTemplateTokens c.settings.maxBlockDepth) b =
      .ok b'

theorem Compiler.Carries.append {c : Compiler} {s s' : Text} {tags tags' : Nat}
    {b b' b'' : Builder} (h : c.Carries s tags b b') (h' : c.Carries s' tags' b' b'') :
    c.Carries (s ++ s') (tags + tags') b b'' := by
  obtain ⟨ps, hscanned, hread⟩ := h
  obtain ⟨ps', hscanned', hread'⟩ := h'
  refine ⟨ps ++ ps', hscanned.append rfl hscanned', ?_⟩
  rw [List.foldlM_append, hread]
  exact hread'

/-! ### Balanced bodies -/

namespace Compiler

variable {c : Compiler} {s : Text} {room room' : Nat}

/-- Reads a text as a page of its own in which blocks may be nested so deep. -/
def readAlone (c : Compiler) (room : Nat) (s : Text) : Except Fault Builder :=
  (Piece.pieces s).foldlM (Builder.add c.isHelper c.settings.maxTemplateTokens room) Builder.start

/-- A text that can stand between the tags of a block: on its own it is a complete page, and no
`else` or closing tag in it belongs to a block outside of it. -/
structure Balanced (c : Compiler) (s : Text) : Prop extends c.Complete s where
  inside : ∀ b, c.readAlone c.settings.maxBlockDepth s = .ok b → b.Inside

/-- The nodes of a text that is read on its own, the last one first. -/
def nodesOf (c : Compiler) (room : Nat) (s : Text) : List Node :=
  ((c.readAlone room s).toOption.map Builder.nodes).getD []

/-- A balanced text is balanced however deep blocks may be nested. -/
theorem Balanced.readAlone_ok (h : c.Balanced s) (room : Nat) :
    ∃ b, c.readAlone room s = .ok b ∧ b.nodes = c.nodesOf room s ∧ b.stack = [] ∧ b.Inside := by
  obtain ⟨b, hb, hstack⟩ := h.blocks
  have hin := h.inside b hb
  have halong : Builder.Along (c.readAlone c.settings.maxBlockDepth s) (c.readAlone room s) :=
    (Builder.Alongside.refl Builder.start).addAll _
  rw [show c.readAlone c.settings.maxBlockDepth s = .ok b from hb] at halong
  cases hroom : c.readAlone room s with
  | error f =>
    rw [hroom] at halong
    cases halong
  | ok b' =>
    rw [hroom] at halong
    cases halong with
    | ok halong =>
      have hstack' := halong.stack
      rw [hstack, List.forall₂_nil_left_iff] at hstack'
      refine ⟨b', rfl, ?_, hstack', fun q hq => hin q (halong.problems ▸ hq)⟩
      rw [nodesOf, hroom]
      rfl

/-- Where no block of a balanced text is too deep, more room changes none of its nodes. -/
theorem Balanced.nodesOf_eq (h : c.Balanced s) (hroom : room ≤ room') {limit : Nat}
    (hshallow : Node.Shallow limit (c.nodesOf room s)) : c.nodesOf room' s = c.nodesOf room s := by
  obtain ⟨b, hb, hnodes, hstack, -⟩ := h.readAlone_ok room
  rw [← hnodes] at hshallow
  have hread : b.Shallow limit := ⟨hshallow, fun o ho => by rw [hstack] at ho; cases ho⟩
  obtain ⟨-, hmore⟩ := hread.of_addAll hb hroom
  rw [← hnodes, nodesOf, show c.readAlone room' s = .ok b from hmore]
  rfl

/-- A balanced text between two tags is read as on its own, whatever blocks are open there. -/
theorem Balanced.carries (h : c.Balanced s) (base : List OpenBlock) (earlier : List Problem) :
    ∃ problems, ∀ {t : Text} {p : Piece} {b' : Builder}, Piece.readTag? t = some (p, []) →
      (⟨c.nodesOf (c.settings.maxBlockDepth - Builder.height base) s, base, false, problems⟩ :
          Builder).add c.isHelper c.settings.maxTemplateTokens c.settings.maxBlockDepth p =
        .ok b' →
      c.Carries (s ++ (Piece.opening ++ t)) (Piece.mustaches s + 1) ⟨[], base, false, earlier⟩
        b' := by
  obtain ⟨ps, tags, tail, hscanned⟩ := h.mustaches
  obtain ⟨b, hb, hnodes, hstack, hin⟩ :=
    h.readAlone_ok (c.settings.maxBlockDepth - Builder.height base)
  rw [readAlone, hscanned.pieces_eq, List.foldlM_append] at hb
  obtain ⟨b₀, hb₀, htail⟩ := ok_of_bind hb
  have hin₀ : b₀.Inside := hin.of_addAll htail
  refine ⟨b₀.problems ++ earlier, fun htag hadd => ?_⟩
  refine ⟨_, hscanned.mustaches_eq ▸ hscanned.snoc h.brace h.backslash htag, ?_⟩
  -- the tail is read in place even if it is empty
  have hend : (b₀.above base earlier).addText tail =
      ⟨c.nodesOf (c.settings.maxBlockDepth - Builder.height base) s, base, false,
        b₀.problems ++ earlier⟩ := by
    rw [← hnodes]
    rw [Piece.prepend_nil] at htail
    split at htail
    · rename_i hnil
      cases htail
      rw [hnil, Builder.addText, Builder.above, hstack]
      simp [trimStart]
    · cases htail
      have hstack₀ : b₀.stack = [] := hstack
      rw [Builder.addText, Builder.above, hstack₀]
      rfl
  have habove := Builder.addAll_above base earlier hb₀ hin₀
  rw [List.foldlM_append]
  show (ps.foldlM _ (Builder.start.above base earlier) >>= _) = _
  rw [habove]
  show ((Builder.add _ _ _ ((b₀.above base earlier).addText tail) _) >>= _) = _
  rw [hend, hadd]
  rfl

end Compiler

end Tender
