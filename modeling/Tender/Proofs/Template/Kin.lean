/-
Readings that differ in the tags of their blocks.

The tag that opened a block shows only if the block is too deep, is left open, or is closed by a tag of
another kind.  So a page without problems is written in the same way whatever the tags were.

* `Kin` — what two readings have in common that differ in the tags of their blocks;
* `Kin.addTag`, `Kin.add`, `Kin.addAll` — a piece that brings no problem to the first reading leaves
  two readings of this kind;
* `Kin.written` — and in the end the same page is written.
-/
import Tender.Proofs.Template.Chain

namespace Tender

open Text

namespace Builder

open Node

variable {isHelper : Text → Bool} {b b' : Builder} {o o' : OpenBlock} {token token' : Text}
variable {stack stack' : List OpenBlock} {nodes nodes' : List Node} {maxTags maxDepth limit : Nat}

/-- Two open blocks that are not too deep and differ only in their tags, and in nodes that are
written in the same way. -/
structure OpenBlock.Kin (o o' : OpenBlock) : Prop where
  kind : o.kind = o'.kind
  param : o.param = o'.param
  chained : o.chained = o'.chained
  shallow : o.tooDeep = false
  shallow' : o'.tooDeep = false
  before : SameText o.before o'.before
  body : Option.Rel SameText o.body o'.body

/-- Two readings that differ only in the tags of their blocks, in problems, in nodes that are written
in the same way, and in what happens to the blanks of the text that follows. -/
structure Kin (b b' : Builder) : Prop where
  nodes : SameEnd b.nodes b'.nodes
  stack : List.Forall₂ OpenBlock.Kin b.stack b'.stack

/-- If a first step ends without a problem and without a block that is too deep, a second one ends
with a reading that differs only in the tags. -/
def Follows (limit : Nat) (x x' : Except Fault Builder) : Prop :=
  ∀ d, x = .ok d → d.problems = [] → d.Shallow limit → ∃ d', x' = .ok d' ∧ Kin d d'

/-! ### Blocks -/

theorem OpenBlock.Kin.refl (h : o.tooDeep = false) : OpenBlock.Kin o o :=
  ⟨rfl, rfl, rfl, h, h, .refl _, (OpenBlock.Twin.refl o).body⟩

theorem OpenBlock.Kin.close (h : OpenBlock.Kin o o') (hnodes : SameText nodes nodes') :
    Same (OpenBlock.close o nodes) (OpenBlock.close o' nodes') := by
  rw [OpenBlock.close, OpenBlock.close, h.kind, h.param, h.shallow, h.shallow']
  have hbody := h.body
  revert hbody
  cases o.body <;> cases o'.body <;> intro hbody <;> cases hbody
  · exact .block_of_shallow hnodes fun _ _ => rfl
  · rename_i hbody
    exact .block_of_shallow hbody hnodes

/-! ### Steps -/

/-- A reading with a problem is followed by any. -/
theorem follows_addProblem (b : Builder) (p : Problem) (x : Except Fault Builder) :
    Follows limit (.ok (b.addProblem p)) x := by
  intro d hd hclean
  cases hd
  cases hclean

theorem follows_ok (h : b.Shallow limit → Kin b b') : Follows limit (.ok b) (.ok b') := by
  intro d hd _ hshallow
  cases hd
  exact ⟨b', rfl, h hshallow⟩

theorem follows_settle {α : Type} (r : Reading α) {add add' : α → Builder}
    (hadd : ∀ a, (add a).Shallow limit → Kin (add a) (add' a)) :
    Follows limit (b.settle token r add) (b'.settle token' r add') := by
  cases r with
  | ok a => exact follows_ok (hadd a)
  | error e =>
    cases e with
    | problem cause => exact follows_addProblem b _ _
    | fault f =>
      intro d hd
      cases hd

namespace Kin

theorem depth (h : Kin b b') : b.depth = b'.depth :=
  depth_rel (fun _ _ ho => ho.chained) h.stack

theorem push (h : Kin b b') {n : Node} (hn : n.isText = false) :
    Kin { b with nodes := n :: b.nodes } { b' with nodes := n :: b'.nodes } :=
  ⟨.cons (.refl n) hn hn h.nodes.same, h.stack⟩

theorem addShown (h : Kin b b') (body : Text) (raw : Bool) :
    Follows limit (b.addShown isHelper token body raw) (b'.addShown isHelper token' body raw) :=
  follows_settle _ fun _ _ => h.push rfl

theorem openBlock (h : Kin b b') (s : Text) :
    Follows limit (b.openBlock isHelper maxDepth token s)
      (b'.openBlock isHelper maxDepth token' s) := by
  refine follows_settle _ fun ⟨kind, param⟩ hshallow => ⟨.refl [], .cons ?_ h.stack⟩
  -- a block that is too deep shows its tag, but this one is not
  have hfits : decide (maxDepth < b.depth + 1) = false :=
    (hshallow.stack _ List.mem_cons_self).1
  refine ⟨rfl, rfl, rfl, hfits, ?_, h.nodes.same, .none⟩
  show decide (maxDepth < b'.depth + 1) = false
  rw [← h.depth]
  exact hfits

theorem endBranch (h : Kin b b') {top top' : OpenBlock} {outer outer' : List OpenBlock}
    (htop : OpenBlock.Kin top top') (houter : List.Forall₂ OpenBlock.Kin outer outer') :
    Kin (b.endBranch top outer) (b'.endBranch top' outer') :=
  ⟨.refl [], .cons { htop with body := .some h.nodes.same } houter⟩

theorem addElse (h : Kin b b') (chain : Text) :
    Follows limit (b.addElse isHelper token chain) (b'.addElse isHelper token' chain) := by
  have hstack := h.stack
  unfold Builder.addElse
  rcases hs : b.stack with _ | ⟨top, outer⟩ <;> rcases hs' : b'.stack with _ | ⟨top', outer'⟩ <;>
    rw [hs, hs'] at hstack <;> cases hstack
  · exact follows_addProblem b _ _
  · rename_i htop houter
    have hbody : top.body.isSome = top'.body.isSome := by
      have hbody := htop.body
      revert hbody
      cases top.body <;> cases top'.body <;> intro hbody <;> cases hbody <;> rfl
    have hend := h.endBranch htop houter
    simp only [hbody]
    split
    · exact follows_addProblem b _ _
    · split
      · exact follows_ok fun _ => hend
      · refine follows_settle _ fun ⟨kind, param⟩ _ => ⟨hend.nodes, .cons ?_ hend.stack⟩
        exact ⟨rfl, rfl, rfl, rfl, rfl, hend.nodes.same, .none⟩

theorem closeBlock (h : Kin b b') (name : Text) :
    Follows limit (.ok (b.closeBlock token name)) (.ok (b'.closeBlock token' name)) := by
  have hfind := find_rel (fun _ _ ho => OpenBlock.Kin.chained ho) h.stack
  rw [Builder.closeBlock, Builder.closeBlock]
  revert hfind
  cases b.stack.find? fun o => !o.chained <;> cases b'.stack.find? fun o => !o.chained <;>
    intro hfind <;> cases hfind
  · exact follows_addProblem b _ _
  · rename_i ho
    simp only [ho.kind]
    split
    · obtain ⟨hstack, hnodes⟩ := closeChain_rel (fun _ _ ho => OpenBlock.Kin.chained ho)
        (fun _ _ _ _ ho hnodes => ⟨ho.close hnodes, ho.before⟩) h.stack h.nodes
      exact follows_ok fun _ => ⟨hnodes, hstack⟩
    · exact follows_addProblem b _ _

/-- A tag with the same body does the same, whatever stands around it. -/
theorem addTag (h : Kin b b') (body : Text) :
    Follows limit (b.addTag isHelper maxDepth token body)
      (b'.addTag isHelper maxDepth token' body) := by
  unfold Builder.addTag
  split
  · exact h.addElse []
  · split
    · exact h.addElse _
    · split
      · exact h.openBlock _
      · exact h.closeBlock _
      · exact follows_addProblem b _ _
      · exact follows_addProblem b _ _
      · exact h.addShown _ true
      · exact h.addShown _ false

theorem withStrip (h : Kin b b') (strip strip' : Bool) :
    Kin { b with strip := strip } { b' with strip := strip' } :=
  ⟨h.nodes, h.stack⟩

/-- Texts that are the same without the blanks they lose leave readings of this kind. -/
theorem addText (h : Kin b b') {s s' : Text}
    (hs : (if b.strip then trimStart s else s) = if b'.strip then trimStart s' else s') :
    Kin (b.addText s) (b'.addText s') := by
  refine ⟨?_, h.stack⟩
  have htext : ∀ t, SameEnd (if t = [] then b.nodes else .text t :: b.nodes)
      (if t = [] then b'.nodes else .text t :: b'.nodes) := by
    intro t
    split
    · exact h.nodes
    · exact h.nodes.text t
  rw [Builder.addText, Builder.addText, hs]
  exact htext _

theorem add (h : Kin b b') (hstrip : b.strip = b'.strip) (p : Piece) :
    Follows limit (b.add isHelper maxTags maxDepth p) (b'.add isHelper maxTags maxDepth p) := by
  cases p with
  | text s => exact follows_ok fun _ => h.addText (by rw [hstrip])
  | comment s => exact follows_ok fun _ => h
  | raw body => exact h.addShown body true
  | tag body =>
    rw [Builder.add, Builder.add, stripBefore_eq, stripBefore_eq]
    rcases splitTildes body with ⟨left, inner, right⟩
    cases left with
    | true =>
      have hstripped : Kin ⟨trimLast b.nodes, b.stack, right, b.problems⟩
          ⟨trimLast b'.nodes, b'.stack, right, b'.problems⟩ := ⟨h.nodes.trimLast, h.stack⟩
      exact hstripped.addTag _
    | false => exact (h.withStrip right right).addTag _
  | unclosed rest =>
    intro d hd hclean
    cases hd
    cases hclean
  | overLimit rest =>
    intro d hd hclean
    cases hd
    cases hclean

end Kin

/-! ### Whole pages -/

/-- A tag leaves the blanks of the text that follows to the tildes. -/
theorem strip_addTag {body : Text} (h : b.addTag isHelper maxDepth token body = .ok b') :
    b'.strip = b.strip := by
  cases addTag_ok h <;> rfl

/-- What happens to the blanks of the text that follows depends on the piece alone. -/
theorem strip_add_eq {d d' : Builder} (hstrip : b.strip = b'.strip) {p : Piece}
    (h : b.add isHelper maxTags maxDepth p = .ok d)
    (h' : b'.add isHelper maxTags maxDepth p = .ok d') : d.strip = d'.strip := by
  cases p with
  | text s =>
    cases h
    cases h'
    rfl
  | comment s =>
    cases h
    cases h'
    exact hstrip
  | raw body =>
    have hkept : d.strip = b.strip := by cases addShown_ok h <;> rfl
    have hkept' : d'.strip = b'.strip := by cases addShown_ok h' <;> rfl
    rw [hkept, hkept', hstrip]
  | tag body => exact (strip_addTag h).trans (strip_addTag h').symm
  | unclosed rest =>
    cases h
    cases h'
    rfl
  | overLimit rest =>
    cases h
    cases h'
    rfl

/-- A block that is left open is reported unless it is chained. -/
theorem chained_of_spliceOpen {problems : List Problem}
    (hclean : (spliceOpen stack nodes problems).2 = []) : ∀ o ∈ stack, o.chained = true := by
  intro o ho
  cases hchained : o.chained with
  | true => rfl
  | false =>
    have hreported := (problems_of_spliceOpen stack nodes problems).2 o ho hchained
    rw [hclean] at hreported
    cases hreported

theorem spliceOpen_chained (h : o.chained = true) (stack : List OpenBlock) (nodes : List Node)
    (problems : List Problem) : spliceOpen (o :: stack) nodes problems =
      spliceOpen stack (nodes ++ o.body.getD [] ++ o.before) problems := by
  rw [spliceOpen]
  exact if_pos h

namespace Kin

/-- A row of pieces that brings no problem to the first reading leaves readings that differ only in
the tags. -/
theorem addAll (h : Kin b b') (hstrip : b.strip = b'.strip) {ps : List Piece} {d : Builder}
    (hadd : ps.foldlM (Builder.add isHelper maxTags maxDepth) b = .ok d)
    (hclean : d.problems = []) (hshallow : d.Shallow limit) :
    ∃ d', ps.foldlM (Builder.add isHelper maxTags maxDepth) b' = .ok d' ∧ Kin d d' := by
  induction ps generalizing b b' with
  | nil =>
    cases hadd
    exact ⟨b', rfl, h⟩
  | cons p ps ih =>
    rw [List.foldlM_cons] at hadd ⊢
    obtain ⟨e, he, hrest⟩ := ok_of_bind hadd
    have hfirst : e.problems = [] :=
      List.subset_nil.1 (hclean ▸ problems_of_foldlM hrest)
    obtain ⟨e', he', hkin⟩ := h.add hstrip p e he hfirst
      (hshallow.of_addAll hrest (Nat.le_refl _)).1
    rw [he']
    exact ih hkin (strip_add_eq hstrip he he') hrest

/-- Blocks that are left open and not reported are put in their places in the same way. -/
theorem sameText_spliceOpen (hstack : List.Forall₂ OpenBlock.Kin stack stack')
    (hnodes : SameText nodes nodes') {problems : List Problem} (problems' : List Problem)
    (hclean : (spliceOpen stack nodes problems).2 = []) :
    SameText (spliceOpen stack nodes problems).1 (spliceOpen stack' nodes' problems').1 := by
  induction hstack generalizing nodes nodes' problems problems' with
  | nil => exact hnodes
  | @cons o o' stack stack' ho hstack ih =>
    have hchained := chained_of_spliceOpen hclean o List.mem_cons_self
    rw [spliceOpen_chained hchained] at hclean ⊢
    rw [spliceOpen_chained (ho.chained ▸ hchained)]
    exact ih ((hnodes.append (sameText_getD ho.body)).append ho.before) _ hclean

/-- Where no block is left open that is reported, the same page is written. -/
theorem written (h : Kin b b') (hclean : (spliceOpen b.stack b.nodes b.problems).2 = [])
    (env : Surroundings) : b.written maxDepth env = b'.written maxDepth env :=
  sameText_spliceOpen h.stack h.nodes.same _ hclean maxDepth env

end Kin

end Builder

end Tender
