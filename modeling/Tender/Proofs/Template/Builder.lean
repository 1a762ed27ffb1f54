/-
What adding a piece does to a page.

* `addTag_ok` — a tag adds a problem or a shown value, or it opens, branches or closes a block
  (`Move`);
* `texts_add`, `texts_read` — so a property of texts that trimming keeps passes from the pieces of
  a page to the literal texts of the page.
-/
import Tender.Proofs.Template.Piece
import Tender.Proofs.Template.Written
import Tender.Proofs.Text.Blank

namespace Tender

open Text

/-! ### Literal texts of nodes -/

/-- All literal texts of nodes have a property. -/
def Node.AllTexts (P : Text → Prop) (nodes : List Node) : Prop := ∀ s ∈ Node.textsOf nodes, P s

namespace Node.AllTexts

variable {P : Text → Prop} {n : Node} {a b : List Node}

theorem nil : AllTexts P [] := by
  intro s hs
  rw [textsOf_nil] at hs
  cases hs

theorem cons (hn : ∀ s ∈ n.texts, P s) (h : AllTexts P a) : AllTexts P (n :: a) := by
  intro s hs
  rw [textsOf_cons] at hs
  rcases List.mem_append.1 hs with hs | hs
  · exact hn s hs
  · exact h s hs

theorem tail (h : AllTexts P (n :: a)) : AllTexts P a := by
  intro s hs
  refine h s ?_
  rw [textsOf_cons]
  exact List.mem_append_right _ hs

theorem append (ha : AllTexts P a) (hb : AllTexts P b) : AllTexts P (a ++ b) := by
  intro s hs
  rw [textsOf_append] at hs
  rcases List.mem_append.1 hs with hs | hs
  · exact ha s hs
  · exact hb s hs

theorem reverse (h : AllTexts P a) : AllTexts P a.reverse := by
  intro s hs
  obtain ⟨n, hn, hs⟩ := mem_textsOf.1 hs
  exact h s (mem_textsOf.2 ⟨n, List.mem_reverse.1 hn, hs⟩)

end Node.AllTexts

namespace Builder

variable {isHelper : Text → Bool} {b b' : Builder} {token : Text}

/-! ### Moves -/

/-- What has been read once the first branch of the innermost block has ended. -/
def endBranch (b : Builder) (top : OpenBlock) (outer : List OpenBlock) : Builder :=
  { b with nodes := [], stack := { top with body := some b.nodes } :: outer }

/-- What has been read once the innermost block that is not chained is closed. -/
def closeTop (b : Builder) : Builder :=
  { b with
    stack := (closeChain b.stack b.nodes).1
    nodes := (closeChain b.stack b.nodes).2 }

/-- What a tag can do. -/
inductive Move (token : Text) (b : Builder) : Builder → Prop
  | problem (p : Problem) : Move token b (b.addProblem p)
  | shown (e : Expr) (raw : Bool) : Move token b { b with nodes := .shown e raw :: b.nodes }
  | opening (kind : BlockKind) (param : Expr) (tooDeep : Bool) : Move token b
      { b with nodes := [], stack := ⟨kind, param, token, false, tooDeep, b.nodes, none⟩ :: b.stack }
  | closing : Move token b b.closeTop
  | branch {top : OpenBlock} {outer : List OpenBlock} (h : b.stack = top :: outer) :
      Move token b (b.endBranch top outer)
  | brokenBranch {top : OpenBlock} {outer : List OpenBlock} (h : b.stack = top :: outer)
      (p : Problem) : Move token b ((b.endBranch top outer).addProblem p)
  | chain {top : OpenBlock} {outer : List OpenBlock} (h : b.stack = top :: outer)
      (kind : BlockKind) (param : Expr) : Move token b
        { b.endBranch top outer with
          stack := ⟨kind, param, token, true, false, [], none⟩ :: (b.endBranch top outer).stack }

theorem settle_ok {α : Type} {r : Reading α} {add : α → Builder}
    (h : b.settle token r add = .ok b') :
    (∃ a, r = .ok a ∧ b' = add a) ∨ ∃ p, b' = b.addProblem p := by
  unfold settle at h
  split at h
  · cases h
    exact .inl ⟨_, rfl, rfl⟩
  · cases h
    exact .inr ⟨_, rfl⟩
  · cases h

theorem addShown_ok {body : Text} {raw : Bool} (h : b.addShown isHelper token body raw = .ok b') :
    Move token b b' := by
  rcases settle_ok h with ⟨e, -, rfl⟩ | ⟨p, rfl⟩
  · exact .shown e raw
  · exact .problem p

theorem openBlock_ok {maxDepth : Nat} {s : Text}
    (h : b.openBlock isHelper maxDepth token s = .ok b') : Move token b b' := by
  rcases settle_ok h with ⟨⟨kind, param⟩, -, rfl⟩ | ⟨p, rfl⟩
  · exact .opening kind param _
  · exact .problem p

theorem addElse_ok {chain : Text} (h : b.addElse isHelper token chain = .ok b') :
    Move token b b' := by
  unfold addElse at h
  split at h
  · cases h
    exact .problem _
  · rename_i top outer hstack
    split at h
    · cases h
      exact .problem _
    · simp only at h
      split at h
      · cases h
        exact .branch hstack
      · rcases settle_ok h with ⟨⟨kind, param⟩, -, rfl⟩ | ⟨p, rfl⟩
        · exact .chain hstack kind param
        · exact .brokenBranch hstack p

theorem closeBlock_move (b : Builder) (token name : Text) :
    Move token b (b.closeBlock token name) := by
  rw [closeBlock]
  split
  · exact .problem _
  · split
    · exact .closing
    · exact .problem _

theorem addTag_ok {maxDepth : Nat} {body : Text}
    (h : b.addTag isHelper maxDepth token body = .ok b') : Move token b b' := by
  unfold addTag at h
  split at h
  · exact addElse_ok h
  · split at h
    · exact addElse_ok h
    · split at h
      · exact openBlock_ok h
      · cases h
        exact closeBlock_move b token _
      · cases h
        exact .problem _
      · cases h
        exact .problem _
      · exact addShown_ok h
      · exact addShown_ok h

/-! ### Literal texts -/

/-- All literal texts that have been read have a property. -/
structure AllTexts (P : Text → Prop) (b : Builder) : Prop where
  nodes : Node.AllTexts P b.nodes
  stack : ∀ o ∈ b.stack, Node.AllTexts P o.before ∧ ∀ body ∈ o.body, Node.AllTexts P body

variable {P : Text → Prop}

theorem texts_close {o : OpenBlock} {nodes : List Node} (hnodes : Node.AllTexts P nodes)
    (hbody : ∀ body ∈ o.body, Node.AllTexts P body) : ∀ s ∈ (OpenBlock.close o nodes).texts, P s := by
  intro s hs
  rw [OpenBlock.close] at hs
  split at hs
  · rw [Node.texts, Node.textsOf_nil, List.append_nil] at hs
    exact hnodes.reverse s hs
  · rename_i body hsome
    rw [Node.texts] at hs
    rcases List.mem_append.1 hs with hs | hs
    · exact (hbody body hsome).reverse s hs
    · exact hnodes.reverse s hs

theorem texts_closeChain {stack : List OpenBlock} {nodes : List Node}
    (hnodes : Node.AllTexts P nodes)
    (hstack : ∀ o ∈ stack, Node.AllTexts P o.before ∧ ∀ body ∈ o.body, Node.AllTexts P body) :
    Node.AllTexts P (closeChain stack nodes).2 ∧ (closeChain stack nodes).1 ⊆ stack := by
  induction stack generalizing nodes with
  | nil => exact ⟨hnodes, List.nil_subset _⟩
  | cons o stack ih =>
    obtain ⟨hbefore, hbody⟩ := hstack o List.mem_cons_self
    have hclosed : Node.AllTexts P (OpenBlock.close o nodes :: o.before) :=
      .cons (texts_close hnodes hbody) hbefore
    rw [closeChain]
    split
    · obtain ⟨hrest, hsub⟩ := ih hclosed fun o' ho' => hstack o' (List.mem_cons_of_mem o ho')
      exact ⟨hrest, List.Subset.trans hsub (List.subset_cons_self o stack)⟩
    · exact ⟨hclosed, List.subset_cons_self o stack⟩

theorem AllTexts.addProblem (h : b.AllTexts P) (p : Problem) : (b.addProblem p).AllTexts P :=
  ⟨.cons (fun s hs => by simp at hs) h.nodes, h.stack⟩

theorem AllTexts.endBranch (h : b.AllTexts P) {top : OpenBlock} {outer : List OpenBlock}
    (hstack : b.stack = top :: outer) : (b.endBranch top outer).AllTexts P := by
  refine ⟨.nil, fun o ho => ?_⟩
  rcases List.mem_cons.1 ho with rfl | ho
  · refine ⟨(h.stack top (hstack ▸ List.mem_cons_self)).1, fun body hbody => ?_⟩
    cases hbody
    exact h.nodes
  · exact h.stack o (hstack ▸ List.mem_cons_of_mem top ho)

theorem AllTexts.move (h : b.AllTexts P) (hmove : Move token b b') : b'.AllTexts P := by
  cases hmove with
  | problem p => exact h.addProblem p
  | shown e raw =>
    exact ⟨.cons (fun s hs => by simp at hs) h.nodes, h.stack⟩
  | opening kind param tooDeep =>
    refine ⟨.nil, fun o ho => ?_⟩
    rcases List.mem_cons.1 ho with rfl | ho
    · exact ⟨h.nodes, fun body hbody => by cases hbody⟩
    · exact h.stack o ho
  | closing =>
    obtain ⟨hnodes, hsub⟩ := texts_closeChain h.nodes h.stack
    exact ⟨hnodes, fun o ho => h.stack o (hsub ho)⟩
  | branch hstack => exact h.endBranch hstack
  | brokenBranch hstack p => exact (h.endBranch hstack).addProblem p
  | chain hstack kind param =>
    refine ⟨.nil, fun o ho => ?_⟩
    rcases List.mem_cons.1 ho with rfl | ho
    · exact ⟨.nil, fun body hbody => by cases hbody⟩
    · exact (h.endBranch hstack).stack o ho

/-- A property of texts that trimming keeps. -/
structure Trimmable (P : Text → Prop) : Prop where
  start : ∀ s, P s → P (trimStart s)
  end_ : ∀ s, P s → P (trimEnd s)

theorem AllTexts.addText (h : b.AllTexts P) (htrim : Trimmable P) {s : Text} (hs : P s) :
    (b.addText s).AllTexts P := by
  have htext : P (if b.strip then trimStart s else s) := by
    split
    · exact htrim.start s hs
    · exact hs
  refine ⟨?_, h.stack⟩
  show Node.AllTexts P (if (if b.strip then trimStart s else s) = [] then b.nodes
    else .text (if b.strip then trimStart s else s) :: b.nodes)
  by_cases hnil : (if b.strip then trimStart s else s) = []
  · rw [if_pos hnil]
    exact h.nodes
  · rw [if_neg hnil]
    refine .cons (fun t ht => ?_) h.nodes
    rw [Node.texts_text] at ht
    rw [List.mem_singleton.1 ht]
    exact htext

theorem AllTexts.stripBefore (h : b.AllTexts P) (htrim : Trimmable P) :
    b.stripBefore.AllTexts P := by
  rw [Builder.stripBefore]
  split
  · rename_i s rest hnodes
    have hall := h.nodes
    rw [hnodes] at hall
    refine ⟨.cons (fun t ht => ?_) hall.tail, h.stack⟩
    rw [Node.texts_text] at ht
    rw [List.mem_singleton.1 ht]
    refine htrim.end_ s (hall s ?_)
    rw [Node.textsOf_cons, Node.texts_text]
    exact List.mem_append_left _ List.mem_cons_self
  · exact h

variable {isHelper : Text → Bool} {P : Text → Prop} {b b' : Builder} {maxTags maxDepth : Nat}

theorem texts_add (htrim : Trimmable P) (h : b.AllTexts P) {p : Piece}
    (hp : ∀ s ∈ p.literal?, P s) (hadd : b.add isHelper maxTags maxDepth p = .ok b') :
    b'.AllTexts P := by
  cases p with
  | text s =>
    cases hadd
    exact h.addText htrim (hp s rfl)
  | comment s =>
    cases hadd
    exact h
  | raw body => exact h.move (addShown_ok hadd)
  | unclosed rest =>
    cases hadd
    exact (h.addProblem _).addText htrim (hp rest rfl)
  | overLimit rest =>
    cases hadd
    exact (h.addProblem _).addText htrim (hp rest rfl)
  | tag body =>
    rw [add] at hadd
    rcases hsplit : splitTildes body with ⟨left, inner, right⟩
    rw [hsplit] at hadd
    -- a left tilde trims the text before the tag
    cases left with
    | true =>
      have hstripped := h.stripBefore htrim
      exact AllTexts.move (b := { b.stripBefore with strip := right })
        ⟨hstripped.nodes, hstripped.stack⟩ (addTag_ok hadd)
    | false =>
      exact AllTexts.move (b := { b with strip := right }) ⟨h.nodes, h.stack⟩ (addTag_ok hadd)

theorem texts_addAll (htrim : Trimmable P) {ps : List Piece} (h : b.AllTexts P)
    (hps : ∀ p ∈ ps, ∀ s ∈ p.literal?, P s)
    (hadd : ps.foldlM (add isHelper maxTags maxDepth) b = .ok b') : b'.AllTexts P := by
  induction ps generalizing b with
  | nil =>
    cases hadd
    exact h
  | cons p ps ih =>
    rw [List.foldlM_cons] at hadd
    obtain ⟨c, hc, hrest⟩ := ok_of_bind hadd
    exact ih (texts_add htrim h (hps p List.mem_cons_self) hc)
      (fun q hq => hps q (List.mem_cons_of_mem p hq)) hrest

theorem texts_spliceOpen {stack : List OpenBlock} {nodes : List Node} {problems : List Problem}
    (hnodes : Node.AllTexts P nodes)
    (hstack : ∀ o ∈ stack, Node.AllTexts P o.before ∧ ∀ body ∈ o.body, Node.AllTexts P body) :
    Node.AllTexts P (spliceOpen stack nodes problems).1 := by
  induction stack generalizing nodes problems with
  | nil => exact hnodes
  | cons o stack ih =>
    obtain ⟨hbefore, hbody⟩ := hstack o List.mem_cons_self
    have hrest : ∀ o' ∈ stack, _ := fun o' ho' => hstack o' (List.mem_cons_of_mem o ho')
    have hcontent : Node.AllTexts P (nodes ++ o.body.getD []) := by
      cases hsome : o.body with
      | none => exact hnodes.append .nil
      | some body => exact hnodes.append (hbody body hsome)
    rw [spliceOpen]
    simp only
    split
    · exact ih (hcontent.append hbefore) hrest
    · exact ih (hcontent.append (.cons (fun s hs => by simp at hs) hbefore)) hrest

end Builder

/-- A property that trimming keeps holds of all literal texts of a page if it holds of the texts
among its pieces. -/
theorem Page.texts_read {isHelper : Text → Bool} {maxTags maxDepth : Nat} {source : Text}
    {page : Page} {P : Text → Prop} (htrim : Builder.Trimmable P)
    (h : Page.read isHelper maxTags maxDepth source = .ok page)
    (hpieces : ∀ p ∈ Piece.ofPage maxTags source, ∀ s ∈ p.literal?, P s) :
    Node.AllTexts P page.nodes := by
  rw [Page.read] at h
  obtain ⟨b, hb, h⟩ := ok_of_bind h
  cases h
  have hstart : Builder.start.AllTexts P := ⟨.nil, fun o ho => by cases ho⟩
  have hall := Builder.texts_addAll htrim hstart hpieces hb
  exact (Builder.texts_spliceOpen hall.nodes hall.stack).reverse

/-- The literal texts of a page stand in its source. -/
theorem Page.infix_of_mem_textsOf {isHelper : Text → Bool} {maxTags maxDepth : Nat} {source : Text}
    {page : Page} (h : Page.read isHelper maxTags maxDepth source = .ok page) :
    ∀ s ∈ Node.textsOf page.nodes, s <:+: source := by
  have htrim : Builder.Trimmable fun s => s <:+: source :=
    ⟨fun s hs => (trimStart_isSuffix s).isInfix.trans hs,
      fun s hs => (trimEnd_isPrefix s).isInfix.trans hs⟩
  exact Page.texts_read htrim h fun p hp s hs => Piece.infix_of_mem_ofPage hp hs

end Tender
