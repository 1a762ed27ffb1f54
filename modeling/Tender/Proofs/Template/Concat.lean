/-
Pages put one behind the other.

* `piecesFrom_of_mustaches` — a limit that the mustaches of a text do not pass changes none of its
  pieces;
* `Builder.add_onto`, `Builder.addAll_onto` — nodes that stand in front of everything are left alone
  by all that is read behind them, if no tag takes blanks from the text around it;
* `Builder.written_onto` — and they are written in front;
* `Compiler.compile_append` — so a page whose mustaches and blocks are closed and another page behind
  it are compiled as each of them is on its own.
-/
import Tender.Proofs.Plain
import Tender.Proofs.Template.Builder
import Tender.Proofs.Template.Locality

namespace Tender

open Text

/-- A tag in which no tilde stands has none at its ends. -/
theorem Builder.splitTildes_of_not_mem {body : Text} (h : '~' ∉ body) :
    splitTildes body = (false, body, false) := by
  have hlast : body.getLast? ≠ some '~' := fun hmem => h (List.mem_of_getLast? hmem)
  unfold splitTildes
  split
  rename_i left inner heq
  split at heq
  · exact absurd List.mem_cons_self h
  · cases heq
    split
    · rename_i hend
      exact absurd hend hlast
    · rfl

namespace Piece

variable {budget limit : Nat} {done ps : List Piece} {s tail : Text} {tags : Nat}

/-! ### Counting mustaches -/

/-- Whether a piece is a mustache; an escaped one is text. -/
def isMustache : Piece → Bool
  | .text _ => false
  | .overLimit _ => false
  | _ => true

/-- All pieces of a text, whatever the limit: a text has fewer mustaches than characters. -/
def pieces (s : Text) : List Piece :=
  ofPage s.length s

/-- How many mustaches stand in a text. -/
def mustaches (s : Text) : Nat :=
  (pieces s).countP isMustache

theorem isMustache_of_readTag? {p : Piece} {rest : Text} (h : readTag? s = some (p, rest)) :
    p.isMustache = true := by
  unfold readTag? at h
  split at h <;>
  · obtain ⟨⟨a, b⟩, -, heq⟩ := Option.map_eq_some_iff.1 h
    cases heq
    rfl

/-- As many tags as there are characters are never too many. -/
theorem not_overLimit_of_length (hlength : s.length ≤ budget)
    (hdone : ∀ more, .overLimit more ∉ done) (more : Text) :
    .overLimit more ∉ piecesFrom budget done s := by
  fun_induction piecesFrom budget done s with
  | case1 budget done s hcut =>
    split
    · simpa using hdone more
    · simpa using hdone more
  | case2 budget done s before after hcut => simpa using hdone more
  | case3 budget done s before after hcut hescaped body rest hclose ih =>
    refine ih ?_ fun more => by simpa using hdone more
    exact ((suffix_of_cut hclose).trans (suffix_of_cut hcut)).length_le.trans hlength
  | case4 done s before after hcut =>
    have := length_of_cut hcut
    simp only [opening, List.length_cons, List.length_nil] at this
    omega
  | case5 done s before after hcut => simpa using hdone more
  | case6 done s before after hcut hplain budget p rest htag ih =>
    refine ih ?_ fun more hmem => ?_
    · have := length_of_cut hcut
      have := length_readTag htag
      omega
    · rcases List.mem_cons.1 hmem with rfl | hmem
      · cases isMustache_of_readTag? htag
      · rcases List.mem_cons.1 hmem with hmem | hmem
        · cases hmem
        · exact hdone more hmem

/-- A limit that the mustaches of a text do not pass changes none of its pieces. -/
theorem piecesFrom_of_mustaches (hall : ∀ more, .overLimit more ∉ piecesFrom budget done s)
    (hlimit : (piecesFrom budget [] s).countP isMustache ≤ limit) :
    piecesFrom limit done s = piecesFrom budget done s := by
  fun_induction piecesFrom budget done s generalizing limit with
  | case1 budget done s hcut => exact piecesFrom_plain hcut
  | case2 budget done s before after hcut hescaped hclose =>
    exact piecesFrom_escaped_unclosed hcut hescaped hclose
  | case3 budget done s before after hcut hescaped body rest hclose ih =>
    rw [piecesFrom_escaped hcut hescaped hclose, piecesFrom_eq, List.countP_append] at hlimit
    rw [piecesFrom_escaped hcut hescaped hclose, ih hall (by omega)]
  | case4 done s before after hcut hplain =>
    exact absurd (List.mem_reverse.2 List.mem_cons_self) (hall _)
  | case5 done s before after hcut hplain budget htag =>
    rw [piecesFrom_unclosed hcut hplain htag] at hlimit
    obtain ⟨room, rfl⟩ := Nat.exists_eq_add_of_le' (show 1 ≤ limit from hlimit)
    exact piecesFrom_unclosed hcut hplain htag
  | case6 done s before after hcut hplain budget p rest htag ih =>
    have hp := isMustache_of_readTag? htag
    rw [piecesFrom_tag hcut hplain htag, piecesFrom_eq, List.countP_append] at hlimit
    simp only [List.reverse_cons, List.reverse_nil, List.nil_append, List.countP_append,
      List.countP_singleton, hp, if_true] at hlimit
    obtain ⟨room, rfl⟩ := Nat.exists_eq_add_of_le' (show 1 ≤ limit by omega)
    rw [piecesFrom_tag hcut hplain htag, ih hall (by omega)]

theorem ofPage_of_mustaches (h : mustaches s ≤ limit) : ofPage limit s = pieces s :=
  piecesFrom_of_mustaches
    (not_overLimit_of_length (Nat.le_refl _) fun _ hmem => by cases hmem) h

theorem prepend_nil (w : Text) : prepend w [] = if w = [] then [] else [.text w] := rfl

/-- The pieces of a closed text are what it is scanned as and its plain tail. -/
theorem Scanned.ofPage_eq (h : Scanned s ps tags tail) (budget : Nat) :
    ofPage (budget + tags) s = ps ++ prepend tail [] := by
  have hpieces := h.piecesFrom_append budget []
  rw [List.append_nil, List.append_nil, piecesFrom_plain h.cut_tail] at hpieces
  rw [ofPage, hpieces, prepend_nil]
  split <;> rfl

theorem Scanned.countP_eq (h : Scanned s ps tags tail) : ps.countP isMustache = tags := by
  induction h with
  | plain => rfl
  | escaped h hescaped hclose _ ih =>
    rw [List.countP_cons, List.countP_cons, ih]
    rfl
  | tag h hplain htag _ ih =>
    rw [List.countP_cons, List.countP_cons, ih, isMustache_of_readTag? htag]
    rfl

theorem Scanned.pieces_eq (h : Scanned s ps tags tail) : pieces s = ps ++ prepend tail [] := by
  have hall : ∀ more, .overLimit more ∉ piecesFrom s.length [] (s ++ []) := by
    rw [List.append_nil]
    exact not_overLimit_of_length (Nat.le_refl _) fun _ hmem => by cases hmem
  obtain ⟨room, hroom⟩ := Nat.exists_eq_add_of_le' (h.tags_le hall)
  rw [pieces, hroom, h.ofPage_eq]

theorem Scanned.mustaches_eq (h : Scanned s ps tags tail) : mustaches s = tags := by
  rw [mustaches, h.pieces_eq, List.countP_append, h.countP_eq, prepend_nil]
  split <;> rfl

/-- The pieces of a closed text and of another text behind it are those of the two, but for the
plain text where they meet. -/
theorem Scanned.ofPage_append (h : Scanned s ps tags tail) (hbrace : s.getLast? ≠ some '{')
    (hback : s.getLast? ≠ some '\\') {s' : Text} (hlimit : mustaches s + mustaches s' ≤ limit) :
    ofPage limit (s ++ s') = ps ++ prepend tail (pieces s') := by
  have hbare := bare_opening_of_cut h.cut_tail (getLast?_of_suffix h.tail_suffix hbrace)
  rw [h.mustaches_eq] at hlimit
  obtain ⟨budget, rfl⟩ := Nat.exists_eq_add_of_le' (show tags ≤ limit by omega)
  have hrest : piecesFrom budget [] s' = pieces s' := ofPage_of_mustaches (by omega)
  rw [ofPage, h.piecesFrom_append,
    piecesFrom_bare_append hbare (getLast?_of_suffix h.tail_suffix hback), hrest]

/-- Pieces start with a text, if there are any. -/
theorem pieces_head (s : Text) : pieces s = [] ∨ ∃ t ps, pieces s = .text t :: ps :=
  piecesFrom_head s.length s

/-! ### Tildes -/

/-- A piece that takes no blanks from the text around it. -/
def KeepsBlanks : Piece → Prop
  | .tag body => Builder.splitTildes body = (false, body, false)
  | _ => True

theorem infix_of_tag {source body : Text} (hs : s <:+ source)
    (h : .tag body ∈ piecesFrom budget done s) : .tag body ∈ done ∨ body <:+: source := by
  fun_induction piecesFrom budget done s with
  | case1 budget done s hcut =>
    refine .inl ?_
    split at h
    · simpa using h
    · simpa using h
  | case2 budget done s before after hcut => exact .inl (by simpa using h)
  | case3 budget done s before after hcut hescaped rest body' hclose ih =>
    simpa using ih ((suffix_of_cut hclose).trans ((suffix_of_cut hcut).trans hs)) h
  | case4 done s before after hcut => exact .inl (by simpa using h)
  | case5 done s before after hcut => exact .inl (by simpa using h)
  | case6 done s before after hcut hplain budget p rest htag ih =>
    have hafter := (suffix_of_cut hcut).trans hs
    rcases ih ((suffix_of_readTag? htag).trans hafter) h with hdone | hinside
    · rcases List.mem_cons.1 hdone with rfl | hdone
      · have hbody : body <+: after := ⟨closing ++ rest, (cut_eq (cut_of_readTag htag).1).symm⟩
        exact .inr (hbody.isInfix.trans hafter.isInfix)
      · exact .inl (by simpa using hdone)
    · exact .inr hinside

/-- A page in which no tilde stands has none at the ends of its tags. -/
theorem keepsBlanks_of_not_mem (hs : '~' ∉ s) : ∀ p ∈ ofPage limit s, p.KeepsBlanks := by
  intro p hp
  cases p with
  | tag body =>
    have hbody : '~' ∉ body := by
      rcases infix_of_tag (List.suffix_refl s) hp with hnil | hinside
      · cases hnil
      · exact fun hmem => hs (hinside.subset hmem)
    exact Builder.splitTildes_of_not_mem hbody
  | text => trivial
  | comment => trivial
  | raw => trivial
  | unclosed => trivial
  | overLimit => trivial

end Piece

namespace Builder

open Node

variable {isHelper : Text → Bool} {b b' : Builder} {maxTags maxDepth : Nat} {token : Text}

/-! ### Reading behind other nodes -/

/-- Open blocks and the nodes of their innermost branch, with other nodes (the last one first) in
front of everything. -/
def behind (front : List Node) : List OpenBlock → List Node → List OpenBlock × List Node
  | [], nodes => ([], nodes ++ front)
  | o :: stack, nodes =>
    ({ o with before := (behind front stack o.before).2 } :: (behind front stack o.before).1, nodes)

/-- What has been read, with other nodes in front of it and problems found earlier. -/
def onto (front : List Node) (earlier : List Problem) (b : Builder) : Builder :=
  { b with
    nodes := (behind front b.stack b.nodes).2
    stack := (behind front b.stack b.nodes).1
    problems := b.problems ++ earlier }

variable (front : List Node) (earlier : List Problem)

theorem behind_append (stack : List OpenBlock) (more nodes : List Node) :
    behind front stack (more ++ nodes) =
      ((behind front stack nodes).1, more ++ (behind front stack nodes).2) := by
  cases stack with
  | nil => rw [behind, behind, List.append_assoc]
  | cons o stack => rfl

theorem behind_cons (stack : List OpenBlock) (n : Node) (nodes : List Node) :
    behind front stack (n :: nodes) =
      ((behind front stack nodes).1, n :: (behind front stack nodes).2) :=
  behind_append front stack [n] nodes

/-- What is in front of the open blocks does not show in how many there are. -/
theorem countP_behind (stack : List OpenBlock) (nodes : List Node) :
    ((behind front stack nodes).1.countP fun o => !o.chained) =
      stack.countP fun o => !o.chained := by
  induction stack generalizing nodes with
  | nil => rfl
  | cons o stack ih => rw [behind, List.countP_cons, List.countP_cons, ih]

theorem find_behind (stack : List OpenBlock) (nodes : List Node) :
    ((behind front stack nodes).1.find? fun o => !o.chained).map (fun o => (o.kind, o.token)) =
      (stack.find? fun o => !o.chained).map fun o => (o.kind, o.token) := by
  induction stack generalizing nodes with
  | nil => rfl
  | cons o stack ih =>
    rw [behind, List.find?_cons, List.find?_cons]
    cases o.chained with
    | true => exact ih o.before
    | false => rfl

theorem closeChain_behind (stack : List OpenBlock) (nodes : List Node) :
    closeChain (behind front stack nodes).1 (behind front stack nodes).2 =
      behind front (closeChain stack nodes).1 (closeChain stack nodes).2 := by
  induction stack generalizing nodes with
  | nil => rfl
  | cons o stack ih =>
    have hclosed := behind_cons front stack (OpenBlock.close o nodes) o.before
    have hnode : OpenBlock.close { o with before := (behind front stack o.before).2 } nodes =
        OpenBlock.close o nodes := rfl
    rw [behind, closeChain, closeChain, hnode]
    split
    · rw [← ih, hclosed]
    · rw [hclosed]

theorem spliceOpen_behind (stack : List OpenBlock) (nodes : List Node)
    (problems problems' : List Problem) :
    (spliceOpen (behind front stack nodes).1 (behind front stack nodes).2 problems').1 =
      (spliceOpen stack nodes problems).1 ++ front := by
  induction stack generalizing nodes problems problems' with
  | nil => rfl
  | cons o stack ih =>
    rw [behind, spliceOpen, spliceOpen]
    simp only
    split
    · rw [← ih _ problems problems', behind_append]
    · rw [← ih _ (⟨.unclosedBlock, some o.token⟩ :: problems)
        (⟨.unclosedBlock, some o.token⟩ :: problems'), behind_append, behind_cons]

/-! #### Steps -/

theorem onto_addProblem (p : Problem) :
    (b.onto front earlier).addProblem p = (b.addProblem p).onto front earlier := by
  rw [addProblem, addProblem, onto, onto, behind_cons]
  rfl

theorem onto_addText (s : Text) :
    (b.onto front earlier).addText s = (b.addText s).onto front earlier := by
  have htext : ∀ t : Text, (if t = [] then (behind front b.stack b.nodes).2
        else .text t :: (behind front b.stack b.nodes).2) =
      (behind front b.stack (if t = [] then b.nodes else .text t :: b.nodes)).2 ∧
      (behind front b.stack b.nodes).1 =
        (behind front b.stack (if t = [] then b.nodes else .text t :: b.nodes)).1 := by
    intro t
    split
    · exact ⟨rfl, rfl⟩
    · rw [behind_cons]
      exact ⟨rfl, rfl⟩
  obtain ⟨hnodes, hstack⟩ := htext (if b.strip then trimStart s else s)
  rw [addText, addText, onto, onto]
  simp only [hnodes, hstack]

theorem settle_onto {α : Type} (r : Reading α) {add add' : α → Builder}
    (hadd : ∀ a, add' a = (add a).onto front earlier) :
    (b.onto front earlier).settle token r add' =
      (b.settle token r add).map (onto front earlier) := by
  cases r with
  | ok a => exact congrArg Except.ok (hadd a)
  | error e =>
    cases e with
    | problem cause => exact congrArg Except.ok (onto_addProblem front earlier _)
    | fault f => rfl

theorem addShown_onto (body : Text) (raw : Bool) :
    (b.onto front earlier).addShown isHelper token body raw =
      (b.addShown isHelper token body raw).map (onto front earlier) := by
  refine settle_onto front earlier _ fun e => ?_
  rw [onto, onto, behind_cons]

theorem openBlock_onto (s : Text) :
    (b.onto front earlier).openBlock isHelper maxDepth token s =
      (b.openBlock isHelper maxDepth token s).map (onto front earlier) := by
  refine settle_onto front earlier _ fun (kind, param) => ?_
  have hdepth : (b.onto front earlier).depth = b.depth := countP_behind front b.stack b.nodes
  simp only [hdepth]
  rfl

theorem addElse_onto (chain : Text) :
    (b.onto front earlier).addElse isHelper token chain =
      (b.addElse isHelper token chain).map (onto front earlier) := by
  obtain ⟨nodes, stack, strip, problems⟩ := b
  cases stack with
  | nil => exact congrArg Except.ok (onto_addProblem front earlier _)
  | cons top outer =>
    rw [addElse, addElse]
    show (if top.body.isSome = true then _ else _) = _
    simp only
    split
    · exact congrArg Except.ok (onto_addProblem front earlier _)
    · split
      · rfl
      · exact settle_onto front earlier (b := endBranch ⟨nodes, top :: outer, strip, problems⟩ top
          outer) (readBlock isHelper true chain) fun _ => rfl

theorem closeBlock_onto (name : Text) :
    (b.onto front earlier).closeBlock token name =
      (b.closeBlock token name).onto front earlier := by
  have hfind : ((b.onto front earlier).stack.find? fun o => !o.chained).map
      (fun o => (o.kind, o.token)) = _ := find_behind front b.stack b.nodes
  rw [closeBlock, closeBlock]
  cases hbehind : (b.onto front earlier).stack.find? fun o => !o.chained with
  | none =>
    rw [hbehind] at hfind
    rw [Option.map_eq_none_iff.1 hfind.symm]
    exact onto_addProblem front earlier _
  | some o =>
    rw [hbehind] at hfind
    obtain ⟨o', ho', heq⟩ := Option.map_eq_some_iff.1 hfind.symm
    obtain ⟨hkind, htoken⟩ := Prod.mk.inj heq
    rw [ho']
    simp only [hkind, htoken]
    split
    · show ({ b with
        stack := (closeChain (behind front b.stack b.nodes).1 (behind front b.stack b.nodes).2).1
        nodes := (closeChain (behind front b.stack b.nodes).1 (behind front b.stack b.nodes).2).2
        problems := b.problems ++ earlier } : Builder) = _
      rw [closeChain_behind]
      rfl
    · exact onto_addProblem front earlier _

theorem addTag_onto (body : Text) :
    (b.onto front earlier).addTag isHelper maxDepth token body =
      (b.addTag isHelper maxDepth token body).map (onto front earlier) := by
  unfold addTag
  split
  · exact addElse_onto front earlier []
  · split
    · exact addElse_onto front earlier _
    · split
      · exact openBlock_onto front earlier _
      · exact congrArg Except.ok (closeBlock_onto front earlier _)
      · exact congrArg Except.ok (onto_addProblem front earlier _)
      · exact congrArg Except.ok (onto_addProblem front earlier _)
      · exact addShown_onto front earlier _ true
      · exact addShown_onto front earlier _ false

/-- A piece is read behind other nodes as it is read without them. -/
theorem add_onto {p : Piece} (hp : p.KeepsBlanks) :
    (b.onto front earlier).add isHelper maxTags maxDepth p =
      (b.add isHelper maxTags maxDepth p).map (onto front earlier) := by
  cases p with
  | text s => exact congrArg Except.ok (onto_addText front earlier s)
  | comment s => rfl
  | raw body => exact addShown_onto front earlier body true
  | tag body =>
    rw [add, add, show splitTildes body = (false, body, false) from hp]
    exact addTag_onto (b := { b with strip := false }) front earlier _
  | unclosed rest =>
    rw [add, add, onto_addProblem, onto_addText]
    rfl
  | overLimit rest =>
    rw [add, add, onto_addProblem, onto_addText]
    rfl

theorem addAll_onto {ps : List Piece} (hps : ∀ p ∈ ps, p.KeepsBlanks) :
    ps.foldlM (add isHelper maxTags maxDepth) (b.onto front earlier) =
      (ps.foldlM (add isHelper maxTags maxDepth) b).map (onto front earlier) := by
  induction ps generalizing b with
  | nil => rfl
  | cons p ps ih =>
    rw [List.foldlM_cons, List.foldlM_cons, add_onto front earlier (hps p List.mem_cons_self)]
    cases b.add isHelper maxTags maxDepth p with
    | error f => rfl
    | ok b' => exact ih fun q hq => hps q (List.mem_cons_of_mem p hq)

theorem written_onto (b : Builder) (env : Surroundings) :
    (b.onto front earlier).written maxDepth env = (do
      let x ← renderAll maxDepth env front.reverse
      let y ← b.written maxDepth env
      return x ++ y) := by
  rw [written, written, ← renderAll_append, ← List.reverse_append]
  exact congrArg (fun nodes => renderAll maxDepth env nodes.reverse)
    (spliceOpen_behind front b.stack b.nodes b.problems (b.problems ++ earlier))

/-! ### Reading one page behind another -/

variable {isHelper : Text → Bool} {b b' : Builder} {maxTags maxDepth : Nat}

theorem strip_add {p : Piece} (hp : p.KeepsBlanks) (hstrip : b.strip = false)
    (h : b.add isHelper maxTags maxDepth p = .ok b') : b'.strip = false := by
  cases p with
  | text s =>
    cases h
    rfl
  | comment s =>
    cases h
    exact hstrip
  | raw body =>
    cases addShown_ok h <;> exact hstrip
  | tag body =>
    rw [add, show splitTildes body = (false, body, false) from hp] at h
    cases addTag_ok h <;> rfl
  | unclosed rest =>
    cases h
    rfl
  | overLimit rest =>
    cases h
    rfl

theorem strip_addAll {ps : List Piece} (hps : ∀ p ∈ ps, p.KeepsBlanks) (hstrip : b.strip = false)
    (h : ps.foldlM (add isHelper maxTags maxDepth) b = .ok b') : b'.strip = false := by
  induction ps generalizing b with
  | nil =>
    cases h
    exact hstrip
  | cons p ps ih =>
    rw [List.foldlM_cons] at h
    obtain ⟨c, hc, hrest⟩ := ok_of_bind h
    exact ih (fun q hq => hps q (List.mem_cons_of_mem p hq))
      (strip_add (hps p List.mem_cons_self) hstrip hc) hrest

/-- What has been read leaves nothing open: no block, and no tilde that waits for a text. -/
structure Settled (b : Builder) : Prop where
  stack : b.stack = []
  strip : b.strip = false

theorem Settled.start : start.Settled := ⟨rfl, rfl⟩

theorem Settled.addText (h : b.Settled) (s : Text) : (b.addText s).Settled := ⟨h.stack, rfl⟩

/-- Where nothing is open, all that has been read only stands in front of what follows. -/
theorem Settled.eq_onto (h : b.Settled) : b = Builder.start.onto b.nodes b.problems := by
  obtain ⟨nodes, stack, strip, problems⟩ := b
  obtain ⟨rfl, rfl⟩ := h
  rfl

theorem Settled.written_eq (h : b.Settled) (env : Surroundings) :
    b.written maxDepth env = renderAll maxDepth env b.nodes.reverse := by
  rw [written, h.stack]
  rfl

/-- Text is written behind what has been read. -/
theorem Settled.renderAll_addText (h : b.Settled) (s : Text) (env : Surroundings) :
    renderAll maxDepth env (b.addText s).nodes.reverse =
      (renderAll maxDepth env b.nodes.reverse).map (· ++ s) := by
  have hnodes : (b.addText s).nodes = if s = [] then b.nodes else .text s :: b.nodes := by
    rw [Builder.addText, h.strip]
    rfl
  rw [hnodes]
  split
  · rename_i hs
    rw [hs]
    cases renderAll maxDepth env b.nodes.reverse with
    | error f => rfl
    | ok x => exact congrArg Except.ok (List.append_nil x).symm
  · rw [List.reverse_cons, renderAll_append]
    cases renderAll maxDepth env b.nodes.reverse with
    | error f => rfl
    | ok x =>
      show Except.ok (x ++ (s ++ [])) = _
      rw [List.append_nil]
      rfl

theorem Settled.addAll_prepend_nil (h : b.Settled) (tail : Text) :
    (Piece.prepend tail []).foldlM (add isHelper maxTags maxDepth) b = .ok (b.addText tail) := by
  rw [Piece.prepend_nil]
  split
  · rename_i htail
    obtain ⟨nodes, stack, strip, problems⟩ := b
    obtain ⟨rfl, rfl⟩ := h
    rw [htail]
    rfl
  · rfl

/-- A page that ends without an open block has been read to where nothing is open before its plain
tail. -/
theorem exists_settled {ps : List Piece} {tail : Text} (hps : ∀ p ∈ ps, p.KeepsBlanks)
    (hread : (ps ++ Piece.prepend tail []).foldlM (add isHelper maxTags maxDepth) Builder.start =
      .ok b) (hstack : b.stack = []) :
    ∃ b₀, b₀.Settled ∧ ps.foldlM (add isHelper maxTags maxDepth) Builder.start = .ok b₀ ∧
      b = b₀.addText tail := by
  rw [List.foldlM_append] at hread
  obtain ⟨b₀, hb₀, htail⟩ := ok_of_bind hread
  have hsame : b.stack = b₀.stack := by
    rw [Piece.prepend_nil] at htail
    split at htail
    · cases htail
      rfl
    · cases htail
      rfl
  have hsettled : b₀.Settled := ⟨hsame ▸ hstack, strip_addAll hps rfl hb₀⟩
  refine ⟨b₀, hsettled, hb₀, ?_⟩
  exact Except.ok.inj (htail.symm.trans (hsettled.addAll_prepend_nil tail))

/-- A page that is read behind a plain text, where nothing is open, is written behind it. -/
theorem Settled.written_prepend (h : b.Settled) {ps : List Piece} (hps : ∀ p ∈ ps, p.KeepsBlanks)
    (hhead : ps = [] ∨ ∃ s rest, ps = .text s :: rest) {d : Builder}
    (hd : ps.foldlM (add isHelper maxTags maxDepth) Builder.start = .ok d) (tail : Text) :
    ∃ d', (Piece.prepend tail ps).foldlM (add isHelper maxTags maxDepth) b = .ok d' ∧
      ∀ env, d'.written maxDepth env = (do
        let x ← (b.addText tail).written maxDepth env
        let y ← d.written maxDepth env
        return x ++ y) := by
  rcases hhead with rfl | ⟨s, rest, rfl⟩
  · cases hd
    refine ⟨b.addText tail, h.addAll_prepend_nil tail, fun env => ?_⟩
    rw [Settled.start.written_eq]
    cases (b.addText tail).written maxDepth env with
    | error f => rfl
    | ok x => exact congrArg Except.ok (List.append_nil x).symm
  · have hrest : ∀ p ∈ rest, p.KeepsBlanks := fun p hp => hps p (List.mem_cons_of_mem _ hp)
    have halone := Settled.start.addText s
    have hjoined := h.addText (tail ++ s)
    -- both readings go on as from the start, behind the texts read so far
    have hd' : rest.foldlM (add isHelper maxTags maxDepth) (Builder.start.addText s) = .ok d := hd
    rw [halone.eq_onto, addAll_onto _ _ hrest] at hd'
    obtain ⟨e, he, rfl⟩ := ok_of_map hd'
    refine ⟨e.onto (b.addText (tail ++ s)).nodes (b.addText (tail ++ s)).problems, ?_, fun env => ?_⟩
    · show rest.foldlM (add isHelper maxTags maxDepth) (b.addText (tail ++ s)) = _
      rw [hjoined.eq_onto, addAll_onto _ _ hrest, he]
      rfl
    · rw [written_onto, written_onto, h.renderAll_addText, (h.addText tail).written_eq,
        h.renderAll_addText, Settled.start.renderAll_addText]
      cases renderAll maxDepth env b.nodes.reverse with
      | error f => rfl
      | ok x =>
        cases e.written maxDepth env with
        | error f => rfl
        | ok y =>
          show Except.ok (x ++ (tail ++ s) ++ y) = Except.ok (x ++ tail ++ ([] ++ s ++ y))
          rw [List.nil_append, List.append_assoc, List.append_assoc, List.append_assoc]

end Builder

/-! ### Whole pages -/

/-- A page that leaves nothing open for what stands behind it: its mustaches and its blocks are
closed, and its last character does nothing to a brace that follows. -/
structure Compiler.Complete (c : Compiler) (s : Text) : Prop where
  mustaches : Piece.Closed s
  blocks : ∃ b, (Piece.pieces s).foldlM
    (Builder.add c.isHelper c.settings.maxTemplateTokens c.settings.maxBlockDepth)
    Builder.start = .ok b ∧ b.stack = []
  brace : s.getLast? ≠ some '{'
  backslash : s.getLast? ≠ some '\\'

/-- Compiling passes over `++`: a complete page and a page behind it are compiled as each of them is
on its own, if neither uses tildes and their mustaches are within the limit together.  And a page
without mustaches is compiled to itself. -/
theorem Compiler.compile_append {c : Compiler} {context : Value} :
    (∀ s₁ s₂ h₁ h₂, c.Complete s₁ → (∀ p ∈ Piece.pieces s₁, p.KeepsBlanks) →
      (∀ p ∈ Piece.pieces s₂, p.KeepsBlanks) →
      Piece.mustaches s₁ + Piece.mustaches s₂ ≤ c.settings.maxTemplateTokens →
      c.compile s₁ context = .ok h₁ → c.compile s₂ context = .ok h₂ →
      c.compile (s₁ ++ s₂) context = .ok (h₁ ++ h₂)) ∧
    ∀ s, ¬ Piece.opening <:+: s → c.compile s context = .ok s := by
  refine ⟨?_, fun s hs => compile_of_no_tag c (cut_eq_none hs) context⟩
  intro s₁ s₂ h₁ h₂ hcomplete hkeeps₁ hkeeps₂ hlimit hcompile₁ hcompile₂
  obtain ⟨⟨ps, tags, tail, hscanned⟩, ⟨b, hb, hstack⟩, hbrace, hback⟩ := hcomplete
  rw [compile_eq, Piece.ofPage_of_mustaches (by omega), hb] at hcompile₁
  rw [compile_eq, Piece.ofPage_of_mustaches (by omega)] at hcompile₂
  obtain ⟨d, hd, hwritten₂⟩ := ok_of_bind hcompile₂
  -- the first page is read to where nothing is open, and its plain tail is left
  rw [hscanned.pieces_eq] at hb hkeeps₁
  obtain ⟨b₀, hsettled, hb₀, rfl⟩ :=
    Builder.exists_settled (fun p hp => hkeeps₁ p (List.mem_append_left _ hp)) hb hstack
  have hwritten₁ : (b₀.addText tail).written c.settings.maxBlockDepth (c.surroundings context) =
      .ok h₁ := hcompile₁
  obtain ⟨d', hd', hwritten⟩ :=
    hsettled.written_prepend hkeeps₂ (Piece.pieces_head s₂) hd tail
  rw [compile_eq, hscanned.ofPage_append hbrace hback hlimit, List.foldlM_append, hb₀]
  show ((Piece.prepend tail (Piece.pieces s₂)).foldlM _ b₀ >>= _) = _
  rw [hd']
  show d'.written _ _ = _
  rw [hwritten, hwritten₁, hwritten₂]
  rfl

/-- A loop over rates. -/
def rateLoop : Text :=
  lit "\x7b\x7b#each rates\x7d\x7d\x7b\x7bthis\x7d\x7d \x7b\x7b/each\x7d\x7d"

/-- A page with an escaped mustache and a loop. -/
def loopPage : Text := lit "\\\x7b\x7brate\x7d\x7d" ++ rateLoop

/-- A page that starts with a closing brace, with a closing tag without a block and a tag without an
end. -/
def loosePage : Text := lit "\x7d \x7b\x7b/if\x7d\x7d\x7b\x7brate"

/-- Two rates, one of them a brace. -/
def rates : Value := .map [(lit "rates", .list [.text ['1'], .text ['{']])]

theorem Compiler.complete_loopPage : (standard {}).Complete loopPage := by
  have hescaped : cut Piece.opening loopPage = some (['\\'], lit "rate\x7d\x7d" ++ rateLoop) := by
    decide +kernel
  have hclose : cut Piece.closing (lit "rate\x7d\x7d" ++ rateLoop) =
      some (lit "rate", rateLoop) := by decide +kernel
  have heach : cut Piece.opening rateLoop =
      some ([], lit "#each rates\x7d\x7d\x7b\x7bthis\x7d\x7d \x7b\x7b/each\x7d\x7d") := by
    decide +kernel
  have hthis : cut Piece.opening (lit "\x7b\x7bthis\x7d\x7d \x7b\x7b/each\x7d\x7d") =
      some ([], lit "this\x7d\x7d \x7b\x7b/each\x7d\x7d") := by decide +kernel
  have hend : cut Piece.opening (lit " \x7b\x7b/each\x7d\x7d") =
      some ([' '], lit "/each\x7d\x7d") := by decide +kernel
  have hslash : Piece.readTag? (lit "/each\x7d\x7d") = some (.tag (lit "/each"), []) := by
    decide +kernel
  have hclosed : Piece.Closed loopPage := ⟨_, _, _, .escaped hescaped rfl hclose <|
    .tag heach (by decide) (p := .tag (lit "#each rates")) (by decide +kernel) <|
    .tag hthis (by decide) (p := .tag (lit "this")) (by decide +kernel) <|
    .tag hend (by decide) hslash <| .plain rfl⟩
  have hblocks : (((Piece.pieces loopPage).foldlM (Builder.add (standard {}).isHelper 5000 16)
      Builder.start).toOption.map fun b => b.stack.isEmpty) = some true := by decide +kernel
  obtain ⟨b, hb, hstack⟩ := Option.map_eq_some_iff.1 hblocks
  exact ⟨hclosed, ⟨b, ok_of_toOption hb, List.isEmpty_iff.1 hstack⟩, by decide +kernel,
    by decide +kernel⟩

/-- What the loop leaves behind does not reach the loose ends of the page after it. -/
theorem Compiler.compile_append_loosePage :
    ∃ h₁ h₂, (standard {}).compile loopPage rates = .ok h₁ ∧
      (standard {}).compile loosePage rates = .ok h₂ ∧
      (standard {}).compile (loopPage ++ loosePage) rates = .ok (h₁ ++ h₂) := by
  have hloop : ((standard {}).compile loopPage rates).toBool = true := by decide +kernel
  have hloose : ((standard {}).compile loosePage rates).toBool = true := by decide +kernel
  obtain ⟨h₁, hcompile₁⟩ := exists_ok_of_toBool hloop
  obtain ⟨h₂, hcompile₂⟩ := exists_ok_of_toBool hloose
  exact ⟨h₁, h₂, hcompile₁, hcompile₂, compile_append.1 loopPage loosePage h₁ h₂ complete_loopPage
    (Piece.keepsBlanks_of_not_mem (by decide +kernel))
    (Piece.keepsBlanks_of_not_mem (by decide +kernel)) (by decide +kernel) hcompile₁ hcompile₂⟩

end Tender
