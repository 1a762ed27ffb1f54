/-
Rejected tags between two branches.

* `exists_chain` — a tag between two branches is read by its chain, wherever it stands;
* `add_else_of_refuse` — if it is rejected, it leaves its problem, behind the branch that it has
  ended if it stands in the first branch of a block;
* `Compiler.compile_rejected_else` — so a page with the tag is compiled as the page with the
  diagnostic in its place, or as the page with the diagnostic behind a plain `else` tag.
-/
import Tender.Proofs.Template.Chain
import Tender.Proofs.Template.Locality

namespace Tender

open Text

namespace Builder

variable {isHelper : Text → Bool} {b : Builder} {maxTags maxDepth : Nat} {token chain body : Text}
variable {cause : Problem.Cause}

/-- The innermost block is in its first branch, which a tag between two branches would end. -/
def InFirst (stack : List OpenBlock) : Prop := ∃ top ∈ stack.head?, top.body = none

/-- What is left when the branch of the innermost block ends. -/
def endFirst (b : Builder) : Builder :=
  { b with
    nodes := []
    stack := (b.stack.head?.map (branched · b.nodes)).toList ++ b.stack.tail }

theorem addElse_of_refuse (h : (Demand.branch b.stack chain).verdict isHelper = refuse cause) :
    (¬ InFirst b.stack → b.addElse isHelper token chain = .ok (b.addProblem ⟨cause, some token⟩)) ∧
    (InFirst b.stack →
      b.addElse isHelper token chain = .ok (b.endFirst.addProblem ⟨cause, some token⟩)) := by
  obtain ⟨nodes, stack, strip, problems⟩ := b
  cases stack with
  | nil =>
    cases h
    exact ⟨fun _ => rfl, fun ⟨top, htop, _⟩ => by cases htop⟩
  | cons top outer =>
    cases hbody : top.body with
    | some first =>
      -- the branch has ended before, and the tag is refused as the second of its kind
      have hnot : ¬ InFirst (top :: outer) := by
        rintro ⟨top', htop', hnone⟩
        cases htop'
        rw [hbody] at hnone
        cases hnone
      rw [Demand.branch, hbody] at h
      cases h
      refine ⟨fun _ => ?_, fun hfirst => absurd hfirst hnot⟩
      rw [addElse]
      simp only [hbody]
      rfl
    | none =>
      refine ⟨fun hnot => absurd ⟨top, rfl, hbody⟩ hnot, fun _ => ?_⟩
      rw [Demand.branch, hbody] at h
      simp only [Option.isSome_none, Bool.false_eq_true, if_false] at h
      by_cases hchain : chain = []
      · rw [if_pos hchain] at h
        cases h
      · rw [if_neg hchain, ← readBlock_map] at h
        rw [addElse]
        simp only [hbody, Option.isSome_none, Bool.false_eq_true, if_false, if_neg hchain]
        exact settle_of_refuse h

/-- A tag between two branches is read by its chain, whatever has been read before. -/
theorem exists_chain (isHelper : Text → Bool) (maxDepth : Nat) (helse : IsElse body) : ∃ chain,
    (∀ (b : Builder) token, b.addTag isHelper maxDepth token body =
      b.addElse isHelper token chain) ∧
    ∀ stack, Demand.tag stack body = Demand.branch stack chain := by
  by_cases hplain : body = ['^'] ∨ body = elseWord
  · refine ⟨[], fun b token => ?_, fun stack => ?_⟩
    · unfold addTag
      rw [if_pos hplain]
    · unfold Demand.tag
      rw [if_pos hplain]
  · obtain ⟨chain, hchain⟩ : ∃ chain, after? (elseWord ++ [' ']) body = some chain :=
      Option.isSome_iff_exists.1 (helse.resolve_left (fun h => hplain (.inl h))
        |>.resolve_left fun h => hplain (.inr h))
    refine ⟨trim chain, fun b token => ?_, fun stack => ?_⟩
    · unfold addTag
      rw [if_neg hplain, hchain]
    · unfold Demand.tag
      rw [if_neg hplain, hchain]

/-- A rejected tag between two branches leaves its problem, and it has ended the first branch of a
block if it stands there. -/
theorem add_else_of_refuse (maxDepth : Nat) (htildes : splitTildes body = (false, body, false))
    (helse : IsElse (trim body)) (hstrip : b.strip = false)
    (h : (Demand.ofPiece maxTags b.stack (.tag body)).verdict isHelper = refuse cause) :
    (¬ InFirst b.stack → b.add isHelper maxTags maxDepth (.tag body) =
      .ok (b.addProblem ⟨cause, some (Link.tag body)⟩)) ∧
    (InFirst b.stack → b.add isHelper maxTags maxDepth (.tag body) =
      .ok (b.endFirst.addProblem ⟨cause, some (Link.tag body)⟩)) := by
  obtain ⟨chain, hadd, hdemand⟩ := exists_chain isHelper maxDepth helse
  have hsame : ({ b with strip := false } : Builder) = b := by rw [← hstrip]
  have hread : b.add isHelper maxTags maxDepth (.tag body) =
      b.addElse isHelper (Link.tag body) chain := by
    rw [add, htildes, ← hadd, Link.tag, ← List.append_assoc]
    show ({ b with strip := false } : Builder).addTag _ _ _ _ = _
    rw [hsame]
  rw [Demand.ofPiece, htildes, hdemand] at h
  rw [hread]
  exact addElse_of_refuse h

/-- A plain tag between two branches ends the first branch. -/
theorem add_plain_else (hfirst : InFirst b.stack) (hstrip : b.strip = false) :
    b.add isHelper maxTags maxDepth (.tag elseWord) = .ok b.endFirst := by
  obtain ⟨nodes, stack, strip, problems⟩ := b
  obtain ⟨top, htop, hbody⟩ := hfirst
  obtain ⟨outer, rfl⟩ : ∃ outer, stack = top :: outer := by
    cases stack with
    | nil => cases htop
    | cons top' outer =>
      cases htop
      exact ⟨outer, rfl⟩
  obtain rfl : strip = false := hstrip
  rw [add_tag (by decide) (by decide), show trim elseWord = elseWord by decide]
  unfold addTag
  rw [if_pos (.inr rfl), addElse]
  simp only [hbody]
  rfl

end Builder

namespace Compiler

variable {c : Compiler} {before after t body tail : Text} {ps ps' : List Piece} {tags budget : Nat}
variable {q : Problem}

/-- A page that leaves a problem behind a text is compiled as the page with the diagnostic typed
there. -/
theorem compile_typed {source : Text} (hscanned : Piece.Scanned before ps tags tail)
    (hbrace : before.getLast? ≠ some '{') (room : Nat)
    (hbudget : c.settings.maxTemplateTokens = budget + room + tags)
    (hpieces : Piece.ofPage c.settings.maxTemplateTokens source =
      ps' ++ Piece.piecesFrom budget [] after)
    (hlimit : ∀ more, .overLimit more ∉ Piece.piecesFrom budget [] after)
    {b : Builder} (hbefore : ps.foldlM (Builder.add c.isHelper c.settings.maxTemplateTokens
      c.settings.maxBlockDepth) Builder.start = .ok b)
    (hleaves : ps'.foldlM (Builder.add c.isHelper c.settings.maxTemplateTokens
      c.settings.maxBlockDepth) Builder.start = .ok ((b.addText tail).addProblem q))
    (context : Value) :
    c.compile source context = c.compile (before ++ q.diagnostic ++ after) context := by
  have htyped : Piece.ofPage c.settings.maxTemplateTokens (before ++ q.diagnostic ++ after) =
      ps ++ Piece.prepend (tail ++ q.diagnostic) (Piece.piecesFrom budget [] after) := by
    rw [Piece.ofPage, hbudget, Piece.piecesFrom_typed hscanned hbrace, piecesFrom_add hlimit]
  rw [compile_eq, compile_eq, hpieces, htyped, List.foldlM_append, List.foldlM_append, hbefore,
    hleaves]
  exact (Builder.alike_diagnostic b q tail (Piece.piecesFrom_head budget after)).written _ _

/-- A rejected tag between two branches: if every mustache before it is closed, the page is compiled
as the page with the diagnostic of the tag typed in its place, unless the tag stands in the first
branch of a block.  There it has ended the branch before it is rejected, and the page is compiled as
the page with a plain `else` tag in its place and the diagnostic typed behind that. -/
theorem compile_rejected_else (hclosed : Piece.Closed before)
    (hbrace : before.getLast? ≠ some '{') (hback : before.getLast? ≠ some '\\')
    (htag : Piece.readTag? t = some (.tag body, []))
    (htildes : Builder.splitTildes body = (false, body, false))
    (helse : Builder.IsElse (trim body)) {b b' : Builder}
    (hread : (Piece.ofPage c.settings.maxTemplateTokens before).foldlM
      (Builder.add c.isHelper c.settings.maxTemplateTokens c.settings.maxBlockDepth)
      Builder.start = .ok b)
    (hadd : b.add c.isHelper c.settings.maxTemplateTokens c.settings.maxBlockDepth (.tag body) =
      .ok b')
    (hrejected : b'.problems = q :: b.problems)
    (hlimit : Piece.WithinLimit c.settings.maxTemplateTokens
      (before ++ (Piece.opening ++ t) ++ after)) (context : Value) :
    (¬ Builder.InFirst b.stack →
      c.compile (before ++ (Piece.opening ++ t) ++ after) context =
        c.compile (before ++ q.diagnostic ++ after) context) ∧
    (Builder.InFirst b.stack →
      c.compile (before ++ (Piece.opening ++ t) ++ after) context =
        c.compile (before ++ Link.tag Builder.elseWord ++ q.diagnostic ++ after) context) := by
  obtain ⟨ps, tags, tail, hscanned⟩ := hclosed
  obtain ⟨budget, hbudget⟩ := Piece.exists_budget hscanned hbrace hback hlimit
  have htagged : Piece.ofPage c.settings.maxTemplateTokens
      (before ++ (Piece.opening ++ t) ++ after) =
        ps ++ [.text tail, .tag body] ++ Piece.piecesFrom budget [] after := by
    rw [Piece.ofPage, hbudget, Piece.piecesFrom_around hscanned hbrace hback htag]
    simp
  have hafter : ∀ more, .overLimit more ∉ Piece.piecesFrom budget [] after := by
    rw [Piece.WithinLimit, htagged] at hlimit
    exact fun more hmore => hlimit more (List.mem_append_right _ hmore)
  rw [show Piece.ofPage c.settings.maxTemplateTokens before =
    Piece.piecesFrom (budget + 1 + tags) [] before by rw [Piece.ofPage, hbudget]] at hread
  obtain ⟨b₀, hb₀, hstack⟩ := Builder.stack_of_scanned hscanned hread
  -- the tag is rejected behind the plain tail as well, for the same blocks are open there
  obtain ⟨cause, hverdict, rfl⟩ := Builder.refuse_of_add hadd hrejected
  rw [hstack] at hverdict ⊢
  have hrefused := Builder.add_else_of_refuse (b := b₀.addText tail) c.settings.maxBlockDepth
    htildes helse rfl hverdict
  have hleaves {b₁ : Builder} {p : Piece}
      (h : (b₀.addText tail).add c.isHelper c.settings.maxTemplateTokens
        c.settings.maxBlockDepth p = .ok b₁) :
      (ps ++ [.text tail, p]).foldlM (Builder.add c.isHelper c.settings.maxTemplateTokens
        c.settings.maxBlockDepth) Builder.start = .ok b₁ := by
    rw [List.foldlM_append, hb₀]
    show ((b₀.addText tail).add _ _ _ p >>= pure) = _
    rw [h]
    rfl
  constructor
  · intro hsecond
    exact compile_typed hscanned hbrace 1 hbudget htagged hafter hb₀ (hleaves (hrefused.1 hsecond))
      context
  · intro hfirst
    have helseTag := hscanned.snoc hbrace hback readTag?_else
    have hlast : (before ++ (Piece.opening ++ (Builder.elseWord ++ Piece.closing))).getLast? ≠
        some '{' := by
      rw [List.getLast?_append_of_ne_nil _ (by decide)]
      decide
    have hended := hleaves (Builder.add_plain_else (b := b₀.addText tail) hfirst rfl)
    exact compile_typed helseTag hlast 0 (by rw [hbudget]; omega) htagged hafter hended
      (hleaves (hrefused.2 hfirst)) context

end Compiler

/-- What a tag leaves behind a text that has no problem: one problem, whose message can be
computed. -/
theorem Builder.exists_rejected (c : Compiler) (before body m : Text) (first : Option Bool)
    (h : ((Piece.ofPage c.settings.maxTemplateTokens before).foldlM
      (Builder.add c.isHelper c.settings.maxTemplateTokens c.settings.maxBlockDepth)
      Builder.start).toOption.bind (fun b =>
        (b.add c.isHelper c.settings.maxTemplateTokens c.settings.maxBlockDepth
          (.tag body)).toOption.map fun b' => (b.stack.head?.map (·.body.isNone),
            b.problems.map Problem.message, b'.problems.map Problem.message)) =
      some (first, [], [m])) :
    ∃ b b' q, (Piece.ofPage c.settings.maxTemplateTokens before).foldlM
        (Builder.add c.isHelper c.settings.maxTemplateTokens c.settings.maxBlockDepth)
        Builder.start = .ok b ∧
      b.add c.isHelper c.settings.maxTemplateTokens c.settings.maxBlockDepth (.tag body) = .ok b' ∧
      b'.problems = q :: b.problems ∧ q.message = m ∧
      (InFirst b.stack ↔ first = some true) := by
  obtain ⟨b, hb, hrest⟩ := Option.bind_eq_some_iff.1 h
  obtain ⟨b', hb', hseen⟩ := Option.map_eq_some_iff.1 hrest
  obtain ⟨hfirst, hmessages⟩ := Prod.mk.inj hseen
  obtain ⟨hnone, hone⟩ := Prod.mk.inj hmessages
  obtain ⟨q, others, hq, hmessage, hothers⟩ := List.map_eq_cons_iff.1 hone
  rw [List.map_eq_nil_iff] at hnone hothers
  refine ⟨b, b', q, ok_of_toOption hb, ok_of_toOption hb', by rw [hq, hothers, hnone], hmessage, ?_⟩
  rw [← hfirst, InFirst]
  cases b.stack.head? with
  | none => simp
  | some top => simp

/-- A block whose first branch is left open. -/
def rateBranch : Text := lit "\x7b\x7b#if rates\x7d\x7da "

/-- A later tag between two branches, and the end of the block. -/
def laterBranch : Text := lit "c \x7b\x7belse\x7d\x7d d\x7b\x7b/if\x7d\x7d"

/-- A chained block with an unknown name, in the first branch of a block and in the second one. -/
theorem Compiler.compile_rejected_else_perHour :
    (∃ q : Problem, q.message = lit "Unknown block helper 'per' in \x7b\x7belse per hour\x7d\x7d" ∧
      ∀ context, (standard {}).compile
          (rateBranch ++ (Piece.opening ++ lit "else per hour\x7d\x7d") ++ laterBranch) context =
        (standard {}).compile
          (rateBranch ++ Link.tag Builder.elseWord ++ q.diagnostic ++ laterBranch) context) ∧
    ∃ q : Problem, q.message = lit "Duplicate \x7b\x7belse per hour\x7d\x7d" ∧
      ∀ context, (standard {}).compile
          (rateBranch ++ Link.tag Builder.elseWord ++
            (Piece.opening ++ lit "else per hour\x7d\x7d") ++ laterBranch) context =
        (standard {}).compile
          (rateBranch ++ Link.tag Builder.elseWord ++ q.diagnostic ++ laterBranch) context := by
  have hwithin {s : Text} (h : ((Piece.ofPage 5000 s).all fun p => match p with
      | .overLimit _ => false
      | _ => true) = true) : Piece.WithinLimit 5000 s :=
    fun rest hrest => by cases List.all_eq_true.1 h _ hrest
  have hopening : Text.cut Piece.opening rateBranch = some ([], lit "#if rates\x7d\x7da ") := by
    decide +kernel
  have htag : Piece.readTag? (lit "#if rates\x7d\x7da ") =
      some (.tag (lit "#if rates"), lit "a ") := by decide +kernel
  have hscanned := Piece.Scanned.tag hopening (by decide +kernel) htag
    (.plain (by decide +kernel))
  have hrejected : Piece.readTag? (lit "else per hour\x7d\x7d") =
      some (.tag (lit "else per hour"), []) := by decide +kernel
  constructor
  · obtain ⟨b, b', q, hread, hadd, hproblem, hmessage, hfirst⟩ :=
      Builder.exists_rejected (standard {}) rateBranch (lit "else per hour")
        (lit "Unknown block helper 'per' in \x7b\x7belse per hour\x7d\x7d") (some true)
        (by decide +kernel)
    exact ⟨q, hmessage, fun context => (compile_rejected_else ⟨_, _, _, hscanned⟩
      (by decide +kernel) (by decide +kernel) hrejected (by decide +kernel) (by decide +kernel)
      hread hadd hproblem (hwithin (by decide +kernel)) context).2 (hfirst.2 rfl)⟩
  · have hsecond := hscanned.snoc (by decide +kernel) (by decide +kernel) readTag?_else
    obtain ⟨b, b', q, hread, hadd, hproblem, hmessage, hfirst⟩ :=
      Builder.exists_rejected (standard {}) (rateBranch ++ Link.tag Builder.elseWord)
        (lit "else per hour") (lit "Duplicate \x7b\x7belse per hour\x7d\x7d") (some false)
        (by decide +kernel)
    exact ⟨q, hmessage, fun context => (compile_rejected_else ⟨_, _, _, hsecond⟩
      (by decide +kernel) (by decide +kernel) hrejected (by decide +kernel) (by decide +kernel)
      hread hadd hproblem (hwithin (by decide +kernel)) context).1
      fun h => by cases hfirst.1 h⟩

/-- A rejected tag in the first branch of a block takes the place of the valid tag behind it: the
diagnostic stands in the second branch, with the rest of the first one, and the valid tag is the
second of its kind.  With the diagnostic typed in its place, the page shows the second branch. -/
theorem Compiler.compile_else_perHour :
    ∃ q : Problem, q.message = lit "Unknown block helper 'per' in \x7b\x7belse per hour\x7d\x7d" ∧
      (standard {}).compile (rateBranch ++ lit "\x7b\x7belse per hour\x7d\x7d" ++ laterBranch)
          (.map [(lit "rates", .int 0)]) ≠
        (standard {}).compile (rateBranch ++ q.diagnostic ++ laterBranch)
          (.map [(lit "rates", .int 0)]) := by
  refine ⟨⟨.unknownBlock (lit "per"), some (lit "\x7b\x7belse per hour\x7d\x7d")⟩,
    by decide +kernel, fun h => ?_⟩
  have htyped := (congrArg Except.toOption h).trans
    (show _ = some (lit " d") by decide +kernel)
  revert htyped
  decide +kernel

end Tender
