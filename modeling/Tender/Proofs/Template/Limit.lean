/-
Pages with more mustaches than the limit.

* `Piece.exists_mustacheAt` — a text with more than so many mustaches is cut in front of the next one,
  and what stands in front of it is taken apart as on its own;
* `Builder.written_overLimit` — the notice and the rest of the page are written last, whatever blocks
  are open where they are read;
* `Compiler.compile_past_limit` — so a page is compiled as its part within the limit, the notice, and
  the rest as it is typed.
-/
import Tender.Proofs.Template.Concat

namespace Tender

open Text

namespace Piece

variable {s rest : Text} {budget number : Nat} {done : List Piece}

/-- Behind a text in which so many mustaches are closed the next one starts: it is not escaped, and
no other one starts between the last one and it. -/
def MustacheAt (number : Nat) (before rest : Text) : Prop :=
  ∃ ps tail after, Scanned before ps number tail ∧ tail.getLast? ≠ some '\\' ∧
    cut opening (tail ++ rest) = some (tail, after)

theorem mustacheAt_first {before after : Text} (h : cut opening s = some (before, after))
    (hplain : before.getLast? ≠ some '\\') : MustacheAt 0 before (opening ++ after) := by
  have hnone : cut opening before = none := by
    cases hcut : cut opening before with
    | none => rfl
    | some found =>
      -- an earlier mustache would have been found first
      have hlonger := cut_append (by decide) hcut (opening ++ after)
      rw [← cut_eq h, h] at hlonger
      have hlength := congrArg List.length (cut_eq hcut)
      rw [← (Prod.mk.inj (Option.some.inj hlonger)).1, List.length_append,
        List.length_append] at hlength
      simp only [opening, List.length_cons, List.length_nil] at hlength
      omega
  exact ⟨[], before, after, .plain hnone, hplain, by rw [← cut_eq h, h]⟩

/-- A text with more than so many mustaches is cut in front of the next one. -/
theorem exists_mustacheAt (hall : ∀ more, .overLimit more ∉ piecesFrom budget done s)
    (hnumber : number < (piecesFrom budget [] s).countP isMustache) :
    ∃ before rest, s = before ++ rest ∧ MustacheAt number before rest := by
  fun_induction piecesFrom budget done s generalizing number with
  | case1 budget done s hcut =>
    rw [piecesFrom_plain hcut] at hnumber
    split at hnumber <;> cases hnumber
  | case2 budget done s before after hcut hescaped hclose =>
    rw [piecesFrom_escaped_unclosed hcut hescaped hclose] at hnumber
    cases hnumber
  | case3 budget done s before after hcut hescaped body rest hclose ih =>
    rw [piecesFrom_escaped hcut hescaped hclose, piecesFrom_eq, List.countP_append] at hnumber
    obtain ⟨front, back, rfl, ps, tail, behind, hscanned, hplain, hnext⟩ :=
      ih hall (by simpa [isMustache] using hnumber)
    have hafter : after = (body ++ (closing ++ front)) ++ back := by
      rw [cut_eq hclose]
      simp only [List.append_assoc]
    have hs : s = (before ++ (opening ++ (body ++ (closing ++ front)))) ++ back := by
      rw [cut_eq hcut, hafter]
      simp only [List.append_assoc]
    rw [hafter] at hcut hclose
    rw [hs] at hcut
    exact ⟨_, back, hs, _, tail, behind, .escaped (cut_of_append (by decide) hcut) hescaped
      (cut_of_append (by decide) hclose) hscanned, hplain, hnext⟩
  | case4 done s before after hcut hplain =>
    exact absurd (List.mem_reverse.2 List.mem_cons_self) (hall _)
  | case5 done s before after hcut hplain budget htag =>
    rw [piecesFrom_unclosed hcut hplain htag] at hnumber
    obtain rfl : number = 0 := Nat.lt_one_iff.1 hnumber
    exact ⟨before, _, cut_eq hcut, mustacheAt_first hcut hplain⟩
  | case6 done s before after hcut hplain budget p rest htag ih =>
    cases number with
    | zero => exact ⟨before, _, cut_eq hcut, mustacheAt_first hcut hplain⟩
    | succ number =>
      have hp := isMustache_of_readTag? htag
      rw [piecesFrom_tag hcut hplain htag, piecesFrom_eq, List.countP_append] at hnumber
      simp only [List.reverse_cons, List.reverse_nil, List.nil_append, List.countP_append,
        List.countP_singleton, hp, if_true] at hnumber
      have hmore : number < (piecesFrom budget [] rest).countP isMustache := by
        simp only [isMustache, Bool.false_eq_true, if_false] at hnumber
        omega
      obtain ⟨front, back, rfl, ps, tail, behind, hscanned, hlast, hnext⟩ := ih hall hmore
      obtain ⟨v, rfl⟩ := suffix_of_readTag? htag
      have hs : s = (before ++ (opening ++ (v ++ front))) ++ back := by
        rw [cut_eq hcut]
        simp only [List.append_assoc]
      rw [← List.append_assoc] at hcut htag
      rw [hs] at hcut
      exact ⟨_, back, hs, _, tail, behind, .tag (cut_of_append (by decide) hcut) hplain
        (readTag?_of_append htag) hscanned, hlast, hnext⟩

/-- Where a mustache starts, so many are closed before it. -/
theorem MustacheAt.mustaches_eq {before : Text} (h : MustacheAt number before rest) :
    mustaches before = number := by
  obtain ⟨ps, tail, after, hscanned, -⟩ := h
  exact hscanned.mustaches_eq

end Piece

namespace Builder

open Node

variable {b : Builder}

/-- What is put last into the innermost branch is put last on the page. -/
theorem spliceOpen_append (more nodes : List Node) (stack : List OpenBlock)
    (problems problems' : List Problem) :
    (spliceOpen stack (more ++ nodes) problems).1 =
      more ++ (spliceOpen stack nodes problems').1 := by
  induction stack generalizing nodes problems problems' with
  | nil => rfl
  | cons o stack ih =>
    rw [spliceOpen, spliceOpen]
    simp only [List.append_assoc]
    split
    · exact ih _ _ _
    · exact ih _ _ _

/-- The notice and the rest of the page are written last, the rest as it is typed. -/
theorem written_overLimit (hstrip : b.strip = false) (q : Problem) (rest : Text) (maxDepth : Nat)
    (env : Surroundings) :
    ((b.addProblem q).addText rest).written maxDepth env =
      (b.written maxDepth env).map (· ++ (q.diagnostic ++ rest)) := by
  have hnodes : ((b.addProblem q).addText rest).nodes =
      (if rest = [] then [] else [Node.text rest]) ++ [Node.problem q] ++ b.nodes := by
    rw [Builder.addText, show (b.addProblem q).strip = false from hstrip]
    show (if rest = [] then _ else _) = _
    split <;> rfl
  have hlast : ∀ nodes, renderAll maxDepth env
      ((if rest = [] then [] else [Node.text rest]) ++ [Node.problem q] ++ nodes).reverse =
        (renderAll maxDepth env nodes.reverse).map (· ++ (q.diagnostic ++ rest)) := by
    intro nodes
    rw [List.reverse_append, renderAll_append]
    cases renderAll maxDepth env nodes.reverse with
    | error f => rfl
    | ok html =>
      split
      · rename_i hrest
        rw [hrest]
        rfl
      · show Except.ok (html ++ (q.diagnostic ++ (rest ++ []))) = _
        rw [List.append_nil]
        rfl
  rw [written, hnodes]
  exact (congrArg (fun nodes : List Node => renderAll maxDepth env nodes.reverse)
    (spliceOpen_append _ b.nodes b.stack (q :: b.problems) b.problems)).trans (hlast _)

/-- A plain text at the end of a page is written whether it is read as a piece or, being empty, is
none. -/
theorem written_prepend_nil (isHelper : Text → Bool) (maxTags maxDepth : Nat) (tail : Text)
    (env : Surroundings) :
    ((Piece.prepend tail []).foldlM (add isHelper maxTags maxDepth) b >>= written maxDepth env) =
      (b.addText tail).written maxDepth env := by
  rw [Piece.prepend_nil]
  split
  · rename_i htail
    rw [htail]
    have htrim : (if b.strip then trimStart [] else []) = ([] : Text) := by
      cases b.strip <;> rfl
    rw [Builder.addText, htrim]
    rfl
  · rfl

end Builder

/-- A page with more mustaches than the limit is cut in front of the first one past it, and is
compiled as its part within the limit, the notice of the limit, and the rest as it is typed. -/
theorem Compiler.compile_past_limit {c : Compiler} {s : Text}
    (h : c.settings.maxTemplateTokens < Piece.mustaches s) :
    (∃ before rest, s = before ++ rest ∧
      Piece.MustacheAt c.settings.maxTemplateTokens before rest) ∧
    ∀ before rest, s = before ++ rest →
      Piece.MustacheAt c.settings.maxTemplateTokens before rest → ∀ context,
        c.compile s context = (c.compile before context).map fun html => html ++
          (Problem.diagnostic ⟨.tooManyTags c.settings.maxTemplateTokens, none⟩ ++ rest) := by
  have hall : ∀ more, .overLimit more ∉ Piece.piecesFrom s.length [] s :=
    Piece.not_overLimit_of_length (Nat.le_refl _) fun _ hmem => by cases hmem
  refine ⟨Piece.exists_mustacheAt hall h, ?_⟩
  rintro before rest rfl ⟨ps, tail, after, hscanned, hplain, hcut⟩ context
  have hrest : rest = Piece.opening ++ after := List.append_cancel_left (cut_eq hcut)
  have halone := hscanned.ofPage_eq 0
  have hpieces := hscanned.piecesFrom_append 0 rest
  rw [Nat.zero_add] at halone hpieces
  rw [compile_eq, compile_eq, halone, Piece.ofPage, hpieces, Piece.piecesFrom_limit hcut hplain,
    List.foldlM_append, List.foldlM_append]
  cases ps.foldlM (Builder.add c.isHelper c.settings.maxTemplateTokens c.settings.maxBlockDepth)
      Builder.start with
  | error f => rfl
  | ok b =>
    show (((b.addText tail).addProblem _).addText (Piece.opening ++ after)).written _ _ =
      Except.map _ ((Piece.prepend tail []).foldlM _ b >>= _)
    rw [Builder.written_overLimit rfl, Builder.written_prepend_nil, hrest]

/-- A page up to its third mustache: an escaped one, which does not count, a comment, and a block
that is left open behind a tilde. -/
def openPage : Text :=
  lit "\\\x7b\x7ba\x7d\x7d\x7b\x7b!note\x7d\x7d\x7b\x7b#if rates ~\x7d\x7d  "

/-- The page from its third mustache on, which has no end. -/
def pageRest : Text := lit "\x7b\x7brate \x7d  "

theorem Piece.mustacheAt_openPage : MustacheAt 2 openPage pageRest := by
  have hescaped : cut opening openPage =
      some (['\\'], lit "a\x7d\x7d\x7b\x7b!note\x7d\x7d\x7b\x7b#if rates ~\x7d\x7d  ") := by
    decide +kernel
  have hclose : cut closing (lit "a\x7d\x7d\x7b\x7b!note\x7d\x7d\x7b\x7b#if rates ~\x7d\x7d  ") =
      some (['a'], lit "\x7b\x7b!note\x7d\x7d\x7b\x7b#if rates ~\x7d\x7d  ") := by decide +kernel
  have hnote : cut opening (lit "\x7b\x7b!note\x7d\x7d\x7b\x7b#if rates ~\x7d\x7d  ") =
      some ([], lit "!note\x7d\x7d\x7b\x7b#if rates ~\x7d\x7d  ") := by decide +kernel
  have hblock : cut opening (lit "\x7b\x7b#if rates ~\x7d\x7d  ") =
      some ([], lit "#if rates ~\x7d\x7d  ") := by decide +kernel
  have htag : readTag? (lit "#if rates ~\x7d\x7d  ") =
      some (.tag (lit "#if rates ~"), lit "  ") := by decide +kernel
  exact ⟨_, _, lit "rate \x7d  ", .escaped hescaped rfl hclose <|
    .tag hnote (by decide) (p := .comment (lit "\x7b\x7b!note\x7d\x7d")) (by decide +kernel) <|
    .tag hblock (by decide) htag <| .plain (by decide +kernel), by decide +kernel,
    by decide +kernel⟩

/-- The block that is still open at the limit is flattened in front of the notice. -/
theorem Compiler.compile_past_limit_openPage : ∃ html,
    (standard {maxTemplateTokens := 2}).compile openPage rates = .ok html ∧
      (standard {maxTemplateTokens := 2}).compile (openPage ++ pageRest) rates =
        .ok (html ++ (Problem.diagnostic ⟨.tooManyTags 2, none⟩ ++ pageRest)) := by
  have halone : ((standard {maxTemplateTokens := 2}).compile openPage rates).toBool = true := by
    decide +kernel
  obtain ⟨html, hhtml⟩ := exists_ok_of_toBool halone
  have hpast := (compile_past_limit (c := standard {maxTemplateTokens := 2})
    (s := openPage ++ pageRest) (by decide +kernel)).2 openPage pageRest rfl
    Piece.mustacheAt_openPage rates
  refine ⟨html, hhtml, ?_⟩
  rw [hpast, hhtml]
  rfl

end Tender
