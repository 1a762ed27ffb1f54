/-
Malformed tags.

* `add_of_refuse` — a tag that is rejected leaves its problem and changes nothing else;
* `twin_diagnostic` — whether the problem stands between two texts or its diagnostic is typed between
  them, readings of the same kind are left;
* `Compiler.compile_malformed_tag` — so a malformed tag is local: a page with the tag is compiled as
  the page with the diagnostic in its place.
-/
import Tender.Proofs.Template.Piece
import Tender.Proofs.Template.Reading
import Tender.Proofs.Template.Twin

namespace Tender

open Text

namespace Builder

/-- Whether the trimmed body of a tag makes it a tag between two branches. -/
def IsElse (body : Text) : Prop :=
  body = ['^'] ∨ body = elseWord ∨ (Text.after? (elseWord ++ [' ']) body).isSome = true

instance (body : Text) : Decidable (IsElse body) :=
  inferInstanceAs (Decidable (_ ∨ _ ∨ _))

end Builder

/-- A tag that takes no blanks from the text around it and ends no branch. -/
inductive Piece.IsLocal : Piece → Prop
  | raw (body : Text) : IsLocal (.raw body)
  | tag {body : Text} (htildes : Builder.splitTildes body = (false, body, false))
      (helse : ¬ Builder.IsElse (trim body)) : IsLocal (.tag body)

namespace Builder

variable {isHelper : Text → Bool} {b b' : Builder} {maxTags maxDepth : Nat} {token body : Text}
variable {cause : Problem.Cause}

/-! ### Rejected tags -/

theorem settle_of_refuse {α : Type} {r : Reading α} {add : α → Builder}
    (h : r.map (fun _ => ()) = refuse cause) :
    b.settle token r add = .ok (b.addProblem ⟨cause, some token⟩) := by
  cases r with
  | ok a => cases h
  | error e =>
    cases h
    rfl

theorem closeBlock_of_refuse {name : Text}
    (h : (Demand.closing b.stack name).verdict isHelper = refuse cause) :
    b.closeBlock token name = b.addProblem ⟨cause, some token⟩ := by
  rw [Demand.closing] at h
  rw [closeBlock]
  cases hfind : b.stack.find? fun o => !o.chained with
  | none =>
    rw [hfind] at h
    cases h
    rfl
  | some o =>
    rw [hfind] at h
    simp only at h ⊢
    split at h
    · cases h
    · rename_i hname
      cases h
      rw [if_neg hname]

theorem addTag_of_refuse (helse : ¬ IsElse body)
    (h : (Demand.tag b.stack body).verdict isHelper = refuse cause) :
    b.addTag isHelper maxDepth token body = .ok (b.addProblem ⟨cause, some token⟩) := by
  revert h
  fun_cases Demand.tag b.stack body with
  | case1 body hbody =>
    rcases hbody with hbody | hbody
    · exact absurd (.inl hbody) helse
    · exact absurd (.inr (.inl hbody)) helse
  | case2 body hbody chain hchain => exact absurd (.inr (.inr (by rw [hchain]; rfl))) helse
  | case3 s hbody hchain =>
    intro h
    rw [← readBlock_map] at h
    rw [addTag, if_neg hbody, hchain]
    exact settle_of_refuse h
  | case4 s hbody hchain =>
    intro h
    rw [addTag, if_neg hbody, hchain]
    exact congrArg Except.ok (closeBlock_of_refuse h)
  | case5 s hbody hchain =>
    intro h
    cases h
    rw [addTag, if_neg hbody, hchain]
  | case6 s hbody hchain =>
    intro h
    cases h
    rw [addTag, if_neg hbody, hchain]
  | case7 s hbody hchain =>
    intro h
    rw [addTag, if_neg hbody, hchain]
    exact settle_of_refuse h
  | case8 body hopen hclose hpartial hinverse hplain hbody hchain =>
    intro h
    rw [addTag, if_neg hbody, hchain]
    · exact settle_of_refuse h
    · exact hopen
    · exact hclose
    · exact hpartial
    · exact hinverse
    · exact hplain

/-- A tag that is rejected leaves its problem in its place and changes nothing else. -/
theorem add_of_refuse {p : Piece} (hlocal : p.IsLocal) (hstrip : b.strip = false)
    (h : (Demand.ofPiece maxTags b.stack p).verdict isHelper = refuse cause) :
    b.add isHelper maxTags maxDepth p = .ok (b.addProblem ⟨cause, p.token?⟩) := by
  cases hlocal with
  | raw body => exact settle_of_refuse h
  | @tag body htildes helse =>
    rw [Demand.ofPiece, htildes] at h
    rw [add, htildes]
    show ({ b with strip := false } : Builder).addTag _ _ _ _ = _
    have hsame : ({ b with strip := false } : Builder) = b := by
      rw [← hstrip]
    rw [hsame, addTag_of_refuse helse h]
    rfl

/-- Whether a tag is rejected depends only on the blocks that are open before it. -/
theorem refuse_of_add {p : Piece} {q : Problem}
    (hadd : b.add isHelper maxTags maxDepth p = .ok b') (hproblems : b'.problems = q :: b.problems) :
    ∃ cause, (Demand.ofPiece maxTags b.stack p).verdict isHelper = refuse cause ∧
      q = ⟨cause, p.token?⟩ := by
  have hspec := add_spec isHelper maxTags maxDepth b p
  rw [hadd] at hspec
  cases hverdict : (Demand.ofPiece maxTags b.stack p).verdict isHelper with
  | ok _ =>
    rw [hverdict] at hspec
    obtain ⟨b'', hb'', hsame⟩ := hspec
    cases hb''
    rw [hsame] at hproblems
    exact absurd hproblems (List.cons_ne_self q b.problems).symm
  | error e =>
    rw [hverdict] at hspec
    cases e with
    | problem cause =>
      obtain ⟨b'', hb'', hmore⟩ := hspec
      cases hb''
      rw [hmore] at hproblems
      exact ⟨cause, rfl, (List.cons.inj hproblems).1.symm⟩
    | fault f => cases hspec

/-! ### A diagnostic that is typed -/

open Node

theorem sameText_if (t : Text) (nodes : List Node) :
    SameText (if t = [] then nodes else .text t :: nodes) (.text t :: nodes) := by
  split
  · rename_i ht
    rw [ht]
    exact (SameText.text_nil nodes).symm
  · exact .refl _

/-- Texts around a problem, and the same texts with the diagnostic typed between them, leave readings
of the same kind. -/
theorem twin_diagnostic (b : Builder) (q : Problem) (w s : Text) :
    Twin (((b.addText w).addProblem q).addText s) (b.addText (w ++ (q.diagnostic ++ s))) := by
  obtain ⟨d, hd⟩ := q.diagnostic_eq
  let t := if b.strip then trimStart w else w
  let around : List Node := .problem q :: (if t = [] then b.nodes else .text t :: b.nodes)
  have htyped : (if b.strip then trimStart (w ++ (q.diagnostic ++ s)) else
      w ++ (q.diagnostic ++ s)) = t ++ (q.diagnostic ++ s) := by
    show _ = (if b.strip then trimStart w else w) ++ _
    split
    · rw [hd, List.cons_append, trimStart_append (by decide)]
    · rfl
  -- the last text ends as the typed diagnostic does, or after it
  have htrimmed : ∀ u, trimEnd (t ++ (q.diagnostic ++ u)) = t ++ (q.diagnostic ++ trimEnd u) := by
    intro u
    have h := trimEnd_append (c := '>') (by decide) (t ++ '<' :: d) u
    rw [hd]
    simpa using h
  have hsame : ∀ u, SameText (.text u :: around) (.text (t ++ (q.diagnostic ++ u)) :: b.nodes) := by
    intro u
    have hproblem : SameText around (.text q.diagnostic :: .text t :: b.nodes) :=
      .cons (.problem q) (sameText_if t b.nodes)
    rw [← List.append_assoc]
    exact ((SameText.cons (.refl _) hproblem).trans
      (.cons (.refl _) (.text_append t q.diagnostic b.nodes))).trans (.text_append _ u b.nodes)
  have hne : t ++ (q.diagnostic ++ s) ≠ [] := by simp [hd]
  refine ⟨?_, List.forall₂_same.2 fun o _ => OpenBlock.Twin.refl o, rfl⟩
  show SameEnd (if s = [] then around else .text s :: around) (if _ = [] then _ else _)
  rw [htyped, if_neg hne]
  by_cases hs : s = []
  · have hempty := (SameText.text_nil around).symm.trans (hsame [])
    rw [if_pos hs, hs]
    refine ⟨hempty, ?_⟩
    show SameText around (.text (trimEnd (t ++ (q.diagnostic ++ []))) :: b.nodes)
    rw [htrimmed]
    exact hempty
  · rw [if_neg hs]
    refine ⟨hsame s, ?_⟩
    show SameText (.text (trimEnd s) :: around)
      (.text (trimEnd (t ++ (q.diagnostic ++ s))) :: b.nodes)
    rw [htrimmed]
    exact hsame (trimEnd s)

/-- What follows a tag that is rejected is read in the same way as what follows its diagnostic. -/
theorem alike_diagnostic (b : Builder) (q : Problem) (w : Text) {ps : List Piece}
    (hps : ps = [] ∨ ∃ s rest, ps = .text s :: rest) :
    Alike (ps.foldlM (Builder.add isHelper maxTags maxDepth) ((b.addText w).addProblem q))
      ((Piece.prepend (w ++ q.diagnostic) ps).foldlM (Builder.add isHelper maxTags maxDepth) b) := by
  rcases hps with rfl | ⟨s, rest, rfl⟩
  · obtain ⟨d, hd⟩ := q.diagnostic_eq
    have hne : w ++ q.diagnostic ≠ [] := by simp [hd]
    have htwin := twin_diagnostic b q w []
    rw [List.append_nil] at htwin
    have hprepend : Piece.prepend (w ++ q.diagnostic) [] = [.text (w ++ q.diagnostic)] := if_neg hne
    rw [hprepend]
    exact .ok htwin
  · have htwin := twin_diagnostic b q w s
    rw [← List.append_assoc] at htwin
    exact htwin.addAll maxTags maxDepth rest

end Builder

namespace Piece

variable {before after t tail : Text} {p : Piece} {ps : List Piece} {tags : Nat}

theorem getLast?_of_suffix {c : Char} {v s : Text} (hv : v <:+ s) (hs : s.getLast? ≠ some c) :
    v.getLast? ≠ some c := by
  obtain ⟨u, rfl⟩ := hv
  intro h
  rw [List.getLast?_append, h] at hs
  exact hs rfl

/-- The pieces around a tag. -/
theorem piecesFrom_around (h : Scanned before ps tags tail) (hbrace : before.getLast? ≠ some '{')
    (hback : before.getLast? ≠ some '\\') (htag : readTag? t = some (p, [])) (budget : Nat) :
    piecesFrom (budget + 1 + tags) [] (before ++ (opening ++ t) ++ after) =
      ps ++ .text tail :: p :: piecesFrom budget [] after := by
  have hbare := bare_opening_of_cut h.cut_tail (getLast?_of_suffix h.tail_suffix hbrace)
  have hcut := cut_append_of_bare (by decide) hbare (t ++ after)
  rw [List.append_assoc, h.piecesFrom_append, List.append_assoc, piecesFrom_tag hcut
    (getLast?_of_suffix h.tail_suffix hback) (readTag?_append htag after), piecesFrom_eq]
  rfl

/-- If a page with a tag is within a limit, there is room for the tag. -/
theorem exists_budget {limit : Nat} (h : Scanned before ps tags tail)
    (hbrace : before.getLast? ≠ some '{') (hback : before.getLast? ≠ some '\\')
    (hlimit : WithinLimit limit (before ++ (opening ++ t) ++ after)) :
    ∃ budget, limit = budget + 1 + tags := by
  rw [WithinLimit, ofPage, List.append_assoc] at hlimit
  obtain ⟨room, rfl⟩ := Nat.exists_eq_add_of_le' (h.tags_le hlimit)
  cases room with
  | succ budget => exact ⟨budget, rfl⟩
  | zero =>
    -- the tag itself would be past the limit
    have hbare := bare_opening_of_cut h.cut_tail (getLast?_of_suffix h.tail_suffix hbrace)
    have hcut := cut_append_of_bare (by decide) hbare (t ++ after)
    rw [h.piecesFrom_append, List.append_assoc,
      piecesFrom_limit hcut (getLast?_of_suffix h.tail_suffix hback)] at hlimit
    exact absurd (List.mem_append_right _ (List.mem_reverse.2 List.mem_cons_self)) (hlimit _)

/-- The pieces around a diagnostic that is typed. -/
theorem piecesFrom_typed (h : Scanned before ps tags tail) (hbrace : before.getLast? ≠ some '{')
    (budget : Nat) (q : Problem) :
    piecesFrom (budget + tags) [] (before ++ q.diagnostic ++ after) =
      ps ++ prepend (tail ++ q.diagnostic) (piecesFrom budget [] after) := by
  have hbare := bare_opening_of_cut h.cut_tail (getLast?_of_suffix h.tail_suffix hbrace)
  have hdiagnostic : Bare opening q.diagnostic :=
    Bare.of_not_mem fun hmem => (Problem.no_brace_diagnostic hmem).1 rfl
  have hlast : (tail ++ q.diagnostic).getLast? ≠ some '\\' := by
    obtain ⟨d, hd⟩ := q.diagnostic_eq
    rw [hd, ← List.cons_append, ← List.append_assoc, List.getLast?_concat]
    decide
  rw [List.append_assoc, h.piecesFrom_append, ← List.append_assoc,
    piecesFrom_bare_append (hbare.append hdiagnostic) hlast]

end Piece

/-- The blocks that are open at the end of a closed text are those before its plain tail. -/
theorem Builder.stack_of_scanned {isHelper : Text → Bool} {maxTags maxDepth budget tags : Nat}
    {before tail : Text} {ps : List Piece} {b : Builder}
    (h : Piece.Scanned before ps tags tail)
    (hread : (Piece.piecesFrom (budget + tags) [] before).foldlM
      (Builder.add isHelper maxTags maxDepth) Builder.start = .ok b) :
    ∃ b₀, ps.foldlM (Builder.add isHelper maxTags maxDepth) Builder.start = .ok b₀ ∧
      b.stack = b₀.stack := by
  have hpieces := h.piecesFrom_append budget []
  rw [List.append_nil, List.append_nil, Piece.piecesFrom_plain h.cut_tail] at hpieces
  rw [hpieces, List.foldlM_append] at hread
  obtain ⟨b₀, hb₀, htail⟩ := ok_of_bind hread
  refine ⟨b₀, hb₀, ?_⟩
  by_cases hnil : tail = []
  · rw [if_pos hnil] at htail
    cases htail
    rfl
  · rw [if_neg hnil] at htail
    cases htail
    rfl

/-- A malformed tag is local: if a tag is rejected where every mustache before it is closed, the page
is compiled as the page with the diagnostic of the tag typed in its place. -/
theorem Compiler.compile_malformed_tag {c : Compiler} {before after t : Text} {p : Piece}
    {b b' : Builder} {q : Problem} (hclosed : Piece.Closed before)
    (hbrace : before.getLast? ≠ some '{') (hback : before.getLast? ≠ some '\\')
    (htag : Piece.readTag? t = some (p, [])) (hlocal : p.IsLocal)
    (hread : (Piece.ofPage c.settings.maxTemplateTokens before).foldlM
      (Builder.add c.isHelper c.settings.maxTemplateTokens c.settings.maxBlockDepth)
      Builder.start = .ok b)
    (hadd : b.add c.isHelper c.settings.maxTemplateTokens c.settings.maxBlockDepth p = .ok b')
    (hrejected : b'.problems = q :: b.problems)
    (hlimit : Piece.WithinLimit c.settings.maxTemplateTokens
      (before ++ (Piece.opening ++ t) ++ after)) (context : Value) :
    c.compile (before ++ (Piece.opening ++ t) ++ after) context =
      c.compile (before ++ q.diagnostic ++ after) context := by
  obtain ⟨ps, tags, tail, hscanned⟩ := hclosed
  obtain ⟨budget, hbudget⟩ := Piece.exists_budget hscanned hbrace hback hlimit
  have htagged : Piece.ofPage c.settings.maxTemplateTokens
      (before ++ (Piece.opening ++ t) ++ after) =
        ps ++ .text tail :: p :: Piece.piecesFrom budget [] after := by
    rw [Piece.ofPage, hbudget, Piece.piecesFrom_around hscanned hbrace hback htag]
  have htyped : Piece.ofPage c.settings.maxTemplateTokens (before ++ q.diagnostic ++ after) =
      ps ++ Piece.prepend (tail ++ q.diagnostic) (Piece.piecesFrom budget [] after) := by
    rw [Piece.WithinLimit, htagged] at hlimit
    rw [Piece.ofPage, hbudget, Piece.piecesFrom_typed hscanned hbrace, Piece.piecesFrom_succ]
    exact fun more hmore => hlimit more
      (List.mem_append_right _ (List.mem_cons_of_mem _ (List.mem_cons_of_mem _ hmore)))
  rw [show Piece.ofPage c.settings.maxTemplateTokens before =
    Piece.piecesFrom (budget + 1 + tags) [] before by rw [Piece.ofPage, hbudget]] at hread
  obtain ⟨b₀, hb₀, hstack⟩ := Builder.stack_of_scanned hscanned hread
  -- the tag is rejected behind the plain tail as well, for the same blocks are open there
  obtain ⟨cause, hverdict, rfl⟩ := Builder.refuse_of_add hadd hrejected
  rw [hstack] at hverdict
  have hrefused : (b₀.addText tail).add c.isHelper c.settings.maxTemplateTokens
      c.settings.maxBlockDepth p = .ok ((b₀.addText tail).addProblem ⟨cause, p.token?⟩) :=
    Builder.add_of_refuse hlocal rfl hverdict
  rw [compile_eq, compile_eq, htagged, htyped, List.foldlM_append, List.foldlM_append, hb₀]
  refine Eq.trans ?_ ((Builder.alike_diagnostic b₀ ⟨cause, p.token?⟩ tail
    (Piece.piecesFrom_head budget after)).written _ _)
  show ((Builder.add _ _ _ (b₀.addText tail) p >>= _) >>= _) = _
  rw [hrefused]
  rfl

/-- A block that is left open. -/
def openedBlock : Text := lit "\x7b\x7b#if rates\x7d\x7da "

/-- The second branch of a block that is left open, and text before it that loses its blanks. -/
def secondBranch : Text := lit " b \x7b\x7b~else\x7d\x7d c"

/-- A closing tag of another block in the first branch of a block that is left open. -/
theorem Compiler.compile_malformed_tag_crossed :
    ∃ q : Problem,
      q.message = lit "\x7b\x7b/each\x7d\x7d does not match \x7b\x7b#if rates\x7d\x7d" ∧
      ∀ context, (standard {}).compile
          (openedBlock ++ (Piece.opening ++ lit "/each\x7d\x7d") ++ secondBranch) context =
        (standard {}).compile (openedBlock ++ q.diagnostic ++ secondBranch) context := by
  have hopening : cut Piece.opening openedBlock = some ([], lit "#if rates\x7d\x7da ") := by
    decide +kernel
  have htag : Piece.readTag? (lit "#if rates\x7d\x7da ") =
      some (.tag (lit "#if rates"), lit "a ") := by decide +kernel
  have hclosed : Piece.Closed openedBlock :=
    ⟨_, _, _, .tag hopening (by decide +kernel) htag (.plain (by decide +kernel))⟩
  have hproblems : ((Piece.ofPage 5000 openedBlock).foldlM
      (Builder.add (standard {}).isHelper 5000 16) Builder.start).toOption.bind (fun b =>
        (b.add (standard {}).isHelper 5000 16 (.tag (lit "/each"))).toOption.map fun b' =>
          (b.problems.map Problem.message, b'.problems.map Problem.message)) =
      some ([], [lit "\x7b\x7b/each\x7d\x7d does not match \x7b\x7b#if rates\x7d\x7d"]) := by
    decide +kernel
  obtain ⟨b, hb, hb'⟩ := Option.bind_eq_some_iff.1 hproblems
  obtain ⟨b', hadd, hmessages⟩ := Option.map_eq_some_iff.1 hb'
  obtain ⟨hnone, hone⟩ := Prod.mk.inj hmessages
  obtain ⟨q, rest, hq, hmessage, hrest⟩ := List.map_eq_cons_iff.1 hone
  rw [List.map_eq_nil_iff] at hnone hrest
  have hproblem : b'.problems = q :: b.problems := by rw [hq, hrest, hnone]
  have hlimit : ((Piece.ofPage 5000 (openedBlock ++ (Piece.opening ++ lit "/each\x7d\x7d") ++
      secondBranch)).all fun p => match p with
        | .overLimit _ => false
        | _ => true) = true := by decide +kernel
  refine ⟨q, hmessage, fun context => compile_malformed_tag hclosed (by decide +kernel)
    (by decide +kernel) (by decide +kernel) (.tag (by decide +kernel) (by decide +kernel))
    (ok_of_toOption hb) (ok_of_toOption hadd) hproblem (fun rest hrest => ?_) context⟩
  cases List.all_eq_true.1 hlimit _ hrest

end Tender
