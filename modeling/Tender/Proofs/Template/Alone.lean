/-
Pages that are one block without a second branch.

* `Builder.addAll_above_error` — above open blocks a text is read with the fault that it is read
  with on its own;
* `Compiler.compile_alone` — a block whose body is balanced is the one node of its page;
* `Compiler.compile_alone_error` — a body whose reading fails makes the page fail in the same way,
  whatever the block is.
-/
import Tender.Proofs.Template.When

namespace Tender

open Text

/-! ### Readings that fail -/

namespace Builder

variable {isHelper : Text → Bool} {maxTags maxDepth : Nat}

/-- Above open blocks a text whose own tags close nothing else is read with the same fault. -/
theorem addAll_above_error (base : List OpenBlock) (earlier : List Problem) {ps : List Piece}
    {b : Builder} {f : Fault}
    (hadd : ps.foldlM (add isHelper maxTags (maxDepth - height base)) b = .error f)
    (hin : ∀ qs, qs <+: ps → ∀ b',
      qs.foldlM (add isHelper maxTags (maxDepth - height base)) b = .ok b' → b'.Inside) :
    ps.foldlM (add isHelper maxTags maxDepth) (b.above base earlier) = .error f := by
  induction ps generalizing b with
  | nil => cases hadd
  | cons p ps ih =>
    have hstep : (b.above base earlier).add isHelper maxTags maxDepth p =
        (b.add isHelper maxTags (maxDepth - height base) p).map (above base earlier) := by
      refine add_above base earlier p fun b' hb' => hin [p] ⟨ps, rfl⟩ b' ?_
      rw [List.foldlM_cons, hb']
      rfl
    rw [List.foldlM_cons] at hadd ⊢
    rw [hstep]
    cases hp : b.add isHelper maxTags (maxDepth - height base) p with
    | error g =>
      rw [hp] at hadd
      cases hadd
      rfl
    | ok c =>
      rw [hp] at hadd
      refine ih hadd fun qs hqs b' hb' => hin (p :: qs) ?_ b' ?_
      · exact (List.prefix_cons_inj p).2 hqs
      · rw [List.foldlM_cons, hp]
        exact hb'

end Builder

namespace Compiler

open Builder

variable {c : Compiler} {s : Text} {l : Link}

/-- A text that can stand between the tags of a block, also if a tag of it makes the reading fail:
up to there it closes and branches no block outside of it, and if all of it is read then no block of
it is left open. -/
structure Framed (c : Compiler) (s : Text) : Prop where
  mustaches : Piece.Closed s
  brace : s.getLast? ≠ some '{'
  backslash : s.getLast? ≠ some '\\'
  inside : ∀ ps, ps <+: Piece.pieces s → ∀ b, ps.foldlM
    (Builder.add c.isHelper c.settings.maxTemplateTokens c.settings.maxBlockDepth)
    Builder.start = .ok b → b.Inside
  blocks : ∀ b, c.readAlone c.settings.maxBlockDepth s = .ok b → b.stack = []

/-- A body that is read is balanced. -/
theorem Framed.balanced (h : c.Framed s) {b : Builder}
    (hread : c.readAlone c.settings.maxBlockDepth s = .ok b) : c.Balanced s where
  mustaches := h.mustaches
  blocks := ⟨b, hread, h.blocks b hread⟩
  brace := h.brace
  backslash := h.backslash
  inside := h.inside _ (List.prefix_refl _)

theorem Balanced.framed (h : c.Balanced s) : c.Framed s where
  mustaches := h.mustaches
  brace := h.brace
  backslash := h.backslash
  inside := by
    rintro ps ⟨rest, hrest⟩ b hb
    obtain ⟨d, hd, -, -, hin⟩ := h.readAlone_ok c.settings.maxBlockDepth
    rw [readAlone, ← hrest, List.foldlM_append, hb] at hd
    exact hin.of_addAll hd
  blocks b hb := by
    obtain ⟨d, hd, hstack⟩ := h.blocks
    cases hd.symm.trans hb
    exact hstack

/-- A body is read with the same fault however deep blocks may be nested, and in front of the fault
nothing belongs to a block outside of it. -/
theorem Framed.foldlM_error (h : c.Framed s) {f : Fault}
    (hread : c.readAlone c.settings.maxBlockDepth s = .error f) {ps : List Piece} {tags : Nat}
    {tail : Text} (hscanned : Piece.Scanned s ps tags tail) (room : Nat) :
    ps.foldlM (Builder.add c.isHelper c.settings.maxTemplateTokens room) Builder.start = .error f ∧
      ∀ qs, qs <+: ps → ∀ b,
        qs.foldlM (Builder.add c.isHelper c.settings.maxTemplateTokens room) Builder.start =
          .ok b → b.Inside := by
  have halong (qs : List Piece) :
      Along (qs.foldlM (Builder.add c.isHelper c.settings.maxTemplateTokens
        c.settings.maxBlockDepth) Builder.start)
      (qs.foldlM (Builder.add c.isHelper c.settings.maxTemplateTokens room) Builder.start) :=
    (Alongside.refl Builder.start).addAll qs
  constructor
  · -- the plain tail is never read with a fault
    have hfault : ps.foldlM (Builder.add c.isHelper c.settings.maxTemplateTokens
        c.settings.maxBlockDepth) Builder.start = .error f := by
      rw [readAlone, hscanned.pieces_eq, List.foldlM_append] at hread
      cases hps : ps.foldlM (Builder.add c.isHelper c.settings.maxTemplateTokens
          c.settings.maxBlockDepth) Builder.start with
      | error g =>
        rw [hps] at hread
        exact hread
      | ok b =>
        rw [hps, Piece.prepend_nil] at hread
        change List.foldlM _ b _ = _ at hread
        split at hread
        · cases hread
        · cases hread
    have hsame := halong ps
    rw [hfault] at hsame
    generalize ps.foldlM (Builder.add c.isHelper c.settings.maxTemplateTokens room)
      Builder.start = x at hsame
    cases hsame
    rfl
  · intro qs hqs b hb
    have hsame := halong qs
    rw [hb] at hsame
    cases hdeep : qs.foldlM (Builder.add c.isHelper c.settings.maxTemplateTokens
        c.settings.maxBlockDepth) Builder.start with
    | error g =>
      rw [hdeep] at hsame
      cases hsame
    | ok b' =>
      rw [hdeep] at hsame
      cases hsame with
      | ok hsame =>
        have hpieces : qs <+: Piece.pieces s := by
          rw [hscanned.pieces_eq]
          exact hqs.trans (List.prefix_append _ _)
        exact fun q hq => h.inside qs hpieces b' hdeep q (hsame.problems ▸ hq)

end Compiler

/-! ### Blocks without a second branch -/

/-- A block without a second branch. -/
def Link.alone (l : Link) : Text :=
  tag ('#' :: l.call) ++ (l.body ++ tag ('/' :: l.kind.name))

namespace Compiler

open Builder

variable {c : Compiler} {s : Text} {l : Link}

section

variable (hparam : c.Parsable l.param)
  (htags : Piece.mustaches l.body + 2 ≤ c.settings.maxTemplateTokens)

include hparam

/-- The tag of a block at the start of a page. -/
theorem carries_opener :
    c.Carries (Link.tag ('#' :: l.call)) 1 Builder.start
      ⟨[], [opened c l c.settings.maxBlockDepth Builder.start], false, []⟩ :=
  c.carries_tag rfl (Link.readTag?_call hparam [] (by decide) (by decide) (by decide))
    (add_opener hparam)

include htags

/-- A page that is a block without a second branch is that one node. -/
theorem compile_alone (hbody : c.Balanced l.body) (hdepth : 0 < c.settings.maxBlockDepth)
    (context : Value) :
    c.compile l.alone context =
      Node.render c.settings.maxBlockDepth (c.surroundings context)
        (.block l.kind (l.expr c) (Link.tag ('#' :: l.call)) false
          (c.nodesOf (c.settings.maxBlockDepth - 1) l.body).reverse []) := by
  let o := opened c l c.settings.maxBlockDepth Builder.start
  have hfits : o.tooDeep = false := decide_eq_false (Nat.not_lt.2 hdepth)
  obtain ⟨problems, hinner⟩ := hbody.carries [o] []
  have hclose := hinner (readTag?_closer l.kind) (add_closer (o := o) rfl)
  rw [closeTop_of_not_chained (o := o) rfl, OpenBlock.close, hfits] at hclose
  have hpage := (carries_opener hparam).append hclose
  exact (compile_of_carries hpage (by omega) context).trans (renderAll_singleton _ _)

/-- A body whose reading fails makes a block fail in the same way, whatever its kind and its
parameter are. -/
theorem compile_alone_error (hbody : c.Framed l.body) {f : Fault}
    (hread : c.readAlone c.settings.maxBlockDepth l.body = .error f) (context : Value) :
    c.compile l.alone context = .error f := by
  let o := opened c l c.settings.maxBlockDepth Builder.start
  obtain ⟨ps, hopener, hopen⟩ := carries_opener hparam
  obtain ⟨ps', tags, tail, hscanned⟩ := hbody.mustaches
  obtain ⟨hfault, hin⟩ := hbody.foldlM_error hread hscanned (c.settings.maxBlockDepth - height [o])
  have habove := addAll_above_error [o] [] hfault hin
  have hwhole : (ps ++ ps').foldlM (Builder.add c.isHelper c.settings.maxTemplateTokens
      c.settings.maxBlockDepth) Builder.start = .error f := by
    rw [List.foldlM_append, hopen]
    exact habove
  have hlimit : 1 + tags ≤ c.settings.maxTemplateTokens := by
    rw [hscanned.mustaches_eq] at htags
    omega
  have hpage := compile_of_fault (hopener.append rfl hscanned) hlimit hwhole
    (Link.tag ('/' :: l.kind.name)) context
  rw [List.append_assoc] at hpage
  exact hpage

end

end Compiler

end Tender
