/-
The reading of a page: which tags are reported, and which end it.

What a piece of a page asks for depends only on the blocks that are open before it (`Demand`).

* `add_spec` — a piece that is in order adds no problem, one with a problem adds just this one, and
  one whose terms break ends the reading;
* `read_ok_iff` — a page is read exactly if no tag that is reached has terms that break, and then
  every malformed tag and every block that is left open is among its problems.
-/
import Tender.Proofs.Renderer
import Tender.Proofs.Template.Terms

namespace Tender

open Tender.Expr

/-- What a piece of a page asks to be read. -/
inductive Demand where
  | nothing
  /-- The piece is malformed whatever its terms are. -/
  | refusal (cause : Problem.Cause)
  /-- The terms of a value that is shown. -/
  | shown (terms : Text)
  /-- The parameter of a block. -/
  | parameter (terms : Text)

namespace Demand

/-- The terms that are read. -/
def terms? : Demand → Option Text
  | .shown s => some s
  | .parameter s => some s
  | _ => none

/-- What the reading comes to. -/
def verdict (isHelper : Text → Bool) : Demand → Reading Unit
  | .nothing => .ok ()
  | .refusal cause => refuse cause
  | .shown s => (readShown isHelper s).map fun _ => ()
  | .parameter s => (readParameter isHelper s).map fun _ => ()

theorem verdict_fault_iff (isHelper : Text → Bool) (d : Demand) :
    (∃ f, d.verdict isHelper = .error (.fault f)) ↔
      ∃ s, d.terms? = some s ∧ BrokenText isHelper s := by
  have hmap {α : Type} (x : Reading α) : (∃ f, x.map (fun _ => ()) = .error (.fault f)) ↔
      ∃ f, x = .error (.fault f) := by
    cases x with
    | error e => simp [Except.map]
    | ok a => simp [Except.map]
  cases d with
  | nothing => simp [verdict, terms?]
  | refusal cause => simp [verdict, terms?, refuse]
  | shown s => simp [verdict, terms?, hmap, readShown_fault_iff]
  | parameter s => simp [verdict, terms?, hmap, readParameter_fault_iff]

/-- What a block tag asks for. -/
def block (allowNames : Bool) (s : Text) : Demand :=
  match BlockKind.ofName? (Builder.splitName s).1 with
  | none => .refusal (.unknownBlock (Builder.splitName s).1)
  | some _ =>
    if !allowNames && Text.occursIn [' ', 'a', 's', ' ', '|'] (Builder.splitName s).2 then
      .refusal .blockParameters
    else .parameter (Builder.splitName s).2

/-- What a tag between two branches asks for. -/
def branch (stack : List OpenBlock) (chain : Text) : Demand :=
  match stack with
  | [] => .refusal .elseOutside
  | top :: _ =>
    if top.body.isSome then .refusal .duplicateElse
    else if chain = [] then .nothing
    else block true chain

/-- What a tag that closes a block asks for. -/
def closing (stack : List OpenBlock) (name : Text) : Demand :=
  match stack.find? fun o => !o.chained with
  | none => .refusal .unexpectedClose
  | some o => if o.kind.name = name then .nothing else .refusal (.mismatchedClose o.token)

/-- What a tag with a trimmed body asks for. -/
def tag (stack : List OpenBlock) (body : Text) : Demand :=
  if body = ['^'] ∨ body = Builder.elseWord then branch stack []
  else match Text.after? (Builder.elseWord ++ [' ']) body with
    | some chain => branch stack (Text.trim chain)
    | none => match body with
      | '#' :: s => block false s
      | '/' :: s => closing stack (Text.trim s)
      | '>' :: _ => .refusal .unsupportedTag
      | '^' :: _ => .refusal .unsupportedTag
      | '&' :: s => .shown s
      | s => .shown s

/-- What a piece asks for, given the blocks that are open before it. -/
def ofPiece (maxTags : Nat) (stack : List OpenBlock) : Piece → Demand
  | .text _ => .nothing
  | .comment _ => .nothing
  | .raw body => .shown body
  | .tag body => tag stack (Text.trim (Builder.splitTildes body).2.1)
  | .unclosed rest => .refusal (.unclosedTag (rest.take 40))
  | .overLimit _ => .refusal (.tooManyTags maxTags)

end Demand

/-- The tag that a piece is, with its braces. -/
def Piece.token? : Piece → Option Text
  | .raw body => some (['{', '{', '{'] ++ body ++ ['}', '}', '}'])
  | .tag body => some (Piece.opening ++ body ++ Piece.closing)
  | _ => none

/-! ### One piece -/

namespace Builder

variable {isHelper : Text → Bool}

/-- What is left after a piece that was read as `verdict`: the problems found before, with the one
of the piece in front if there is one. -/
def Leaves (problems : List Problem) (token : Option Text) (verdict : Reading Unit)
    (result : Except Fault Builder) : Prop :=
  match verdict with
  | .ok () => ∃ b, result = .ok b ∧ b.problems = problems
  | .error (.problem cause) => ∃ b, result = .ok b ∧ b.problems = ⟨cause, token⟩ :: problems
  | .error (.fault f) => result = .error f

theorem leaves_settle {α : Type} (b : Builder) (token : Text) (r : Reading α) {add : α → Builder}
    (hadd : ∀ a, (add a).problems = b.problems) :
    Leaves b.problems (some token) (r.map fun _ => ()) (b.settle token r add) := by
  cases r with
  | ok a => exact ⟨add a, rfl, hadd a⟩
  | error e =>
    cases e with
    | problem cause => exact ⟨_, rfl, rfl⟩
    | fault f => rfl

theorem readBlock_map (allowNames : Bool) (s : Text) :
    (readBlock isHelper allowNames s).map (fun _ => ()) =
      (Demand.block allowNames s).verdict isHelper := by
  rw [readBlock, Demand.block]
  obtain ⟨name, rest⟩ := splitName s
  simp only
  cases BlockKind.ofName? name with
  | none => rfl
  | some kind =>
    simp only
    split
    · rfl
    · rw [Demand.verdict]
      cases readParameter isHelper rest with
      | error e => rfl
      | ok e => rfl

theorem leaves_openBlock (b : Builder) (maxDepth : Nat) (token s : Text) :
    Leaves b.problems (some token) ((Demand.block false s).verdict isHelper)
      (b.openBlock isHelper maxDepth token s) := by
  rw [← readBlock_map]
  exact leaves_settle b token _ fun _ => rfl

theorem leaves_addElse (b : Builder) (token chain : Text) :
    Leaves b.problems (some token) ((Demand.branch b.stack chain).verdict isHelper)
      (b.addElse isHelper token chain) := by
  unfold addElse Demand.branch
  cases b.stack with
  | nil => exact ⟨_, rfl, rfl⟩
  | cons top outer =>
    simp only
    split
    · exact ⟨_, rfl, rfl⟩
    · split
      · exact ⟨_, rfl, rfl⟩
      · rw [← readBlock_map]
        exact leaves_settle _ token _ fun _ => rfl

theorem leaves_closeBlock (b : Builder) (token name : Text) :
    Leaves b.problems (some token) ((Demand.closing b.stack name).verdict isHelper)
      (.ok (b.closeBlock token name)) := by
  rw [closeBlock, Demand.closing]
  cases b.stack.find? fun o => !o.chained with
  | none => exact ⟨_, rfl, rfl⟩
  | some o =>
    simp only
    split
    · exact ⟨_, rfl, rfl⟩
    · exact ⟨_, rfl, rfl⟩

theorem leaves_addShown (b : Builder) (token body : Text) (raw : Bool) :
    Leaves b.problems (some token) ((Demand.shown body).verdict isHelper)
      (b.addShown isHelper token body raw) :=
  leaves_settle b token _ fun _ => rfl

theorem leaves_addTag (b : Builder) (maxDepth : Nat) (token body : Text) :
    Leaves b.problems (some token) ((Demand.tag b.stack body).verdict isHelper)
      (b.addTag isHelper maxDepth token body) := by
  fun_cases Demand.tag b.stack body with
  | case1 body helse =>
    unfold addTag
    rw [if_pos helse]
    exact leaves_addElse b token []
  | case2 body helse chain hchain =>
    unfold addTag
    rw [if_neg helse, hchain]
    exact leaves_addElse b token _
  | case3 s helse hchain =>
    rw [addTag, if_neg helse, hchain]
    exact leaves_openBlock b maxDepth token s
  | case4 s helse hchain =>
    rw [addTag, if_neg helse, hchain]
    exact leaves_closeBlock b token _
  | case5 s helse hchain =>
    rw [addTag, if_neg helse, hchain]
    exact ⟨_, rfl, rfl⟩
  | case6 s helse hchain =>
    rw [addTag, if_neg helse, hchain]
    exact ⟨_, rfl, rfl⟩
  | case7 s helse hchain =>
    rw [addTag, if_neg helse, hchain]
    exact leaves_addShown b token s true
  | case8 body hopen hclose hpartial hinverse hplain helse hchain =>
    rw [addTag, if_neg helse, hchain]
    · exact leaves_addShown b token body false
    · exact hopen
    · exact hclose
    · exact hpartial
    · exact hinverse
    · exact hplain

theorem add_spec (isHelper : Text → Bool) (maxTags maxDepth : Nat) (b : Builder) (p : Piece) :
    Leaves b.problems p.token? ((Demand.ofPiece maxTags b.stack p).verdict isHelper)
      (b.add isHelper maxTags maxDepth p) := by
  cases p with
  | text s => exact ⟨_, rfl, rfl⟩
  | comment s => exact ⟨_, rfl, rfl⟩
  | raw body => exact leaves_addShown b _ body true
  | unclosed rest => exact ⟨_, rfl, rfl⟩
  | overLimit rest => exact ⟨_, rfl, rfl⟩
  | tag body =>
    -- the tildes change the text around the tag, but neither the blocks nor the problems
    have hstrip : b.stripBefore.stack = b.stack ∧ b.stripBefore.problems = b.problems := by
      rw [stripBefore]
      split
      · exact ⟨rfl, rfl⟩
      · exact ⟨rfl, rfl⟩
    have htag (b' : Builder) (hstack : b'.stack = b.stack) (hproblems : b'.problems = b.problems) :
        Leaves b.problems (some (Piece.opening ++ body ++ Piece.closing))
          ((Demand.tag b.stack (Text.trim (splitTildes body).2.1)).verdict isHelper)
          (b'.addTag isHelper maxDepth (Piece.opening ++ body ++ Piece.closing)
            (Text.trim (splitTildes body).2.1)) := by
      rw [← hstack, ← hproblems]
      exact leaves_addTag b' maxDepth _ _
    rw [add]
    show Leaves b.problems _
      ((Demand.tag b.stack (Text.trim (splitTildes body).2.1)).verdict isHelper) _
    rcases hsplit : splitTildes body with ⟨left, inner, right⟩
    rw [hsplit] at htag
    -- a left tilde strips the text before the tag
    cases left with
    | true => exact htag { b.stripBefore with strip := right } hstrip.1 hstrip.2
    | false => exact htag { b with strip := right } rfl rfl

/-- Problems that have been found stay. -/
theorem problems_of_foldlM {maxTags maxDepth : Nat} {b b' : Builder} {ps : List Piece}
    (h : ps.foldlM (add isHelper maxTags maxDepth) b = .ok b') : b.problems ⊆ b'.problems := by
  induction ps generalizing b with
  | nil =>
    cases h
    exact fun q hq => hq
  | cons p ps ih =>
    rw [List.foldlM_cons] at h
    have hspec := add_spec isHelper maxTags maxDepth b p
    cases hadd : b.add isHelper maxTags maxDepth p with
    | error f =>
      rw [hadd] at h
      cases h
    | ok c =>
      rw [hadd] at h hspec
      refine fun q hq => ih h ?_
      cases hverdict : (Demand.ofPiece maxTags b.stack p).verdict isHelper with
      | ok u =>
        rw [hverdict] at hspec
        obtain ⟨_, hc, hproblems⟩ := hspec
        cases hc
        rw [hproblems]
        exact hq
      | error e =>
        cases e with
        | problem cause =>
          rw [hverdict] at hspec
          obtain ⟨_, hc, hproblems⟩ := hspec
          cases hc
          rw [hproblems]
          exact List.mem_cons_of_mem _ hq
        | fault f =>
          rw [hverdict] at hspec
          cases hspec

/-- Every block that is left open is reported. -/
theorem problems_of_spliceOpen (stack : List OpenBlock) (nodes : List Node)
    (problems : List Problem) :
    problems ⊆ (spliceOpen stack nodes problems).2 ∧
      ∀ o ∈ stack, o.chained = false →
        ⟨.unclosedBlock, some o.token⟩ ∈ (spliceOpen stack nodes problems).2 := by
  induction stack generalizing nodes problems with
  | nil => exact ⟨fun q hq => hq, fun o ho => by cases ho⟩
  | cons o stack ih =>
    rw [spliceOpen]
    simp only
    -- a chained block is closed with the block it belongs to, which is reported instead
    by_cases hchained : o.chained = true
    · rw [if_pos hchained]
      obtain ⟨hkept, hopen⟩ := ih (nodes ++ o.body.getD [] ++ o.before) problems
      refine ⟨hkept, fun o' ho' hfalse => ?_⟩
      rcases List.mem_cons.1 ho' with rfl | hmem
      · rw [hchained] at hfalse
        cases hfalse
      · exact hopen o' hmem hfalse
    · rw [if_neg hchained]
      obtain ⟨hkept, hopen⟩ := ih
        (nodes ++ o.body.getD [] ++ .problem ⟨.unclosedBlock, some o.token⟩ :: o.before)
        (⟨.unclosedBlock, some o.token⟩ :: problems)
      refine ⟨fun q hq => hkept (List.mem_cons_of_mem _ hq), fun o' ho' hfalse => ?_⟩
      rcases List.mem_cons.1 ho' with rfl | hmem
      · exact hkept List.mem_cons_self
      · exact hopen o' hmem hfalse

end Builder

/-! ### Whole pages -/

namespace Page

variable {isHelper : Text → Bool} {maxTags maxDepth : Nat} {source : Text}

/-- Whether the reading of a page comes to a piece, with what has been read before it. -/
def Reaches (isHelper : Text → Bool) (maxTags maxDepth : Nat) (source : Text) (b : Builder)
    (p : Piece) : Prop :=
  ∃ before after, Piece.ofPage maxTags source = before ++ p :: after ∧
    before.foldlM (Builder.add isHelper maxTags maxDepth) Builder.start = .ok b

/-- Whether the reading of a page comes to terms that break. -/
def Breaks (isHelper : Text → Bool) (maxTags maxDepth : Nat) (source : Text) : Prop :=
  ∃ b p s, Reaches isHelper maxTags maxDepth source b p ∧
    (Demand.ofPiece maxTags b.stack p).terms? = some s ∧ BrokenText isHelper s

theorem read_ok_iff :
    (∃ page, read isHelper maxTags maxDepth source = .ok page) ↔
      ¬ Breaks isHelper maxTags maxDepth source := by
  have hfold : (∃ page, read isHelper maxTags maxDepth source = .ok page) ↔
      ¬ ∃ f, (Piece.ofPage maxTags source).foldlM (Builder.add isHelper maxTags maxDepth)
        Builder.start = .error f := by
    rw [read]
    cases (Piece.ofPage maxTags source).foldlM (Builder.add isHelper maxTags maxDepth)
        Builder.start with
    | error f => simp [Bind.bind, Except.bind]
    | ok b => simp [Bind.bind, Except.bind, pure, Except.pure]
  rw [hfold]
  refine not_congr ⟨?_, ?_⟩
  -- the first piece whose adding fails is the one whose terms break
  · rintro ⟨f, h⟩
    obtain ⟨before, p, after, b, hsplit, hbefore, hp⟩ := foldlM_error_iff.1 h
    have hspec := Builder.add_spec isHelper maxTags maxDepth b p
    rw [hp] at hspec
    cases hverdict : (Demand.ofPiece maxTags b.stack p).verdict isHelper with
    | ok u =>
      rw [hverdict] at hspec
      obtain ⟨_, hc, -⟩ := hspec
      cases hc
    | error e =>
      cases e with
      | problem cause =>
        rw [hverdict] at hspec
        obtain ⟨_, hc, -⟩ := hspec
        cases hc
      | fault f' =>
        obtain ⟨s, hs, hbroken⟩ := (Demand.verdict_fault_iff isHelper _).1 ⟨f', hverdict⟩
        exact ⟨b, p, s, ⟨before, after, hsplit, hbefore⟩, hs, hbroken⟩
  · rintro ⟨b, p, s, ⟨before, after, hsplit, hbefore⟩, hs, hbroken⟩
    obtain ⟨f, hf⟩ := (Demand.verdict_fault_iff isHelper _).2 ⟨s, hs, hbroken⟩
    have hspec := Builder.add_spec isHelper maxTags maxDepth b p
    rw [hf] at hspec
    exact ⟨f, foldlM_error_iff.2 ⟨before, p, after, b, hsplit, hbefore, hspec⟩⟩

/-- The problems of a page that is read are those found on the way and those of the blocks that are
left open, and then those of the blocks that are too deep. -/
theorem problems_of_read {page : Page} (h : read isHelper maxTags maxDepth source = .ok page) :
    ∃ b, (Piece.ofPage maxTags source).foldlM (Builder.add isHelper maxTags maxDepth)
        Builder.start = .ok b ∧
      (Builder.spliceOpen b.stack b.nodes b.problems).2 ⊆ page.problems := by
  rw [read] at h
  cases hfold : (Piece.ofPage maxTags source).foldlM (Builder.add isHelper maxTags maxDepth)
      Builder.start with
  | error f =>
    rw [hfold] at h
    cases h
  | ok b =>
    rw [hfold] at h
    cases h
    refine ⟨b, rfl, fun q hq => ?_⟩
    exact List.mem_append_left _ (List.mem_reverse.2 hq)

/-- A page that is read holds the problem of every piece that has one. -/
theorem mem_problems {page : Page} (h : read isHelper maxTags maxDepth source = .ok page)
    {b : Builder} {p : Piece} (hreach : Reaches isHelper maxTags maxDepth source b p)
    {cause : Problem.Cause}
    (hcause : (Demand.ofPiece maxTags b.stack p).verdict isHelper = refuse cause) :
    ⟨cause, p.token?⟩ ∈ page.problems := by
  obtain ⟨before, after, hsplit, hbefore⟩ := hreach
  obtain ⟨b', hfold, hproblems⟩ := problems_of_read h
  have hspec := Builder.add_spec isHelper maxTags maxDepth b p
  rw [hcause] at hspec
  obtain ⟨c, hc, hfound⟩ := hspec
  rw [hsplit, List.foldlM_append, hbefore] at hfold
  change (p :: after).foldlM (Builder.add isHelper maxTags maxDepth) b = .ok b' at hfold
  rw [List.foldlM_cons, hc] at hfold
  have hlater := Builder.problems_of_foldlM (b := c) hfold
  refine hproblems ((Builder.problems_of_spliceOpen _ _ _).1 (hlater ?_))
  rw [hfound]
  exact List.mem_cons_self

end Page

/-- A page is read exactly if the reading comes to no terms that break; then every malformed tag
and every block that is left open is among its problems.

Terms break at a word, standing where a term may come and after terms without a problem, that is an
empty data path or a numeral that is too long. -/
theorem Compiler.read_ok_iff_not_breaks (c : Compiler) (source : Text) :
    ((∃ page, c.read source = .ok page) ↔
      ¬ Page.Breaks c.isHelper c.settings.maxTemplateTokens c.settings.maxBlockDepth source) ∧
    ∀ page, c.read source = .ok page →
      (∀ b p cause,
        Page.Reaches c.isHelper c.settings.maxTemplateTokens c.settings.maxBlockDepth source b p →
        (Demand.ofPiece c.settings.maxTemplateTokens b.stack p).verdict c.isHelper =
          refuse cause →
        ⟨cause, p.token?⟩ ∈ page.problems) ∧
      ∀ b, (Piece.ofPage c.settings.maxTemplateTokens source).foldlM
          (Builder.add c.isHelper c.settings.maxTemplateTokens c.settings.maxBlockDepth)
          Builder.start = .ok b →
        ∀ o ∈ b.stack, o.chained = false → ⟨.unclosedBlock, some o.token⟩ ∈ page.problems := by
  refine ⟨Page.read_ok_iff, fun page h => ⟨fun b p cause hreach hcause => ?_, ?_⟩⟩
  · exact Page.mem_problems h hreach hcause
  · intro b hb o ho hchained
    obtain ⟨b', hb', hproblems⟩ := Page.problems_of_read h
    rw [hb] at hb'
    cases hb'
    exact hproblems ((Builder.problems_of_spliceOpen _ _ _).2 o ho hchained)

/-- A page of one stray closing tag is read, and the tag is reported. -/
theorem Compiler.read_ok_iff_not_breaks_stray_close :
    ∃ page, (Compiler.standard {}).read (lit "\x7b\x7b/if\x7d\x7d") = .ok page ∧
      ⟨.unexpectedClose, some (lit "\x7b\x7b/if\x7d\x7d")⟩ ∈ page.problems := by
  have hread : ((Compiler.standard {}).read (lit "\x7b\x7b/if\x7d\x7d")).toBool = true := by
    decide +kernel
  have hpieces : Piece.ofPage 5000 (lit "\x7b\x7b/if\x7d\x7d") =
      [.text []] ++ .tag ['/', 'i', 'f'] :: [] := by decide +kernel
  obtain ⟨page, hpage⟩ := exists_ok_of_toBool hread
  have hreported := ((Compiler.read_ok_iff_not_breaks _ _).2 page hpage).1 Builder.start _
    .unexpectedClose ⟨[.text []], [], hpieces, rfl⟩ rfl
  refine ⟨page, hpage, ?_⟩
  rw [lit_ofList]
  exact hreported

/-- A data path that names the scope itself after a point and a slash ends the reading. -/
theorem Compiler.read_empty_data_path :
    ¬ ∃ page, (Compiler.standard {}).read (lit "\x7b\x7b@./this\x7d\x7d") = .ok page := by
  have hread : ((Compiler.standard {}).read (lit "\x7b\x7b@./this\x7d\x7d")).toBool = false := by
    decide +kernel
  rintro ⟨page, h⟩
  rw [h] at hread
  cases hread

end Tender
