/-
Calls of registered helpers.

* `registerAll_eq` — of helpers that are registered one after the other, just those with an accepted
  name are added to the table;
* `compile_row` — a tag of a name and literals is a page of its own;
* `compile_call`, `compile_reserved` — it shows what the helper comes to, unless the name is a word
  that tags and terms read otherwise;
* `calls_iff` — so a helper is called exactly if its name is none of these words and no literal
  holds a wide character.
-/
import Tender.Proofs.Template.Branch
import Tender.Proofs.Template.Failure
import Tender.Proofs.Template.Literal
import Tender.Proofs.Template.When

namespace Tender

open Text

namespace Compiler

variable {c : Compiler} {name : Text} {h : Helper}

/-! ### Registering -/

/-- The compiler after helpers were registered one after the other; one that is rejected leaves the
compiler as it is. -/
def registerAll (c : Compiler) (rs : List (Text × Helper)) : Compiler :=
  rs.foldl (fun c r => (c.register r.1 r.2).toOption.getD c) c

theorem registered_eq (c : Compiler) (r : Text × Helper) :
    (c.register r.1 r.2).toOption.getD c = if c.Accepts r.1 then c.withHelpers [r] else c := by
  by_cases hname : c.Accepts r.1
  · rw [if_pos hname, register_of_accepts hname]
    rfl
  · rw [if_neg hname]
    cases hregister : c.register r.1 r.2 with
    | error f => rfl
    | ok c' => exact absurd (register_eq_ok_iff.1 ⟨c', hregister⟩) hname

/-- The helpers whose names are accepted are added in order, and nothing else is changed. -/
theorem registerAll_eq (c : Compiler) (rs : List (Text × Helper)) :
    c.registerAll rs = c.withHelpers (rs.filter fun r => c.Accepts r.1) := by
  induction rs generalizing c with
  | nil => rfl
  | cons r rs ih =>
    show registerAll ((c.register r.1 r.2).toOption.getD c) rs = _
    rw [registered_eq]
    by_cases hname : c.Accepts r.1
    · rw [if_pos hname, ih, List.filter_cons_of_pos (by simpa using hname)]
      rfl
    · rw [if_neg hname, ih, List.filter_cons_of_neg (by simpa using hname)]

theorem registerAll_of_rejected {r : Text × Helper} (hr : ¬ c.Accepts r.1)
    (before after : List (Text × Helper)) :
    c.registerAll (before ++ r :: after) = c.registerAll (before ++ after) := by
  rw [registerAll_eq, registerAll_eq, List.filter_append, List.filter_append,
    List.filter_cons_of_neg (by simpa using hr)]

/-- The helper that was registered last under a name is found there. -/
theorem get?_registerAll (hname : c.Accepts name) (before : List (Text × Helper))
    {after : List (Text × Helper)} (hlast : name ∉ after.map Prod.fst) :
    Entries.get? name (c.registerAll (before ++ (name, h) :: after)).helpers = some h := by
  have hlast' : name ∉ Entries.keys (after.filter fun r => c.Accepts r.1) := by
    rintro hmem
    obtain ⟨r, hr, rfl⟩ := List.mem_map.1 hmem
    exact hlast (List.mem_map_of_mem (List.mem_filter.1 hr).1)
  rw [registerAll_eq, List.filter_append, List.filter_cons_of_pos (by simpa using hname)]
  show Entries.get? name (Entries.putAll (_ ++ (name, h) :: _) c.helpers) = _
  rw [Entries.putAll, List.foldl_append, List.foldl_cons, ← Entries.putAll,
    Entries.get?_putAll_of_not_mem hlast', Entries.get?_put_self]

end Compiler

/-! ### The tag of a call -/

namespace Expr

open Lexeme Builder

variable {isHelper : Text → Bool} {name : Text} {args : List Text} {vs : List Value}

/-- What stands in a tag that calls a helper with arguments. -/
def row (name : Text) (args : List Text) : Text := name ++ spaced args

/-- The first character of a name opens no tag of another kind and is no tilde. -/
theorem head?_row (hname : isName name = true) (args : List Text) :
    ∃ x s, row name args = x :: s ∧ isNameRest x = true := by
  obtain ⟨x, s, rfl⟩ := List.exists_cons_of_ne_nil (isBareWord_name hname).ne_nil
  exact ⟨x, s ++ spaced args, rfl, isNameRest_of_mem hname List.mem_cons_self⟩

/-- Literals end in no tilde. -/
theorem getLast?_append_spaced (hargs : List.Forall₂ IsLiteral args vs) {w : Text}
    (hw : w.getLast? ≠ some '~') : (w ++ spaced args).getLast? ≠ some '~' := by
  induction hargs generalizing w with
  | nil => rwa [spaced, List.flatMap_nil, List.append_nil]
  | @cons a v args vs ha _ ih =>
    have hne : a ≠ [] := by
      obtain ⟨s, c, rfl, -⟩ := ha.endsSolid
      simp
    rw [spaced_cons, ← List.cons_append, ← List.append_assoc]
    refine ih ?_
    rw [← List.singleton_append (l := a), ← List.append_assoc, List.getLast?_append_of_ne_nil _ hne]
    exact ha.getLast?_ne_tilde

theorem trim_row (hname : isName name = true) (hargs : List.Forall₂ IsLiteral args vs) :
    trim (row name args) = row name args := by
  have hsolid := (EndsSolid.of_word (isBareWord_name hname)).append_row (endsSolid_spaced hargs)
  rw [row, hsolid.trim_eq, (isBareWord_name hname).trimStart_append]

theorem bare_row (hname : isName name = true) (hargs : List.Forall₂ IsLiteral args vs)
    (hclosing : ∀ a ∈ args, ¬ Piece.closing <:+: a) : Bare Piece.closing (row name args) := by
  have hspaced : Bare Piece.closing (spaced args) := by
    induction hargs with
    | nil => exact Bare.nil
    | @cons a v args vs ha _ ih =>
      rw [spaced_cons]
      refine Bare.append (v := [' ']) (Bare.of_not_mem (by decide)) ?_
      exact (ha.bare_closing (hclosing a List.mem_cons_self)).append
        (ih fun b hb => hclosing b (List.mem_cons_of_mem a hb))
  exact (Bare.of_not_mem (not_mem_name hname (by decide))).append hspaced

theorem readTag?_row (hname : isName name = true) (hargs : List.Forall₂ IsLiteral args vs)
    (hclosing : ∀ a ∈ args, ¬ Piece.closing <:+: a) :
    Piece.readTag? (row name args ++ Piece.closing) = some (.tag (row name args), []) := by
  obtain ⟨x, s, hrow, hx⟩ := head?_row hname args
  have hcut := cut_append_of_bare (by decide) (bare_row hname hargs hclosing) []
  rw [List.append_nil] at hcut
  refine Piece.readTag_of_cut hcut ?_ ?_ <;>
  · rw [hrow]
    rintro heq
    cases heq
    cases hx

theorem readShown_row (hname : isName name = true) (hhelper : isHelper name = true)
    (he : readWord name = .ok (.path (.scope 0 false [name])))
    (hargs : List.Forall₂ IsLiteral args vs) :
    readShown isHelper (row name args) = .ok (.call name [] (vs.map Expr.literal)) := by
  rw [readShown, row, ofText_row (isBareWord_name hname) he hargs]
  have hfound : (Path.scope 0 false [name]).simpleName?.filter isHelper = some name := by
    show (some name).filter isHelper = _
    rw [Option.filter_some, if_pos hhelper]
  simp only [bind, Except.bind, hfound]
  rfl

/-- A word that is no simple name calls no helper. -/
theorem readShown_row_of_not_simple (hname : isName name = true) {e : Expr}
    (he : readWord name = .ok e) (hsimple : ∀ p, e = .path p → p.simpleName? = none)
    (hargs : List.Forall₂ IsLiteral args vs) :
    readShown isHelper (row name args) =
      if vs = [] then .ok e else refuse (.missingHelper none) := by
  rw [readShown, row, ofText_row (isBareWord_name hname) he hargs]
  cases e with
  | path p =>
    simp only [bind, Except.bind, hsimple p rfl, Option.filter_none]
    cases vs <;> rfl
  | literal v => cases vs <;> rfl
  | call n os es => cases vs <;> rfl

end Expr

namespace Compiler

open Expr Lexeme Builder Path

variable {c : Compiler} {name : Text} {args : List Text} {vs : List Value}

/-- A tag that is all of a page is written as the node that it is read as. -/
theorem compile_row (hlimit : 0 < c.settings.maxTemplateTokens) (hname : isName name = true)
    (hargs : List.Forall₂ IsLiteral args vs) (hclosing : ∀ a ∈ args, ¬ Piece.closing <:+: a)
    {n : Node} {problems : List Problem}
    (hadd : Builder.start.addTag c.isHelper c.settings.maxBlockDepth (Link.tag (row name args))
      (row name args) = .ok ⟨[n], [], false, problems⟩) (context : Value) :
    c.compile (Link.tag (row name args)) context =
      Node.render c.settings.maxBlockDepth (c.surroundings context) n := by
  have hhead : (row name args).head? ≠ some '~' := by
    obtain ⟨x, s, hrow, hx⟩ := head?_row hname args
    rw [hrow]
    rintro heq
    cases heq
    cases hx
  have hlast : (row name args).getLast? ≠ some '~' := getLast?_append_spaced hargs fun hlast =>
    not_mem_name hname (by decide) (List.mem_of_getLast? hlast)
  have htag : Builder.start.add c.isHelper c.settings.maxTemplateTokens c.settings.maxBlockDepth
      (.tag (row name args)) = .ok ⟨[n], [], false, problems⟩ := by
    rw [add_tag hhead hlast, trim_row hname hargs]
    exact hadd
  have hpage := c.carries_tag rfl (readTag?_row hname hargs hclosing) htag
  exact (compile_of_carries hpage hlimit context).trans (renderAll_singleton _ _)

/-- A name behind which literals stand is read as a value that is shown, but for one word. -/
theorem addTag_row (hname : isName name = true) (helse : name ≠ elseWord) (args : List Text)
    (b : Builder) (isHelper : Text → Bool) (maxDepth : Nat) (token : Text) :
    b.addTag isHelper maxDepth token (row name args) =
      b.addShown isHelper token (row name args) false := by
  obtain ⟨x, s, hrow, hx⟩ := head?_row hname args
  have hspace : ' ' ∉ name := not_mem_name hname (by decide)
  have hplain : ¬ (row name args = ['^'] ∨ row name args = elseWord) := by
    rintro (heq | heq)
    · rw [hrow] at heq
      cases heq
      cases hx
    · cases args with
      | nil => exact helse ((List.append_nil name).symm.trans heq)
      | cons a args =>
        have hmem : ' ' ∈ elseWord := by
          rw [← heq, row, spaced_cons]
          exact List.mem_append_right _ List.mem_cons_self
        exact absurd hmem (by decide)
  have hchain : after? (elseWord ++ [' ']) (row name args) = none := by
    rw [after?_eq_none_iff]
    rintro ⟨t, ht⟩
    rw [List.append_assoc, List.singleton_append] at ht
    cases args with
    | nil =>
      have hmem : ' ' ∈ row name [] := by
        rw [← ht]
        exact List.mem_append_right _ List.mem_cons_self
      rw [row, spaced, List.flatMap_nil, List.append_nil] at hmem
      exact hspace hmem
    | cons a args =>
      rw [row, spaced_cons] at ht
      exact helse (eq_of_append_cons_eq (by decide) hspace ht).symm
  rw [addTag, if_neg hplain, hchain]
  all_goals
    rintro t heq
    rw [hrow] at heq
    cases heq
    cases hx

theorem addTag_elseRow (args : List Text) (isHelper : Text → Bool) (maxDepth : Nat) (token : Text) :
    Builder.start.addTag isHelper maxDepth token (row elseWord args) =
      .ok (Builder.start.addProblem ⟨.elseOutside, some token⟩) := by
  have helse : IsElse (row elseWord args) := by
    cases args with
    | nil => exact .inr (.inl rfl)
    | cons a args =>
      refine .inr (.inr ?_)
      rw [row, spaced_cons, List.append_cons elseWord ' ' (a ++ spaced args), after?_append]
      rfl
  obtain ⟨chain, hadd, -⟩ := exists_chain isHelper maxDepth helse
  rw [hadd]
  rfl

/-- The words that tags, terms and paths read in a way of their own. -/
def ownWords : List Text :=
  [elseWord, thisWord, lit "true", lit "false", lit "null", lit "undefined"]

/-- What a page shows for a call of a helper: what it comes to, or the diagnostic of its failure. -/
def showCall (name : Text) (h : Helper) (a : Arguments) : Text :=
  Node.showOutcome false <| match h a with
    | .ok o => o
    | .error f => .failure (failureOf name f)

theorem evalArgs_literals (env : Surroundings) (vs : List Value) :
    evalArgs env (vs.map Expr.literal) = .ok (vs.map fun v => .value v.literal) := by
  induction vs with
  | nil => rfl
  | cons v vs ih =>
    rw [List.map_cons, evalArgs, ih]
    rfl

theorem readWord_of_not_own (hname : isName name = true) (hown : name ∉ ownWords) :
    readWord name = .ok (.path (.scope 0 false [name])) := by
  have hkeyword : keyword? name = none := by
    cases hkeyword : keyword? name with
    | none => rfl
    | some v =>
      have hall : ∀ w ∈ [lit "true", lit "false", lit "null", lit "undefined"], w ∈ ownWords := by
        simp [ownWords]
      exact absurd (hall name (mem_of_keyword? hkeyword)) hown
  have hthis : name ≠ thisWord := fun hthis => hown (by simp [ownWords, hthis])
  exact readWord_name (isName_of_name hname hthis hkeyword)

/-- A tag of the name of a helper and literals shows what the helper comes to with their values. -/
theorem compile_call (hlimit : 0 < c.settings.maxTemplateTokens) (hname : isName name = true)
    (hown : name ∉ ownWords) {h : Helper} (hhelper : Entries.get? name c.helpers = some h)
    (hargs : List.Forall₂ IsLiteral args vs) (hclosing : ∀ a ∈ args, ¬ Piece.closing <:+: a)
    (context : Value) :
    c.compile (Link.tag (row name args)) context =
      .ok (showCall name h ⟨vs.map fun v => .value v.literal, []⟩) := by
  have hisHelper : c.isHelper name = true := by
    rw [isHelper, hhelper]
    rfl
  have hadd : Builder.start.addTag c.isHelper c.settings.maxBlockDepth (Link.tag (row name args))
      (row name args) =
        .ok ⟨[.shown (.call name [] (vs.map Expr.literal)) false], [], false, []⟩ := by
    rw [addTag_row hname (fun helse => hown (by simp [ownWords, helse])), addShown,
      readShown_row hname hisHelper (readWord_of_not_own hname hown) hargs]
    rfl
  have heval : eval (c.surroundings context) (.call name [] (vs.map Expr.literal)) =
      .ok (callHelper (c.surroundings context) name ⟨vs.map fun v => .value v.literal, []⟩) := by
    rw [eval_call, evalArguments, evalArgs_literals]
    rfl
  have hcall : Node.showOutcome false (callHelper (c.surroundings context) name
      ⟨vs.map fun v => .value v.literal, []⟩) =
        showCall name h ⟨vs.map fun v => .value v.literal, []⟩ := by
    have hget : Entries.get? name (c.surroundings context).helpers = some h := hhelper
    rw [callHelper, hget]
    rfl
  rw [compile_row hlimit hname hargs hclosing hadd]
  show (eval _ _).map (Node.showOutcome false) = _
  rw [heval]
  exact congrArg Except.ok hcall

theorem keyword?_undefined : keyword? (lit "undefined") = some .null := by
  simp [keyword?, lit_inj]

/-- As a term, such a word is a value or the scope itself. -/
theorem readWord_of_own (hown : name ∈ ownWords) (helse : name ≠ elseWord) :
    ∃ e, Expr.readWord name = .ok e ∧ (e = .path (.scope 0 true []) ∨ ∃ v, e = .literal v) := by
  have hvalue {w : Text} {v : Value} (hv : keyword? w = some v) :
      ∃ e, Expr.readWord w = .ok e ∧ (e = .path (.scope 0 true []) ∨ ∃ v, e = .literal v) := by
    refine ⟨.literal v, ?_, .inr ⟨v, rfl⟩⟩
    rw [Expr.readWord, hv]
  have hthis : keyword? thisWord = none ∧ numeral? thisWord = none := by
    rw [keyword?, lit_ofList, lit_ofList, lit_ofList, lit_ofList]
    exact ⟨rfl, rfl⟩
  simp only [ownWords, List.mem_cons, List.not_mem_nil, or_false] at hown
  rcases hown with rfl | rfl | rfl | rfl | rfl | rfl
  · exact absurd rfl helse
  · refine ⟨.path (.scope 0 true []), ?_, .inl rfl⟩
    rw [Expr.readWord, hthis.1]
    simp only [hthis.2]
    rfl
  · exact hvalue keyword?_words.1
  · exact hvalue keyword?_words.2.1
  · exact hvalue keyword?_words.2.2
  · exact hvalue keyword?_undefined

/-- What a tag of such a word and literals shows does not depend on the helpers. -/
theorem compile_own (hown : name ∈ ownWords) (hargs : List.Forall₂ IsLiteral args vs)
    (hclosing : ∀ a ∈ args, ¬ Piece.closing <:+: a) (context : Value) : ∃ html, ∀ c : Compiler,
      0 < c.settings.maxTemplateTokens →
        c.compile (Link.tag (row name args)) context = .ok html := by
  have hnames : ∀ w ∈ ownWords, isName w = true := by
    rw [ownWords, lit_ofList, lit_ofList, lit_ofList, lit_ofList]
    decide
  have hname := hnames name hown
  by_cases helse : name = elseWord
  · subst helse
    exact ⟨_, fun c hlimit => compile_row hlimit hname hargs hclosing (addTag_elseRow args _ _ _) _⟩
  obtain ⟨e, he, hterm⟩ := readWord_of_own hown helse
  have hsimple : ∀ p, e = .path p → p.simpleName? = none := by
    rintro p rfl
    rcases hterm with hscope | ⟨v, hv⟩
    · cases hscope
      rfl
    · cases hv
  have hadd (c : Compiler) := addTag_row hname helse args Builder.start c.isHelper
    c.settings.maxBlockDepth (Link.tag (row name args))
  simp only [addShown, readShown_row_of_not_simple hname he hsimple hargs] at hadd
  by_cases hvs : vs = []
  · simp only [if_pos hvs] at hadd
    rcases hterm with rfl | ⟨v, rfl⟩
    · exact ⟨Node.showOutcome false (.value context), fun c hlimit =>
        compile_row hlimit hname hargs hclosing (hadd c) context⟩
    · exact ⟨_, fun c hlimit => compile_row hlimit hname hargs hclosing (hadd c) context⟩
  · simp only [if_neg hvs] at hadd
    exact ⟨_, fun c hlimit => compile_row hlimit hname hargs hclosing (hadd c) context⟩

/-- A helper is called by its name with literals: whatever is registered before it and whatever
other names are registered after it, the tag shows what it comes to with the values of the
literals. -/
def Calls (c : Compiler) (name : Text) (args : List Text) (vs : List Value) : Prop :=
  ∀ (before after : List (Text × Helper)) (h : Helper) (context : Value),
    name ∉ after.map Prod.fst →
      (c.registerAll (before ++ (name, h) :: after)).compile (Link.tag (row name args)) context =
        .ok (showCall name h ⟨vs.map .value, []⟩)

/-- What is shown tells one text that a helper answers with from another. -/
theorem showCall_ne {h k : Helper} {a b : Arguments} (hh : h a = .ok (.value (.text ['a'])))
    (hk : k b = .ok (.value (.text ['b']))) (name : Text) :
    showCall name h a ≠ showCall name k b := by
  rw [showCall, showCall, hh, hk]
  show Node.showOutcome false (.value (.text ['a'])) ≠ Node.showOutcome false (.value (.text ['b']))
  decide

/-- Literals count as what they are written as exactly if all characters in texts are narrow. -/
theorem map_literal_eq_iff :
    vs.map Value.literal = vs ↔ ∀ s, .text s ∈ vs → ∀ x ∈ s, x.toNat < 0x10000 := by
  have hself : vs.map Value.literal = vs ↔ ∀ v ∈ vs, v.literal = v := by
    simpa using List.map_inj_left (f := Value.literal) (g := id) (l := vs)
  rw [hself]
  constructor
  · intro h s hs
    exact split_eq_self_iff.1 (Value.text.inj (h _ hs))
  · intro h v hv
    cases v with
    | text s => exact congrArg Value.text (split_eq_self_iff.2 (h s hv))
    | _ => rfl

/-- A registered helper is called: if a name is accepted, a tag of the name and literals that do not
hold the end of the tag calls the helper that was registered last under the name, with the values of
the literals, exactly if the name is none of the words that tags and terms read in a way of their own
and all characters of texts are narrow; and a registration that is rejected changes nothing. -/
theorem calls_iff (hlimit : 0 < c.settings.maxTemplateTokens) (hname : c.Accepts name)
    (hargs : List.Forall₂ IsLiteral args vs) (hclosing : ∀ a ∈ args, ¬ Piece.closing <:+: a) :
    (c.Calls name args vs ↔
      name ∉ ownWords ∧ ∀ s, .text s ∈ vs → ∀ x ∈ s, x.toNat < 0x10000) ∧
    ∀ (before after : List (Text × Helper)) (r : Text × Helper), ¬ c.Accepts r.1 →
      c.registerAll (before ++ r :: after) = c.registerAll (before ++ after) := by
  have hregistered (before after : List (Text × Helper)) (h : Helper) :
      (c.registerAll (before ++ (name, h) :: after)).settings = c.settings := by
    rw [registerAll_eq]
    rfl
  have hshown (hown : name ∉ ownWords) {before after : List (Text × Helper)} (h : Helper)
      (context : Value) (hlast : name ∉ after.map Prod.fst) :
      (c.registerAll (before ++ (name, h) :: after)).compile (Link.tag (row name args)) context =
        .ok (showCall name h ⟨vs.map fun v => .value v.literal, []⟩) :=
    compile_call (by rwa [hregistered]) hname.2.2 hown (get?_registerAll hname before hlast) hargs
      hclosing context
  refine ⟨⟨fun hcalls => ?_, fun ⟨hown, hnarrow⟩ before after h context hlast => ?_⟩,
    fun before after r hr => registerAll_of_rejected hr before after⟩
  · have hown : name ∉ ownWords := by
      intro hown
      -- the page would show what two helpers with different answers come to
      obtain ⟨html, hhtml⟩ := compile_own hown hargs hclosing .null
      let answer (x : Char) : Helper := fun _ => .ok (.value (.text [x]))
      have hanswer (x : Char) : html = showCall name (answer x) ⟨vs.map .value, []⟩ :=
        Except.ok.inj ((hhtml _ (by rwa [hregistered])).symm.trans
          (hcalls [] [] (answer x) .null List.not_mem_nil))
      exact showCall_ne (h := answer 'a') (k := answer 'b') rfl rfl name
        ((hanswer 'a').symm.trans (hanswer 'b'))
    refine ⟨hown, map_literal_eq_iff.1 ?_⟩
    by_contra hwide
    -- a helper can tell the values of the literals from what it is given
    let tell : Helper := open Classical in fun a =>
      .ok (.value (.text (if a.positional = vs.map .value then ['a'] else ['b'])))
    have hne : vs.map (fun v => Outcome.value v.literal) ≠ vs.map .value := fun heq => by
      refine hwide (List.map_injective_iff.2 (fun v w h => Outcome.value.inj h) ?_)
      rw [List.map_map]
      exact heq
    refine showCall_ne (h := tell) (k := tell) (a := ⟨vs.map .value, []⟩)
      (b := ⟨vs.map fun v => .value v.literal, []⟩) ?_ ?_ name
      (Except.ok.inj ((hcalls [] [] tell .null List.not_mem_nil).symm.trans
        (hshown hown tell .null List.not_mem_nil)))
    · simp only [tell, if_pos]
    · simp only [tell, if_neg hne]
  · have hvalues : vs.map (fun v => Outcome.value v.literal) = vs.map .value := by
      conv => rhs; rw [← map_literal_eq_iff.2 hnarrow, List.map_map]
      rfl
    rw [hshown hown h context hlast, hvalues]

/-- Literals of every kind; the texts hold quotes, a backslash and a brace that end nothing. -/
def roundingWords : List Text :=
  [['"', 'a', '\\', '"', '}', '"'], ['\'', '"', '\''], ofInt (-12), lit "undefined"]

/-- The values of the literals. -/
def roundingValues : List Value := [.text ['a', '"', '}'], .text ['"'], .int (-12), .null]

theorem roundingWords_isLiteral : List.Forall₂ IsLiteral roundingWords roundingValues := by
  have hescaped : IsLiteral ['"', 'a', '\\', '"', '}', '"'] (.text ['a', '"', '}']) := by
    have hvalue : unquote ['a', '\\', '"', '}'] = ['a', '"', '}'] := by decide +kernel
    rw [← hvalue]
    exact .quoted (.inl rfl)
      (.char (by decide) (by decide) (.escape (by decide) (.char (by decide) (by decide) .nil)))
  have hplain : IsLiteral ['\'', '"', '\''] (.text ['"']) := by
    have hvalue : unquote ['"'] = ['"'] := by decide +kernel
    rw [← hvalue]
    exact .quoted (.inr rfl) (.char (by decide) (by decide) .nil)
  have hint : IsLiteral (ofInt (-12)) (.int (-12)) := by
    rcases readWord_ofInt (-12) with ⟨-, hread⟩ | ⟨hlong, -⟩
    · exact .word hread
    · exact absurd (by decide +kernel) hlong
  have hnull : IsLiteral (lit "undefined") .null := by
    refine .word ?_
    rw [Expr.readWord, keyword?_undefined]
  exact .cons hescaped (.cons hplain (.cons hint (.cons hnull .nil)))

theorem calls_iff_rounding : (standard {}).Calls (lit "if_") roundingWords roundingValues := by
  have hnarrow : ∀ s ∈ [['a', '"', '}'], ['"']], Text.split s = s := by decide +kernel
  refine (calls_iff (by decide) (by decide +kernel) roundingWords_isLiteral
    (by decide +kernel)).1.2 ⟨by decide +kernel, fun s hs => split_eq_self_iff.1 (hnarrow s ?_)⟩
  simpa [roundingValues] using hs

/-- The helper that answers with its first argument. -/
def firstOf : Helper := fun a => .ok (a.positional.headD (.value .null))

/-- A helper that is accepted under the name of the tag between two branches is not called. -/
theorem not_called_else : (standard {}).Accepts elseWord ∧ IsLiteral (ofInt 1) (.int 1) ∧
    Link.tag (row elseWord [ofInt 1]) = lit "\x7b\x7belse 1\x7d\x7d" ∧
    ((standard {}).registerAll [(elseWord, firstOf)]).compile (lit "\x7b\x7belse 1\x7d\x7d")
      (.map []) ≠ .ok (showCall elseWord firstOf ⟨[.value (.int 1)], []⟩) := by
  refine ⟨by decide +kernel, .word ?_, by decide +kernel, fun h => ?_⟩
  · rcases readWord_ofInt 1 with ⟨-, hread⟩ | ⟨hlong, -⟩
    · exact hread
    · exact absurd (by decide +kernel) hlong
  · have hshown := congrArg Except.toOption h
    revert hshown
    decide +kernel

end Compiler

end Tender
