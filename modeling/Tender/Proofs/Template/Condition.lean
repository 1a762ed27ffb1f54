/-
Conditions: blocks on words, and on calls of the logic helpers.

* `Value.truth_eq_iff` — a block tests a value as the logic helpers do, unless it is disputed;
* `Logic.negation_value`, `Logic.joining_values` — what the helpers answer for values;
* `Compiler.holds_call` — so a block on a call with words tests what the helper makes of their
  values;
* `Compiler.compile_conditions` — conditions joined by the helpers show what blocks on their words
  show, if none of the values is disputed;
* `Compiler.compile_not_disputed` — for a disputed value they do not.
-/
import Tender.Proofs.Template.Call
import Tender.Proofs.Template.When

namespace Tender

open Text

/-! ### The two tests of a value -/

/-- A value that a block tests otherwise than the logic helpers: an empty map, a float that is no
number, a decimal zero, and an integer beyond the range of floats. -/
def Value.Disputed : Value → Prop
  | .map es => es = []
  | .float x => x = .nan
  | .decimal (.finite _ coefficient _) => coefficient = 0
  | .int n => n ≠ 0 ∧ Binary64.ofInt? n = none
  | _ => False

/-- A block tests a value as the logic helpers do, unless it is disputed. -/
theorem Value.truth_eq_iff (v : Value) :
    Outcome.truth (.value v) = .ok v.isPresent ↔ ¬ v.Disputed := by
  cases v with
  | null => simp [Outcome.truth, isTruthy, isPresent, Disputed]
  | bool b => simp [Outcome.truth, isTruthy, isPresent, Disputed]
  | int n =>
    rw [Outcome.truth, Disputed, isPresent]
    by_cases hn : n = 0
    · simp [hn]
    · cases hfloat : Binary64.ofInt? n with
      | none => simp [hn]
      | some x => simp
  | float x =>
    by_cases hx : x = .nan
    · simp [Outcome.truth, isTruthy, isPresent, Disputed, hx, Binary64.isZero]
    · simp [Outcome.truth, isTruthy, isPresent, Disputed, hx]
  | decimal x =>
    cases x with
    | finite s c e => simp [Outcome.truth, isTruthy, isPresent, Disputed]
    | infinite s => simp [Outcome.truth, isTruthy, isPresent, Disputed]
    | nan s q p => simp [Outcome.truth, isTruthy, isPresent, Disputed]
  | text s => simp [Outcome.truth, isTruthy, isPresent, Disputed]
  | list xs => simp [Outcome.truth, isTruthy, isPresent, Disputed]
  | map es => simp [Outcome.truth, isTruthy, isPresent, Disputed]
  | date d => simp [Outcome.truth, isTruthy, isPresent, Disputed]
  | moment m => simp [Outcome.truth, isTruthy, isPresent, Disputed]

theorem Value.isPresent_eq {v : Value} (h : ¬ v.Disputed) : v.isPresent = v.isTruthy := by
  have htruth := v.truth_eq_iff.2 h
  cases v with
  | int n => rfl
  | _ => exact (Except.ok.inj htruth).symm

/-! ### What the helpers answer -/

namespace Expr

variable {env : Surroundings} {e : Expr} {es : List Expr} {v : Value} {vs : List Value}

theorem evalArgs_values (h : List.Forall₂ (fun e v => eval env e = .ok (.value v)) es vs) :
    evalArgs env es = .ok (vs.map .value) := by
  induction h with
  | nil => rw [evalArgs, List.map_nil]
  | cons he _ ih =>
    rw [evalArgs, he, ih]
    rfl

/-- A call of a helper with values. -/
theorem eval_call_values {name : Text} {helper : Helper} {o : Outcome}
    (hhelper : Entries.get? name env.helpers = some helper)
    (h : List.Forall₂ (fun e v => eval env e = .ok (.value v)) es vs)
    (ho : helper ⟨vs.map .value, []⟩ = .ok o) : eval env (.call name [] es) = .ok o := by
  rw [eval, evalOptions, evalArgs_values h]
  show Except.ok (callHelper env name ⟨vs.map .value, []⟩) = _
  rw [callHelper, hhelper]
  simp only [ho]

end Expr

namespace Logic

theorem negation_value (v : Value) :
    negation ⟨[.value v], []⟩ = .ok (.value (.bool (!v.isPresent))) := by
  have hfill : (Signature.mk (lit "not_") [lit "value"] []).fill [(lit "value", .value v)] [] =
      .ok [(lit "value", .value v)] := rfl
  have hbind : (Signature.mk (lit "not_") [lit "value"] []).bind ⟨[.value v], []⟩ =
      .ok [some (.value v)] := by
    simp [Signature.bind, Signature.bindEntries, Signature.parameters, hfill, Entries.get?,
      Bind.bind, Except.bind, pure, Except.pure]
  show ((Signature.mk (lit "not_") [lit "value"] []).bind ⟨[.value v], []⟩ >>= _) = _
  rw [hbind]
  rfl

theorem joining_values (title : String) (f : List Value → Bool) (vs : List Value) :
    joining title f ⟨vs.map .value, []⟩ = .ok (.value (.bool (f vs))) := by
  rw [joining, Signature.bindAll_positional]
  show Except.ok (Outcome.value (.bool (f ((vs.map Outcome.value).map Outcome.toValue)))) = _
  rw [List.map_map, show Outcome.toValue ∘ Outcome.value = id from rfl, List.map_id]

end Logic

/-- The logic helpers are registered under their names. -/
structure Compiler.HasLogic (c : Compiler) : Prop where
  not : Entries.get? (lit "not") c.helpers = some Logic.negation
  and : Entries.get? (lit "and") c.helpers = some (Logic.joining "and_" Logic.allOf)
  or : Entries.get? (lit "or") c.helpers = some (Logic.joining "or_" Logic.anyOf)

theorem Compiler.hasLogic_standard (s : Settings) : (standard s).HasLogic := by
  constructor <;> simp [standard, withHelpers, standardHelpers, Helpers.standard, Entries.put,
    Entries.get?, lit_inj]

/-! ### Conditions on words -/

namespace Compiler

variable {c : Compiler} {context : Value} {o : Outcome} {yes : Bool}

/-- A word that stands for a value in a page against the context. -/
structure Names (c : Compiler) (context : Value) (w : Text) (v : Value) : Prop where
  isWord : Lexeme.IsWord w
  value : ∃ e, Expr.readWord w = .ok e ∧ e.eval (c.surroundings context) = .ok (.value v)

variable {w : Text} {v : Value} {words : List Text} {values : List Value}

theorem Names.parsable (h : c.Names context w v) : c.Parsable w := by
  obtain ⟨e, he, -⟩ := h.value
  exact parsable_word h.isWord he

theorem Names.eval (h : c.Names context w v) :
    ((Link.onParam w).expr c).eval (c.surroundings context) = .ok (.value v) := by
  obtain ⟨e, he, heval⟩ := h.value
  have hread : Expr.readParameter c.isHelper (Link.onParam w).param = .ok e :=
    Expr.readParameter_word h.isWord he
  rw [Link.expr, hread]
  exact heval

theorem Names.holds (h : c.Names context w v) (ht : Outcome.truth (.value v) = .ok yes) :
    c.Holds context w yes := by
  obtain ⟨e, he, heval⟩ := h.value
  exact ⟨e, .value v, Expr.readParameter_word h.isWord he, heval, ht⟩

/-- The expressions that words are read as. -/
theorem exists_exprs (h : List.Forall₂ (c.Names context) words values) :
    (∀ w ∈ words, Lexeme.IsWord w) ∧ ∃ es,
      List.Forall₂ (fun w e => Expr.readWord w = .ok e) words es ∧
      List.Forall₂ (fun e v => e.eval (c.surroundings context) = .ok (.value v)) es values := by
  induction h with
  | nil => exact ⟨fun w hw => absurd hw List.not_mem_nil, [], .nil, .nil⟩
  | cons hw _ ih =>
    obtain ⟨hwords, es, hread, heval⟩ := ih
    obtain ⟨e, he, hv⟩ := hw.value
    exact ⟨List.forall_mem_cons.2 ⟨hw.isWord, hwords⟩, e :: es, .cons he hread, .cons hv heval⟩

/-- A call of a helper with words is tested by what the helper makes of their values. -/
theorem holds_call {name : Text} {helper : Helper} (hname : Lexeme.IsWord name)
    (hget : Entries.get? name c.helpers = some helper)
    (h : List.Forall₂ (c.Names context) words values)
    (ho : helper ⟨values.map .value, []⟩ = .ok o) (ht : o.truth = .ok yes) :
    c.Parsable (Lexeme.call name words) ∧ c.Holds context (Lexeme.call name words) yes := by
  have hhelper : c.isHelper name = true := by
    rw [isHelper, hget]
    rfl
  obtain ⟨hwords, es, hread, heval⟩ := exists_exprs h
  exact ⟨parsable_call hname hhelper hwords hread, .call name [] es, o,
    Expr.readParameter_call hname hhelper hwords hread, Expr.eval_call_values hget heval ho, ht⟩

theorem holds_not (hlogic : c.HasLogic) (h : c.Names context w v) :
    c.Parsable (Lexeme.call (lit "not") [w]) ∧
      c.Holds context (Lexeme.call (lit "not") [w]) (!v.isPresent) :=
  holds_call (by rw [lit_ofList]; decide) hlogic.not (.cons h .nil)
    (Logic.negation_value v) rfl

theorem holds_and (hlogic : c.HasLogic) (h : List.Forall₂ (c.Names context) words values) :
    c.Parsable (Lexeme.call (lit "and") words) ∧
      c.Holds context (Lexeme.call (lit "and") words) (values.all Value.isPresent) :=
  holds_call (by rw [lit_ofList]; decide) hlogic.and h (Logic.joining_values _ _ _) rfl

theorem holds_or (hlogic : c.HasLogic) (h : List.Forall₂ (c.Names context) words values) :
    c.Parsable (Lexeme.call (lit "or") words) ∧
      c.Holds context (Lexeme.call (lit "or") words) (values.any Value.isPresent) :=
  holds_call (by rw [lit_ofList]; decide) hlogic.or h (Logic.joining_values _ _ _) rfl

theorem Names.holds_isTruthy (h : c.Names context w v) (hv : ¬ v.Disputed) :
    c.Holds context w v.isTruthy :=
  h.holds (Value.isPresent_eq hv ▸ v.truth_eq_iff.2 hv)

/-- Conditions joined by the logic helpers show what blocks on their words show, if none of the
values is disputed: `not` as `unless`, `and` as blocks within blocks, `or` as any of the blocks. -/
theorem compile_conditions (hlogic : c.HasLogic)
    (hnames : List.Forall₂ (c.Names context) words values) (hsame : ∀ v ∈ values, ¬ v.Disputed) :
    (∀ body inverse, c.Balanced body → c.Balanced inverse → 0 < c.settings.maxBlockDepth →
      Piece.mustaches body + Piece.mustaches inverse + 3 ≤ c.settings.maxTemplateTokens →
      ∀ w ∈ words,
        c.compile (Link.nested [⟨.when, Lexeme.call (lit "not") [w], body⟩] inverse) context =
          c.compile (Link.nested [⟨.unless, w, body⟩] inverse) context) ∧
    (∀ body, c.Fits (max 1 words.length) body →
      c.compile (Link.whens [Lexeme.call (lit "and") words] body) context =
          c.compile (Link.whens words body) context ∧
        c.compile (Link.whens words body) context =
          if values.all Value.isTruthy then c.compile body context else .ok []) ∧
    ∀ body, c.Fits 1 body →
      c.compile (Link.whens [Lexeme.call (lit "or") words] body) context =
          (if values.any Value.isTruthy then c.compile body context else .ok []) ∧
        List.Forall₂ (fun w v => c.compile (Link.whens [w] body) context =
          if v.isTruthy then c.compile body context else .ok []) words values := by
  -- words that stand for values which are tested alike
  have hboth : List.Forall₂ (fun w v => c.Names context w v ∧ ¬ v.Disputed) words values :=
    List.forall₂_iff_zip.2 ⟨hnames.length_eq, fun hmem =>
      ⟨List.forall₂_zip hnames hmem, hsame _ (List.of_mem_zip hmem).2⟩⟩
  have htests : values.map Value.isPresent = values.map Value.isTruthy :=
    List.map_congr_left fun v hv => Value.isPresent_eq (hsame v hv)
  refine ⟨fun body inverse hbody hinverse hdepth htags => ?_, fun body hfits => ?_,
    fun body hfits => ⟨?_, ?_⟩⟩
  · refine ((List.forall₂_and_left _ _).1 (hboth.imp fun w v h => ⟨?_, h⟩)).1
    obtain ⟨hname, hv⟩ := h
    obtain ⟨hnot, hholds⟩ := holds_not hlogic hname
    rw [(compile_branches hnot hbody hinverse hdepth htags hholds).1,
      (compile_branches hname.parsable hbody hinverse hdepth htags (hname.holds_isTruthy hv)).2,
      Value.isPresent_eq hv]
    cases v.isTruthy <;> rfl
  · have hparsable : ∀ w ∈ words, c.Parsable w :=
      ((List.forall₂_and_left _ _).1 (hnames.imp fun w v h => ⟨h.parsable, h⟩)).1
    have hwords : List.Forall₂ (c.Holds context) words (values.map Value.isTruthy) :=
      List.forall₂_map_right_iff.2 (hboth.imp fun w v h => h.1.holds_isTruthy h.2)
    obtain ⟨hand, hholds⟩ := holds_and hlogic hnames
    have hnested := compile_whens hparsable hwords (hfits.mono (le_max_right _ _))
    have hjoined := compile_whens (List.forall_mem_singleton.2 hand) (.cons hholds .nil)
      (hfits.mono (le_max_left _ _))
    have hall : values.all Value.isPresent = values.all Value.isTruthy := by
      simpa only [List.all_map, Function.id_comp] using congrArg (List.all · id) htests
    rw [List.all_map, Function.id_comp] at hnested
    rw [List.all_cons, List.all_nil, Bool.and_true, id, hall] at hjoined
    exact ⟨hjoined.trans hnested.symm, hnested⟩
  · obtain ⟨hor, hholds⟩ := holds_or hlogic hnames
    have hjoined := compile_whens (List.forall_mem_singleton.2 hor) (.cons hholds .nil) hfits
    have hany : values.any Value.isPresent = values.any Value.isTruthy := by
      simpa only [List.any_map, Function.id_comp] using congrArg (List.any · id) htests
    rwa [List.all_cons, List.all_nil, Bool.and_true, id, hany] at hjoined
  · refine hboth.imp fun w v h => ?_
    have hblock := compile_whens (List.forall_mem_singleton.2 h.1.parsable)
      (.cons (h.1.holds_isTruthy h.2) .nil) hfits
    rwa [List.all_cons, List.all_nil, Bool.and_true, id] at hblock

/-- Two words of a page on rates: all of them, and one that is not there. -/
def rateWords : List Text := [lit "rates", lit "rate"]

theorem names_rateWords : List.Forall₂ ((standard {}).Names rates) rateWords
    [.list [.text ['1'], .text ['{']], .null] := by
  refine .cons ⟨by rw [lit_ofList]; decide, .path (.scope 0 false [lit "rates"]), ?_, ?_⟩
    (.cons ⟨by rw [lit_ofList]; decide, .path (.scope 0 false [lit "rate"]), ?_, ?_⟩ .nil)
  all_goals with_unfolding_all rfl

theorem compile_conditions_rateWords :
    (standard {}).compile
        (Link.nested [⟨.when, Lexeme.call (lit "not") [lit "rate"], loopPage⟩] ['b']) rates =
      (standard {}).compile (Link.nested [⟨.unless, lit "rate", loopPage⟩] ['b']) rates ∧
    (standard {}).compile (Link.whens [Lexeme.call (lit "and") rateWords] ['b']) rates = .ok [] ∧
    (standard {}).compile (Link.whens [Lexeme.call (lit "or") rateWords] ['b']) rates =
      (standard {}).compile ['b'] rates := by
  have hb : (standard {}).Balanced ['b'] :=
    balanced_of_no_tag (by decide) (by decide) (by decide) (by decide)
  have hfits : (standard {}).Fits 2 ['b'] := by
    refine ⟨hb, by decide, ?_, by decide +kernel⟩
    rw [nodesOf, readAlone_of_no_tag (by decide) (by decide)]
    exact Node.Shallow.cons rfl Node.Shallow.nil
  have hall := compile_conditions (hasLogic_standard {}) names_rateWords fun v hv => by
    rcases List.mem_cons.1 hv with rfl | hv
    · exact not_false
    · cases List.mem_singleton.1 hv
      exact not_false
  refine ⟨hall.1 loopPage ['b'] balanced_loopPage hb (by decide) (by decide +kernel) _
    (List.mem_cons_of_mem _ List.mem_cons_self), ?_, (hall.2.2 ['b'] (hfits.mono (by decide))).1⟩
  exact (hall.2.1 ['b'] hfits).1.trans (hall.2.1 ['b'] hfits).2

/-- An empty map counts for a block and not for `not`, which shows its first branch for it. -/
theorem compile_not_emptyMap :
    ((standard {}).compile
      (lit "\x7b\x7b#if (not v)\x7d\x7dA\x7b\x7belse\x7d\x7dB\x7b\x7b/if\x7d\x7d")
      (.map [(['v'], .map [])])).toOption = some ['A'] ∧
    ((standard {}).compile
      (lit "\x7b\x7b#unless v\x7d\x7dA\x7b\x7belse\x7d\x7dB\x7b\x7b/unless\x7d\x7d")
      (.map [(['v'], .map [])])).toOption = some ['B'] := by
  decide +kernel

/-- On a disputed value `not` and `unless` do not show the same. -/
theorem compile_not_disputed (hlogic : c.HasLogic) (hname : c.Names context w v) (hv : v.Disputed)
    (hdepth : 0 < c.settings.maxBlockDepth) (htags : 3 ≤ c.settings.maxTemplateTokens) :
    c.compile (Link.nested [⟨.when, Lexeme.call (lit "not") [w], ['a']⟩] ['b']) context ≠
      c.compile (Link.nested [⟨.unless, w, ['a']⟩] ['b']) context := by
  have ha : c.Balanced ['a'] := balanced_of_no_tag (by decide) (by decide) (by decide) (by decide)
  have hb : c.Balanced ['b'] := balanced_of_no_tag (by decide) (by decide) (by decide) (by decide)
  have htags' : Piece.mustaches ['a'] + Piece.mustaches ['b'] + 3 ≤
      c.settings.maxTemplateTokens := by
    rw [(Piece.Scanned.plain (s := ['a']) (by decide)).mustaches_eq,
      (Piece.Scanned.plain (s := ['b']) (by decide)).mustaches_eq]
    exact htags
  obtain ⟨hnot, hholds⟩ := holds_not hlogic hname
  have hshown (first : Bool) :
      Node.renderAll c.settings.maxBlockDepth (c.surroundings context)
        (c.nodesOf (c.settings.maxBlockDepth - 1) (if first then ['a'] else ['b'])).reverse =
          .ok (if first then ['a'] else ['b']) := by
    cases first with
    | true => exact renderAll_nodesOf_of_no_tag (by decide) (by decide) _ _ _
    | false => exact renderAll_nodesOf_of_no_tag (by decide) (by decide) _ _ _
  rw [(compile_branches hnot ha hb hdepth htags' hholds).1, hshown]
  intro hsame
  cases htruth : Outcome.truth (.value v) with
  | error f =>
    obtain ⟨token, hunless⟩ := compile_block hname.parsable ha hb hdepth htags' .unless context
    have hfault : c.compile (Link.nested [⟨.unless, w, ['a']⟩] ['b']) context = .error f := by
      rw [hunless, Node.render, hname.eval]
      simp only [Bool.false_eq_true, if_false, Bind.bind, Except.bind, htruth]
    rw [hfault] at hsame
    cases hsame
  | ok yes =>
    have hexchanged : (if yes then ['b'] else ['a']) = if !yes then ['a'] else ['b'] := by
      cases yes <;> rfl
    rw [(compile_branches hname.parsable ha hb hdepth htags' (hname.holds htruth)).2, hexchanged,
      hshown] at hsame
    have hpresent : yes = v.isPresent := by
      have hletters := Except.ok.inj hsame
      revert hletters
      cases yes <;> cases v.isPresent <;> decide
    exact v.truth_eq_iff.1 (htruth.trans (congrArg Except.ok hpresent)) hv

end Compiler
end Tender
