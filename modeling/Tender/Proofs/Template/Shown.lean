/-
What a page shows of its data.

A pattern that starts with a tilde comes into a page out of its literal texts, or else it stands in
the data, in a text that an expression quotes or in a diagnostic.

* `Expr.eval_isBare` — what an expression comes to;
* `Node.renderAll_holds` — what holds of the literal texts and the diagnostics of a page and of
  texts without the pattern, and of two texts in a row if it holds of both, holds of the written
  page;
* `Compiler.suits_of_get?` — the helpers that there are bring no pattern of their own.
-/
import Tender.Proofs.Helper.Texts
import Tender.Proofs.Renderer
import Tender.Proofs.Template.Written

namespace Tender

open Text

/-! ### What stands in a page -/

/-- The helpers that answer with a condition. -/
def Logic.names : List Text :=
  [lit "eq", lit "ne", lit "gt", lit "gte", lit "lt", lit "lte", lit "and", lit "or", lit "not"]

namespace Expr

mutual
/-- An expression and the expressions within it whose texts it can come to: what a condition is
asked about does not come out of it. -/
def parts : Expr → List Expr
  | .literal v => [.literal v]
  | .path p => [.path p]
  | .call name options args => .call name options args ::
      if Logic.names.contains name then [] else partsUnder options ++ partsOf args

/-- The parts of some expressions. -/
def partsOf : List Expr → List Expr
  | [] => []
  | e :: es => e.parts ++ partsOf es

/-- The parts of the values of options. -/
def partsUnder : List (Text × Expr) → List Expr
  | [] => []
  | (_, e) :: es => e.parts ++ partsUnder es
end

/-- The texts that an expression brings along: a literal, or the names of options. -/
def texts : Expr → List Text
  | .literal v => v.texts
  | .path _ => []
  | .call _ options _ => options.map Prod.fst

/-- The helper that an expression calls, if it is a call. -/
def helper? : Expr → Option Text
  | .call name _ _ => some name
  | _ => none

end Expr

/-- A kind of block whose branch starts from the value of the parameter. -/
def BlockKind.enters : BlockKind → Bool
  | .each => true
  | .scope => true
  | .when => false
  | .unless => false

mutual
/-- The expressions whose texts can come to the page that a node is written to. -/
def Node.exprs : Node → List Expr
  | .text _ => []
  | .problem _ => []
  | .shown e _ => e.parts
  | .block kind param _ _ body inverse =>
    (if kind.enters then param.parts else []) ++ (Node.exprsOf body ++ Node.exprsOf inverse)

/-- The expressions whose texts can come to the page that some nodes are written to. -/
def Node.exprsOf : List Node → List Expr
  | [] => []
  | n :: ns => n.exprs ++ Node.exprsOf ns
end

mutual
/-- The problems that a node can show. -/
def Node.problems (maxDepth : Nat) : Node → List Problem
  | .text _ => []
  | .problem q => [q]
  | .shown _ _ => []
  | .block _ _ token tooDeep body inverse =>
    if tooDeep then [⟨.tooDeep maxDepth, some token⟩]
    else Node.problemsOf maxDepth body ++ Node.problemsOf maxDepth inverse

/-- The problems that some nodes can show. -/
def Node.problemsOf (maxDepth : Nat) : List Node → List Problem
  | [] => []
  | n :: ns => n.problems maxDepth ++ Node.problemsOf maxDepth ns
end

/-! ### Diagnostics -/

/-- A diagnostic holds a pattern only if the message in it does. -/
theorem Problem.bare_diagnostic {p : Text} (hp : Tilded p) {q : Problem} (h : ¬ p <:+: q.message) :
    Bare p q.diagnostic := by
  have htail : diagnosticTail = '<' :: ['/', 'd', 'i', 'v', '>'] := by
    rw [diagnosticTail, lit_ofList]
  have hbracket : '<' ∉ p := hp.not_mem (by decide) (by decide) (by decide)
  have hhead : '~' ∉ diagnosticHead := by
    rw [diagnosticHead, lit_ofList]
    decide
  rw [diagnostic, htail, ← List.singleton_append, List.append_assoc, ← List.append_assoc (safe _)]
  exact (hp.of_not_mem hhead).append
    ((hp.safe_concat h hbracket).append (hp.of_not_mem (by decide)))

/-! ### What an expression comes to -/

variable {p : Text} {env : Surroundings}

/-- A helper that brings no pattern to a page under its name. -/
def Helper.Suits (p : Text) (e : Text × Helper) : Prop :=
  '~' ∉ e.1 ∧ if Logic.names.contains e.1 then e.2.Judges p else e.2.Keeps p

/-- An expression that brings no pattern to a page, with the helpers there are. -/
structure Expr.Kept (p : Text) (helpers : Helpers) (e : Expr) : Prop where
  texts : ∀ s ∈ e.texts, Bare p s
  helper : ∀ name ∈ e.helper?, ∀ h, Entries.get? name helpers = some h → Helper.Suits p (name, h)

/-- Surroundings in which no data hold a pattern. -/
structure Surroundings.IsBare (p : Text) (env : Surroundings) : Prop where
  root : env.root.IsBare p
  scopes : ∀ s ∈ env.scopes, s.value.IsBare p
  keys : ∀ s ∈ env.scopes, ∀ l ∈ s.loop, l.key.IsBare p

namespace Surroundings.IsBare

theorem push (h : env.IsBare p) {s : Scope} (hvalue : s.value.IsBare p)
    (hkey : ∀ l ∈ s.loop, l.key.IsBare p) : (env.push s).IsBare p :=
  ⟨h.root, List.forall_mem_cons.2 ⟨hvalue, h.scopes⟩, List.forall_mem_cons.2 ⟨hkey, h.keys⟩⟩

theorem scopeAt (h : env.IsBare p) (ups : Nat) : (env.scopeAt ups).IsBare p := by
  unfold Surroundings.scopeAt
  split
  · rename_i s hs
    exact h.scopes s (List.mem_of_getElem? hs)
  · cases hlast : env.scopes.getLast? with
    | none => exact h.root
    | some s => exact h.scopes s (List.mem_of_getLast? hlast)

theorem loopVariable (h : env.IsBare p) {name : Text} :
    ∀ v ∈ env.loopVariable? name, v.IsBare p := by
  intro v hv
  obtain ⟨l, hl, hv⟩ := Option.bind_eq_some_iff.1 hv
  obtain ⟨s, hs, hloop⟩ := List.exists_of_findSome?_eq_some hl
  have hkey := h.keys s hs l hloop
  split at hv
  · cases hv
    exact .of_texts rfl
  · split at hv
    · cases hv
      exact hkey
    · split at hv
      · cases hv
        exact .of_texts rfl
      · split at hv
        · cases hv
          exact .of_texts rfl
        · cases hv

end Surroundings.IsBare

namespace Expr

theorem isBare_literal (hp : Tilded p) {v : Value} (h : v.IsBare p) : v.literal.IsBare p := by
  unfold Value.literal
  split
  · exact Value.isBare_text.2 (hp.split (Value.isBare_text.1 h))
  · exact h

theorem evalPath_isBare (h : env.IsBare p) {path : Path} {v : Value}
    (heval : evalPath env path = .ok v) : v.IsBare p := by
  cases path with
  | scope ups explicit segments => exact (h.scopeAt ups).walk heval
  | root segments => exact h.root.walk heval
  | loop name =>
    cases heval
    exact .getD h.loopVariable

theorem callHelper_isBare (hp : Tilded p) {name : Text} {a : Arguments}
    (h : ∀ h, Entries.get? name env.helpers = some h →
      '~' ∉ name ∧ Answers p (Outcome.IsBare p) (h a)) : (callHelper env name a).IsBare p := by
  unfold callHelper
  split
  · exact Value.IsBare.of_texts rfl
  · rename_i helper hget
    obtain ⟨hname, hanswer⟩ := h helper hget
    split
    · rename_i o ho
      rwa [ho] at hanswer
    · rename_i f hf
      rw [hf] at hanswer
      have hquoted : Bare p (quoted name) := hp.quoted (hp.of_not_mem hname)
      refine Value.isBare_text.2 (Problem.bare_diagnostic hp (not_infix_of_bare hp.ne_nil ?_))
      show Bare p (lit "Helper " ++ quoted name ++ lit " failed: " ++ f.message)
      rw [lit, lit]
      exact (((hp.of_not_mem (by simp)).append hquoted).append (hp.of_not_mem (by simp))).append
        hanswer

/-- The names of options are left as they are. -/
theorem names_evalOptions {options : List (Text × Expr)} {os : Entries Outcome}
    (h : evalOptions env options = .ok os) : os.map Prod.fst = options.map Prod.fst := by
  induction options generalizing os with
  | nil =>
    cases h
    rfl
  | cons option rest ih =>
    obtain ⟨k, e⟩ := option
    rw [evalOptions] at h
    obtain ⟨o, -, h⟩ := ok_of_bind h
    obtain ⟨os', hos', h⟩ := ok_of_bind h
    cases h
    rw [List.map_cons, List.map_cons, ih hos']

mutual
/-- An expression comes to an outcome without a pattern that neither it nor the data bring along. -/
theorem eval_isBare (hp : Tilded p) (henv : env.IsBare p) {o : Outcome} :
    (e : Expr) → (∀ c ∈ e.parts, c.Kept p env.helpers) → eval env e = .ok o → o.IsBare p
  | .literal v, h, heval => by
    rw [eval] at heval
    cases heval
    exact isBare_literal hp (h (.literal v) (by rw [parts]; exact List.mem_cons_self)).texts
  | .path q, h, heval => by
    rw [eval] at heval
    obtain ⟨v, hv, rfl⟩ := ok_of_map heval
    exact evalPath_isBare henv hv
  | .call name options args, h, heval => by
    rw [parts, List.forall_mem_cons] at h
    obtain ⟨hcall, hoperands⟩ := h
    rw [eval] at heval
    obtain ⟨os, hos, heval⟩ := ok_of_bind heval
    obtain ⟨as, has, heval⟩ := ok_of_bind heval
    cases heval
    have hnames : ∀ e ∈ os, Bare p e.1 := by
      intro e he
      refine hcall.texts e.1 ?_
      rw [texts, ← names_evalOptions hos]
      exact List.mem_map_of_mem he
    refine callHelper_isBare hp fun helper hget => ?_
    obtain ⟨hname, hhelper⟩ := hcall.helper name rfl helper hget
    refine ⟨hname, ?_⟩
    -- a condition answers for itself, whatever its operands come to
    by_cases hcondition : Logic.names.contains name = true
    · rw [if_pos hcondition] at hhelper
      exact hhelper _ ⟨fun o _ => True.intro, fun e he => ⟨hnames e he, True.intro⟩⟩
    · rw [if_neg hcondition] at hhelper hoperands
      rw [List.forall_mem_append] at hoperands
      exact hhelper _ ⟨evalArgs_isBare hp henv args hoperands.2 has, fun e he =>
        ⟨hnames e he, evalOptions_isBare hp henv options hoperands.1 hos e he⟩⟩

theorem evalOptions_isBare (hp : Tilded p) (henv : env.IsBare p) {os : Entries Outcome} :
    (options : List (Text × Expr)) → (∀ c ∈ partsUnder options, c.Kept p env.helpers) →
      evalOptions env options = .ok os → ∀ e ∈ os, e.2.IsBare p
  | [], _, heval => by
    rw [evalOptions] at heval
    cases heval
    exact fun e he => by cases he
  | (k, e) :: rest, h, heval => by
    rw [partsUnder, List.forall_mem_append] at h
    rw [evalOptions] at heval
    obtain ⟨o, ho, heval⟩ := ok_of_bind heval
    obtain ⟨os', hos', heval⟩ := ok_of_bind heval
    cases heval
    exact List.forall_mem_cons.2 ⟨eval_isBare hp henv e h.1 ho,
      evalOptions_isBare hp henv rest h.2 hos'⟩

theorem evalArgs_isBare (hp : Tilded p) (henv : env.IsBare p) {os : List Outcome} :
    (args : List Expr) → (∀ c ∈ partsOf args, c.Kept p env.helpers) → evalArgs env args = .ok os →
      ∀ o ∈ os, o.IsBare p
  | [], _, heval => by
    rw [evalArgs] at heval
    cases heval
    exact fun o ho => by cases ho
  | e :: rest, h, heval => by
    rw [partsOf, List.forall_mem_append] at h
    rw [evalArgs] at heval
    obtain ⟨o, ho, heval⟩ := ok_of_bind heval
    obtain ⟨os', hos', heval⟩ := ok_of_bind heval
    cases heval
    exact List.forall_mem_cons.2 ⟨eval_isBare hp henv e h.1 ho,
      evalArgs_isBare hp henv rest h.2 hos'⟩
end

end Expr

/-! ### What a page is written as -/

namespace Node

theorem bare_showOutcome (hp : Tilded p) (raw : Bool) {o : Outcome} (h : o.IsBare p) :
    Bare p (showOutcome raw o) := by
  unfold showOutcome
  split
  · exact hp.encodeBraces (Value.isBare_text.1 h)
  · rename_i v
    split
    · exact hp.encodeBraces (Value.bare_toText hp h)
    · split
      · exact Bare.nil
      · exact hp.safe (Value.bare_display hp v h)

theorem bare_showConstant (hp : Tilded p) (raw : Bool) {v : Value} (h : v.IsBare p) :
    Bare p (showConstant raw v) := by
  unfold showConstant
  split
  · exact hp.encodeBraces (Value.bare_toText hp h)
  · exact hp.safe (Value.bare_toText hp h)

theorem bare_showExpr (hp : Tilded p) (henv : env.IsBare p) {e : Expr}
    (he : ∀ c ∈ e.parts, c.Kept p env.helpers) {raw : Bool} {html : Text}
    (h : showExpr env e raw = .ok html) : Bare p html := by
  unfold showExpr at h
  split at h
  · rename_i v hv
    cases h
    refine bare_showConstant hp raw ?_
    -- a constant is a literal, or null for a variable of a loop that there is not
    unfold Expr.constant? at hv
    split at hv
    · rename_i w
      cases hv
      have hw := he (.literal w) (by rw [Expr.parts]; exact List.mem_cons_self)
      exact Expr.isBare_literal hp hw.texts
    · split at hv
      · cases hv
        exact .of_texts rfl
      · cases hv
    · cases hv
  · obtain ⟨o, ho, rfl⟩ := ok_of_map h
    exact bare_showOutcome hp raw (Expr.eval_isBare hp henv e he ho)

/-- A property that texts without a pattern have, and two texts in a row if both have it. -/
structure Spreads (p : Text) (P : Text → Prop) : Prop where
  bare : ∀ s, Bare p s → P s
  append : ∀ s t, P s → P t → P (s ++ t)

/-- The literal texts and the diagnostics of a page have a property, and its expressions bring no
pattern to it. -/
structure Kept (p : Text) (helpers : Helpers) (P : Text → Prop) (texts : List Text)
    (exprs : List Expr) (problems : List Problem) : Prop where
  texts : ∀ s ∈ texts, P s
  exprs : ∀ c ∈ exprs, c.Kept p helpers
  problems : ∀ q ∈ problems, P q.diagnostic

variable {P : Text → Prop}

theorem Kept.mono {helpers : Helpers} {texts texts' : List Text} {exprs exprs' : List Expr}
    {problems problems' : List Problem} (h : Kept p helpers P texts exprs problems)
    (htexts : texts' ⊆ texts) (hexprs : exprs' ⊆ exprs) (hproblems : problems' ⊆ problems) :
    Kept p helpers P texts' exprs' problems' :=
  ⟨fun s hs => h.texts s (htexts hs), fun c hc => h.exprs c (hexprs hc),
    fun q hq => h.problems q (hproblems hq)⟩

theorem renderLoop_holds (hP : Spreads p P) {body : Surroundings → Except Fault Text}
    (henv : env.IsBare p)
    (hbody : ∀ s : Scope, (env.push s).IsBare p → ∀ html, body (env.push s) = .ok html → P html)
    {items : List (Value × Value)} (hitems : ∀ e ∈ items, e.1.IsBare p ∧ e.2.IsBare p)
    {index : Nat} {html : Text} (h : renderLoop env body index items = .ok html) : P html := by
  induction items generalizing index html with
  | nil =>
    cases h
    exact hP.bare [] Bare.nil
  | cons entry rest ih =>
    obtain ⟨key, item⟩ := entry
    obtain ⟨⟨hkey, hitem⟩, hrest⟩ := List.forall_mem_cons.1 hitems
    rw [renderLoop] at h
    obtain ⟨a, ha, h⟩ := ok_of_bind h
    obtain ⟨b, hb, h⟩ := ok_of_bind h
    cases h
    refine hP.append a b (hbody _ (henv.push hitem fun l hl => ?_) a ha) (ih hrest hb)
    cases hl
    exact hkey

theorem isBare_entries {o : Outcome} (h : o.IsBare p) :
    ∀ e ∈ o.entries, e.1.IsBare p ∧ e.2.IsBare p := by
  cases o with
  | value v => exact Value.IsBare.entries h
  | failure html => exact fun e he => by cases he

mutual
theorem render_holds (hp : Tilded p) (hP : Spreads p P) {maxDepth : Nat} {env : Surroundings}
    {html : Text} (henv : env.IsBare p) : (n : Node) →
    Kept p env.helpers P n.texts n.exprs (n.problems maxDepth) →
      render maxDepth env n = .ok html → P html
  | .text s, hn, h => by
    rw [render] at h
    cases h
    exact hn.texts html (by rw [texts_text]; exact List.mem_cons_self)
  | .problem q, hn, h => by
    rw [render] at h
    cases h
    refine hn.problems q ?_
    rw [problems]
    exact List.mem_cons_self
  | .shown e raw, hn, h => by
    rw [render] at h
    exact hP.bare _ (bare_showExpr hp henv (by rw [← exprs]; exact hn.exprs) h)
  | .block kind param token tooDeep body inverse, hn, h => by
    rw [texts, exprs, problems] at hn
    rw [render] at h
    split at h
    · rename_i hdeep
      rw [if_pos hdeep] at hn
      cases h
      exact hn.problems _ List.mem_cons_self
    · rename_i hdeep
      rw [if_neg hdeep] at hn
      have hbranches : Kept p env.helpers P (textsOf body ++ textsOf inverse)
          (exprsOf body ++ exprsOf inverse)
          (problemsOf maxDepth body ++ problemsOf maxDepth inverse) :=
        hn.mono (List.Subset.refl _) (List.subset_append_right _ _) (List.Subset.refl _)
      have hbody : Kept p env.helpers P (textsOf body) (exprsOf body) (problemsOf maxDepth body) :=
        hbranches.mono (List.subset_append_left _ _) (List.subset_append_left _ _)
          (List.subset_append_left _ _)
      have hinverse : Kept p env.helpers P (textsOf inverse) (exprsOf inverse)
          (problemsOf maxDepth inverse) :=
        hbranches.mono (List.subset_append_right _ _) (List.subset_append_right _ _)
          (List.subset_append_right _ _)
      obtain ⟨o, ho, h⟩ := ok_of_bind h
      cases kind with
      | each =>
        have houtcome := Expr.eval_isBare hp henv param
          (fun c hc => hn.exprs c (List.mem_append_left _ hc)) ho
        simp only at h
        split at h
        · exact renderAll_holds hp hP henv inverse hinverse h
        · rename_i first rest hentries
          refine renderLoop_holds hP henv (fun s hs a ha => ?_) ?_ h
          · exact renderAll_holds hp hP hs body hbody ha
          · rw [← hentries]
            exact isBare_entries houtcome
      -- the parameter of a condition is not shown: only the branch that is taken counts
      | when =>
        obtain ⟨shows, -, h⟩ := ok_of_bind h
        cases shows with
        | true => exact renderAll_holds hp hP henv body hbody h
        | false => exact renderAll_holds hp hP henv inverse hinverse h
      | «unless» =>
        obtain ⟨shows, -, h⟩ := ok_of_bind h
        cases shows with
        | true => exact renderAll_holds hp hP henv inverse hinverse h
        | false => exact renderAll_holds hp hP henv body hbody h
      | scope =>
        have houtcome := Expr.eval_isBare hp henv param
          (fun c hc => hn.exprs c (List.mem_append_left _ hc)) ho
        obtain ⟨shows, -, h⟩ := ok_of_bind h
        cases shows with
        | true =>
          have hscope : (env.push ⟨o.toValue, none⟩).IsBare p :=
            henv.push houtcome fun l hl => by cases hl
          exact renderAll_holds hp hP hscope body hbody h
        | false => exact renderAll_holds hp hP henv inverse hinverse h

theorem renderAll_holds (hp : Tilded p) (hP : Spreads p P) {maxDepth : Nat} {env : Surroundings}
    {html : Text} (henv : env.IsBare p) : (nodes : List Node) →
    Kept p env.helpers P (textsOf nodes) (exprsOf nodes) (problemsOf maxDepth nodes) →
      renderAll maxDepth env nodes = .ok html → P html
  | [], _, h => by
    rw [renderAll] at h
    cases h
    exact hP.bare [] Bare.nil
  | n :: nodes, hn, h => by
    obtain ⟨a, b, ha, hb, rfl⟩ := renderAll_cons_ok h
    rw [textsOf, exprsOf, problemsOf] at hn
    exact hP.append a b
      (render_holds hp hP henv n (hn.mono (List.subset_append_left _ _)
        (List.subset_append_left _ _) (List.subset_append_left _ _)) ha)
      (renderAll_holds hp hP henv nodes (hn.mono (List.subset_append_right _ _)
        (List.subset_append_right _ _) (List.subset_append_right _ _)) hb)
end

end Node

/-! ### The helpers that there are -/

namespace Helper.Suits

theorem keeps {name : String} {h : Helper} (hname : '~' ∉ lit name)
    (hother : ¬ Logic.names.contains (lit name) = true) (h' : h.Keeps p) : Suits p (lit name, h) :=
  ⟨hname, by rwa [if_neg hother]⟩

theorem judges {name : String} {h : Helper} (hname : '~' ∉ lit name)
    (hcondition : Logic.names.contains (lit name) = true) (h' : h.Judges p) : Suits p (lit name, h) :=
  ⟨hname, by rwa [if_pos hcondition]⟩

theorem ordered (hp : Tilded p) {name : String} (hname : '~' ∉ lit name)
    (hcondition : Logic.names.contains (lit name) = true) (accepts : Relation → Bool) :
    Suits p (lit name, Logic.binary name (Logic.ordered accepts)) :=
  judges hname hcondition (Logic.judges_binary hp hname (Logic.ordered_answers hp accepts))

end Helper.Suits

namespace Compiler

theorem mem_of_get?_withHelpers {c : Compiler} {table : Helpers} {name : Text} {h : Helper}
    (hget : Entries.get? name (c.withHelpers table).helpers = some h) :
    (name, h) ∈ table ∨ (name, h) ∈ c.helpers :=
  Entries.mem_of_mem_putAll (Entries.mem_of_get? hget)

/-- The helpers that there are suit a page; the date helper alone asks for data without a tilde. -/
theorem suits_standardHelpers (hp : Tilded p) {s : Settings} (hsymbol : Bare p s.currencySymbol)
    (hformat : Bare p s.dateFormat) :
    ∀ e ∈ standardHelpers s, (e.1 = lit "formatDate" → p = ['~']) → Helper.Suits p e := by
  have hpreset {option value : Text} (hoption : '~' ∉ option) (hvalue : Bare p value) :
      ∀ e ∈ [(option, Outcome.value (.text value))], Bare p e.1 ∧ e.2.IsBare p := by
    rintro e (_ | ⟨_, _ | _⟩)
    exact ⟨hp.of_not_mem hoption, Value.isBare_text.2 hvalue⟩
  simp only [standardHelpers, Helpers.standard, List.cons_append, List.nil_append,
    List.forall_mem_cons, List.not_mem_nil, IsEmpty.forall_iff, implies_true, and_true]
  refine ⟨fun _ => .keeps ?_ ?_ (Amount.keeps hp),
    fun h => .keeps ?_ ?_ (h True.intro ▸ DateText.keeps),
    fun _ => .keeps ?_ ?_ (Group.keeps hp),
    fun _ => .judges ?_ ?_ (Logic.judges_binary hp ?_ (Logic.equal_answers hp)),
    fun _ => .judges ?_ ?_ (Logic.judges_binary hp ?_ (Logic.notEqual_answers hp)),
    fun _ => .ordered hp ?_ ?_ _, fun _ => .ordered hp ?_ ?_ _, fun _ => .ordered hp ?_ ?_ _,
    fun _ => .ordered hp ?_ ?_ _, fun _ => .judges ?_ ?_ (Logic.judges_joining hp ?_ _),
    fun _ => .judges ?_ ?_ (Logic.judges_joining hp ?_ _),
    fun _ => .judges ?_ ?_ (Logic.judges_negation hp),
    fun _ => .keeps ?_ ?_ ((Amount.keeps hp).preset (hpreset ?_ hsymbol)),
    fun h => .keeps ?_ ?_ ((h True.intro ▸ DateText.keeps).preset (hpreset ?_ hformat))⟩
  all_goals decide +kernel

theorem suits_of_get? (hp : Tilded p) {s : Settings} (hsymbol : Bare p s.currencySymbol)
    (hformat : Bare p s.dateFormat) {name : Text} (hdate : name = lit "formatDate" → p = ['~'])
    {h : Helper} (hget : Entries.get? name (standard s).helpers = some h) :
    Helper.Suits p (name, h) := by
  rcases mem_of_get?_withHelpers hget with hmem | hmem
  · exact suits_standardHelpers hp hsymbol hformat _ hmem hdate
  · cases hmem

end Compiler

end Tender
