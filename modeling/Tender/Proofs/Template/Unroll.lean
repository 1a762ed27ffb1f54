/-
A loop over a list as blocks on its items.

* `Node.renderAll_congr` — nodes that name no variable of a loop are written alike wherever the
  scopes hold the same values;
* `Node.renderLoop_eq` — a loop is its rounds one after the other;
* `Compiler.compile_each_of_balanced` — a loop over an entry is a `with` block on each item;
* `Compiler.compile_each_eq_iff` — so a loop over a list of true items is compiled as a `with` block
  on each of them, unless the list is empty and the body cannot be read.
-/
import Tender.Proofs.Template.Alone
import Tender.Proofs.Template.Name

namespace Tender

open Text

/-! ### Variables of loops -/

namespace Expr

mutual
/-- The variables of loops that an expression names. -/
def loopNames : Expr → List Text
  | .literal _ => []
  | .path (.loop name) => [name]
  | .path _ => []
  | .call _ options args => loopNamesUnder options ++ loopNamesOf args

/-- The variables of loops that some expressions name. -/
def loopNamesOf : List Expr → List Text
  | [] => []
  | e :: es => e.loopNames ++ loopNamesOf es

/-- The variables of loops that the values of options name. -/
def loopNamesUnder : List (Text × Expr) → List Text
  | [] => []
  | (_, e) :: es => e.loopNames ++ loopNamesUnder es
end

end Expr

mutual
/-- The variables of loops that a node names. -/
def Node.loopNames : Node → List Text
  | .text _ => []
  | .problem _ => []
  | .shown e _ => e.loopNames
  | .block _ param _ _ body inverse =>
    param.loopNames ++ (Node.loopNamesOf body ++ Node.loopNamesOf inverse)

/-- The variables of loops that some nodes name. -/
def Node.loopNamesOf : List Node → List Text
  | [] => []
  | n :: ns => n.loopNames ++ Node.loopNamesOf ns
end

/-- The variables that loops have. -/
def Loop.names : List Text := [lit "index", lit "key", lit "first", lit "last"]

/-- No variable that loops have is among some names. -/
def Loop.Unnamed (names : List Text) : Prop := ∀ name ∈ names, name ∉ Loop.names

instance (names : List Text) : Decidable (Loop.Unnamed names) :=
  inferInstanceAs (Decidable (∀ name ∈ names, _))

theorem Loop.Unnamed.append_iff {a b : List Text} :
    Unnamed (a ++ b) ↔ Unnamed a ∧ Unnamed b :=
  List.forall_mem_append

/-- Surroundings in which paths find the same values, whatever loops there are. -/
structure Surroundings.Agrees (env env' : Surroundings) : Prop where
  helpers : env.helpers = env'.helpers
  root : env.root = env'.root
  values : env.scopes.map Scope.value = env'.scopes.map Scope.value

namespace Surroundings

variable {env env' : Surroundings}

/-- Names that no loop has stand for nothing. -/
theorem loopVariable?_of_not_mem (env : Surroundings) {name : Text} (h : name ∉ Loop.names) :
    env.loopVariable? name = none := by
  simp only [Loop.names, List.mem_cons, List.not_mem_nil, or_false, not_or] at h
  rw [loopVariable?]
  cases env.scopes.findSome? Scope.loop with
  | none => rfl
  | some l => simp [h]

theorem scopeAt_eq (env : Surroundings) (ups : Nat) :
    env.scopeAt ups = ((env.scopes.map Scope.value)[ups]?).getD
      ((env.scopes.map Scope.value).getLast?.getD env.root) := by
  rw [scopeAt, List.getElem?_map, List.getLast?_map]
  cases env.scopes[ups]? <;> rfl

namespace Agrees

theorem push (h : Agrees env env') {s s' : Scope} (hvalue : s.value = s'.value) :
    Agrees (env.push s) (env'.push s') where
  helpers := h.helpers
  root := h.root
  values := by
    rw [Surroundings.push, Surroundings.push, List.map_cons, List.map_cons, h.values, hvalue]

theorem scopeAt (h : Agrees env env') (ups : Nat) : env.scopeAt ups = env'.scopeAt ups := by
  rw [scopeAt_eq, scopeAt_eq, h.values, h.root]

end Agrees

end Surroundings

namespace Expr

variable {env env' : Surroundings}

theorem evalPath_congr (h : env.Agrees env') {p : Path}
    (hp : Loop.Unnamed (Expr.path p).loopNames) : evalPath env p = evalPath env' p := by
  cases p with
  | scope ups explicit segments => rw [evalPath, evalPath, h.scopeAt]
  | root segments => rw [evalPath, evalPath, h.root]
  | loop name =>
    have hname : name ∉ Loop.names := hp name (by rw [loopNames]; exact List.mem_cons_self)
    rw [evalPath, evalPath, env.loopVariable?_of_not_mem hname,
      env'.loopVariable?_of_not_mem hname]

mutual
/-- An expression that names no variable of a loop comes to the same where paths find the same. -/
theorem eval_congr (h : env.Agrees env') :
    (e : Expr) → Loop.Unnamed e.loopNames → eval env e = eval env' e
  | .literal v, _ => by rw [eval, eval]
  | .path p, he => by rw [eval, eval, evalPath_congr h he]
  | .call name options args, he => by
    rw [loopNames, Loop.Unnamed.append_iff] at he
    have hcall (a : Arguments) : callHelper env name a = callHelper env' name a := by
      rw [callHelper, callHelper, h.helpers]
    rw [eval, eval, evalOptions_congr h options he.1, evalArgs_congr h args he.2]
    simp only [hcall]

theorem evalOptions_congr (h : env.Agrees env') : (options : List (Text × Expr)) →
    Loop.Unnamed (loopNamesUnder options) → evalOptions env options = evalOptions env' options
  | [], _ => by rw [evalOptions, evalOptions]
  | (k, e) :: rest, he => by
    rw [loopNamesUnder, Loop.Unnamed.append_iff] at he
    rw [evalOptions, evalOptions, eval_congr h e he.1, evalOptions_congr h rest he.2]

theorem evalArgs_congr (h : env.Agrees env') : (args : List Expr) →
    Loop.Unnamed (loopNamesOf args) → evalArgs env args = evalArgs env' args
  | [], _ => by rw [evalArgs, evalArgs]
  | e :: rest, he => by
    rw [loopNamesOf, Loop.Unnamed.append_iff] at he
    rw [evalArgs, evalArgs, eval_congr h e he.1, evalArgs_congr h rest he.2]
end

theorem constant?_congr {e : Expr} (he : Loop.Unnamed e.loopNames) :
    e.constant? env = e.constant? env' := by
  unfold constant?
  split
  · rfl
  · rename_i name
    have hname : name ∉ Loop.names := he name (by rw [loopNames]; exact List.mem_cons_self)
    rw [env.loopVariable?_of_not_mem hname, env'.loopVariable?_of_not_mem hname]
  · rfl

end Expr

namespace Node

variable {env env' : Surroundings} {maxDepth : Nat}

theorem showExpr_congr (h : env.Agrees env') {e : Expr} (he : Loop.Unnamed e.loopNames)
    (raw : Bool) : showExpr env e raw = showExpr env' e raw := by
  have hconstant : e.constant? env = e.constant? env' := Expr.constant?_congr he
  rw [showExpr, showExpr, hconstant, Expr.eval_congr h e he]

/-- A loop is written alike where its body is, whatever item it is at. -/
theorem renderLoop_congr {body body' : Surroundings → Except Fault Text}
    (h : ∀ s, body (env.push s) = body' (env'.push s)) (index : Nat)
    (items : List (Value × Value)) :
    renderLoop env body index items = renderLoop env' body' index items := by
  induction items generalizing index with
  | nil => rfl
  | cons entry rest ih =>
    rw [renderLoop, renderLoop, h, ih]

mutual
/-- A node that names no variable of a loop is written alike where paths find the same. -/
theorem render_congr {env env' : Surroundings} (h : env.Agrees env') :
    (n : Node) → Loop.Unnamed n.loopNames → render maxDepth env n = render maxDepth env' n
  | .text s, _ => by rw [render, render]
  | .problem p, _ => by rw [render, render]
  | .shown e raw, hn => by rw [render, render, showExpr_congr h hn]
  | .block kind param token tooDeep body inverse, hn => by
    rw [loopNames, Loop.Unnamed.append_iff, Loop.Unnamed.append_iff] at hn
    obtain ⟨hparam, hbody, hinverse⟩ := hn
    have hpush (s : Scope) : renderAll maxDepth (env.push s) body =
        renderAll maxDepth (env'.push s) body := renderAll_congr (h.push rfl) body hbody
    have hloop (items : List (Value × Value)) :
        renderLoop env (fun env => renderAll maxDepth env body) 0 items =
          renderLoop env' (fun env => renderAll maxDepth env body) 0 items :=
      renderLoop_congr hpush 0 items
    rw [render, render, Expr.eval_congr h param hparam, renderAll_congr h body hbody,
      renderAll_congr h inverse hinverse]
    simp only [hpush, hloop]

/-- Nodes that name no variable of a loop are written alike where paths find the same. -/
theorem renderAll_congr {env env' : Surroundings} (h : env.Agrees env') :
    (nodes : List Node) → Loop.Unnamed (loopNamesOf nodes) →
      renderAll maxDepth env nodes = renderAll maxDepth env' nodes
  | [], _ => by rw [renderAll, renderAll]
  | n :: nodes, hn => by
    rw [loopNamesOf, Loop.Unnamed.append_iff] at hn
    rw [renderAll, renderAll, render_congr h n hn.1, renderAll_congr h nodes hn.2]
end

/-! ### Rounds of a loop -/

/-- A loop is its rounds one after the other. -/
theorem renderLoop_eq {body : Surroundings → Except Fault Text} {round : Nat → Except Fault Text}
    {index : Nat} {items : List (Value × Value)}
    (h : ∀ i e, items[i]? = some e → ∀ l,
      body (env.push ⟨e.2, some l⟩) = round (index + i)) :
    renderLoop env body index items =
      ((List.range' index items.length).mapM round).map List.flatten := by
  induction items generalizing index with
  | nil => rfl
  | cons entry rest ih =>
    have hfirst := h 0 entry rfl
    have hrest : renderLoop env body (index + 1) rest = _ := ih fun i e he l => by
      rw [h (i + 1) e he l, Nat.add_right_comm, Nat.add_assoc]
    rw [renderLoop, hfirst, hrest, List.length_cons, List.range'_succ, List.mapM_cons]
    cases round (index + 0) with
    | error f => rfl
    | ok a =>
      cases (List.range' (index + 1) rest.length).mapM round with
      | error f => rfl
      | ok b => rfl

/-- A loop without a second branch goes through its items. -/
theorem render_each {e : Expr} {o : Outcome} (he : e.eval env = .ok o) (token : Text)
    (nodes : List Node) :
    render maxDepth env (.block .each e token false nodes []) =
      renderLoop env (fun env => renderAll maxDepth env nodes) 0 o.entries := by
  rw [render, he]
  simp only [Bool.false_eq_true, if_false, Bind.bind, Except.bind]
  cases o.entries with
  | nil => rfl
  | cons first rest => rfl

/-- A `with` block without a second branch shows its body for a value that holds something. -/
theorem render_scope {e : Expr} {o : Outcome} {yes : Bool} (he : e.eval env = .ok o)
    (ho : o.truth = .ok yes) (token : Text) (nodes : List Node) :
    render maxDepth env (.block .scope e token false nodes []) =
      if yes then renderAll maxDepth (env.push ⟨o.toValue, none⟩) nodes else .ok [] := by
  rw [render, he]
  simp only [Bool.false_eq_true, if_false, Bind.bind, Except.bind, ho]
  rfl

theorem unnamed_loopNamesOf {nodes : List Node} :
    Loop.Unnamed (loopNamesOf nodes) ↔ ∀ n ∈ nodes, Loop.Unnamed n.loopNames := by
  induction nodes with
  | nil =>
    rw [loopNamesOf]
    exact ⟨fun _ n hn => (List.not_mem_nil hn).elim, fun _ name hname => by cases hname⟩
  | cons n nodes ih => rw [loopNamesOf, Loop.Unnamed.append_iff, List.forall_mem_cons, ih]

end Node

/-! ### Loops over an entry -/

namespace Compiler

open Path

variable {c : Compiler} {k body : Text} {es : Entries Value} {xs : List Value}

/-- No tag of a text that is read on its own names a variable that loops have. -/
def NamesNoLoop (c : Compiler) (room : Nat) (s : Text) : Prop :=
  ∀ n ∈ c.nodesOf room s, Loop.Unnamed n.loopNames

instance (c : Compiler) (room : Nat) (s : Text) : Decidable (c.NamesNoLoop room s) :=
  inferInstanceAs (Decidable (∀ n ∈ c.nodesOf room s, _))

/-- A `with` block on each item of an entry, one after the other. -/
def compileItems (c : Compiler) (k body : Text) (count : Nat) (context : Value) :
    Except Fault Text :=
  ((List.range count).mapM fun i => c.compile (Link.alone ⟨.scope, item k i, body⟩) context).map
    List.flatten

/-- A row of blocks that fail alike fails like the first one. -/
theorem compileItems_error {f : Fault} {context : Value} {count : Nat} (hcount : count ≠ 0)
    (h : ∀ i, c.compile (Link.alone ⟨.scope, item k i, body⟩) context = .error f) :
    c.compileItems k body count context = .error f := by
  obtain ⟨n, rfl⟩ := Nat.exists_eq_succ_of_ne_zero hcount
  rw [compileItems, List.range_succ_eq_map, List.mapM_cons, h]
  rfl

/-- A row of blocks that show nothing shows nothing. -/
theorem compileItems_nil {context : Value} {count : Nat}
    (h : ∀ i, c.compile (Link.alone ⟨.scope, item k i, body⟩) context = .ok []) :
    c.compileItems k body count context = .ok [] := by
  rw [compileItems, funext h]
  generalize List.range count = indices
  induction indices with
  | nil => rfl
  | cons i indices ih =>
    rw [List.mapM_cons]
    cases hrest : indices.mapM fun _ => (Except.ok [] : Except Fault Text) with
    | error f =>
      rw [hrest] at ih
      cases ih
    | ok rest =>
      rw [hrest] at ih
      exact ih

section

variable (hk : IsName k) (hdepth : 0 < c.settings.maxBlockDepth)
  (htags : Piece.mustaches body + 2 ≤ c.settings.maxTemplateTokens)

include hk hdepth htags

/-- A loop over what is under a name goes through the items there. -/
theorem compile_each_name (hbody : c.Balanced body) (es : Entries Value) :
    c.compile (Link.alone ⟨.each, k, body⟩) (.map es) =
      Node.renderLoop (c.surroundings (.map es)) (fun env =>
        Node.renderAll c.settings.maxBlockDepth env
          (c.nodesOf (c.settings.maxBlockDepth - 1) body).reverse) 0 (Value.entry es k).entries := by
  rw [compile_alone (l := ⟨.each, k, body⟩) (parsable_name hk) htags hbody hdepth, expr_name hk,
    Node.render_each (eval_name c k es)]
  rfl

/-- A `with` block on an item shows its body for it if it holds something. -/
theorem compile_scope_item (hbody : c.Balanced body) {i : Nat} {x : Value} {yes : Bool}
    (hitem : (Value.entry es k).step (ofNat i) = .ok x)
    (hx : (Outcome.value x).truth = .ok yes) :
    c.compile (Link.alone ⟨.scope, item k i, body⟩) (.map es) =
      if yes then Node.renderAll c.settings.maxBlockDepth
        ((c.surroundings (.map es)).push ⟨x, none⟩)
        (c.nodesOf (c.settings.maxBlockDepth - 1) body).reverse
      else .ok [] := by
  have heval := eval_item c k es i
  rw [hitem] at heval
  rw [compile_alone (l := ⟨.scope, item k i, body⟩) (parsable_item hk i) htags hbody hdepth,
    expr_item hk, Node.render_scope heval hx]
  rfl

/-- A loop over a list of true items is a `with` block on each of them. -/
theorem compile_each_of_balanced (hbody : c.Balanced body)
    (hnames : c.NamesNoLoop (c.settings.maxBlockDepth - 1) body)
    (hlist : Value.entry es k = .list xs) (htrue : ∀ x ∈ xs, (Outcome.value x).truth = .ok true)
    (hlength : xs.length ≤ 10 ^ Integer.maxDigits) :
    c.compile (Link.alone ⟨.each, k, body⟩) (.map es) =
      c.compileItems k body xs.length (.map es) := by
  have hlooped : (Value.entry es k).entries.length = xs.length := by
    rw [hlist]
    exact List.length_mapIdx
  have hunnamed : Loop.Unnamed
      (Node.loopNamesOf (c.nodesOf (c.settings.maxBlockDepth - 1) body).reverse) :=
    Node.unnamed_loopNamesOf.2 fun n hn => hnames n (List.mem_reverse.1 hn)
  rw [compile_each_name hk hdepth htags hbody, compileItems, ← hlooped, List.range_eq_range']
  refine Node.renderLoop_eq fun i e he l => ?_
  rw [hlist, Value.entries, List.getElem?_mapIdx] at he
  obtain ⟨x, hx, rfl⟩ := Option.map_eq_some_iff.1 he
  have hi : i < 10 ^ Integer.maxDigits :=
    Nat.lt_of_lt_of_le (List.getElem?_eq_some_iff.1 hx).1 hlength
  have hitem : (Value.entry es k).step (ofNat i) = .ok x := by
    rw [hlist, Value.step_ofNat hi, hx]
    rfl
  -- the body finds the same values, for it does not ask for the loop
  have hagrees : ((c.surroundings (.map es)).push ⟨x, some l⟩).Agrees
      ((c.surroundings (.map es)).push ⟨x, none⟩) :=
    Surroundings.Agrees.push ⟨rfl, rfl, rfl⟩ rfl
  rw [Nat.zero_add, compile_scope_item hk hdepth htags hbody hitem
    (htrue x (List.mem_of_getElem? hx)), if_pos rfl]
  exact Node.renderAll_congr hagrees _ hunnamed

/-- What is not there has no items, and so neither a loop over it nor blocks on its items show
anything. -/
theorem compile_each_of_null (hbody : c.Balanced body) (hnull : Value.entry es k = .null)
    (count : Nat) :
    c.compile (Link.alone ⟨.each, k, body⟩) (.map es) =
      c.compileItems k body count (.map es) := by
  have hitem (i : Nat) : (Value.entry es k).step (ofNat i) = .ok .null := by
    rw [hnull]
    rfl
  have htruth : (Outcome.value .null).truth = .ok false := rfl
  rw [compile_each_name hk hdepth htags hbody, hnull,
    compileItems_nil fun i => compile_scope_item hk hdepth htags hbody (hitem i) htruth]
  rfl

/-- A loop over a list of true items is compiled as a `with` block on each of them, for every body
that names no variable of loops and can stand in a block, also if its reading fails: exactly then the
list must not be empty, for the loop is read even if it has no item.  A list has no more items than
an index can count, and a name of wide characters finds no entry in a tag. -/
theorem compile_each_eq_iff (hbody : c.Framed body)
    (hnames : c.NamesNoLoop (c.settings.maxBlockDepth - 1) body)
    (hlist : Entries.get? k es = some (.list xs))
    (hsplit : split k = k ∨ Entries.get? (split k) es = none)
    (htrue : ∀ x ∈ xs, (Outcome.value x).truth = .ok true)
    (hlength : xs.length ≤ 10 ^ Integer.maxDigits) :
    c.compile (Link.alone ⟨.each, k, body⟩) (.map es) =
        c.compileItems k body xs.length (.map es) ↔
      xs ≠ [] ∨ ∃ b, c.readAlone c.settings.maxBlockDepth body = .ok b := by
  cases hread : c.readAlone c.settings.maxBlockDepth body with
  | ok b =>
    have hbalanced := hbody.balanced hread
    refine iff_of_true ?_ (.inr ⟨b, rfl⟩)
    rcases hsplit with hsame | hnone
    · have hentry : Value.entry es k = .list xs := by
        rw [Value.entry, hsame, hlist]
        rfl
      exact compile_each_of_balanced hk hdepth htags hbalanced hnames hentry htrue hlength
    · have hentry : Value.entry es k = .null := by
        rw [Value.entry, hnone]
        rfl
      exact compile_each_of_null hk hdepth htags hbalanced hentry _
  | error f =>
    have heach : c.compile (Link.alone ⟨.each, k, body⟩) (.map es) = .error f :=
      compile_alone_error (l := ⟨.each, k, body⟩) (parsable_name hk) htags hbody hread _
    have hscope (i : Nat) :
        c.compile (Link.alone ⟨.scope, item k i, body⟩) (.map es) = .error f :=
      compile_alone_error (l := ⟨.scope, item k i, body⟩) (parsable_item hk i) htags hbody hread _
    have hnot : ¬ ∃ b, (Except.error f : Except Fault Builder) = .ok b := fun ⟨b, hb⟩ => by cases hb
    rw [heach, or_iff_left hnot]
    constructor
    · rintro h rfl
      cases h
    · intro hxs
      have hcount : xs.length ≠ 0 := fun h => hxs (List.length_eq_zero_iff.1 h)
      exact (compileItems_error hcount hscope).symm

end

/-- A page that looks outward from an item, shows it and calls a helper that there is not. -/
def itemPage : Text :=
  lit "\x7b\x7b#if ../rates\x7d\x7d\x7b\x7bthis\x7d\x7d\x7b\x7b/if\x7d\x7d\x7b\x7bno x\x7d\x7d"

theorem balanced_itemPage : (standard {}).Balanced itemPage := by
  have hif : cut Piece.opening itemPage =
      some ([], lit "#if ../rates\x7d\x7d\x7b\x7bthis\x7d\x7d\x7b\x7b/if\x7d\x7d\x7b\x7bno x\x7d\x7d") := by
    decide +kernel
  have hthis : cut Piece.opening
      (lit "\x7b\x7bthis\x7d\x7d\x7b\x7b/if\x7d\x7d\x7b\x7bno x\x7d\x7d") =
        some ([], lit "this\x7d\x7d\x7b\x7b/if\x7d\x7d\x7b\x7bno x\x7d\x7d") := by
    decide +kernel
  have hend : cut Piece.opening (lit "\x7b\x7b/if\x7d\x7d\x7b\x7bno x\x7d\x7d") =
      some ([], lit "/if\x7d\x7d\x7b\x7bno x\x7d\x7d") := by decide +kernel
  have hno : cut Piece.opening (lit "\x7b\x7bno x\x7d\x7d") = some ([], lit "no x\x7d\x7d") := by
    decide +kernel
  have hlast : Piece.readTag? (lit "no x\x7d\x7d") = some (.tag (lit "no x"), []) := by
    decide +kernel
  have hclosed : Piece.Closed itemPage := ⟨_, _, _,
    .tag hif (by decide) (p := .tag (lit "#if ../rates")) (by decide +kernel) <|
    .tag hthis (by decide) (p := .tag (lit "this")) (by decide +kernel) <|
    .tag hend (by decide) (p := .tag (lit "/if")) (by decide +kernel) <|
    .tag hno (by decide) hlast <| .plain rfl⟩
  have hread : ((standard {}).readAlone 16 itemPage).toOption.map (fun b =>
      (b.stack.isEmpty, b.problems.all fun q => !Builder.isOutside q)) = some (true, true) := by
    decide +kernel
  obtain ⟨b, hb, hboth⟩ := Option.map_eq_some_iff.1 hread
  obtain ⟨hstack, hproblems⟩ := Prod.mk.inj hboth
  have hb' : (standard {}).readAlone 16 itemPage = .ok b := ok_of_toOption hb
  refine ⟨⟨hclosed, ⟨b, hb', List.isEmpty_iff.1 hstack⟩, by decide +kernel, by decide +kernel⟩,
    fun d hd q hq => ?_⟩
  cases hb'.symm.trans hd
  simpa using List.all_eq_true.1 hproblems q hq

theorem isName_rates : IsName (lit "rates") where
  word := ⟨by decide +kernel, List.all_eq_true.1 (by decide +kernel)⟩
  segment := List.all_eq_true.1 (by decide +kernel)
  closing := Bare.of_not_mem (by decide +kernel)
  tilde := by decide +kernel
  data := by decide +kernel
  this := by decide +kernel
  keyword := by decide +kernel
  numeral := by decide +kernel

theorem get?_rates :
    Entries.get? (lit "rates") [(lit "rates", Value.list [.text ['1'], .text ['{']])] =
      some (.list [.text ['1'], .text ['{']]) := by
  simp [Entries.get?]

theorem split_rates : split (lit "rates") = lit "rates" := by decide +kernel

/-- A loop that shows each of two rates and what is wrong with the call. -/
theorem compile_each_eq_iff_rates :
    (standard {}).compile (Link.alone ⟨.each, lit "rates", itemPage⟩) rates =
        (standard {}).compileItems (lit "rates") itemPage 2 rates ∧
      ((standard {}).compile (Link.alone ⟨.each, lit "rates", itemPage⟩) rates).toOption.map
        List.head? = some (some '1') := by
  have htrue : ∀ x ∈ [Value.text ['1'], .text ['{']], (Outcome.value x).truth = .ok true := by
    intro x hx
    rcases List.mem_cons.1 hx with rfl | hx
    · rfl
    · cases List.mem_singleton.1 hx
      rfl
  have hlength : 2 ≤ 10 ^ Integer.maxDigits :=
    (show 2 ≤ 10 ^ 1 by decide).trans (Nat.pow_le_pow_right (by decide) (by decide))
  exact ⟨(compile_each_eq_iff isName_rates (by decide) (by decide +kernel) balanced_itemPage.framed
    (by decide +kernel) get?_rates (.inl split_rates) htrue hlength).2 (.inl (List.cons_ne_nil _ _)), by
    decide +kernel⟩

/-- A page whose one tag makes the reading fail. -/
def emptyDataPage : Text := lit "\x7b\x7b@./this\x7d\x7d"

/-- A loop over an empty list fails with its body, of which the concatenation has nothing. -/
theorem compile_each_emptyList :
    let context := Value.map [(lit "xs", .list [])]
    ((standard {}).compile (Link.alone ⟨.each, lit "xs", emptyDataPage⟩) context).toOption = none ∧
      (standard {}).compileItems (lit "xs") emptyDataPage 0 context = .ok [] :=
  ⟨by decide +kernel, rfl⟩

end Compiler

end Tender
