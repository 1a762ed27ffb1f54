/-
Where the writing of a page breaks off.

Once a page has been read, only two things keep it from being written: a path that breaks, and a block
on an integer that no float is near.

* `Value.walk_error_iff` — a path breaks where it has come to a list, at a segment that looks like
  the number of an item and is none;
* `Expr.eval_ok_iff` — an expression comes to an outcome exactly if no path in it breaks;
* `Node.render_block_eq` — a block writes its branches, a loop one for each of its rounds;
* `Node.renderAll_ok_iff` — so nodes are written exactly if none of them stops;
* `Compiler.compile_ok_iff`, `Renderer.compilePage_ok_iff` — and a page is compiled exactly if its
  reading does not break either.
-/
import Mathlib.Data.List.TakeWhile
import Tender.Proofs.Record.Survey
import Tender.Proofs.Template.Failure
import Tender.Proofs.Template.Reading

namespace Tender

open Survey (IsVast)

/-! ### Paths -/

/-- Digits spell an integer exactly if they are decimal and not too many. -/
theorem Integer.ofDigits_ok_iff {s : Text} :
    (∃ n, ofDigits s = .ok n) ↔ (∀ c ∈ s, Text.isDecimal c = true) ∧ s.length ≤ maxDigits := by
  have hprefix := List.takeWhile_prefix (l := s) Text.isDecimal
  have hall : (∀ c ∈ s, Text.isDecimal c = true) ↔
      ¬ (s.takeWhile Text.isDecimal).length < s.length := by
    rw [← List.takeWhile_eq_self_iff]
    constructor
    · intro h
      rw [h]
      exact Nat.lt_irrefl _
    · intro h
      exact hprefix.eq_of_length_le (Nat.le_of_not_lt h)
  have hlength := hprefix.length_le
  rw [hall, ofDigits]
  split
  · simp only [reduceCtorEq, exists_false, false_iff]
    omega
  · split
    · simp only [reduceCtorEq, exists_false, false_iff]
      omega
    · simp only [Except.ok.injEq, exists_eq', true_iff]
      omega

namespace Value

/-- A segment that looks like the number of an item and is none: its digits are not all decimal, or
there are too many. -/
def IsFalseNumber (segment : Text) : Prop :=
  segment ≠ lengthKey ∧ segment ≠ [] ∧ segment.all Text.isDigitLike = true ∧
    ¬ ((∀ c ∈ segment, Text.isDecimal c = true) ∧ segment.length ≤ Integer.maxDigits)

theorem step_list_error_iff {xs : List Value} {segment : Text} :
    (∃ f, (list xs).step segment = .error f) ↔ IsFalseNumber segment := by
  rw [step, IsFalseNumber, ← Integer.ofDigits_ok_iff, ← exists_error_iff]
  by_cases hlength : segment = lengthKey
  · simp [hlength]
  · rw [if_neg hlength]
    by_cases hdigits : segment ≠ [] ∧ segment.all Text.isDigitLike = true
    · rw [if_pos hdigits]
      cases Integer.ofDigits segment <;> simp [Except.map, hlength, hdigits]
    · rw [if_neg hdigits]
      simp only [reduceCtorEq, exists_false, false_iff]
      exact fun h => hdigits ⟨h.2.1, h.2.2.1⟩

theorem step_error_iff {v : Value} {segment : Text} :
    (∃ f, v.step segment = .error f) ↔ (∃ xs, v = .list xs) ∧ IsFalseNumber segment := by
  cases v with
  | list xs => rw [step_list_error_iff, and_iff_right ⟨xs, rfl⟩]
  | _ => simp [step]

/-- A path stops in a value: before its end it comes to a list, at a segment that looks like the
number of an item and is none. -/
def Stops (v : Value) (segments : List Text) : Prop :=
  ∃ before segment after xs, segments = before ++ segment :: after ∧
    v.walk before = .ok (.list xs) ∧ IsFalseNumber (Text.split segment)

theorem walk_error_iff {v : Value} {segments : List Text} :
    (∃ f, v.walk segments = .error f) ↔ v.Stops segments := by
  simp only [walk, foldlM_error_iff]
  constructor
  · rintro ⟨f, before, segment, after, w, hsplit, hbefore, hstep⟩
    obtain ⟨⟨xs, rfl⟩, hfalse⟩ := step_error_iff.1 ⟨f, hstep⟩
    exact ⟨before, segment, after, xs, hsplit, hbefore, hfalse⟩
  · rintro ⟨before, segment, after, xs, hsplit, hbefore, hfalse⟩
    obtain ⟨f, hstep⟩ := step_error_iff.2 ⟨⟨xs, rfl⟩, hfalse⟩
    exact ⟨f, before, segment, after, _, hsplit, hbefore, hstep⟩

end Value

/-- A path stops in the value that it starts from. -/
def Path.Stops (env : Surroundings) : Path → Prop
  | .scope ups _ segments => (env.scopeAt ups).Stops segments
  | .root segments => env.root.Stops segments
  | .loop _ => False

/-! ### Expressions -/

namespace Expr

variable {env : Surroundings}

theorem evalPath_ok_iff {p : Path} : (∃ v, evalPath env p = .ok v) ↔ ¬ p.Stops env := by
  have hwalk (v : Value) (segments : List Text) :
      (∃ w, v.walk segments = .ok w) ↔ ¬ v.Stops segments := by
    rw [← Value.walk_error_iff, exists_error_iff, not_not]
  cases p with
  | scope ups explicit segments => exact hwalk _ _
  | root segments => exact hwalk _ _
  | loop name => exact iff_of_true ⟨_, rfl⟩ id

/-- A path in an expression stops. -/
def Stops (env : Surroundings) (e : Expr) : Prop :=
  ∃ p, Within (.path p) e ∧ p.Stops env

theorem stops_literal {v : Value} : ¬ Stops env (.literal v) := by
  rintro ⟨p, ⟨⟩, -⟩

theorem stops_path {p : Path} : Stops env (.path p) ↔ p.Stops env := by
  constructor
  · rintro ⟨p, ⟨⟩, h⟩
    exact h
  · exact fun h => ⟨p, .self _, h⟩

theorem stops_call {name : Text} {options : List (Text × Expr)} {args : List Expr} :
    Stops env (.call name options args) ↔ ∃ e ∈ operands options args, Stops env e := by
  simp only [Stops, within_call, reduceCtorEq, false_or]
  constructor
  · rintro ⟨p, ⟨e, he, hp⟩, hstops⟩
    exact ⟨e, he, p, hp, hstops⟩
  · rintro ⟨e, he, p, hp, hstops⟩
    exact ⟨p, ⟨e, he, hp⟩, hstops⟩

theorem evalArgs_ok_iff {args : List Expr} :
    (∃ os, evalArgs env args = .ok os) ↔ ∀ e ∈ args, ∃ o, eval env e = .ok o := by
  have hmapM : evalArgs env args = args.mapM (eval env) := by
    induction args with
    | nil =>
      rw [evalArgs]
      rfl
    | cons e args ih => rw [evalArgs, List.mapM_cons, ih]
  rw [hmapM, exists_mapM_ok_iff]

theorem eval_call_ok_iff {name : Text} {options : List (Text × Expr)} {args : List Expr} :
    (∃ o, eval env (.call name options args) = .ok o) ↔
      ∀ e ∈ operands options args, ∃ o, eval env e = .ok o := by
  rw [← evalArgs_ok_iff, evalArgs_operands, eval_call, exists_map_ok_iff, exists_map_ok_iff]

/-- An expression comes to an outcome exactly if no path in it stops. -/
theorem eval_ok_iff : (e : Expr) → ((∃ o, eval env e = .ok o) ↔ ¬ e.Stops env)
  | .literal v => iff_of_true ⟨_, by rw [eval]⟩ stops_literal
  | .path p => by
    rw [stops_path, ← evalPath_ok_iff, eval, exists_map_ok_iff]
  | .call name options args => by
    have hoperands : ∀ e ∈ operands options args,
        ((∃ o, eval env e = .ok o) ↔ ¬ e.Stops env) := fun e he => eval_ok_iff e
    rw [eval_call_ok_iff, stops_call]
    simp only [not_exists, not_and]
    exact forall₂_congr hoperands
termination_by e => sizeOf e
decreasing_by exact sizeOf_operand name he

end Expr

/-! ### Nodes -/

/-- An outcome is tested, unless it is an integer that no float is near. -/
theorem Outcome.truth_ok_iff {o : Outcome} :
    (∃ yes, o.truth = .ok yes) ↔ ¬ ∃ v, o = .value v ∧ IsVast v := by
  cases o with
  | failure html => simp [truth]
  | value v =>
    cases v with
    | int n =>
      rw [truth]
      cases hn : Binary64.ofInt? n with
      | none =>
        have hne : n ≠ 0 := by
          rintro rfl
          revert hn
          decide +kernel
        simp [hne, IsVast, hn]
      | some x => simp [IsVast, hn]
    | _ => simp [truth, IsVast]

namespace Node

variable {maxDepth : Nat} {env : Surroundings}

/-- The scopes of the rounds of a loop, the number of the first being `index`. -/
def rounds : (index : Nat) → List (Value × Value) → List Scope
  | _, [] => []
  | index, (key, item) :: rest => ⟨item, some ⟨index, key, rest.isEmpty⟩⟩ :: rounds (index + 1) rest

/-- The branch that a block writes if its test holds, or if it fails, with the surroundings of it. -/
def branch (env : Surroundings) (o : Outcome) (body inverse : List Node) :
    BlockKind → Bool → Surroundings × List Node
  | .when, true => (env, body)
  | .unless, false => (env, body)
  | .scope, true => (env.push ⟨o.toValue, none⟩, body)
  | _, _ => (env, inverse)

/-- The branches that a block writes for an outcome: one, or one for each round of a loop. -/
def branches (env : Surroundings) (o : Outcome) (body inverse : List Node) (kind : BlockKind) :
    Except Fault (List (Surroundings × List Node)) :=
  if kind = .each then
    .ok (if o.entries = [] then [(env, inverse)]
      else (rounds 0 o.entries).map fun s => (env.push s, body))
  else o.truth.map fun yes => [branch env o body inverse kind yes]

theorem renderAll_eq_mapM (nodes : List Node) :
    renderAll maxDepth env nodes = (nodes.mapM (render maxDepth env)).map List.flatten := by
  induction nodes with
  | nil => rw [renderAll]; rfl
  | cons n nodes ih =>
    rw [renderAll, ih, List.mapM_cons]
    cases render maxDepth env n with
    | error f => rfl
    | ok a => cases nodes.mapM (render maxDepth env) <;> rfl

theorem renderLoop_eq_mapM (body : Surroundings → Except Fault Text) (index : Nat)
    (entries : List (Value × Value)) :
    renderLoop env body index entries =
      ((rounds index entries).mapM fun s => body (env.push s)).map List.flatten := by
  induction entries generalizing index with
  | nil => rfl
  | cons entry rest ih =>
    obtain ⟨key, item⟩ := entry
    rw [renderLoop, ih, rounds, List.mapM_cons]
    cases body (env.push ⟨item, some ⟨index, key, rest.isEmpty⟩⟩) with
    | error f => rfl
    | ok a => cases (rounds (index + 1) rest).mapM fun s => body (env.push s) <;> rfl

/-- Writes branches one after the other. -/
def renderBranches (maxDepth : Nat) (bs : List (Surroundings × List Node)) : Except Fault Text :=
  (bs.mapM fun b => renderAll maxDepth b.1 b.2).map List.flatten

theorem renderBranches_singleton (env : Surroundings) (nodes : List Node) :
    renderBranches maxDepth [(env, nodes)] = renderAll maxDepth env nodes := by
  rw [renderBranches, List.mapM_cons]
  cases renderAll maxDepth env nodes with
  | error f => rfl
  | ok s => exact congrArg Except.ok (List.append_nil s)

/-- A block writes its branches. -/
theorem render_block_eq (kind : BlockKind) (param : Expr) (token : Text) (body inverse : List Node) :
    render maxDepth env (.block kind param token false body inverse) =
      param.eval env >>= fun o => branches env o body inverse kind >>= renderBranches maxDepth := by
  rw [render, if_neg Bool.false_ne_true]
  refine bind_congr fun o => ?_
  cases kind with
  | each =>
    rw [branches, if_pos rfl]
    show _ = renderBranches maxDepth (if o.entries = [] then _ else _)
    simp only
    split
    · rename_i hentries
      rw [if_pos hentries, renderBranches_singleton]
    · rename_i first rest hentries
      rw [hentries, if_neg (List.cons_ne_nil _ _), renderLoop_eq_mapM, renderBranches, List.mapM_map]
      rfl
  | _ =>
    rw [branches, if_neg (by decide)]
    cases o.truth with
    | error f => rfl
    | ok yes =>
      show _ = renderBranches maxDepth [_]
      rw [renderBranches_singleton]
      cases yes <;> rfl

/-- What a block writes are its branches. -/
theorem eq_of_mem_branches {o : Outcome} {body inverse : List Node} {kind : BlockKind}
    {bs : List (Surroundings × List Node)} (h : branches env o body inverse kind = .ok bs)
    {b : Surroundings × List Node} (hb : b ∈ bs) : b.2 = body ∨ b.2 = inverse := by
  rw [branches] at h
  split at h
  · cases h
    split at hb
    · cases List.mem_singleton.1 hb
      exact .inr rfl
    · obtain ⟨s, -, rfl⟩ := List.mem_map.1 hb
      exact .inl rfl
  · obtain ⟨yes, -, rfl⟩ := ok_of_map h
    cases List.mem_singleton.1 hb
    cases kind <;> cases yes <;> simp [branch]

/-- A node stops: in what it shows, in the parameter of a block, in the test of that, or in a branch
that the block writes. -/
inductive Stops : Surroundings → Node → Prop
  | shown {env : Surroundings} {e : Expr} {raw : Bool} (h : e.Stops env) : Stops env (.shown e raw)
  | param {env : Surroundings} {kind : BlockKind} {param : Expr} {token : Text}
      {body inverse : List Node} (h : param.Stops env) :
      Stops env (.block kind param token false body inverse)
  | test {env : Surroundings} {kind : BlockKind} {param : Expr} {token : Text}
      {body inverse : List Node} {v : Value} (hkind : kind ≠ .each)
      (hparam : param.eval env = .ok (.value v)) (hvast : IsVast v) :
      Stops env (.block kind param token false body inverse)
  | branch {env env' : Surroundings} {kind : BlockKind} {param : Expr} {token : Text}
      {body inverse nodes : List Node} {o : Outcome} {bs : List (Surroundings × List Node)}
      {n : Node} (hparam : param.eval env = .ok o)
      (hbranches : branches env o body inverse kind = .ok bs) (hb : (env', nodes) ∈ bs)
      (hn : n ∈ nodes) (h : Stops env' n) : Stops env (.block kind param token false body inverse)

theorem renderBranches_ok_iff {bs : List (Surroundings × List Node)} :
    (∃ html, renderBranches maxDepth bs = .ok html) ↔
      ∀ b ∈ bs, ∀ n ∈ b.2, ∃ html, render maxDepth b.1 n = .ok html := by
  have hnodes (env : Surroundings) (nodes : List Node) :
      (∃ html, renderAll maxDepth env nodes = .ok html) ↔
        ∀ n ∈ nodes, ∃ html, render maxDepth env n = .ok html := by
    rw [renderAll_eq_mapM, exists_map_ok_iff, exists_mapM_ok_iff]
  rw [renderBranches, exists_map_ok_iff, exists_mapM_ok_iff]
  exact forall₂_congr fun b _ => hnodes b.1 b.2

theorem showExpr_ok_iff {e : Expr} {raw : Bool} :
    (∃ html, showExpr env e raw = .ok html) ↔ ¬ e.Stops env := by
  rw [showExpr]
  split
  · rename_i v hconstant
    refine iff_of_true ⟨_, rfl⟩ ?_
    -- what does not depend on data is a literal or a variable of a loop
    unfold Expr.constant? at hconstant
    split at hconstant
    · exact Expr.stops_literal
    · exact Expr.stops_path.1
    · cases hconstant
  · rw [exists_map_ok_iff, Expr.eval_ok_iff]

theorem branches_ok_iff {o : Outcome} {body inverse : List Node} {kind : BlockKind} :
    (∃ bs, branches env o body inverse kind = .ok bs) ↔
      kind = .each ∨ ¬ ∃ v, o = .value v ∧ IsVast v := by
  rw [branches, ← Outcome.truth_ok_iff]
  split
  · rename_i heach
    exact iff_of_true ⟨_, rfl⟩ (.inl heach)
  · rename_i hkind
    rw [exists_map_ok_iff, or_iff_right hkind]

theorem sizeOf_lt_of_mem_branches {o : Outcome} {body inverse : List Node} {kind : BlockKind}
    {bs : List (Surroundings × List Node)} (h : branches env o body inverse kind = .ok bs)
    {b : Surroundings × List Node} (hb : b ∈ bs) {n : Node} (hn : n ∈ b.2) (param : Expr)
    (token : Text) (tooDeep : Bool) :
    sizeOf n < sizeOf (Node.block kind param token tooDeep body inverse) := by
  have hsize := List.sizeOf_lt_of_mem hn
  rw [Node.block.sizeOf_spec]
  rcases eq_of_mem_branches h hb with heq | heq
  · rw [heq] at hsize
    omega
  · rw [heq] at hsize
    omega

/-- A block is written if its parameter comes to an outcome, that is tested, and its branches are
written. -/
theorem render_block_ok_iff {kind : BlockKind} {param : Expr} {token : Text}
    {body inverse : List Node} :
    (∃ html, render maxDepth env (.block kind param token false body inverse) = .ok html) ↔
      ∃ o, param.eval env = .ok o ∧ ∃ bs, branches env o body inverse kind = .ok bs ∧
        ∀ b ∈ bs, ∀ n ∈ b.2, ∃ html, render maxDepth b.1 n = .ok html := by
  simp only [render_block_eq, exists_bind_ok_iff, renderBranches_ok_iff]

/-- A node is written exactly if it does not stop. -/
theorem render_ok_iff {env : Surroundings} :
    (n : Node) → ((∃ html, render maxDepth env n = .ok html) ↔ ¬ n.Stops env)
  | .text s => iff_of_true ⟨s, by rw [render]⟩ nofun
  | .problem p => iff_of_true ⟨_, by rw [render]⟩ nofun
  | .shown e raw => by
    rw [render, showExpr_ok_iff]
    exact not_congr ⟨.shown, fun h => by cases h; assumption⟩
  | .block kind param token true body inverse => iff_of_true ⟨_, by rw [render, if_pos rfl]⟩ nofun
  | .block kind param token false body inverse => by
    have ih {o : Outcome} {bs : List (Surroundings × List Node)}
        (hbs : branches env o body inverse kind = .ok bs) :
        ∀ b ∈ bs, ∀ n ∈ b.2, ((∃ html, render maxDepth b.1 n = .ok html) ↔ ¬ n.Stops b.1) :=
      fun b hb n hn => render_ok_iff n
    rw [render_block_ok_iff]
    constructor
    · rintro ⟨o, ho, bs, hbs, hwritten⟩ hstops
      cases hstops with
      | param h => exact (Expr.eval_ok_iff param).1 ⟨o, ho⟩ h
      | test hkind hparam hvast =>
        cases ho.symm.trans hparam
        exact (branches_ok_iff.1 ⟨bs, hbs⟩).elim hkind fun h => h ⟨_, rfl, hvast⟩
      | branch hparam hbranches hb hn h =>
        cases ho.symm.trans hparam
        cases hbs.symm.trans hbranches
        exact (ih hbs _ hb _ hn).1 (hwritten _ hb _ hn) h
    · intro hfine
      obtain ⟨o, ho⟩ := (Expr.eval_ok_iff param).2 fun h => hfine (.param h)
      have htested : kind = .each ∨ ¬ ∃ v, o = .value v ∧ IsVast v := by
        refine or_iff_not_imp_left.2 fun hkind => ?_
        rintro ⟨v, rfl, hvast⟩
        exact hfine (.test hkind ho hvast)
      obtain ⟨bs, hbs⟩ := branches_ok_iff.2 htested
      exact ⟨o, ho, bs, hbs, fun b hb n hn =>
        (ih hbs b hb n hn).2 fun h => hfine (.branch ho hbs hb hn h)⟩
termination_by n => sizeOf n
decreasing_by exact sizeOf_lt_of_mem_branches hbs hb hn param token false

/-- Nodes are written exactly if none of them stops. -/
theorem renderAll_ok_iff {nodes : List Node} :
    (∃ html, renderAll maxDepth env nodes = .ok html) ↔ ∀ n ∈ nodes, ¬ n.Stops env := by
  rw [renderAll_eq_mapM, exists_map_ok_iff, exists_mapM_ok_iff]
  exact forall₂_congr fun n _ => render_ok_iff n

end Node

/-! ### Pages -/

/-- The compilation of a page stops: its reading breaks, or one of its nodes stops. -/
def Compiler.Stops (c : Compiler) (source : Text) (context : Value) : Prop :=
  Page.Breaks c.isHelper c.settings.maxTemplateTokens c.settings.maxBlockDepth source ∨
    ∃ page, c.read source = .ok page ∧ ∃ n ∈ page.nodes, n.Stops (c.surroundings context)

theorem Compiler.compile_ok_iff {c : Compiler} {source : Text} {context : Value} :
    (∃ html, c.compile source context = .ok html) ↔ ¬ c.Stops source context := by
  rw [Stops, not_or, ← Page.read_ok_iff, compile]
  simp only [exists_bind_ok_iff, Node.renderAll_ok_iff]
  constructor
  · rintro ⟨page, hread, hfine⟩
    refine ⟨⟨page, hread⟩, ?_⟩
    rintro ⟨page', hread', n, hn, hstops⟩
    cases hread.symm.trans hread'
    exact hfine n hn hstops
  · rintro ⟨⟨page, hread⟩, hfine⟩
    exact ⟨page, hread, fun n hn hstops => hfine ⟨page, hread, n, hn, hstops⟩⟩

/-- The compilation of a page of a document stops; a page that is too long is not compiled at all. -/
def Renderer.Stops (r : Renderer) (source : Text) (context : Value) : Prop :=
  source.length ≤ r.settings.maxPageChars ∧ r.compiler.Stops (r.guard.escape source) context

theorem Renderer.compilePage_ok_iff {r : Renderer} {source : Text} {context : Value} :
    (∃ html, r.compilePage source context = .ok html) ↔ ¬ r.Stops source context := by
  rw [compilePage, Stops]
  split
  · exact iff_of_true ⟨_, rfl⟩ (by omega)
  · rw [exists_map_ok_iff, Compiler.compile_ok_iff, not_and]
    constructor
    · exact fun h _ => h
    · exact fun h => h (by omega)

end Tender
