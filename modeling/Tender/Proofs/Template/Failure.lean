/-
Failing helpers in an output tag.

The diagnostic of a call that fails is an argument like any other for the call around it, so it
depends on that call whether the failure shows.

* `eval_faithful` — if every call hands failures on, an expression comes to a diagnostic exactly if
  a call within it fails, and then to the diagnostic of such a call;
* `Sound.date` — the date helper hands on the failures of the date;
* `Node.render_shown_failure` — an output tag with a failing call shows nothing but that
  diagnostic;
* `Compiler.compile_swallowed_failure` — a call that takes the diagnostic for text hides the failure.
-/
import Tender.Proofs.Helper.DateText
import Tender.Proofs.Renderer

namespace Tender

open Text

/-! ### Failures among arguments -/

/-- The diagnostic that an outcome is, if it is one. -/
def Outcome.failure? : Outcome → Option Text
  | .value _ => none
  | .failure d => some d

/-- What a call is given, the options first. -/
def Arguments.outcomes (a : Arguments) : List Outcome :=
  a.options.map Prod.snd ++ a.positional

/-- The diagnostics that a call is given. -/
def Arguments.failures (a : Arguments) : List Text :=
  a.outcomes.filterMap Outcome.failure?

theorem Arguments.mem_failures {a : Arguments} {d : Text} :
    d ∈ a.failures ↔ Outcome.failure d ∈ a.outcomes := by
  rw [failures, List.mem_filterMap]
  constructor
  · rintro ⟨o, ho, hd⟩
    cases o with
    | value v => cases hd
    | failure d' => cases hd; exact ho
  · intro h
    exact ⟨_, h, rfl⟩

namespace Expr

/-! ### Calls within an expression -/

/-- The expressions that a call evaluates for its helper, the options first. -/
def operands (options : List (Text × Expr)) (args : List Expr) : List Expr :=
  options.map Prod.snd ++ args

/-- One expression stands in another, at any depth. -/
inductive Within : Expr → Expr → Prop
  | self (e : Expr) : Within e e
  | operand {c e : Expr} {name : Text} {options : List (Text × Expr)} {args : List Expr}
      (he : e ∈ operands options args) (hc : Within c e) : Within c (.call name options args)

theorem within_call {c : Expr} {name : Text} {options : List (Text × Expr)} {args : List Expr} :
    Within c (.call name options args) ↔
      c = .call name options args ∨ ∃ e ∈ operands options args, Within c e := by
  constructor
  · rintro (_ | ⟨he, hc⟩)
    · exact .inl rfl
    · exact .inr ⟨_, he, hc⟩
  · rintro (rfl | ⟨e, he, hc⟩)
    · exact .self _
    · exact .operand he hc

/-- What the helper of a call is given. -/
def evalArguments (env : Surroundings) (options : List (Text × Expr)) (args : List Expr) :
    Except Fault Arguments := do
  let options ← evalOptions env options
  let args ← evalArgs env args
  return ⟨args, options⟩

theorem eval_call (env : Surroundings) (name : Text) (options : List (Text × Expr))
    (args : List Expr) :
    eval env (.call name options args) =
      (evalArguments env options args).map (callHelper env name) := by
  rw [eval, evalArguments]
  cases evalOptions env options with
  | error f => rfl
  | ok os => cases evalArgs env args <;> rfl

/-- The diagnostic of a helper that answers with a fault. -/
def failureOf (name : Text) (f : Fault) : Text :=
  Problem.diagnostic ⟨.helperFailed name f.message, none⟩

/-- A call whose helper is reached and answers with a fault, with the diagnostic of that. -/
inductive Fails (env : Surroundings) : Expr → Text → Prop
  | intro {name : Text} {options : List (Text × Expr)} {args : List Expr} {a : Arguments}
      {h : Helper} {f : Fault} (hargs : evalArguments env options args = .ok a)
      (hhelper : Entries.get? name env.helpers = some h) (hfault : h a = .error f) :
      Fails env (.call name options args) (failureOf name f)

theorem Fails.diagnostic {env : Surroundings} {c : Expr} {d : Text} (h : Fails env c d) :
    ∃ q : Problem, d = q.diagnostic := by
  cases h
  exact ⟨_, rfl⟩

/-- A call hands failures on: given some, it fails itself or answers with one of them, and it answers
with a diagnostic in no other case. -/
def HandsOn (env : Surroundings) : Expr → Prop
  | .call name options args => ∀ a, evalArguments env options args = .ok a →
      match callHelper env name a with
      | .value _ => a.failures = []
      | .failure d => d ∈ a.failures ∨ Fails env (.call name options args) d
  | _ => True

/-- An outcome tells whether a call has failed. -/
def Faithful (env : Surroundings) (e : Expr) : Outcome → Prop
  | .value _ => ∀ c d, Within c e → ¬ Fails env c d
  | .failure d => ∃ c, Within c e ∧ Fails env c d

/-- All paths of an expression lead to values, and all its calls hand failures on. -/
structure Sound (env : Surroundings) (e : Expr) : Prop where
  paths : ∀ p, Within (.path p) e → ∃ v, evalPath env p = .ok v
  calls : ∀ c, Within c e → HandsOn env c

section

variable {env : Surroundings} {name : Text} {options : List (Text × Expr)} {args : List Expr}

theorem Sound.operand (h : Sound env (.call name options args)) {e : Expr}
    (he : e ∈ operands options args) : Sound env e :=
  ⟨fun p hp => h.paths p (.operand he hp), fun c hc => h.calls c (.operand he hc)⟩

/-! ### The arguments of a call -/

theorem mem_evalArgs {os : List Outcome} (h : evalArgs env args = .ok os) {o : Outcome} :
    o ∈ os ↔ ∃ e ∈ args, eval env e = .ok o := by
  induction args generalizing os with
  | nil =>
    cases h
    simp
  | cons e args ih =>
    rw [evalArgs] at h
    obtain ⟨o', ho', h⟩ := ok_of_bind h
    obtain ⟨os', hos', h⟩ := ok_of_bind h
    cases h
    rw [List.mem_cons, ih hos', eq_comm]
    simp only [List.mem_cons, exists_eq_or_imp, ho', Except.ok.injEq]

theorem evalArgs_total (h : ∀ e ∈ args, ∃ o, eval env e = .ok o) :
    ∃ os, evalArgs env args = .ok os := by
  induction args with
  | nil => exact ⟨[], by rw [evalArgs]⟩
  | cons e args ih =>
    obtain ⟨o, ho⟩ := h e List.mem_cons_self
    obtain ⟨os, hos⟩ := ih fun e' he' => h e' (List.mem_cons_of_mem e he')
    refine ⟨o :: os, ?_⟩
    rw [evalArgs, ho, hos]
    rfl

/-- A helper is given what the operands of its call come to. -/
theorem evalArgs_operands (env : Surroundings) (options : List (Text × Expr)) (args : List Expr) :
    evalArgs env (operands options args) =
      (evalArguments env options args).map Arguments.outcomes := by
  induction options with
  | nil =>
    rw [evalArguments, evalOptions]
    show evalArgs env args = _
    cases evalArgs env args <;> rfl
  | cons option options ih =>
    obtain ⟨k, e⟩ := option
    rw [evalArguments, evalOptions]
    show evalArgs env (e :: operands options args) = _
    rw [evalArgs, ih, evalArguments]
    cases eval env e with
    | error f => rfl
    | ok o =>
      cases evalOptions env options with
      | error f => rfl
      | ok os => cases evalArgs env args <;> rfl

theorem mem_outcomes {a : Arguments} (h : evalArguments env options args = .ok a) {o : Outcome} :
    o ∈ a.outcomes ↔ ∃ e ∈ operands options args, eval env e = .ok o :=
  mem_evalArgs (by rw [evalArgs_operands, h]; rfl)

theorem evalArguments_total (h : ∀ e ∈ operands options args, ∃ o, eval env e = .ok o) :
    ∃ a, evalArguments env options args = .ok a := by
  obtain ⟨os, hos⟩ := evalArgs_total h
  rw [evalArgs_operands] at hos
  obtain ⟨a, ha, -⟩ := ok_of_map hos
  exact ⟨a, ha⟩

/-! ### What an expression comes to -/

theorem callHelper_ok {a : Arguments} {h : Helper} {o : Outcome}
    (hhelper : Entries.get? name env.helpers = some h) (hanswer : h a = .ok o) :
    callHelper env name a = o := by
  rw [callHelper, hhelper]
  simp only [hanswer]

theorem callHelper_error {a : Arguments} {h : Helper} {f : Fault}
    (hhelper : Entries.get? name env.helpers = some h) (hfault : h a = .error f) :
    callHelper env name a = .failure (failureOf name f) := by
  rw [callHelper, hhelper]
  simp only [hfault]
  rfl

theorem not_fails_of_callHelper {a : Arguments} {v : Value} {d : Text}
    (hargs : evalArguments env options args = .ok a) (hvalue : callHelper env name a = .value v) :
    ¬ Fails env (.call name options args) d := by
  rintro ⟨hargs', hhelper, hfault⟩
  cases hargs.symm.trans hargs'
  cases hvalue.symm.trans (callHelper_error hhelper hfault)

/-- The outcome of a call that hands on tells whether it or a call within it has failed, if the
outcomes of its operands do. -/
theorem faithful_call {a : Arguments} (hargs : evalArguments env options args = .ok a)
    (hon : HandsOn env (.call name options args))
    (hoperands : ∀ e ∈ operands options args, ∃ o, eval env e = .ok o ∧ Faithful env e o) :
    Faithful env (.call name options args) (callHelper env name a) := by
  have hanswer := hon a hargs
  cases hcall : callHelper env name a with
  | value v =>
    simp only [hcall] at hanswer
    intro c d hc
    cases hc with
    | self => exact not_fails_of_callHelper hargs hcall
    | operand he hc =>
      obtain ⟨o, ho, hfaithful⟩ := hoperands _ he
      cases o with
      | value v => exact hfaithful c d hc
      | failure d' =>
        have hmem : d' ∈ a.failures := Arguments.mem_failures.2 ((mem_outcomes hargs).2 ⟨_, he, ho⟩)
        rw [hanswer] at hmem
        cases hmem
  | failure d =>
    simp only [hcall] at hanswer
    rcases hanswer with hmem | hfails
    · obtain ⟨e, he, heval⟩ := (mem_outcomes hargs).1 (Arguments.mem_failures.1 hmem)
      obtain ⟨o, ho, hfaithful⟩ := hoperands e he
      cases heval.symm.trans ho
      obtain ⟨c, hc, hfails⟩ := hfaithful
      exact ⟨c, .operand he hc, hfails⟩
    · exact ⟨_, .self _, hfails⟩

end

theorem sizeOf_operand {e : Expr} (name : Text) {options : List (Text × Expr)} {args : List Expr}
    (he : e ∈ operands options args) : sizeOf e < sizeOf (Expr.call name options args) := by
  rw [Expr.call.sizeOf_spec]
  rcases List.mem_append.1 he with he | he
  · obtain ⟨⟨k, e'⟩, hmem, rfl⟩ := List.mem_map.1 he
    have := List.sizeOf_lt_of_mem hmem
    rw [Prod.mk.sizeOf_spec] at this
    simp only
    omega
  · have := List.sizeOf_lt_of_mem he
    omega

/-- Where paths lead to values and calls hand failures on, an expression comes to an outcome that
tells whether a call within it has failed. -/
theorem eval_faithful {env : Surroundings} :
    (e : Expr) → Sound env e → ∃ o, eval env e = .ok o ∧ Faithful env e o
  | .literal v, _ => by
    refine ⟨.value v.literal, by rw [eval], fun c d hc => ?_⟩
    cases hc
    rintro ⟨⟩
  | .path p, h => by
    obtain ⟨v, hv⟩ := h.paths p (.self _)
    refine ⟨.value v, by rw [eval, hv]; rfl, fun c d hc => ?_⟩
    cases hc
    rintro ⟨⟩
  | .call name options args, h => by
    have hoperands : ∀ e ∈ operands options args, ∃ o, eval env e = .ok o ∧ Faithful env e o :=
      fun e he => eval_faithful e (h.operand he)
    obtain ⟨a, ha⟩ := evalArguments_total fun e he => (hoperands e he).imp fun _ ho => ho.1
    refine ⟨callHelper env name a, by rw [eval_call, ha]; rfl, ?_⟩
    exact faithful_call ha (h.calls _ (.self _)) hoperands
termination_by e => sizeOf e
decreasing_by exact sizeOf_operand name he

end Expr

/-! ### The date helper -/

namespace Expr

variable {env : Surroundings} {name : Text} {options : List (Text × Expr)} {args : List Expr}

theorem sound_call (hon : HandsOn env (.call name options args))
    (hoperands : ∀ e ∈ operands options args, Sound env e) :
    Sound env (.call name options args) := by
  constructor
  · intro p hp
    rcases within_call.1 hp with h | ⟨e, he, hp⟩
    · cases h
    · exact (hoperands e he).paths p hp
  · intro c hc
    rcases within_call.1 hc with rfl | ⟨e, he, hc⟩
    · exact hon
    · exact (hoperands e he).calls c hc

/-- The date helper hands on the failures of the date. -/
theorem Sound.handsOn_date {e : Expr} {pattern : Text} (h : Sound env e)
    (hhelper : Entries.get? name env.helpers = some (DateText.helperWith pattern)) :
    HandsOn env (.call name [] [e]) := by
  intro a ha
  obtain ⟨o, heval, hfaithful⟩ := eval_faithful e h
  have hargs : evalArguments env [] [e] = .ok ⟨[o], []⟩ := by
    rw [evalArguments, evalOptions, evalArgs, heval, evalArgs]
    rfl
  cases hargs.symm.trans ha
  have hanswer := DateText.helperWith_positional pattern o
  cases o with
  | failure d =>
    obtain ⟨c, -, hfails⟩ := hfaithful
    obtain ⟨q, rfl⟩ := hfails.diagnostic
    rw [DateText.format_diagnostic] at hanswer
    have hgiven := (mem_outcomes ha).2 ⟨e, List.mem_singleton_self e, heval⟩
    rw [callHelper_ok hhelper hanswer]
    exact .inl (Arguments.mem_failures.2 hgiven)
  | value v =>
    cases hformat : DateText.format (.value v) (.value .null) (.value (.text pattern)) with
    | error f =>
      rw [hformat] at hanswer
      rw [callHelper_error hhelper hanswer]
      exact .inr ⟨ha, hhelper, hanswer⟩
    | ok o =>
      obtain ⟨v', rfl⟩ := DateText.format_value hformat
      rw [hformat] at hanswer
      rw [callHelper_ok hhelper hanswer]
      rfl

theorem Sound.date {e : Expr} {pattern : Text} (h : Sound env e)
    (hhelper : Entries.get? name env.helpers = some (DateText.helperWith pattern)) :
    Sound env (.call name [] [e]) :=
  sound_call (h.handsOn_date hhelper) fun e' he => by
    cases List.mem_singleton.1 he
    exact h

/-- A call that fails hands failures on, whatever it is given. -/
theorem Fails.handsOn {c : Expr} {d : Text} (h : Fails env c d) : HandsOn env c := by
  obtain ⟨hargs, hhelper, hfault⟩ := h
  intro a ha
  cases hargs.symm.trans ha
  have hcall := callHelper_error hhelper hfault
  rw [hcall]
  exact .inr ⟨hargs, hhelper, hfault⟩

theorem exists_fails {a : Arguments} {h : Helper} (hargs : evalArguments env options args = .ok a)
    (hhelper : Entries.get? name env.helpers = some h) (hfault : (h a).toBool = false) :
    ∃ d, Fails env (.call name options args) d := by
  cases hanswer : h a with
  | ok o =>
    rw [hanswer] at hfault
    cases hfault
  | error f => exact ⟨_, hargs, hhelper, hanswer⟩

/-- The amount and the date helper are the ones that the settings want. -/
theorem get?_standard (s : Settings) :
    Entries.get? (lit "formatCurrency") (Compiler.standard s).helpers =
        some (Amount.helperWith s.currencySymbol) ∧
      Entries.get? (lit "formatDate") (Compiler.standard s).helpers =
        some (DateText.helperWith s.dateFormat) := by
  simp [Compiler.standard, Compiler.withHelpers, Compiler.standardHelpers, Helpers.standard,
    Entries.put, Entries.get?, lit_inj]

/-- The surroundings of a page without data. -/
def bare : Surroundings := (Compiler.standard {}).surroundings (.map [])

/-- The call of the amount helper without the amount. -/
def missingAmount : Expr := .call (lit "formatCurrency") [] []

/-- The call of the date helper without the date. -/
def missingDate : Expr := .call (lit "formatDate") [] []

theorem exists_fails_missingAmount : ∃ d, Fails bare missingAmount d :=
  exists_fails (a := ⟨[], []⟩) rfl (get?_standard {}).1 (by decide +kernel)

theorem exists_fails_missingDate : ∃ d, Fails bare missingDate d :=
  exists_fails (a := ⟨[], []⟩) rfl (get?_standard {}).2 (by decide +kernel)

/-- A date that is read out of the amount. -/
def dateOfMissingAmount : Expr := .call (lit "formatDate") [] [missingAmount]

/-- An amount that is read out of the date. -/
def amountOfMissingDate : Expr := .call (lit "formatCurrency") [] [missingDate]

theorem sound_missingAmount : Sound bare missingAmount := by
  obtain ⟨d, hd⟩ := exists_fails_missingAmount
  exact sound_call hd.handsOn fun e he => by cases he

theorem sound_dateOfMissingAmount : Sound bare dateOfMissingAmount :=
  sound_missingAmount.date (get?_standard {}).2

end Expr

open Tender.Expr

/-- An output tag in which a call fails shows the diagnostic of a call that fails and nothing else,
if every call hands failures on. -/
theorem Node.render_shown_failure {maxDepth : Nat} {env : Surroundings} {e : Expr} (raw : Bool)
    (hsound : e.Sound env) (hfails : ∃ c d, Within c e ∧ c.Fails env d) :
    ∃ c d, Within c e ∧ c.Fails env d ∧ render maxDepth env (.shown e raw) = .ok d := by
  obtain ⟨o, heval, hfaithful⟩ := eval_faithful e hsound
  obtain ⟨c, d, hc, hd⟩ := hfails
  cases o with
  | value v => exact absurd hd (hfaithful c d hc)
  | failure d' =>
    obtain ⟨c', hc', hd'⟩ := hfaithful
    refine ⟨c', d', hc', hd', ?_⟩
    have hconstant : e.constant? env = none := by
      cases hc with
      | self => cases hd; rfl
      | operand => rfl
    rw [render, showExpr, hconstant]
    show (eval env e).map (showOutcome raw) = _
    rw [heval]
    obtain ⟨q, rfl⟩ := hd'.diagnostic
    exact congrArg Except.ok (encodeBraces_of_no_brace q.hasNoBrace_diagnostic)

theorem Node.render_shown_failure_date :
    ∃ c d, Within c dateOfMissingAmount ∧ c.Fails bare d ∧
      render 8 bare (.shown dateOfMissingAmount false) = .ok d := by
  obtain ⟨d, hd⟩ := exists_fails_missingAmount
  exact render_shown_failure false sound_dateOfMissingAmount
    ⟨missingAmount, d, .operand List.mem_cons_self (.self _), hd⟩

/-- An amount is read out of the diagnostic of a date that is missing, and the diagnostic is not
shown. -/
theorem Compiler.compile_swallowed_failure :
    (∃ d, Within missingDate amountOfMissingDate ∧ missingDate.Fails bare d) ∧
      (Node.render 8 bare (.shown amountOfMissingDate false)).toOption =
        some (lit "-$9,118,155.00") ∧
      ((standard {}).compile (lit "\x7b\x7bformatCurrency (formatDate)\x7d\x7d")
        (.map [])).toOption = some (lit "-$9,118,155.00") := by
  obtain ⟨d, hd⟩ := exists_fails_missingDate
  refine ⟨⟨d, .operand List.mem_cons_self (.self _), hd⟩, ?_, ?_⟩
  · decide +kernel
  · decide +kernel

end Tender
