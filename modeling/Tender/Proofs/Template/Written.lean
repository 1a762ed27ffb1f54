/-
What a page is written of.

The literal texts of a page are those of its text nodes, also the ones inside blocks.

* `Written.holds` — what passes to a row of texts from its parts;
* `written_renderAll` — against any data, a page is written as a row of its literal texts and of
  parts without braces.
-/
import Mathlib.Data.List.Forall2
import Tender.Proofs.Text.Markup
import Tender.Template.Compiler

namespace Tender

open Text

mutual
/-- The literal texts of a node in order. -/
def Node.texts : Node → List Text
  | .text s => [s]
  | .problem _ => []
  | .shown _ _ => []
  | .block _ _ _ _ body inverse => Node.textsOf body ++ Node.textsOf inverse

/-- The literal texts of nodes in order. -/
def Node.textsOf : List Node → List Text
  | [] => []
  | n :: ns => n.texts ++ Node.textsOf ns
end

namespace Node

@[simp] theorem texts_text (s : Text) : (Node.text s).texts = [s] := by
  rw [texts]

@[simp] theorem texts_problem (p : Problem) : (Node.problem p).texts = [] := by
  rw [texts]

@[simp] theorem texts_shown (e : Expr) (raw : Bool) : (Node.shown e raw).texts = [] := by
  rw [texts]

theorem textsOf_nil : textsOf [] = [] := by
  rw [textsOf]

theorem textsOf_cons (n : Node) (ns : List Node) : textsOf (n :: ns) = n.texts ++ textsOf ns := by
  rw [textsOf]

theorem textsOf_append (a b : List Node) : textsOf (a ++ b) = textsOf a ++ textsOf b := by
  induction a with
  | nil => rw [textsOf_nil, List.nil_append, List.nil_append]
  | cons n a ih => rw [List.cons_append, textsOf_cons, textsOf_cons, ih, List.append_assoc]

theorem mem_textsOf {s : Text} {nodes : List Node} :
    s ∈ textsOf nodes ↔ ∃ n ∈ nodes, s ∈ n.texts := by
  induction nodes with
  | nil => simp [textsOf_nil]
  | cons n ns ih => simp [textsOf_cons, ih]

end Node

/-! ### Texts put together -/

/-- A text that is a row of literal texts and of parts without braces. -/
def Written (texts : List Text) (s : Text) : Prop :=
  ∃ parts : List Text, s = parts.flatten ∧ ∀ p ∈ parts, p ∈ texts ∨ hasNoBrace p = true

namespace Written

variable {texts more : List Text} {s t : Text}

theorem literal (h : s ∈ texts) : Written texts s :=
  ⟨[s], by simp, fun p hp => .inl (List.mem_singleton.1 hp ▸ h)⟩

theorem of_no_brace (h : hasNoBrace s = true) : Written texts s :=
  ⟨[s], by simp, fun p hp => .inr (List.mem_singleton.1 hp ▸ h)⟩

theorem append (hs : Written texts s) (ht : Written texts t) : Written texts (s ++ t) := by
  obtain ⟨parts, rfl, hparts⟩ := hs
  obtain ⟨parts', rfl, hparts'⟩ := ht
  refine ⟨parts ++ parts', by simp, fun p hp => ?_⟩
  rcases List.mem_append.1 hp with hp | hp
  · exact hparts p hp
  · exact hparts' p hp

theorem flatten {parts : List Text} (h : ∀ p ∈ parts, Written texts p) :
    Written texts parts.flatten := by
  induction parts with
  | nil => exact of_no_brace rfl
  | cons p parts ih =>
    rw [List.flatten_cons]
    exact (h p List.mem_cons_self).append (ih fun q hq => h q (List.mem_cons_of_mem p hq))

theorem mono (h : Written texts s) (hsub : texts ⊆ more) : Written more s := by
  obtain ⟨parts, rfl, hparts⟩ := h
  exact ⟨parts, rfl, fun p hp => (hparts p hp).imp_left fun hmem => hsub hmem⟩

/-- What holds of the literal texts and of texts without braces, and of two texts in a row if it
holds of both, holds of what is written of them. -/
theorem holds {P : Text → Prop} (h : Written texts s) (htexts : ∀ t ∈ texts, P t)
    (hother : ∀ t, hasNoBrace t = true → P t) (happend : ∀ t u, P t → P u → P (t ++ u)) : P s := by
  obtain ⟨parts, rfl, hparts⟩ := h
  induction parts with
  | nil => exact hother [] rfl
  | cons p parts ih =>
    rw [List.flatten_cons]
    refine happend _ _ ?_ (ih fun q hq => hparts q (List.mem_cons_of_mem p hq))
    rcases hparts p List.mem_cons_self with hp | hp
    · exact htexts p hp
    · exact hother p hp

end Written

/-! ### Writing nodes -/

theorem ok_of_bind {α β ε : Type} {x : Except ε α} {f : α → Except ε β} {b : β}
    (h : (x >>= f) = .ok b) : ∃ a, x = .ok a ∧ f a = .ok b := by
  cases x with
  | error e => cases h
  | ok a => exact ⟨a, rfl, h⟩

theorem ok_of_map {α β ε : Type} {x : Except ε α} {f : α → β} {b : β} (h : x.map f = .ok b) :
    ∃ a, x = .ok a ∧ f a = b := by
  cases x with
  | error e => cases h
  | ok a => exact ⟨a, rfl, Except.ok.inj h⟩

/-- What fails does not end well. -/
theorem exists_error_iff {α ε : Type} {x : Except ε α} :
    (∃ e, x = .error e) ↔ ¬ ∃ a, x = .ok a := by
  cases x <;> simp

theorem exists_map_ok_iff {α β ε : Type} {x : Except ε α} {f : α → β} :
    (∃ b, x.map f = .ok b) ↔ ∃ a, x = .ok a := by
  cases x <;> simp [Except.map]

theorem exists_bind_ok_iff {α β ε : Type} {x : Except ε α} {f : α → Except ε β} :
    (∃ b, x >>= f = .ok b) ↔ ∃ a, x = .ok a ∧ ∃ b, f a = .ok b := by
  constructor
  · rintro ⟨b, h⟩
    obtain ⟨a, ha, hb⟩ := ok_of_bind h
    exact ⟨a, ha, b, hb⟩
  · rintro ⟨a, rfl, hb⟩
    exact hb

theorem ok_of_toOption {α ε : Type} {x : Except ε α} {a : α} (h : x.toOption = some a) :
    x = .ok a := by
  cases x with
  | error e => cases h
  | ok b => exact congrArg Except.ok (Option.some.inj h)

/-- A row of steps comes to an end with what each of them comes to. -/
theorem mapM_eq_ok_iff {α β ε : Type} {f : α → Except ε β} {xs : List α} {ys : List β} :
    xs.mapM f = .ok ys ↔ List.Forall₂ (fun x y => f x = .ok y) xs ys := by
  induction xs generalizing ys with
  | nil => exact ⟨fun h => by cases h; exact .nil, fun h => by cases h; rfl⟩
  | cons x xs ih =>
    rw [List.mapM_cons]
    cases hx : f x with
    | error e => exact ⟨nofun, fun h => by cases h with | cons hy _ => rw [hx] at hy; cases hy⟩
    | ok y =>
      show (xs.mapM f >>= fun ys => pure (y :: ys)) = _ ↔ _
      constructor
      · intro h
        cases hxs : xs.mapM f with
        | error e =>
          rw [hxs] at h
          cases h
        | ok rest =>
          rw [hxs] at h
          cases h
          exact .cons hx (ih.1 hxs)
      · intro h
        cases h with
        | cons hy hrest =>
          rw [hx] at hy
          cases hy
          rw [ih.2 hrest]
          rfl

theorem exists_mapM_ok_iff {α β ε : Type} {f : α → Except ε β} {xs : List α} :
    (∃ ys, xs.mapM f = .ok ys) ↔ ∀ x ∈ xs, ∃ y, f x = .ok y := by
  simp only [mapM_eq_ok_iff]
  induction xs with
  | nil => exact iff_of_true ⟨[], .nil⟩ (by simp)
  | cons x xs ih =>
    rw [List.forall_mem_cons, ← ih]
    constructor
    · rintro ⟨_, h⟩
      cases h with
      | cons hy hrest => exact ⟨⟨_, hy⟩, _, hrest⟩
    · rintro ⟨⟨y, hy⟩, ys, hrest⟩
      exact ⟨y :: ys, .cons hy hrest⟩

theorem Problem.hasNoBrace_diagnostic (p : Problem) : hasNoBrace p.diagnostic = true :=
  hasNoBrace_iff.2 ⟨fun h => (no_brace_diagnostic h).1 rfl, fun h => (no_brace_diagnostic h).2 rfl⟩

/-- A diagnostic starts and ends with a bracket. -/
theorem Problem.diagnostic_eq (q : Problem) : ∃ d, q.diagnostic = '<' :: (d ++ ['>']) := by
  obtain ⟨h, hhead⟩ : ∃ h, diagnosticHead = '<' :: h := by
    rw [diagnosticHead, lit_ofList]
    exact ⟨_, rfl⟩
  obtain ⟨t, htail⟩ : ∃ t, diagnosticTail = t ++ ['>'] := by
    rw [diagnosticTail, lit_ofList]
    exact ⟨['<', '/', 'd', 'i', 'v'], rfl⟩
  refine ⟨h ++ Text.safe q.message ++ t, ?_⟩
  rw [diagnostic, hhead, htail]
  simp only [List.append_assoc, List.cons_append]

namespace Node

theorem hasNoBrace_showConstant (raw : Bool) (v : Value) :
    hasNoBrace (showConstant raw v) = true := by
  rw [showConstant]
  split
  · exact hasNoBrace_encodeBraces _
  · exact hasNoBrace_safe _

theorem hasNoBrace_showOutcome (raw : Bool) (o : Outcome) : hasNoBrace (showOutcome raw o) = true :=
  hasNoBrace_iff.2 ⟨fun h => (no_brace_showOutcome h).1 rfl, fun h => (no_brace_showOutcome h).2 rfl⟩

theorem hasNoBrace_showExpr {env : Surroundings} {e : Expr} {raw : Bool} {html : Text}
    (h : showExpr env e raw = .ok html) : hasNoBrace html = true := by
  rw [showExpr] at h
  split at h
  · cases h
    exact hasNoBrace_showConstant raw _
  · obtain ⟨o, -, rfl⟩ := ok_of_map h
    exact hasNoBrace_showOutcome raw o

theorem renderAll_cons_ok {maxDepth : Nat} {env : Surroundings} {n : Node} {nodes : List Node}
    {s : Text} (h : renderAll maxDepth env (n :: nodes) = .ok s) :
    ∃ a b, render maxDepth env n = .ok a ∧ renderAll maxDepth env nodes = .ok b ∧ s = a ++ b := by
  rw [renderAll] at h
  obtain ⟨a, ha, h⟩ := ok_of_bind h
  obtain ⟨b, hb, h⟩ := ok_of_bind h
  cases h
  exact ⟨a, b, ha, hb, rfl⟩

/-- What a loop writes is a row of what its body writes. -/
theorem renderLoop_ok {env : Surroundings} {body : Surroundings → Except Fault Text}
    {items : List (Value × Value)} {index : Nat} {html : Text}
    (h : renderLoop env body index items = .ok html) :
    ∃ parts : List Text, html = parts.flatten ∧ ∀ p ∈ parts, ∃ env', body env' = .ok p := by
  induction items generalizing index html with
  | nil =>
    cases h
    exact ⟨[], rfl, fun p hp => by cases hp⟩
  | cons entry rest ih =>
    obtain ⟨key, item⟩ := entry
    rw [renderLoop] at h
    obtain ⟨a, ha, h⟩ := ok_of_bind h
    obtain ⟨b, hb, h⟩ := ok_of_bind h
    cases h
    obtain ⟨parts, rfl, hparts⟩ := ih hb
    refine ⟨a :: parts, rfl, fun p hp => ?_⟩
    rcases List.mem_cons.1 hp with rfl | hp
    · exact ⟨_, ha⟩
    · exact hparts p hp

/-- A block writes the diagnostic of its depth, one of its branches in some surroundings, or its first
branch again and again. -/
theorem render_block_ok {maxDepth : Nat} {env : Surroundings} {kind : BlockKind} {param : Expr}
    {token : Text} {tooDeep : Bool} {body inverse : List Node} {html : Text}
    (h : render maxDepth env (.block kind param token tooDeep body inverse) = .ok html) :
    html = Problem.diagnostic ⟨.tooDeep maxDepth, some token⟩ ∨
      (∃ env', renderAll maxDepth env' body = .ok html) ∨
      (∃ env', renderAll maxDepth env' inverse = .ok html) ∨
      ∃ items, renderLoop env (fun env => renderAll maxDepth env body) 0 items = .ok html := by
  rw [render] at h
  split at h
  · cases h
    exact .inl rfl
  · obtain ⟨o, -, h⟩ := ok_of_bind h
    cases kind with
    | each =>
      simp only at h
      split at h
      · exact .inr (.inr (.inl ⟨env, h⟩))
      · exact .inr (.inr (.inr ⟨_, h⟩))
    | when =>
      obtain ⟨shows, -, h⟩ := ok_of_bind h
      cases shows with
      | true => exact .inr (.inl ⟨env, h⟩)
      | false => exact .inr (.inr (.inl ⟨env, h⟩))
    | «unless» =>
      obtain ⟨shows, -, h⟩ := ok_of_bind h
      cases shows with
      | true => exact .inr (.inr (.inl ⟨env, h⟩))
      | false => exact .inr (.inl ⟨env, h⟩)
    | scope =>
      obtain ⟨shows, -, h⟩ := ok_of_bind h
      cases shows with
      | true => exact .inr (.inl ⟨_, h⟩)
      | false => exact .inr (.inr (.inl ⟨env, h⟩))

mutual
/-- A node writes its literal texts and parts without braces. -/
theorem written_render {maxDepth : Nat} {env : Surroundings} {html : Text} :
    (n : Node) → render maxDepth env n = .ok html → Written n.texts html
  | .text s, h => by
    rw [render] at h
    cases h
    rw [texts]
    exact .literal List.mem_cons_self
  | .problem p, h => by
    rw [render] at h
    cases h
    exact .of_no_brace p.hasNoBrace_diagnostic
  | .shown e raw, h => by
    rw [render] at h
    exact .of_no_brace (hasNoBrace_showExpr h)
  | .block kind param token tooDeep body inverse, h => by
    rw [texts]
    rcases render_block_ok h with rfl | ⟨env', h⟩ | ⟨env', h⟩ | ⟨items, h⟩
    · exact .of_no_brace (Problem.hasNoBrace_diagnostic _)
    · exact (written_renderAll body h).mono (List.subset_append_left _ _)
    · exact (written_renderAll inverse h).mono (List.subset_append_right _ _)
    · obtain ⟨parts, rfl, hparts⟩ := renderLoop_ok h
      refine .flatten fun p hp => ?_
      obtain ⟨env', hbody⟩ := hparts p hp
      exact (written_renderAll body hbody).mono (List.subset_append_left _ _)

theorem written_renderAll {maxDepth : Nat} {env : Surroundings} {html : Text} :
    (nodes : List Node) → renderAll maxDepth env nodes = .ok html → Written (textsOf nodes) html
  | [], h => by
    rw [renderAll] at h
    cases h
    exact .of_no_brace rfl
  | n :: nodes, h => by
    obtain ⟨a, b, ha, hb, rfl⟩ := renderAll_cons_ok h
    rw [textsOf]
    exact ((written_render n ha).mono (List.subset_append_left _ _)).append
      ((written_renderAll nodes hb).mono (List.subset_append_right _ _))
end

end Node

end Tender
