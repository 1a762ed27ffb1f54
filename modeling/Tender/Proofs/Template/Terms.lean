/-
Terms whose reading ends the reading of the whole template.

* `readTerms_fault_iff` — the lexemes of a tag are refused with a fault exactly if a word that breaks
  is reached where a term may come next;
* `readShown_fault_iff`, `readParameter_fault_iff` — the same for the texts of tags.
-/
import Tender.Proofs.Template.Word

namespace Tender

/-- A fold that fails has failed at one item, after the items before it. -/
theorem foldlM_error_iff {α β ε : Type} {f : β → α → Except ε β} {xs : List α} {b : β} {e : ε} :
    xs.foldlM f b = .error e ↔
      ∃ before x after c, xs = before ++ x :: after ∧ before.foldlM f b = .ok c ∧
        f c x = .error e := by
  induction xs generalizing b with
  | nil =>
    constructor
    · intro h
      cases h
    · rintro ⟨before, x, after, c, h, -⟩
      simp at h
  | cons x xs ih =>
    rw [List.foldlM_cons]
    cases hx : f b x with
    | error e' =>
      constructor
      · intro h
        exact ⟨[], x, xs, b, rfl, rfl, hx.trans h⟩
      · rintro ⟨before, y, after, c, hsplit, hbefore, hy⟩
        cases before with
        | nil =>
          obtain ⟨rfl, rfl⟩ := List.cons.inj hsplit
          cases hbefore
          rw [hx] at hy
          exact hy
        | cons z before =>
          obtain ⟨rfl, rfl⟩ := List.cons.inj hsplit
          rw [List.foldlM_cons, hx] at hbefore
          cases hbefore
    | ok d =>
      show xs.foldlM f d = .error e ↔ _
      rw [ih]
      constructor
      · rintro ⟨before, y, after, c, rfl, hbefore, hy⟩
        refine ⟨x :: before, y, after, c, rfl, ?_, hy⟩
        rw [List.foldlM_cons, hx]
        exact hbefore
      · rintro ⟨before, y, after, c, hsplit, hbefore, hy⟩
        cases before with
        | nil =>
          obtain ⟨rfl, rfl⟩ := List.cons.inj hsplit
          cases hbefore
          rw [hx] at hy
          cases hy
        | cons z before =>
          obtain ⟨rfl, rfl⟩ := List.cons.inj hsplit
          rw [List.foldlM_cons, hx] at hbefore
          exact ⟨before, y, after, c, rfl, hbefore, hy⟩

namespace Expr

variable {isHelper : Text → Bool}

theorem checkTerm_fault (frame : Frame) (f : Fault) : frame.checkTerm ≠ .error (.fault f) := by
  rw [Frame.checkTerm]
  split
  · intro h
    cases h
  · intro h
    cases h

theorem addTerm_fault_iff (m : Machine) (term : Reading Expr) :
    (∃ f, m.addTerm term = .error (.fault f)) ↔
      m.top.checkTerm = .ok () ∧ ∃ f, term = .error (.fault f) := by
  rw [Machine.addTerm]
  cases hcheck : m.top.checkTerm with
  | error e =>
    cases e with
    | problem cause => simp [Bind.bind, Except.bind]
    | fault f => exact absurd hcheck (checkTerm_fault m.top f)
  | ok u =>
    cases term with
    | error e => simp [Bind.bind, Except.bind]
    | ok e => simp [Bind.bind, Except.bind, pure, Except.pure]

/-- One lexeme is refused with a fault exactly if it is a word that breaks, where a term may come. -/
theorem step_fault_iff (isHelper : Text → Bool) (m : Machine) (l : Lexeme) :
    (∃ f, m.step isHelper l = .error (.fault f)) ↔
      m.naming = false ∧ m.top.checkTerm = .ok () ∧ ∃ w, l = .word w ∧ Breaks w := by
  unfold Machine.step
  -- where a name is due, any other lexeme is a problem and never a fault
  by_cases hnaming : m.naming = true
  · rw [if_pos hnaming]
    simp only [hnaming, Bool.true_eq_false, false_and, iff_false]
    rintro ⟨f, h⟩
    split at h
    · split at h <;> cases h
    · cases h
  · rw [if_neg hnaming]
    simp only [Bool.not_eq_true] at hnaming
    simp only [hnaming, true_and]
    cases l with
    -- only a word is read on its own; the other lexemes have been read already
    | opened =>
      cases hcheck : m.top.checkTerm with
      | error e =>
        cases e with
        | problem cause => simp [Except.map]
        | fault f => exact absurd hcheck (checkTerm_fault m.top f)
      | ok u => simp [Except.map]
    | closed =>
      simp only [reduceCtorEq, false_and, exists_false, and_false, iff_false]
      rintro ⟨f, h⟩
      split at h <;> cases h
    | quoted s =>
      simp only
      rw [addTerm_fault_iff]
      simp
    | key k =>
      simp only [reduceCtorEq, false_and, exists_false, and_false, iff_false]
      rintro ⟨f, h⟩
      split at h <;> cases h
    | word w =>
      simp only
      rw [addTerm_fault_iff, readWord_fault_iff]
      simp

/-- Whether a word that breaks is reached in lexemes where a term may come next. -/
def Broken (isHelper : Text → Bool) (lexemes : List Lexeme) : Prop :=
  ∃ before w after m, lexemes = before ++ .word w :: after ∧
    before.foldlM (Machine.step isHelper) ⟨Frame.start none, [], false⟩ = .ok m ∧
    m.naming = false ∧ m.top.checkTerm = .ok () ∧ Breaks w

theorem readTerms_fault_iff (lexemes : List Lexeme) :
    (∃ f, readTerms isHelper lexemes = .error (.fault f)) ↔ Broken isHelper lexemes := by
  have hread : (∃ f, readTerms isHelper lexemes = .error (.fault f)) ↔
      ∃ f, lexemes.foldlM (Machine.step isHelper) ⟨Frame.start none, [], false⟩ =
        .error (.fault f) := by
    rw [readTerms]
    cases lexemes.foldlM (Machine.step isHelper) ⟨Frame.start none, [], false⟩ with
    | error e => simp [Bind.bind, Except.bind]
    | ok m =>
      simp only [Bind.bind, Except.bind, reduceCtorEq, exists_false, iff_false]
      rintro ⟨f, h⟩
      split at h <;> cases h
  rw [hread]
  constructor
  · rintro ⟨f, h⟩
    obtain ⟨before, l, after, m, hsplit, hbefore, hl⟩ := foldlM_error_iff.1 h
    obtain ⟨hnaming, hcheck, w, rfl, hw⟩ := (step_fault_iff isHelper m l).1 ⟨f, hl⟩
    exact ⟨before, w, after, m, hsplit, hbefore, hnaming, hcheck, hw⟩
  · rintro ⟨before, w, after, m, hsplit, hbefore, hnaming, hcheck, hw⟩
    obtain ⟨f, hf⟩ := (step_fault_iff isHelper m (.word w)).2
      ⟨hnaming, hcheck, w, rfl, hw⟩
    exact ⟨f, foldlM_error_iff.2 ⟨before, .word w, after, m, hsplit, hbefore, hf⟩⟩

/-- Whether a word that breaks is reached in a text of terms. -/
def BrokenText (isHelper : Text → Bool) (s : Text) : Prop :=
  ∃ lexemes, Lexeme.ofText? (Text.trim s) = some lexemes ∧ Broken isHelper lexemes

theorem ofText_fault_iff (s : Text) :
    (∃ f, ofText isHelper s = .error (.fault f)) ↔ BrokenText isHelper s := by
  rw [ofText, BrokenText]
  cases Lexeme.ofText? (Text.trim s) with
  | none => simp [refuse]
  | some lexemes => simp [readTerms_fault_iff]

/-- What is done with the terms of a text refuses only with problems. -/
theorem fault_of_bind {α β : Type} {x : Reading α} {g : α → Reading β}
    (hg : ∀ a f, g a ≠ .error (.fault f)) :
    (∃ f, (x >>= g) = .error (.fault f)) ↔ ∃ f, x = .error (.fault f) := by
  cases x with
  | error e => simp [Bind.bind, Except.bind]
  | ok a =>
    simp only [reduceCtorEq, exists_false, iff_false]
    rintro ⟨f, h⟩
    exact hg a f h

theorem readShown_fault_iff (s : Text) :
    (∃ f, readShown isHelper s = .error (.fault f)) ↔ BrokenText isHelper s := by
  rw [← ofText_fault_iff, readShown]
  refine fault_of_bind fun ⟨args, options⟩ f h => ?_
  simp only at h
  split at h
  · cases h
  · split at h
    · cases h
    · split at h <;> cases h

theorem readParameter_fault_iff (s : Text) :
    (∃ f, readParameter isHelper s = .error (.fault f)) ↔ BrokenText isHelper s := by
  rw [← ofText_fault_iff, readParameter]
  refine fault_of_bind fun ⟨args, options⟩ f h => ?_
  simp only at h
  split at h <;> cases h

end Expr
end Tender
