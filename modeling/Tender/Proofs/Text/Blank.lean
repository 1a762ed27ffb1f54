/-
Blanks at the ends of a text.

* `trimStart_isSuffix`, `trimEnd_isPrefix` — what is left stands in the text;
* `trimStart_append`, `trimEnd_append` — a character that is no blank keeps the blanks behind it;
* `trimStart_of_head` — a text that starts with no blank keeps its start;
* `trim_trimEnd` — the blanks at the end of a text do not matter to what is between its blanks.
-/
import Mathlib.Data.List.DropRight
import Tender.Text.Blank

namespace Tender.Text

variable {c : Char}

theorem trimStart_isSuffix (s : Text) : trimStart s <:+ s := List.dropWhile_suffix _

theorem trimEnd_isPrefix (s : Text) : trimEnd s <+: s := by
  rw [trimEnd, ← List.reverse_suffix, List.reverse_reverse]
  exact List.dropWhile_suffix _

theorem trimEnd_trimEnd (s : Text) : trimEnd (trimEnd s) = trimEnd s := by
  rw [trimEnd, trimEnd, List.reverse_reverse, List.dropWhile_idempotent]

theorem trimStart_append (hc : isBlank c = false) (s t : Text) :
    trimStart (s ++ c :: t) = trimStart s ++ c :: t := by
  rw [trimStart, trimStart, List.dropWhile_append]
  split
  · rename_i hnil
    rw [List.isEmpty_iff.1 hnil, List.dropWhile_cons_of_neg (by simp [hc])]
    rfl
  · rfl

theorem trimEnd_append (hc : isBlank c = false) (s t : Text) :
    trimEnd (s ++ c :: t) = s ++ c :: trimEnd t := by
  have h := trimStart_append hc t.reverse s.reverse
  rw [trimStart, trimStart] at h
  rw [trimEnd, trimEnd, List.reverse_append, List.reverse_cons, List.append_assoc,
    List.singleton_append, h]
  simp

/-- A text of blanks, or a text around a character that is no blank. -/
theorem blank_or_append (s : Text) : (∀ x ∈ s, isBlank x = true) ∨
    ∃ u x v, s = u ++ x :: v ∧ isBlank x = false := by
  by_cases h : ∀ x ∈ s, isBlank x = true
  · exact .inl h
  · push Not at h
    obtain ⟨x, hx, hblank⟩ := h
    obtain ⟨u, v, rfl⟩ := List.append_of_mem hx
    exact .inr ⟨u, x, v, rfl, by simpa using hblank⟩

theorem trimStart_eq_nil {s : Text} (h : ∀ x ∈ s, isBlank x = true) : trimStart s = [] :=
  List.dropWhile_eq_nil_iff.2 h

theorem trimEnd_eq_nil {s : Text} (h : ∀ x ∈ s, isBlank x = true) : trimEnd s = [] := by
  rw [trimEnd, List.reverse_eq_nil_iff]
  exact trimStart_eq_nil fun x hx => h x (List.mem_reverse.1 hx)

theorem trimStart_append_of_blank {w : Text} (hw : ∀ x ∈ w, isBlank x = true) (s : Text) :
    trimStart (w ++ s) = trimStart s :=
  List.dropWhile_append_of_pos hw

/-- A text that starts with no blank loses none there. -/
theorem trimStart_of_head {s : Text} (h : ∀ x, s.head? = some x → isBlank x = false) :
    trimStart s = s := by
  cases s with
  | nil => rfl
  | cons x s => exact trimStart_append (h x rfl) [] s

/-- The blanks at the end of a text do not matter to what it is between its blanks. -/
theorem trim_trimEnd (s : Text) : trim (trimEnd s) = trim s := by
  rcases blank_or_append s with h | ⟨u, x, v, rfl, hx⟩
  · rw [trim, trim, trimEnd_eq_nil h, trimStart_eq_nil h]
    rfl
  · rw [trim, trim, trimEnd_append hx, trimStart_append hx, trimStart_append hx,
      trimEnd_append hx, trimEnd_append hx, trimEnd_trimEnd]

/-- The blanks at the end of a text are those of what it ends in, unless that is blank. -/
theorem trimEnd_append_right {s t : Text} (h : trim t ≠ []) :
    trimEnd (s ++ t) = s ++ trimEnd t := by
  rcases blank_or_append t with hblank | ⟨u, x, v, rfl, hx⟩
  · rw [trim, trimStart_eq_nil hblank] at h
    exact absurd rfl h
  · rw [← List.append_assoc, trimEnd_append hx, trimEnd_append hx, List.append_assoc]

theorem trim_cons (hc : isBlank c = false) (s : Text) : trim (c :: s) = c :: trimEnd s := by
  have hstart : trimStart (c :: s) = c :: s := trimStart_append hc [] s
  rw [trim, hstart]
  exact trimEnd_append hc [] s

/-- A text without blanks is not trimmed. -/
theorem trim_of_not_blank {s : Text} (h : ∀ x ∈ s, isBlank x = false) : trim s = s := by
  have hstart {t : Text} (ht : ∀ x ∈ t, isBlank x = false) : t.dropWhile isBlank = t := by
    cases t with
    | nil => rfl
    | cons x t => exact List.dropWhile_cons_of_neg (by simp [ht x List.mem_cons_self])
  rw [trim, trimStart, hstart h, trimEnd, hstart fun x hx => h x (List.mem_reverse.1 hx),
    List.reverse_reverse]

end Tender.Text
