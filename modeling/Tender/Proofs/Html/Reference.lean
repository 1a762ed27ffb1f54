/-
Character references that are written for single characters.

* `refers_of_safe` — what is written for a character is read back as the character, in running text
  and in the value of an attribute;
* `expandAll_safe` — so a text made safe is read back from the value of an attribute.
-/
import Tender.Html.Event
import Tender.Proofs.Text.Markup
import Tender.Proofs.Text.Scan

namespace Tender.Html

open Text

/-- A text that is read after an ampersand as the reference to a character, whatever follows it. -/
structure Refers (u : Text) (c : Char) : Prop where
  value : ∃ r : Reference, r.expand = .ok [c] ∧
    ∀ before s, Reference.find before ('&' :: u ++ s) = some (r, u.length)
  text : ∀ isLast s, stepAmpersand isLast (u ++ s) = .ok (.go [.text [c]] ⟨none, s⟩)

/-- The names that are written for characters. -/
theorem names_written :
    (expandName ['a', 'm', 'p', ';'] = ['&'] ∧ textOfName ['a', 'm', 'p'] = ['&']) ∧
    (expandName ['l', 't', ';'] = ['<'] ∧ textOfName ['l', 't'] = ['<']) ∧
    (expandName ['g', 't', ';'] = ['>'] ∧ textOfName ['g', 't'] = ['>']) := by
  decide +kernel

theorem refers_amp : Refers ['a', 'm', 'p', ';'] '&' where
  value := by
    refine ⟨.name ['a', 'm', 'p', ';'], ?_, fun _ _ => rfl⟩
    rw [Reference.expand, names_written.1.1]
  text isLast s := by
    show Except.ok (Step.go [.text (textOfName ['a', 'm', 'p'])] ⟨none, s⟩) = _
    rw [names_written.1.2]

theorem refers_lt : Refers ['l', 't', ';'] '<' where
  value := by
    refine ⟨.name ['l', 't', ';'], ?_, fun _ _ => rfl⟩
    rw [Reference.expand, names_written.2.1.1]
  text isLast s := by
    show Except.ok (Step.go [.text (textOfName ['l', 't'])] ⟨none, s⟩) = _
    rw [names_written.2.1.2]

theorem refers_gt : Refers ['g', 't', ';'] '>' where
  value := by
    refine ⟨.name ['g', 't', ';'], ?_, fun _ _ => rfl⟩
    rw [Reference.expand, names_written.2.2.1]
  text isLast s := by
    show Except.ok (Step.go [.text (textOfName ['g', 't'])] ⟨none, s⟩) = _
    rw [names_written.2.2.2]

theorem refers_quote : Refers ['#', '3', '4', ';'] '"' where
  value := ⟨.decimal ['3', '4'], rfl, fun _ _ => rfl⟩
  text _ _ := rfl

theorem refers_apostrophe : Refers ['#', '3', '9', ';'] '\'' where
  value := ⟨.decimal ['3', '9'], rfl, fun _ _ => rfl⟩
  text _ _ := rfl

theorem refers_open_brace : Refers ['#', '1', '2', '3', ';'] '{' where
  value := ⟨.decimal ['1', '2', '3'], rfl, fun _ _ => rfl⟩
  text _ _ := rfl

theorem refers_close_brace : Refers ['#', '1', '2', '5', ';'] '}' where
  value := ⟨.decimal ['1', '2', '5'], rfl, fun _ _ => rfl⟩
  text _ _ := rfl

/-- A character is made safe by leaving it as it is or by a reference to it. -/
theorem refers_of_safe (c : Char) :
    (isTextChar c = true ∧ safeChar c = [c]) ∨ ∃ u, safeChar c = '&' :: u ∧ Refers u c := by
  rcases safeChar_cases c with ⟨hamp, hmark, heq⟩ | ⟨rfl, heq⟩ | ⟨rfl, heq⟩ | ⟨rfl, heq⟩ |
    ⟨rfl, heq⟩ | ⟨rfl, heq⟩ | ⟨rfl, heq⟩ | ⟨rfl, heq⟩
  · have hlt : c ≠ '<' := by
      rintro rfl
      exact absurd hmark (by decide)
    exact .inl ⟨by simp [isTextChar, hamp, hlt], heq⟩
  · exact .inr ⟨_, by rw [heq, lit_ofList], refers_amp⟩
  · exact .inr ⟨_, by rw [heq, lit_ofList], refers_lt⟩
  · exact .inr ⟨_, by rw [heq, lit_ofList], refers_gt⟩
  · exact .inr ⟨_, by rw [heq, lit_ofList], refers_quote⟩
  · exact .inr ⟨_, by rw [heq, lit_ofList], refers_apostrophe⟩
  · exact .inr ⟨_, by rw [heq, lit_ofList], refers_open_brace⟩
  · exact .inr ⟨_, by rw [heq, lit_ofList], refers_close_brace⟩

/-! ### Values of attributes -/

theorem find_of_ne_ampersand {before : Option Char} {c : Char} {s : Text} (h : c ≠ '&') :
    Reference.find before (c :: s) = none := by
  unfold Reference.find
  split
  · rename_i heq
    exact absurd (List.cons.inj heq).1 h
  · rename_i heq
    exact absurd (List.cons.inj heq).1 h
  · rfl

theorem expandAtoms_safe (done : Text) (before : Option Char) (v : Text) :
    expandAtoms done (atomsFrom Reference.find [] before 0 (safe v)) = .ok (done.reverse ++ v) := by
  induction v generalizing done before with
  | nil => simp [safe_nil, atomsFrom, expandAtoms]
  | cons c v ih =>
    rw [safe_cons]
    rcases refers_of_safe c with ⟨htext, heq⟩ | ⟨u, heq, hrefers⟩
    · have hamp : c ≠ '&' := by
        rintro rfl
        exact absurd htext (by decide)
      rw [heq, List.singleton_append, atomsFrom_none (find_of_ne_ampersand hamp), expandAtoms, ih,
        List.reverse_cons, List.append_assoc, List.singleton_append]
    · obtain ⟨r, hr, hfind⟩ := hrefers.value
      rw [heq, atomsFrom_some (hfind before (safe v)), expandAtoms, hr]
      show expandAtoms (c :: done) _ = _
      rw [ih, List.reverse_cons, List.append_assoc, List.singleton_append]

/-- Without an ampersand nothing has been done to the text. -/
theorem safe_of_no_ampersand {v : Text} (h : '&' ∉ safe v) : safe v = v := by
  induction v with
  | nil => rfl
  | cons c v ih =>
    rw [safe_cons, List.mem_append, not_or] at h
    rcases refers_of_safe c with ⟨-, heq⟩ | ⟨u, heq, -⟩
    · rw [safe_cons, heq, ih h.2, List.singleton_append]
    · rw [heq] at h
      exact absurd List.mem_cons_self h.1

theorem expandAll_safe (v : Text) : expandAll (safe v) = .ok v := by
  rw [expandAll]
  split
  · exact expandAtoms_safe [] none v
  · rename_i hplain
    rw [safe_of_no_ampersand hplain]

end Tender.Html
