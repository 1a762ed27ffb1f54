/-
Command lines that spell a command out.

* `CommandLine.items_place`, `CommandLine.items_switch` — a plain word fills a place, and a switch
  with a value takes the plain word after it;
* `Command.ofWords_render` — the line that renders a template and an estimate with the variables of
  a file on a day.
-/
import Tender.Command.Basic

namespace Tender

namespace CommandLine

variable {σ : Type} {form : Form σ} {w : Text}

theorem ne_dashes_of_isPlain (hdashes : (Word.read form.switches dashes).isPlain = false)
    (h : (Word.read form.switches w).isPlain = true) : w ≠ dashes := by
  rintro rfl
  rw [hdashes] at h
  cases h

theorem read_eq_plain (h : (Word.read form.switches w).isPlain = true) :
    Word.read form.switches w = .plain := by
  cases hread : Word.read form.switches w with
  | plain => rfl
  | _ =>
    rw [hread] at h
    cases h

/-- A plain word fills the next place. -/
theorem items_place (hw : w ≠ dashes) (h : (Word.read form.switches w).isPlain = true)
    (places : Nat) (filled : Bool) (rest : List Text) :
    items form (places + 1) filled (w :: rest) = .place (some w) :: items form places true rest := by
  rw [items, if_neg hw, read_eq_plain h]

/-- A switch that is written in full takes the plain word after it for its value. -/
theorem items_switch {name : Text} {s : σ} (hname : name ≠ dashes)
    (hread : Word.read form.switches name = .switch name s none) (hvalued : form.valued s = true)
    (hw : w ≠ dashes) (h : (Word.read form.switches w).isPlain = true) (places : Nat)
    (filled : Bool) (rest : List Text) :
    items form places filled (name :: w :: rest) =
      .switch s (some w) :: items form places false rest := by
  have hitems : switchItems form name s none (w :: rest) = ([.switch s (some w)], rest) := by
    show close form [] s (w :: rest) = _
    rw [close, if_pos hvalued]
    exact if_pos ⟨hw, h⟩
  rw [items.eq_def]
  simp only [if_neg hname, hread, hitems]
  rfl

end CommandLine

namespace Command

open CommandLine

/-- A word that stands for itself in the line after `render`. -/
def Render.IsPlain (w : Text) : Prop :=
  (Word.read renderForm.switches w).isPlain = true

instance (w : Text) : Decidable (Render.IsPlain w) :=
  inferInstanceAs (Decidable (_ = true))

theorem Render.IsPlain.ne_dashes {w : Text} (h : Render.IsPlain w) : w ≠ dashes :=
  ne_dashes_of_isPlain (by decide +kernel) h

theorem Render.IsPlain.not_ambiguous {w : Text} (h : Render.IsPlain w) :
    (Word.read renderForm.switches w).isAmbiguous = false := by
  rw [read_eq_plain h]
  rfl

/-- The line that renders a template and an estimate with the variables of a file on a day. -/
def Render.line (template estimate values day : Text) : List Text :=
  [lit "render", template, estimate, lit "--variables", values, lit "--today", day]

/-- The command to render the files at these paths on a day, and to show the document. -/
def Render.ofPaths (template estimate values : Text) (day : Date) : Render :=
  ⟨some (Text.normalPath template), some (Text.normalPath estimate), false,
    some (Text.normalPath values), some day, none⟩

variable {template estimate values day : Text} {d : Date}

theorem read_line (ht : Render.IsPlain template) (he : Render.IsPlain estimate)
    (hv : Render.IsPlain values) (hd : Render.IsPlain day) :
    CommandLine.read renderForm [template, estimate, lit "--variables", values, lit "--today", day] =
      [.place (some template), .place (some estimate), .switch .values (some values),
        .switch .today (some day)] := by
  have hvariables : Word.read renderForm.switches (lit "--variables") =
      .switch (lit "--variables") .values none :=
    read_name (by decide +kernel) (by decide +kernel)
  have htoday : Word.read renderForm.switches (lit "--today") =
      .switch (lit "--today") .today none :=
    read_name (by decide +kernel) (by decide +kernel)
  have hvariables' : lit "--variables" ≠ dashes := by decide +kernel
  have htoday' : lit "--today" ≠ dashes := by decide +kernel
  rw [CommandLine.read, if_neg]
  · rw [show renderForm.places = 1 + 1 from rfl, items_place ht.ne_dashes ht,
      show 1 = 0 + 1 from rfl, items_place he.ne_dashes he,
      items_switch hvariables' hvariables rfl hv.ne_dashes hv,
      items_switch htoday' htoday rfl hd.ne_dashes hd, items_nil]
  · rw [Bool.not_eq_true, List.any_eq_false]
    intro w hw
    have hw := (List.takeWhile_sublist _).subset hw
    simp only [List.mem_cons, List.not_mem_nil, or_false] at hw
    rw [Bool.not_eq_true]
    rcases hw with rfl | rfl | rfl | rfl | rfl | rfl
    · exact ht.not_ambiguous
    · exact he.not_ambiguous
    · rw [hvariables]
      rfl
    · exact hv.not_ambiguous
    · rw [htoday]
      rfl
    · exact hd.not_ambiguous

/-- The line is read as the command to render the files. -/
theorem ofWords_render (hplain : ∀ w ∈ [template, estimate, values, day], Render.IsPlain w)
    (hday : Iso.readDate? day = some d) :
    ofWords (Render.line template estimate values day) =
      .ok (.render (Render.ofPaths template estimate values d)) := by
  simp only [List.forall_mem_cons] at hplain
  obtain ⟨ht, he, hv, hd, -⟩ := hplain
  have hword : Word.read helpSwitches (lit "render") = .plain :=
    read_plain _ (by decide +kernel)
  have hdashes : lit "render" ≠ dashes := by decide +kernel
  have hrender : ofRender [template, estimate, lit "--variables", values, lit "--today", day] =
      .ok (.render (Render.ofPaths template estimate values d)) := by
    rw [ofRender, fill, read_line ht he hv hd]
    simp only [gather, Render.set, hday]
    rfl
  rw [ofWords, Render.line, ofWordsFrom, if_neg hdashes, hword]
  show (named (lit "render") _ >>= fun c => _) = _
  rw [named, if_pos rfl, hrender]
  rfl

end Command
end Tender
