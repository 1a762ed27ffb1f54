/-
The life of a rendering under any operations.

* `perform_steps` — an operation takes the rendering through steps that move along `Stage.next` or
  add a page, also where a page cannot be compiled;
* `Step.not_back`, `not_step_joined` — no step leads back to the start, and none on from the end;
* `run_of_compiles` — a rendering whose pages compile runs to its end, with a page for each source
  or, past the limit, a notice behind the last one;
* `Started.perform` — until it is joined, a rendering is as it was started but for its stage;
* `lifeCycle` — so all operations are lawful after any others.
-/
import Mathlib.Logic.Relation
import Tender.Proofs.Plain

namespace Tender

namespace Document

/-- What can be done with a rendering. -/
inductive Operation where
  | run
  | html
  | advance (stage : Stage)

/-- What an operation answers. -/
inductive Answer where
  | pages (pages : List Text)
  | html (html : Text)
  | moved

/-- The rendering after an operation, and the answer. -/
def perform (d : Document) : Operation → Document × Except Fault Answer
  | .run => match d.run with
    | (d', none) => (d', .ok (.pages d'.pages))
    | (d', some f) => (d', .error f)
  | .html => (d, d.html.map .html)
  | .advance stage => match d.advance stage with
    | .ok d' => (d', .ok .moved)
    | .error f => (d, .error f)

/-- The rendering after operations one after the other, whatever they answered. -/
def performAll (d : Document) (operations : List Operation) : Document :=
  operations.foldl (fun d operation => (d.perform operation).1) d

variable {d d' d₀ : Document}

/-! ### Steps -/

/-- One step of a rendering: it moves along `Stage.next`, or it adds a page or the notice that
stands for the pages past the limit. -/
inductive Step (d : Document) : Document → Prop
  | move {stage : Stage} (h : stage ∈ d.stage.next) : Step d { d with stage := stage }
  | page (h : d.stage = .binding) (html : Text) : Step d (d.addPage html)
  | notice (h : d.stage.Ready) : Step d d.addNotice

/-- No step leads back to the start. -/
theorem Step.not_back (h : Step d d') (hstarted : d.stage ≠ .notStarted) :
    d'.stage ≠ .notStarted := by
  cases h with
  | move h =>
    rintro rfl
    revert h
    cases d.stage <;> decide
  | page => exact Stage.noConfusion
  | notice => exact hstarted

/-- No step leads on from the end. -/
theorem not_step_joined (hjoined : d.stage = .joined) : ¬ Step d d' := by
  intro h
  cases h with
  | move h =>
    rw [hjoined] at h
    cases h
  | page h =>
    rw [hjoined] at h
    cases h
  | notice h =>
    rw [hjoined] at h
    rcases h with h | h <;> cases h

theorem not_back_of_steps (h : Relation.ReflTransGen Step d d') (hstarted : d.stage ≠ .notStarted) :
    d'.stage ≠ .notStarted := by
  induction h with
  | refl => exact hstarted
  | tail _ hstep ih => exact hstep.not_back ih

theorem eq_of_steps_joined (h : Relation.ReflTransGen Step d d') (hjoined : d.stage = .joined) :
    d' = d := by
  rcases Relation.ReflTransGen.cases_head h with heq | ⟨_, hstep, -⟩
  · exact heq.symm
  · exact absurd hstep (not_step_joined hjoined)

theorem step_compiling (hready : d.stage.Ready) : Step d { d with stage := .compiling } := by
  refine .move ?_
  rcases hready with h | h <;> rw [h] <;> decide

theorem steps_addPage (hready : d.stage.Ready) (html : Text) :
    Relation.ReflTransGen Step d (d.addPage html) :=
  ((Relation.ReflTransGen.single (step_compiling hready)).tail
    (.move (List.mem_singleton_self Stage.binding))).tail (.page rfl html)

theorem renderPages_steps (hready : d.stage.Ready) (i : Nat) (sources : List Text) :
    Relation.ReflTransGen Step d (d.renderPages i sources).1 := by
  induction sources generalizing d i with
  | nil => exact .refl
  | cons source rest ih =>
    rw [renderPages_cons]
    split
    · exact .single (.notice hready)
    · cases hpage : d.renderer.compilePage source (.map d.context) with
      | error f =>
        rw [renderPage_error hready hpage]
        exact .single (step_compiling hready)
      | ok html =>
        rw [renderPage_ok hready hpage]
        exact (steps_addPage hready html).trans (ih (d := d.addPage html) (.inr rfl) (i + 1))

theorem ready_of_renderPages (hready : d.stage.Ready) {i : Nat} {sources : List Text}
    (h : d.renderPages i sources = (d', none)) : d'.stage.Ready := by
  induction sources generalizing d i with
  | nil =>
    cases h
    exact hready
  | cons source rest ih =>
    rw [renderPages_cons] at h
    split at h
    · cases h
      exact hready
    · cases hpage : d.renderer.compilePage source (.map d.context) with
      | error f =>
        rw [renderPage_error hready hpage] at h
        cases h
      | ok html =>
        rw [renderPage_ok hready hpage] at h
        exact ih (d := d.addPage html) (.inr rfl) h

theorem step_joined (hready : d.stage.Ready) : Step d { d with stage := .joined } := by
  refine .move ?_
  rcases hready with h | h <;> rw [h] <;> decide

theorem run_steps (d : Document) : Relation.ReflTransGen Step d d.run.1 := by
  by_cases hstart : d.stage = .notStarted
  · have hsteps := renderPages_steps (.inl hstart) 0 d.sources
    rcases hpages : d.renderPages 0 d.sources with ⟨d', f | f⟩
    · rw [hpages] at hsteps
      have hready := ready_of_renderPages (.inl hstart) hpages
      rw [run_of_pages hstart hpages hready]
      exact hsteps.tail (step_joined hready)
    · rw [hpages] at hsteps
      rw [run, if_neg (not_not_intro hstart), hpages]
      exact hsteps
  · rw [run_again hstart]

/-- Every operation takes a rendering through steps. -/
theorem perform_steps (d : Document) (operation : Operation) :
    Relation.ReflTransGen Step d (d.perform operation).1 := by
  cases operation with
  | run =>
    have hsteps := d.run_steps
    rw [perform]
    rcases hrun : d.run with ⟨d', f | f⟩
    · rwa [hrun] at hsteps
    · rwa [hrun] at hsteps
  | html => exact .refl
  | advance stage =>
    rw [perform, advance]
    split
    · rename_i h
      split at h
      · cases h
        rename_i hnext
        exact .single (.move hnext)
      · cases h
    · exact .refl

theorem performAll_steps (d : Document) (operations : List Operation) :
    Relation.ReflTransGen Step d (d.performAll operations) := by
  induction operations generalizing d with
  | nil => exact .refl
  | cons operation rest ih => exact (d.perform_steps operation).trans (ih _)

/-! ### Running -/

/-- Pages that compile are all rendered; past the limit there is one more, the notice. -/
theorem renderPages_of_compiles {i : Nat} {sources : List Text} (hready : d.stage.Ready)
    (hcompile : ∀ source ∈ sources, ∃ html,
      d.renderer.compilePage source (.map d.context) = .ok html)
    (hi : i ≤ d.renderer.settings.maxPages) :
    ∃ d', d.renderPages i sources = (d', none) ∧ d'.pages.length = d.pages.length +
      if i + sources.length ≤ d.renderer.settings.maxPages then sources.length
      else d.renderer.settings.maxPages - i + 1 := by
  induction sources generalizing d i with
  | nil => exact ⟨d, rfl, by rw [List.length_nil, Nat.add_zero, if_pos hi, Nat.add_zero]⟩
  | cons source rest ih =>
    rw [renderPages_cons]
    by_cases hlimit : d.renderer.settings.maxPages ≤ i
    · refine ⟨d.addNotice, if_pos hlimit, ?_⟩
      rw [List.length_cons, if_neg (by omega), Nat.sub_eq_zero_of_le hlimit]
      exact List.length_append
    · obtain ⟨html, hpage⟩ := hcompile source List.mem_cons_self
      obtain ⟨d', hd', hlength⟩ := ih (d := d.addPage html) (i := i + 1) (.inr rfl)
        (fun t ht => hcompile t (List.mem_cons_of_mem source ht)) (Nat.lt_of_not_le hlimit)
      have hadded : (d.addPage html).pages.length = d.pages.length + 1 := List.length_append
      have hsettings : (d.addPage html).renderer = d.renderer := rfl
      refine ⟨d', ?_, ?_⟩
      · rw [if_neg hlimit, renderPage_ok hready hpage]
        exact hd'
      · rw [hlength, hadded, hsettings, List.length_cons]
        split <;> split <;> omega

/-- A rendering whose pages compile runs to its end. -/
theorem run_of_compiles (hstart : d.stage = .notStarted) (hpages : d.pages = [])
    (hcompile : ∀ source ∈ d.sources, ∃ html,
      d.renderer.compilePage source (.map d.context) = .ok html) :
    ∃ d', d.run = (d', none) ∧ d.SameInputs d' ∧ d'.stage = .joined ∧ d'.pages.length =
      if d.sources.length ≤ d.renderer.settings.maxPages then d.sources.length
      else d.renderer.settings.maxPages + 1 := by
  obtain ⟨d', hd', hlength⟩ := renderPages_of_compiles (.inl hstart) hcompile (Nat.zero_le _)
  have hinputs := renderPages_sameInputs (.inl hstart) 0 d.sources
  rw [hd'] at hinputs
  rw [hpages, List.length_nil, Nat.zero_add, Nat.zero_add, Nat.sub_zero] at hlength
  exact ⟨_, run_of_pages hstart hd' (ready_of_renderPages (.inl hstart) hd'), hinputs, rfl, hlength⟩

/-! ### Between operations -/

/-- A rendering that has not started: it has no pages. -/
structure Fresh (d : Document) : Prop where
  stage : d.stage = .notStarted
  pages : d.pages = []

/-- What a fresh rendering can have become: it is joined, or only its stage has moved. -/
structure Started (d₀ d : Document) : Prop where
  inputs : d₀.SameInputs d
  untouched : d.stage ≠ .joined → d = { d₀ with stage := d.stage }

theorem Started.refl (d : Document) : d.Started d :=
  ⟨⟨rfl, rfl, rfl, rfl, rfl, rfl⟩, fun _ => rfl⟩

theorem Started.eq (hfresh : d₀.Fresh) (h : d₀.Started d) (hstart : d.stage = .notStarted) :
    d = d₀ := by
  have heq := h.untouched (by rw [hstart]; exact Stage.noConfusion)
  rw [hstart, ← hfresh.stage] at heq
  exact heq

variable (hfresh : d₀.Fresh) (hcompile : ∀ source ∈ d₀.sources, ∃ html,
  d₀.renderer.compilePage source (.map d₀.context) = .ok html)

include hfresh hcompile

theorem Started.perform (h : d₀.Started d) (operation : Operation) :
    d₀.Started (d.perform operation).1 := by
  cases operation with
  | run =>
    rw [Document.perform]
    by_cases hstart : d.stage = .notStarted
    · obtain rfl := h.eq hfresh hstart
      obtain ⟨d', hrun, hinputs, hjoined, -⟩ := run_of_compiles hstart hfresh.pages hcompile
      rw [hrun]
      exact ⟨hinputs, fun hne => absurd hjoined hne⟩
    · rw [run_again hstart]
      exact h
  | html => exact h
  | advance stage =>
    rw [Document.perform, advance]
    split
    · rename_i d' hstep
      split at hstep
      · rename_i hnext
        cases hstep
        -- a stage that leads on is not the last one
        have hne : d.stage ≠ .joined := by
          intro hjoined
          rw [hjoined] at hnext
          cases hnext
        refine ⟨h.inputs, fun _ => ?_⟩
        rw [h.untouched hne]
      · cases hstep
    · exact h

theorem Started.performAll (h : d₀.Started d) (operations : List Operation) :
    d₀.Started (d.performAll operations) := by
  induction operations generalizing d with
  | nil => exact h
  | cons operation rest ih => exact ih (h.perform hfresh hcompile operation)

omit hfresh hcompile

/-- What the operations do with a rendering that was started as `d₀` and has become `d`. -/
structure Lawful (d₀ d : Document) : Prop where
  inputs : d₀.SameInputs d
  /-- The stage only moves along `Stage.next`. -/
  moves : ∀ operation, Relation.ReflTransGen Step d (d.perform operation).1
  /-- The start is never reached again. -/
  started : d.stage ≠ .notStarted → ∀ later, (d.performAll later).stage ≠ .notStarted
  /-- At the start the rendering runs to its end, and answers its pages. -/
  run : d.stage = .notStarted → ∃ d', d.perform .run = (d', .ok (.pages d'.pages)) ∧
    d'.stage = .joined ∧ d'.pages.length =
      if d₀.sources.length ≤ d₀.renderer.settings.maxPages then d₀.sources.length
      else d₀.renderer.settings.maxPages + 1
  /-- At any other stage it does not run. -/
  run_again : d.stage ≠ .notStarted → d.perform .run = (d, .error .alreadyRun)
  /-- At the end there is a document, the pages with the marker between them. -/
  html : d.stage = .joined → d.perform .html =
    (d, .ok (.html (Text.joinWith d₀.renderer.settings.pageBreakMarker d.pages)))
  /-- At any other stage there is none. -/
  no_html : d.stage ≠ .joined → d.perform .html = (d, .error .notRun)
  /-- An operation that fails changes nothing. -/
  failed : ∀ operation f, (d.perform operation).2 = .error f → (d.perform operation).1 = d
  /-- At the end no operation changes anything. -/
  last : d.stage = .joined → ∀ operation, (d.perform operation).1 = d

include hfresh hcompile

/-- After any operations on a fresh rendering whose pages compile, all operations are lawful. -/
theorem lifeCycle (earlier : List Operation) : d₀.Lawful (d₀.performAll earlier) := by
  have hheld := (Started.refl d₀).performAll hfresh hcompile earlier
  generalize d₀.performAll earlier = d at hheld
  have hrun : d.stage = .notStarted → ∃ d', d.perform .run = (d', .ok (.pages d'.pages)) ∧
      d'.stage = .joined ∧ d'.pages.length =
        if d₀.sources.length ≤ d₀.renderer.settings.maxPages then d₀.sources.length
        else d₀.renderer.settings.maxPages + 1 := by
    intro hstart
    obtain rfl := hheld.eq hfresh hstart
    obtain ⟨d', hrun, -, hend⟩ := run_of_compiles hstart hfresh.pages hcompile
    exact ⟨d', by rw [perform, hrun], hend⟩
  have hagain : d.stage ≠ .notStarted → d.perform .run = (d, .error .alreadyRun) := by
    intro hstarted
    rw [perform, Document.run_again hstarted]
  refine ⟨hheld.inputs, d.perform_steps, fun hstarted later =>
    not_back_of_steps (d.performAll_steps later) hstarted, hrun, hagain, ?_, ?_, ?_, fun hjoined
    operation => eq_of_steps_joined (d.perform_steps operation) hjoined⟩
  · intro hjoined
    rw [perform, Document.html, if_pos hjoined, hheld.inputs.1]
    rfl
  · intro hopen
    rw [perform, Document.html, if_neg hopen]
    rfl
  · intro operation f hf
    cases operation with
    | run =>
      by_cases hstart : d.stage = .notStarted
      · obtain ⟨d', hok, -⟩ := hrun hstart
        rw [hok] at hf
        cases hf
      · rw [hagain hstart]
    | html => rfl
    | advance stage =>
      rw [perform] at hf ⊢
      split
      · rename_i hstep
        rw [hstep] at hf
        cases hf
      · rfl

omit hfresh hcompile

/-- A rendering of two pages, of which one is within the limit. -/
def twoPages : Document :=
  ⟨Renderer.standard {maxPages := 1}, [lit "\x7b\x7bcustomText\x7d\x7d", lit "b"], default, .view,
    [], [], Counters.start, .notStarted, []⟩

/-- Neither a request for the document that comes too early nor a move that is not allowed keeps it
from running. -/
theorem lifeCycle_twoPages : twoPages.Fresh ∧
    ∃ d, (twoPages.performAll [.html, .advance .binding]).perform .run = (d, .ok (.pages d.pages)) ∧
      d.stage = .joined ∧ d.pages.length = 2 := by
  have hfresh : twoPages.Fresh := ⟨rfl, rfl⟩
  have hall : (twoPages.sources.all fun source =>
      (twoPages.renderer.compilePage source (.map twoPages.context)).toBool) = true := by
    decide +kernel
  have hlawful := lifeCycle hfresh
    (fun source hsource => exists_ok_of_toBool (List.all_eq_true.1 hall source hsource))
    [.html, .advance .binding]
  exact ⟨hfresh, hlawful.run rfl⟩

end Document
end Tender
