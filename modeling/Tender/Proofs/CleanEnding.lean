/-
How a command to render ends, whatever its files hold.

It ends cleanly if nothing is written and the code is one, or if the document is written where it is
wanted and the code is zero.

* `Renderer.exists_html_iff` — there is a document exactly if the estimate has a context and no page
  within the limit stops;
* `Command.Render.fails_inputs_iff`, `Command.Render.gives_inputs_iff` — when the reading of the files
  is broken off, and what it comes to otherwise;
* `Command.Render.run_clean_iff` — so a command ends cleanly exactly if nothing breaks it off;
* `Command.run_listed` — variables that are a list break it off.
-/
import Tender.Proofs.Agreement
import Tender.Proofs.Context
import Tender.Proofs.LifeCycle
import Tender.Proofs.Template.Stop

namespace Tender

/-! ### Documents -/

/-- A rendering goes through all its pages exactly if none of those within the limit stops. -/
theorem Document.renderPages_none_iff {d : Document} (hready : d.stage.Ready) {i : Nat}
    {sources : List Text} :
    (∃ d', d.renderPages i sources = (d', none)) ↔
      ∀ source ∈ sources.take (d.renderer.settings.maxPages - i),
        ¬ d.renderer.Stops source (.map d.context) := by
  induction sources generalizing d i with
  | nil => exact iff_of_true ⟨d, rfl⟩ (by simp)
  | cons source rest ih =>
    rw [renderPages_cons]
    by_cases hlimit : d.renderer.settings.maxPages ≤ i
    · rw [if_pos hlimit, Nat.sub_eq_zero_of_le hlimit]
      exact iff_of_true ⟨_, rfl⟩ (by simp)
    · have hroom : d.renderer.settings.maxPages - i =
          d.renderer.settings.maxPages - (i + 1) + 1 := by omega
      rw [if_neg hlimit, hroom, List.take_succ_cons, List.forall_mem_cons,
        ← Renderer.compilePage_ok_iff]
      cases hpage : d.renderer.compilePage source (.map d.context) with
      | error f =>
        rw [renderPage_error hready hpage]
        exact iff_of_false (fun ⟨_, h⟩ => by cases h) fun h => by cases h.1.choose_spec
      | ok html =>
        rw [renderPage_ok hready hpage, and_iff_right ⟨html, rfl⟩]
        exact ih (d := d.addPage html) (.inr rfl)

namespace Renderer

variable {r : Renderer} {template : Proposal} {e : Estimate} {mode : Mode}
variable {values : Option (Entries Text)} {today : Date}

/-- A rendering that is joined is a document. -/
theorem exists_html_iff_render :
    (∃ html, r.render template e mode values today >>= Document.html = .ok html) ↔
      ∃ d, r.render template e mode values today = .ok d := by
  constructor
  · rintro ⟨html, h⟩
    obtain ⟨d, hd, -⟩ := ok_of_bind h
    exact ⟨d, hd⟩
  · rintro ⟨d, hd⟩
    obtain ⟨d₀, -, hrun⟩ := render_ok.1 hd
    obtain ⟨d', -, rfl⟩ := Document.run_ok hrun
    rw [hd]
    exact (Document.html_ok_iff { d' with stage := .joined }).2 rfl

/-- There is a document exactly if the estimate has a context and no page within the limit stops. -/
theorem exists_html_iff :
    (∃ html, r.render template e mode values today >>= Document.html = .ok html) ↔
      ∃ context, Context.build e today r.settings = .ok context ∧
        ∀ source ∈ template.sources.take r.settings.maxPages, ¬ r.Stops source (.map context) := by
  simp only [exists_html_iff_render, render_ok, Document.start_ok]
  constructor
  · rintro ⟨d, d₀, ⟨context, hcontext, rfl⟩, hrun⟩
    obtain ⟨d', hpages, -⟩ := Document.run_ok hrun
    exact ⟨context, hcontext, (Document.renderPages_none_iff (.inl rfl)).1 ⟨d', hpages⟩⟩
  · rintro ⟨context, hcontext, hfine⟩
    let d₀ : Document := ⟨r, template.sources, e, mode, values.getD e.values, context,
      Counters.start, .notStarted, []⟩
    have hready : d₀.stage.Ready := .inl rfl
    obtain ⟨d', hpages⟩ : ∃ d', d₀.renderPages 0 d₀.sources = (d', none) :=
      (Document.renderPages_none_iff hready).2 hfine
    exact ⟨_, d₀, ⟨context, hcontext, rfl⟩, Document.run_of_pages rfl hpages
      (Document.ready_of_renderPages hready hpages)⟩

end Renderer

namespace Command

/-! ### Inputs -/

section

variable {α β : Type}

/-- An input whose reading is broken off by a fault. -/
def Input.Fails (x : Input α) : Prop := ∃ f, x.run = .error f

/-- An input that is read. -/
def Input.Gives (x : Input α) (a : α) : Prop := x.run = .ok (some a)

theorem Input.fails_bind_iff {x : Input α} {f : α → Input β} :
    (x >>= f).Fails ↔ x.Fails ∨ ∃ a, x.Gives a ∧ (f a).Fails := by
  simp only [Fails, Gives, OptionT.run_bind]
  rcases x.run with f | _ | a
  · exact iff_of_true ⟨f, rfl⟩ (.inl ⟨f, rfl⟩)
  · exact iff_of_false (fun ⟨_, h⟩ => by cases h) (by simp)
  · simp only [Except.ok.injEq, Option.some.injEq, reduceCtorEq, exists_false, false_or,
      exists_eq_left']
    rfl

theorem Input.gives_pure_iff {a b : α} : (pure a : Input α).Gives b ↔ a = b := by
  constructor
  · intro h
    cases h
    rfl
  · rintro rfl
    rfl

theorem Input.not_fails_of_run {x : Input α} {a? : Option α} (h : x.run = .ok a?) : ¬ x.Fails := by
  rintro ⟨f, hf⟩
  cases h.symm.trans hf

theorem Input.not_fails_pure (a : α) : ¬ (pure a : Input α).Fails := not_fails_of_run rfl

theorem Input.not_gives_of_error {x : Input α} {f : Fault} {a : α} (h : x.run = .error f) :
    ¬ x.Gives a := by
  intro hx
  cases h.symm.trans hx

theorem Input.not_gives_of_none {x : Input α} {a : α} (h : x.run = .ok none) : ¬ x.Gives a := by
  intro hx
  cases h.symm.trans hx

theorem Input.gives_bind_iff {x : Input α} {f : α → Input β} {b : β} :
    (x >>= f).Gives b ↔ ∃ a, x.Gives a ∧ (f a).Gives b := by
  simp only [Gives, OptionT.run_bind]
  rcases x.run with f | _ | a
  · exact iff_of_false (fun h => by cases h) (by simp)
  · exact iff_of_false (fun h => by cases h) (by simp)
  · simp only [Except.ok.injEq, Option.some.injEq, exists_eq_left']
    rfl

end

/-- A file that is named holds a value as JSON. -/
def Keeps (disk : Disk) (path? : Option Text) (v : Value) : Prop :=
  ∃ path ∈ path?, ∃ s, disk.text? path = .ok (some s) ∧ Json.read s = .ok v

/-- The reading of a file is broken off: it is not named, its bytes spell no text, or it holds an
integer of too many digits. -/
def Spoiled (disk : Disk) (path? : Option Text) : Prop :=
  ∀ path ∈ path?, (∃ problem, disk.garbled? path = some problem) ∨
    ∃ s n, disk.read? path = some s ∧ Json.read s = .error (.tooManyDigits n)

section

variable {disk : Disk} {path? : Option Text}

theorem fails_readValue_iff : (readValue disk path?).Fails ↔ Spoiled disk path? := by
  unfold Spoiled
  cases path? with
  | none => exact iff_of_true ⟨_, rfl⟩ (by simp)
  | some path =>
    simp only [Option.mem_some_iff, forall_eq', readValue, Disk.text?]
    cases hgarbled : disk.garbled? path with
    | some problem => exact iff_of_true ⟨_, rfl⟩ (.inl ⟨problem, rfl⟩)
    | none =>
      cases hfile : disk.read? path with
      | none => exact iff_of_false (Input.not_fails_of_run rfl) (by simp)
      | some s =>
        simp only [reduceCtorEq, exists_false, false_or, Option.some.injEq]
        cases hjson : Json.read s with
        | ok v => exact iff_of_false (Input.not_fails_of_run rfl) (by simp [hjson])
        | error problem =>
          cases problem with
          | noJson rest => exact iff_of_false (Input.not_fails_of_run rfl) (by simp [hjson])
          | tooManyDigits n => exact iff_of_true ⟨_, rfl⟩ ⟨s, n, rfl, hjson⟩

theorem gives_readValue_iff {v : Value} :
    (readValue disk path?).Gives v ↔ Keeps disk path? v := by
  unfold Keeps
  cases path? with
  | none => exact iff_of_false (Input.not_gives_of_error rfl) (by simp)
  | some path =>
    simp only [Option.mem_some_iff, exists_eq_left', readValue]
    rcases disk.text? path with f | _ | s
    · exact iff_of_false (Input.not_gives_of_error rfl) (by simp)
    · exact iff_of_false (Input.not_gives_of_none rfl) (by simp)
    · simp only [Except.ok.injEq, Option.some.injEq, exists_eq_left']
      rcases Json.read s with (_ | _) | w
      · exact iff_of_false (Input.not_gives_of_none rfl) (by simp)
      · exact iff_of_false (Input.not_gives_of_error rfl) (by simp)
      · exact Input.gives_pure_iff.trans (by simp)

theorem fails_readGiven_iff :
    (readGiven disk path?).Fails ↔ ∃ path ∈ path?, Spoiled disk (some path) := by
  cases path? with
  | none => exact iff_of_false (Input.not_fails_pure _) (by simp)
  | some path => simp [readGiven, fails_readValue_iff]

theorem gives_readGiven_iff {v : Value} :
    (readGiven disk path?).Gives v ↔ if path? = none then v = .null else Keeps disk path? v := by
  cases path? with
  | none => exact Input.gives_pure_iff.trans eq_comm
  | some path => simp [readGiven, gives_readValue_iff]

end

theorem fails_accept_iff {α : Type} {x : Except Fault α} :
    (accept x).Fails ↔ ∃ f : Fault, f.IsInternal ∧ x = .error f := by
  unfold accept
  split
  · exact iff_of_false (Input.not_fails_of_run rfl) (by simp)
  · rename_i cs
    refine iff_of_false (Input.not_fails_of_run rfl) ?_
    rintro ⟨f, hf, h⟩
    cases h
    exact hf cs rfl
  · rename_i f hf
    exact iff_of_true ⟨f, rfl⟩ ⟨f, fun cs h => hf cs (by rw [h]), rfl⟩

theorem gives_accept_iff {α : Type} {x : Except Fault α} {a : α} :
    (accept x).Gives a ↔ x = .ok a := by
  unfold accept
  split
  · exact Input.gives_pure_iff.trans (by simp)
  · exact iff_of_false (Input.not_gives_of_none rfl) (by simp)
  · exact iff_of_false (Input.not_gives_of_error rfl) (by simp)

theorem not_fails_accept_template (v : Value) : ¬ (accept (Proposal.read v)).Fails := by
  obtain ⟨template, h⟩ := accept_template v
  rintro ⟨f, hf⟩
  rw [h] at hf
  cases hf

theorem fails_accept_estimate_iff {v : Value} :
    (accept (Estimate.read v)).Fails ↔ ∃ es, v = .map es ∧ Estimate.Breaks es := by
  have hreads := Survey.Judges.record (fun es =>
    (Estimate.reads_ofEntries .recordType es).mono fun _ h => h.2) .recordType v
  rw [fails_accept_iff]
  obtain ⟨hbreaks, f, hf, heq⟩ | ⟨hbreaks, -, cs, -, -, heq⟩ | ⟨hbreaks, -, e, heq⟩ :=
    hreads.finish_cases
  · exact iff_of_true ⟨f, hf, heq⟩ hbreaks
  · refine iff_of_false ?_ hbreaks
    rintro ⟨f, hf, h⟩
    exact hf cs (Except.error.inj (h.symm.trans heq))
  · refine iff_of_false ?_ hbreaks
    rintro ⟨f, -, h⟩
    cases h.symm.trans heq

namespace Render

variable (r : Render) (disk : Disk)

/-- The template of a command is read and accepted. -/
def ReadsTemplate (t : Proposal) : Prop :=
  ∃ v, Keeps disk r.template v ∧ Proposal.read v = .ok t

/-- The estimate of a command is read and accepted. -/
def ReadsEstimate (e : Estimate) : Prop :=
  ∃ v, Keeps disk r.estimate v ∧ Estimate.read v = .ok e

/-- The variables of a command are read, if a file of them is named. -/
def ReadsValues (v : Value) : Prop :=
  if r.values = none then v = .null else Keeps disk r.values v

/-- The files of a command are read: it has a template, an estimate and variables. -/
structure Reads (t : Proposal) (e : Estimate) (v : Value) : Prop where
  template : r.ReadsTemplate disk t
  estimate : r.ReadsEstimate disk e
  values : r.ReadsValues disk v

variable {r disk}

theorem gives_inputs_iff {t : Proposal} {e : Estimate} {v : Value} :
    (r.inputs disk).Gives (t, e, v) ↔ r.Reads disk t e v := by
  simp only [inputs, Input.gives_bind_iff, gives_readValue_iff, gives_accept_iff,
    gives_readGiven_iff, Input.gives_pure_iff, Prod.mk.injEq]
  constructor
  · rintro ⟨vt, ht, _, hread, ve, he, _, heread, _, hv, rfl, rfl, rfl⟩
    exact ⟨⟨vt, ht, hread⟩, ⟨ve, he, heread⟩, hv⟩
  · rintro ⟨⟨vt, ht, hread⟩, ⟨ve, he, heread⟩, hv⟩
    exact ⟨vt, ht, t, hread, ve, he, e, heread, v, hv, rfl, rfl, rfl⟩

/-- What breaks the reading of the files of a command off: the file of the template, and once that is
accepted the file of the estimate or the estimate itself, and once that is accepted the file of the
variables. -/
inductive BreaksInputs (r : Render) (disk : Disk) : Prop
  | template (h : Spoiled disk r.template)
  | estimate {t : Proposal} (ht : r.ReadsTemplate disk t) (h : Spoiled disk r.estimate)
  | record {t : Proposal} {es : Entries Value} (ht : r.ReadsTemplate disk t)
      (hes : Keeps disk r.estimate (.map es)) (h : Estimate.Breaks es)
  | values {t : Proposal} {e : Estimate} {path : Text} (ht : r.ReadsTemplate disk t)
      (he : r.ReadsEstimate disk e) (hpath : path ∈ r.values) (h : Spoiled disk (some path))

theorem fails_inputs_iff : (r.inputs disk).Fails ↔ r.BreaksInputs disk := by
  simp only [inputs, Input.fails_bind_iff, gives_readValue_iff, gives_accept_iff,
    fails_readValue_iff, fails_readGiven_iff, not_fails_accept_template, fails_accept_estimate_iff,
    Input.not_fails_pure, and_false, exists_false, or_false, false_or]
  constructor
  · rintro (h | ⟨vt, hvt, t, hread, h | ⟨ve, hve, ⟨es, rfl, h⟩ | ⟨e, heread, path, hpath, h⟩⟩⟩)
    · exact .template h
    · exact .estimate ⟨vt, hvt, hread⟩ h
    · exact .record ⟨vt, hvt, hread⟩ hve h
    · exact .values ⟨vt, hvt, hread⟩ ⟨ve, hve, heread⟩ hpath h
  · intro h
    cases h with
    | template h => exact .inl h
    | estimate ht h =>
      obtain ⟨vt, hvt, hread⟩ := ht
      exact .inr ⟨vt, hvt, _, hread, .inl h⟩
    | record ht hes h =>
      obtain ⟨vt, hvt, hread⟩ := ht
      exact .inr ⟨vt, hvt, _, hread, .inr ⟨_, hes, .inl ⟨_, rfl, h⟩⟩⟩
    | values ht he hpath h =>
      obtain ⟨vt, hvt, hread⟩ := ht
      obtain ⟨ve, hve, heread⟩ := he
      exact .inr ⟨vt, hvt, _, hread, .inr ⟨ve, hve, .inr ⟨_, heread, _, hpath, h⟩⟩⟩

end Render

/-! ### The document of a command -/

theorem exists_variablesOf_iff {v : Value} :
    (∃ values, variablesOf v = .ok values) ↔ (v.isPresent = true → ∃ es, v = .map es) := by
  unfold variablesOf
  cases hpresent : v.isPresent with
  | false => exact iff_of_true ⟨none, rfl⟩ nofun
  | true =>
    cases v with
    | map es => exact iff_of_true ⟨_, rfl⟩ fun _ => ⟨es, rfl⟩
    | _ => exact iff_of_false nofun fun h => by cases (h rfl).choose_spec

namespace Render

variable {r : Render} {s : Settings} {now : Date} {t : Proposal} {e : Estimate} {v : Value}

/-- The document of a command, with the variables that were read or else those of the estimate. -/
def IsDocument (r : Render) (s : Settings) (now : Date) (t : Proposal) (e : Estimate) (v : Value)
    (html : Text) : Prop :=
  ∃ values, variablesOf v = .ok values ∧
    (Renderer.standard s).render t e (Mode.ofFlag r.editing) values (r.today.getD now) >>=
      Document.html = .ok html

theorem document_ok_iff {html : Text} :
    r.document s now t e v = .ok html ↔ r.IsDocument s now t e v html := by
  obtain ⟨wired, c, hnew, hrenderer⟩ := Components.renderer_new s
  rw [document, hnew, IsDocument, ← hrenderer]
  show (variablesOf v >>= fun values => _) = _ ↔ _
  cases variablesOf v with
  | error f =>
    refine iff_of_false (fun h => ?_) (by simp)
    cases h
  | ok values =>
    simp only [Except.ok.injEq, exists_eq_left']
    rfl

/-- A command has a document exactly if its variables are a map or nothing, its estimate has a context,
and no page within the limit stops. -/
theorem exists_document_iff :
    (∃ html, r.IsDocument s now t e v html) ↔
      (v.isPresent = true → ∃ es, v = .map es) ∧
        ∃ context, Context.build e (r.today.getD now) s = .ok context ∧
          ∀ source ∈ t.sources.take s.maxPages,
            ¬ (Renderer.standard s).Stops source (.map context) := by
  have hhtml (values : Option (Entries Text)) := @Renderer.exists_html_iff (Renderer.standard s) t e
    (Mode.ofFlag r.editing) values (r.today.getD now)
  have hsettings : (Renderer.standard s).settings = s := rfl
  rw [hsettings] at hhtml
  rw [← exists_variablesOf_iff]
  constructor
  · rintro ⟨html, values, hvalues, h⟩
    exact ⟨⟨values, hvalues⟩, (hhtml values).1 ⟨html, h⟩⟩
  · rintro ⟨⟨values, hvalues⟩, hfine⟩
    obtain ⟨html, h⟩ := (hhtml values).2 hfine
    exact ⟨html, values, hvalues, h⟩

/-! ### Endings -/

/-- How a command may end: with code one and nothing written, if a file cannot be read or is not
accepted, or else with code zero and the document where it is wanted, spelled in bytes. -/
inductive Clean (r : Render) (s : Settings) (disk : Disk) (now : Date) : Ending → Prop
  | refused (h : ∀ t e v, ¬ r.Reads disk t e v) : Clean r s disk now ⟨1, [], disk⟩
  | shown {t : Proposal} {e : Estimate} {v : Value} {html : Text} (h : r.Reads disk t e v)
      (hhtml : r.IsDocument s now t e v html) (hspelled : Text.halves? html = none)
      (hshown : r.output = none) : Clean r s disk now ⟨0, html, disk⟩
  | written {t : Proposal} {e : Estimate} {v : Value} {html path : Text} (h : r.Reads disk t e v)
      (hhtml : r.IsDocument s now t e v html) (hspelled : Text.halves? html = none)
      (hpath : r.output = some path) : Clean r s disk now ⟨0, [], disk.put path html⟩

/-- What breaks a command off: the reading of its files; then variables that are something, but no map,
an estimate without a context, or a page that stops; and of the document, halves of wide characters in
it, or a place where no file can be put. -/
inductive Breaks (r : Render) (s : Settings) (disk : Disk) (now : Date) : Prop
  | inputs (h : r.BreaksInputs disk)
  | values {t : Proposal} {e : Estimate} {v : Value} (h : r.Reads disk t e v)
      (hpresent : v.isPresent = true) (hmap : ∀ es, v ≠ .map es)
  | context {t : Proposal} {e : Estimate} {v : Value} (h : r.Reads disk t e v)
      (hcontext : ¬ Context.Buildable e)
  | page {t : Proposal} {e : Estimate} {v : Value} {context : Entries Value} {source : Text}
      (h : r.Reads disk t e v) (hcontext : Context.build e (r.today.getD now) s = .ok context)
      (hsource : source ∈ t.sources.take s.maxPages)
      (hstops : (Renderer.standard s).Stops source (.map context))
  | halves {t : Proposal} {e : Estimate} {v : Value} {html : Text} (h : r.Reads disk t e v)
      (hhtml : r.IsDocument s now t e v html) (hhalves : Text.halves? html ≠ none)
  | place {t : Proposal} {e : Estimate} {v : Value} {html path : Text} (h : r.Reads disk t e v)
      (hhtml : r.IsDocument s now t e v html) (hpath : r.output = some path)
      (hplace : disk.refusal? path ≠ none)

variable {disk : Disk} {ending : Ending}

theorem Reads.eq {t' : Proposal} {e' : Estimate} {v' : Value} (h : r.Reads disk t e v)
    (h' : r.Reads disk t' e' v') : t' = t ∧ e' = e ∧ v' = v := by
  have heq := (gives_inputs_iff.2 h').symm.trans (gives_inputs_iff.2 h)
  simpa using heq

theorem IsDocument.eq {html html' : Text} (h : r.IsDocument s now t e v html)
    (h' : r.IsDocument s now t e v html') : html' = html :=
  Except.ok.inj ((document_ok_iff.2 h').symm.trans (document_ok_iff.2 h))

/-- A clean ending on files that are read goes with a document. -/
theorem Clean.exists_document (h : r.Clean s disk now ending) (hreads : r.Reads disk t e v) :
    ∃ html, r.IsDocument s now t e v html ∧ Text.halves? html = none := by
  cases h with
  | refused h => exact absurd hreads (h t e v)
  | shown h hhtml hspelled =>
    obtain ⟨rfl, rfl, rfl⟩ := hreads.eq h
    exact ⟨_, hhtml, hspelled⟩
  | written h hhtml hspelled =>
    obtain ⟨rfl, rfl, rfl⟩ := hreads.eq h
    exact ⟨_, hhtml, hspelled⟩

/-- A command whose files are read and that nothing breaks off has a document that can be written. -/
theorem exists_document_of_not_breaks (hbreaks : ¬ r.Breaks s disk now)
    (h : r.Reads disk t e v) :
    ∃ html, r.IsDocument s now t e v html ∧ Text.halves? html = none ∧
      ∀ path, r.output = some path → disk.refusal? path = none := by
  have hmap : v.isPresent = true → ∃ es, v = .map es := fun hpresent =>
    Classical.by_contradiction fun hnone =>
      hbreaks (.values h hpresent fun es hes => hnone ⟨es, hes⟩)
  have hbuild : ∃ context, Context.build e (r.today.getD now) s = .ok context := by
    rcases Context.build_cases e (r.today.getD now) s with ⟨-, context, -, hcontext, -⟩ | ⟨hnot, -⟩
    · exact ⟨context, hcontext⟩
    · exact absurd (.context h hnot) hbreaks
  obtain ⟨context, hcontext⟩ := hbuild
  obtain ⟨html, hhtml⟩ := exists_document_iff.2 ⟨hmap, context, hcontext, fun source hsource hstops =>
    hbreaks (.page h hcontext hsource hstops)⟩
  refine ⟨html, hhtml, ?_, fun path hpath => ?_⟩
  · exact Classical.by_contradiction fun hhalves => hbreaks (.halves h hhtml hhalves)
  · exact Classical.by_contradiction fun hplace => hbreaks (.place h hhtml hpath hplace)

/-- A command whose files are read delivers its document. -/
theorem run_of_document {html : Text} (h : r.Reads disk t e v)
    (hhtml : r.IsDocument s now t e v html) : r.run s disk now = r.deliver disk html := by
  have hinputs : (r.inputs disk).run = .ok (some (t, e, v)) := gives_inputs_iff.2 h
  rw [run, hinputs]
  show r.document s now t e v >>= r.deliver disk = _
  rw [document_ok_iff.2 hhtml]
  rfl

/-- A command to render ends cleanly exactly if nothing breaks it off. -/
theorem run_clean_iff (r : Render) (s : Settings) (disk : Disk) (now : Date) :
    (∃ ending, r.run s disk now = .ok ending ∧ r.Clean s disk now ending) ↔
      ¬ r.Breaks s disk now := by
  constructor
  · rintro ⟨ending, hrun, hclean⟩ hbreaks
    cases hbreaks with
    | inputs h =>
      obtain ⟨f, hf⟩ := fails_inputs_iff.2 h
      rw [run, hf] at hrun
      cases hrun
    | values h hpresent hmap =>
      obtain ⟨html, hhtml, -⟩ := hclean.exists_document h
      obtain ⟨es, hes⟩ := (exists_document_iff.1 ⟨html, hhtml⟩).1 hpresent
      exact hmap es hes
    | context h hcontext =>
      obtain ⟨html, hhtml, -⟩ := hclean.exists_document h
      obtain ⟨-, context, hbuild, -⟩ := exists_document_iff.1 ⟨html, hhtml⟩
      exact hcontext ((Context.build_cases _ _ _).resolve_right fun hnone => hnone.2 context hbuild).1
    | page h hcontext hsource hstops =>
      obtain ⟨html, hhtml, -⟩ := hclean.exists_document h
      obtain ⟨-, context, hbuild, hfine⟩ := exists_document_iff.1 ⟨html, hhtml⟩
      cases hcontext.symm.trans hbuild
      exact hfine _ hsource hstops
    | halves h hhtml hhalves =>
      obtain ⟨html, hhtml', hspelled⟩ := hclean.exists_document h
      rw [hhtml.eq hhtml'] at hspelled
      exact hhalves hspelled
    | place h hhtml hpath hplace =>
      obtain ⟨f, hf⟩ := Option.ne_none_iff_exists'.1 hplace
      rw [run_of_document h hhtml, deliver, hpath] at hrun
      simp only [Disk.write, hf] at hrun
      cases hrun
  · intro hbreaks
    rcases hinputs : (r.inputs disk).run with f | _ | ⟨t, e, v⟩
    · exact absurd (.inputs (fails_inputs_iff.1 ⟨f, hinputs⟩)) hbreaks
    · refine ⟨⟨1, [], disk⟩, ?_, .refused fun t e v h => ?_⟩
      · rw [run, hinputs]
        rfl
      · cases hinputs.symm.trans (gives_inputs_iff.2 h)
    · have h : r.Reads disk t e v := gives_inputs_iff.1 hinputs
      obtain ⟨html, hhtml, hspelled, hplace⟩ := exists_document_of_not_breaks hbreaks h
      rw [run_of_document h hhtml, deliver]
      cases houtput : r.output with
      | none => exact ⟨_, rfl, .shown h hhtml hspelled houtput⟩
      | some path =>
        refine ⟨⟨0, [], disk.put path html⟩, ?_, .written h hhtml hspelled houtput⟩
        simp only [Disk.write_eq (hplace path houtput) hspelled]
        rfl

end Render

/-- A folder with an empty template, an empty estimate and a list where variables belong. -/
def listed : Folder where
  files :=
    [(lit "t.json", lit "\x7b\x7d"), (lit "e.json", lit "\x7b\x7d"), (lit "v.json", lit "[1]")]

/-- The line that renders them. -/
def listedLine : List Text :=
  [lit "render", lit "t.json", lit "e.json", lit "--variables", lit "v.json"]

/-- The kind of value that a run was broken off by, for want of items. -/
def wantsItems? : Except Fault Ending → Option Text
  | .error (.noItems kind) => some kind
  | _ => none

theorem eq_of_wantsItems? {x : Except Fault Ending} {kind : Text} (h : wantsItems? x = some kind) :
    x = .error (.noItems kind) := by
  unfold wantsItems? at h
  split at h
  · cases h
    rfl
  · cases h

/-- Variables that are a list are read without complaint and break the rendering off. -/
theorem run_listed : ∃ c, ofWords listedLine = .ok c ∧
    c.run listed [] Estimate.someDay = .error (.noItems (lit "list")) := by
  refine ⟨.render ⟨some (lit "t.json"), some (lit "e.json"), false, some (lit "v.json"), none, none⟩,
    by with_unfolding_all rfl, eq_of_wantsItems? (by decide +kernel)⟩

end Command
end Tender
