/-
The commands and the service bind the same variables.

* `Components.renderer_new` — an application renders with the standard renderer of its settings;
* `Command.run_line` — what the line that renders a template and an estimate with the variables of a
  file shows;
* `Service.answer_generate` — what a request for the final document is answered with;
* `Service.generate_agrees` — both are the same rendering, but a map without variables leaves the
  command to the estimate's own.
-/
import Tender.Proofs.CommandLine
import Tender.Proofs.Plain
import Tender.Proofs.Record.Shape
import Tender.Proofs.Template.Written

namespace Tender

/-- An application renders with the standard renderer of its settings. -/
theorem Components.renderer_new (s : Settings) : ∃ r c, (Components.new s).renderer = .ok (r, c) ∧
    r.component.renderer = Renderer.standard s := by
  have hcompiler : (new s).compiler compilerKind = .ok (⟨1, Compiler.standard s⟩,
      ⟨s, 2, some ⟨0, Guard.standard⟩, some ⟨1, Compiler.standard s⟩, none⟩) := by
    rw [compiler]
    show (if compilerKind = compilerKind then _ else _) = _
    rw [if_pos rfl]
    show (Compiler.new s Token.names >>= fun k => _) = _
    rw [Compiler.new_eq]
    rfl
  refine ⟨⟨2, Renderer.standard s, 1, 0⟩, ?_, ?_, rfl⟩
  rotate_left
  · show ((new s).compiler compilerKind >>= fun p => _) = _
    rw [hcompiler]
    rfl

/-- Variables that are not given are the estimate's own. -/
theorem Renderer.render_none (r : Renderer) (template : Proposal) (e : Estimate) (mode : Mode)
    (today : Date) :
    r.render template e mode none today = r.render template e mode (some e.values) today := rfl

/-! ### The command -/

namespace Command

/-- A file of a folder that holds a value. -/
def Holds (folder : Folder) (path : Text) (v : Value) : Prop :=
  ∃ s, folder.read? (Text.normalPath path) = some s ∧ Json.read s = .ok v

theorem Holds.run {folder : Folder} {path : Text} {v : Value} (h : Holds folder path v) :
    (readValue folder (some (Text.normalPath path))).run = .ok (some v) := by
  obtain ⟨s, hfile, hjson⟩ := h
  exact run_readValue hfile hjson

/-- A map of texts gives its entries; one without entries gives nothing. -/
theorem variablesOf_textMap (values : Entries Text) :
    variablesOf (Estimate.textMap values) = .ok (if values = [] then none else some values) := by
  cases values with
  | nil => rfl
  | cons v values =>
    have htexts : ((v :: values).map fun p => (p.1, Value.text p.2)).map
        (fun p => (p.1, p.2.toText)) = v :: values := by
      rw [List.map_map]
      exact List.map_id _
    exact congrArg (fun es => Except.ok (some es)) htexts

section

variable {folder : Folder} {template estimate values day : Text} {vt ve : Value}
variable {t : Proposal} {e : Estimate} {given : Entries Text}

theorem Render.inputs_ofPaths (ht : Holds folder template vt) (he : Holds folder estimate ve)
    (hv : Holds folder values (Estimate.textMap given)) (htread : Proposal.read vt = .ok t)
    (heread : Estimate.read ve = .ok e) (d : Date) :
    ((Render.ofPaths template estimate values d).inputs folder).run =
      .ok (some (t, e, Estimate.textMap given)) := by
  rw [Render.inputs, Render.ofPaths, run_bind_of_some ht.run, htread]
  show (readValue folder (some (Text.normalPath estimate)) >>= _).run = _
  rw [run_bind_of_some he.run, heread]
  show (readValue folder (some (Text.normalPath values)) >>= _).run = _
  rw [run_bind_of_some hv.run]
  rfl

/-- The line shows the document with the variables of the file, or with the estimate's own if the
file has none. -/
theorem run_line {s : Settings} {environment : Entries Text} {d : Date}
    (hsettings : settings folder environment = .ok s) (ht : Holds folder template vt)
    (he : Holds folder estimate ve) (hv : Holds folder values (Estimate.textMap given))
    (htread : Proposal.read vt = .ok t) (heread : Estimate.read ve = .ok e) (now : Date) :
    (Command.render (Render.ofPaths template estimate values d)).run folder environment now =
      ((Renderer.standard s).render t e .view
        (some (if given = [] then e.values else given)) d >>= Document.html).map
          fun html => ⟨0, html, folder⟩ := by
  have hgiven : (Renderer.standard s).render t e .view (if given = [] then none else some given) d =
      (Renderer.standard s).render t e .view (some (if given = [] then e.values else given)) d := by
    by_cases hempty : given = []
    · rw [if_pos hempty, if_pos hempty, Renderer.render_none]
    · rw [if_neg hempty, if_neg hempty]
  obtain ⟨wired, c, hnew, hrenderer⟩ := Components.renderer_new s
  rw [run, hsettings]
  show Render.run _ s folder now = _
  rw [Render.run, Render.inputs_ofPaths ht he hv htread heread]
  show (Render.document _ s now t e _ >>= fun html => Except.ok (⟨0, html, folder⟩ : Ending)) = _
  rw [Render.document, hnew, variablesOf_textMap]
  show ((wired.component.renderer.render t e .view _ d >>= Document.html) >>= _) = _
  rw [hrenderer, hgiven]
  cases (Renderer.standard s).render t e .view _ d >>= Document.html <;> rfl

end

end Command

/-! ### The service -/

namespace Service

/-- The field of a form that the values of variables are in. -/
def variablesField : Field := .keyed "customVariables" "custom_variables"

/-- A request for the final document of a template and an estimate, with values of variables. -/
structure Request.Generates (r : Request) (vt ve : Value) (given : Entries Text) : Prop where
  route : Route.ofPath? r.path = some .generate
  method : r.method.map Char.toUpper = lit "POST"
  body : ∃ form, r.body.read = .ok (some (.map form)) ∧
    Entries.get? (Field.plain "template").key form = some vt ∧
    Entries.get? estimateField.key form = some ve ∧
    Entries.get? variablesField.key form = some (Estimate.textMap given)

theorem under_ok {α : Type} {s : Survey α} {a : α} (h : s [] = .ok (a, [])) (step : Text)
    (noted : List Complaint) : Survey.under step s noted = .ok (a, noted) := by
  rw [Survey.under, h]
  exact congrArg (fun cs => Except.ok (a, cs)) (List.append_nil noted)

theorem readTexts_texts (given : Entries Text) (noted : List Complaint) :
    readTexts (given.map fun (k, s) => (k, .text s)) noted = .ok (given, noted) := by
  induction given with
  | nil => rfl
  | cons v given ih =>
    obtain ⟨k, s⟩ := v
    show (Survey.under k (Survey.text (.text s)) noted >>= fun p =>
      (do let rest ← readTexts _; return (k, p.1) :: rest : Survey _) p.2) = _
    rw [under_ok rfl]
    show (readTexts _ noted >>= fun p => pure ((k, s) :: p.1, p.2)) = _
    rw [ih]
    rfl

variable {vt ve : Value} {t : Proposal} {e : Estimate} {given : Entries Text}

/-- The form of a final document is read without complaint. -/
theorem finish_generate {form : Entries Value}
    (ht : Entries.get? (Field.plain "template").key form = some vt)
    (he : Entries.get? estimateField.key form = some ve)
    (hv : Entries.get? variablesField.key form = some (Estimate.textMap given))
    (htread : Proposal.read vt = .ok t) (heread : Estimate.read ve = .ok e) :
    (Survey.record .recordShape GenerateForm.ofEntries (.map form)).finish =
      .ok ⟨t, e, some given⟩ := by
  have htemplate : readTemplate form [] = .ok (t, []) := by
    rw [readTemplate, Field.require, Field.find?_key ht]
    exact under_ok (Proposal.survey_of_read htread _ _) _ _
  have hestimate : readEstimate form [] = .ok (e, []) := by
    show estimateField.require form _ [] = _
    rw [Field.require, Field.find?_key he]
    exact under_ok (Estimate.survey_of_read heread _ _) _ _
  have hvalues : variablesField.read form none readVariables [] = .ok (some given, []) := by
    rw [Field.read, Field.find?_key hv]
    refine under_ok ?_ _ _
    show (readTexts _ [] >>= fun p => pure (some p.1, p.2)) = _
    rw [readTexts_texts]
    rfl
  refine Survey.finish_ok_iff.2 ?_
  show (readTemplate form [] >>= fun p => (do
    let estimate ← readEstimate form
    let values ← variablesField.read form none readVariables
    return ⟨p.1, estimate, values⟩ : Survey GenerateForm) p.2) = _
  rw [htemplate]
  show (readEstimate form [] >>= fun p => (do
    let values ← variablesField.read form none readVariables
    return ⟨t, p.1, values⟩ : Survey GenerateForm) p.2) = _
  rw [hestimate]
  show (variablesField.read form none readVariables [] >>= fun p =>
    pure ((⟨t, e, p.1⟩ : GenerateForm), p.2)) = _
  rw [hvalues]
  rfl

/-- The body of a response with a final document. -/
def generated (d : Document) : Except Fault Value :=
  d.html.map fun html => .map [(lit "html", .text html), (lit "pages", .list (d.pages.map .text))]

/-- The request is answered with the document with its variables. -/
theorem answer_generate (service : Service) {r : Request} (h : r.Generates vt ve given)
    (htread : Proposal.read vt = .ok t) (heread : Estimate.read ve = .ok e) (today : Date) :
    service.answer today r =
      .ofResult (service.renderer.render t e .view (some given) today >>= generated) := by
  obtain ⟨form, hbody, ht, he, hv⟩ := h.body
  have hanswer : service.answer today r =
      answerForm GenerateForm.ofEntries (service.generate today) r.body := by
    have hmethod : (!Route.generate.methods.contains (lit "POST")) = false := by
      simp [Route.methods]
    simp only [answer, h.route, h.method, hmethod]
    rfl
  have hresult : service.generate today ⟨t, e, some given⟩ =
      (service.renderer.render t e .view (some given) today >>= generated) := by
    rw [generate]
    refine bind_congr fun d => ?_
    rw [generated]
    cases d.html <;> rfl
  rw [hanswer, answerForm, hbody]
  simp only [finish_generate ht he hv htread heread, hresult]

theorem start_renderer {s : Settings} {service : Service} (h : start s = .ok service) :
    service.renderer = Renderer.standard s := by
  obtain ⟨r, c, hnew, hrenderer⟩ := Components.renderer_new s
  rw [start] at h
  cases hjournal : Journal.setup s.logLevel s.logDir with
  | error f =>
    rw [hjournal] at h
    cases h
  | ok journal =>
    rw [hjournal, hnew] at h
    cases h
    exact hrenderer

end Service

/-! ### Both ways to a final document -/

section

variable {s : Settings} {folder : Folder} {environment : Entries Text} {service : Service}
variable {template estimate values day : Text} {d : Date} {vt ve : Value}
variable {t : Proposal} {e : Estimate} {given : Entries Text} {r : Service.Request}

/-- The line that renders files with a map of variables shows the document with these variables, and
a request for the final document with the same map is answered with that document.  A map without
variables counts in the request, but leaves the line to the estimate's own; so it agrees if the map
has an entry or the estimate has no variables. -/
theorem Service.generate_agrees (hsettings : Command.settings folder environment = .ok s)
    (hservice : Service.start s = .ok service)
    (hplain : ∀ w ∈ [template, estimate, values, day], Command.Render.IsPlain w)
    (hday : Iso.readDate? day = some d) (ht : Command.Holds folder template vt)
    (he : Command.Holds folder estimate ve)
    (hv : Command.Holds folder values (Estimate.textMap given))
    (htread : Proposal.read vt = .ok t) (heread : Estimate.read ve = .ok e)
    (hr : r.Generates vt ve given) (now : Date) :
    let render (values : Entries Text) := (Renderer.standard s).render t e .view (some values) d
    let shown (values : Entries Text) := (render values >>= Document.html).map
      fun html => (⟨0, html, folder⟩ : Command.Ending)
    (∃ c, Command.ofWords (Command.Render.line template estimate values day) = .ok c ∧
      (given ≠ [] ∨ e.values = [] → c.run folder environment now = shown given) ∧
      (given = [] → c.run folder environment now = shown e.values)) ∧
    service.answer d r = .ofResult (render given >>= Service.generated) := by
  have hline := Command.ofWords_render hplain hday
  have hrun := Command.run_line (d := d) hsettings ht he hv htread heread now
  refine ⟨⟨_, hline, fun hagree => ?_, fun hempty => ?_⟩, ?_⟩
  · rw [hrun]
    split
    · rename_i hempty
      rw [hagree.resolve_left fun h => h hempty, hempty]
    · rfl
  · rw [hrun, if_pos hempty]
  · rw [service.answer_generate hr htread heread, Service.start_renderer hservice]

end

/-- Whether what was read is a map with one entry, a map with one text. -/
def Command.isNested (key inner text : Text) : Except Json.Problem Value → Bool
  | .ok (.map [(k, .map [(k', .text s)])]) => k = key && k' = inner && s = text
  | _ => false

theorem Command.eq_of_isNested {key inner text : Text} {r : Except Json.Problem Value}
    (h : isNested key inner text r = true) :
    r = .ok (.map [(key, .map [(inner, .text text)])]) := by
  fun_cases isNested key inner text r with
  | case1 k k' s =>
    rw [isNested, Bool.and_eq_true, Bool.and_eq_true, decide_eq_true_eq, decide_eq_true_eq,
      decide_eq_true_eq] at h
    rw [h.1.1, h.1.2, h.2]
  | case2 r hother =>
    rw [isNested.eq_2 _ _ _ _ hother] at h
    cases h

namespace Letter

/-- A template with one token. -/
def template : Value := .map [(lit "content", .text (lit "\x7b\x7bcustomText\x7d\x7d"))]

/-- Its text in a file. -/
def templateFile : Text := lit "\x7b\"content\":\"\x7b\x7bcustomText\x7d\x7d\"\x7d"

/-- Variables of an earlier document. -/
def own : Entries Text := [(lit "customText_0", lit "Old")]

/-- Variables that are given. -/
def given : Entries Text := [(lit "customText_0", lit "New")]

/-- An estimate with variables of its own. -/
def estimate : Value := .map [(lit "customVariables", Estimate.textMap own)]

/-- Its text in a file. -/
def estimateFile : Text := lit "\x7b\"customVariables\":\x7b\"customText_0\":\"Old\"\x7d\x7d"

/-- A folder with both, with a map of variables and with one without any. -/
def folder : Folder where
  files := [(lit "template.json", templateFile), (lit "estimate.json", estimateFile),
    (lit "given.json", lit "\x7b\"customText_0\":\"New\"\x7d"), (lit "none.json", lit "\x7b\x7d")]

/-- A request for the final document with variables. -/
def request (values : Entries Text) : Service.Request :=
  ⟨lit "POST", lit "/proposals/generate", .value (.map [(lit "template", template),
    (lit "estimate", estimate), (lit "customVariables", Estimate.textMap values)])⟩

/-- A line that renders them with the variables of a file. -/
def line (values : Text) : List Text :=
  Command.Render.line (lit "template.json") (lit "estimate.json") values (lit "2024-03-15")

/-- The folder wants the usual settings, with which there is a service, and the words of the line are
plain and name a day. -/
theorem line_words : Command.settings folder [] = .ok {} ∧
    (∃ service, Service.start {} = .ok service) ∧
    Iso.readDate? (lit "2024-03-15") = some Estimate.someDay ∧
    ∀ values ∈ [lit "given.json", lit "none.json"],
      ∀ w ∈ [lit "template.json", lit "estimate.json", values, lit "2024-03-15"],
        Command.Render.IsPlain w := by
  have hall : (Command.settings folder []).toOption = some {} ∧ (Service.start {}).toBool = true ∧
      Iso.readDate? (lit "2024-03-15") = some Estimate.someDay ∧
      ∀ values ∈ [lit "given.json", lit "none.json"],
        ∀ w ∈ [lit "template.json", lit "estimate.json", values, lit "2024-03-15"],
          Command.Render.IsPlain w := by
    decide +kernel
  exact ⟨ok_of_toOption hall.1, exists_ok_of_toBool hall.2.1, hall.2.2⟩

/-- The files hold the values. -/
theorem holds : Command.Holds folder (lit "template.json") template ∧
    Command.Holds folder (lit "estimate.json") estimate ∧
    Command.Holds folder (lit "given.json") (Estimate.textMap given) ∧
    Command.Holds folder (lit "none.json") (Estimate.textMap []) := by
  refine ⟨⟨templateFile, ?_, Estimate.eq_of_isEntry (by decide +kernel)⟩,
    ⟨estimateFile, ?_, Command.eq_of_isNested (by decide +kernel)⟩,
    ⟨lit "\x7b\"customText_0\":\"New\"\x7d", ?_, Estimate.eq_of_isEntry (by decide +kernel)⟩,
    ⟨lit "\x7b\x7d", ?_, by with_unfolding_all rfl⟩⟩
  all_goals decide +kernel

theorem generates (values : Entries Text) : (request values).Generates template estimate values where
  route := by with_unfolding_all rfl
  method := by with_unfolding_all rfl
  body := by
    have hkeys : lit "template" ≠ Service.estimateField.key ∧
        lit "template" ≠ Service.variablesField.key ∧
        lit "estimate" ≠ Service.variablesField.key := by
      simp [Service.estimateField, Service.variablesField, Field.plain, Field.keyed, lit_inj]
    obtain ⟨hte, htv, hev⟩ := hkeys
    refine ⟨_, rfl, if_pos rfl, ?_, ?_⟩
    · show (if _ then _ else _) = _
      rw [if_neg hte]
      exact if_pos rfl
    · show (if _ then _ else if _ then _ else _) = _
      rw [if_neg htv, if_neg hev]
      exact if_pos rfl

/-- The rendering with variables. -/
def render (t : Proposal) (e : Estimate) (values : Entries Text) : Except Fault Document :=
  (Renderer.standard {}).render t e .view (some values) Estimate.someDay

/-- The document with a value in its place. -/
def document (value : Text) : Text :=
  lit "<span class=\"custom-var-placeholder\" style=\"border-bottom: 1px solid #9ca3af; display: " ++
    lit "inline-block; min-width: 80px;\">" ++ value ++ lit "</span>"

/-- The template's page. -/
def row : List (Text.Atom Token) := [.item (.custom .text)]

/-- What is written for the token of the page. -/
def written (values : Entries Text) : Text :=
  let value := Binding.saved values ((Token.custom .text).variableKey 0)
  if value = [] then lit "&nbsp;" else Text.safe value

theorem written_eq : written given = lit "New" ∧ written own = lit "Old" ∧
    written [] = lit "&nbsp;" := by
  with_unfolding_all exact ⟨rfl, rfl, rfl⟩

theorem replacement_row (e : Estimate) (values : Entries Text) :
    Text.Atom.fill ((Renderer.standard {}).replacement e .view values)
      (Binding.numberFrom [] Counters.start row) = document (written values) := by
  have hfloor : Text.ofNat (Variable.appearance .text).floor = lit "80" := by
    with_unfolding_all rfl
  show Variable.placeholder (Variable.appearance .text) _ ++ [] = _
  rw [List.append_nil, Variable.placeholder, hfloor, document]
  show _ ++ _ ++ _ ++ written values ++ _ = _
  generalize written values = value
  -- the literals are taken apart first, since decoding the long ones is slow
  repeat rw [lit_ofList]
  simp only [List.cons_append, List.nil_append]

/-- The records are accepted, and every map of variables makes a document of one page. -/
theorem exists_render : ∃ t e, Proposal.read template = .ok t ∧ Estimate.read estimate = .ok e ∧
    e.values = own ∧ ∀ values, ∃ d, render t e values = .ok d ∧
      d.pages = [document (written values)] ∧ d.html = .ok (document (written values)) := by
  have hread : (Proposal.read template).toOption.map Proposal.sources =
        some ([row].map (Text.Atom.fill Binding.spelling)) ∧
      (Estimate.read estimate).toOption.map (fun e =>
        (e.values, (Context.build e Estimate.someDay {}).toBool)) = some (own, true) := by
    decide +kernel
  obtain ⟨t, ht, hsources⟩ := Option.map_eq_some_iff.1 hread.1
  obtain ⟨e, he, hbuild⟩ := Option.map_eq_some_iff.1 hread.2
  obtain ⟨hown, hbuild⟩ := Prod.mk.inj hbuild
  obtain ⟨context, hcontext⟩ := exists_ok_of_toBool hbuild
  have hrow : IsTokenRow row := fun c hc => by cases List.mem_singleton.1 hc
  refine ⟨t, e, ok_of_toOption ht, ok_of_toOption he, hown, fun values => ?_⟩
  obtain ⟨d, hd, hpages, hhtml⟩ := Renderer.render_rowPages (Renderer.new_eq {}) hsources
    (List.forall_mem_singleton.2 hrow) (by decide) (List.forall_mem_singleton.2 (by decide +kernel))
    hcontext .view (some values)
  have hpage : d.pages = [document (written values)] := by
    rw [hpages, ← replacement_row e]
    rfl
  exact ⟨d, hd, hpage, by rw [hhtml, hpage, Text.joinWith, List.intercalate_singleton]⟩

/-- The response with the new text can be sent. -/
theorem status_given {d : Document} (hpages : d.pages = [document (lit "New")])
    (hhtml : d.html = .ok (document (lit "New"))) :
    (Service.Response.ofResult (Service.generated d)).status = 200 := by
  have hspelled : Json.isSpelled (document (lit "New")) = true := by
    rw [document]
    repeat rw [lit_ofList]
    rfl
  have hsendable : Json.isSendable (.map [(lit "html", .text (document (lit "New"))),
      (lit "pages", .list [.text (document (lit "New"))])]) = true := by
    have hkeys : Json.isSpelled (lit "html") = true ∧ Json.isSpelled (lit "pages") = true := by
      with_unfolding_all exact ⟨rfl, rfl⟩
    simp [Json.isSendable, Json.areSendable, Json.areSendableEntries, hspelled, hkeys]
  rw [Service.generated, hhtml, hpages]
  exact congrArg Service.Response.status (if_pos hsendable)

end Letter

/-- A line with a new text shows it, and the response to a request with it can be sent. -/
theorem Service.generate_agrees_letter : ∃ service c, Service.start {} = .ok service ∧
    Command.ofWords (Letter.line (lit "given.json")) = .ok c ∧
    c.run Letter.folder [] Estimate.someDay =
      .ok ⟨0, Letter.document (lit "New"), Letter.folder⟩ ∧
    (service.answer Estimate.someDay (Letter.request Letter.given)).status = 200 := by
  obtain ⟨t, e, ht, he, -, hrender⟩ := Letter.exists_render
  obtain ⟨d, hd, hpages, hhtml⟩ := hrender Letter.given
  obtain ⟨hsettings, ⟨service, hservice⟩, hday, hplain⟩ := Letter.line_words
  obtain ⟨htemplate, hestimate, hgiven, -⟩ := Letter.holds
  obtain ⟨⟨c, hc, hrun, -⟩, hanswer⟩ := Service.generate_agrees hsettings hservice
    (hplain _ List.mem_cons_self) hday htemplate hestimate hgiven ht he
    (Letter.generates Letter.given) Estimate.someDay
  refine ⟨service, c, hservice, hc, ?_, ?_⟩
  · rw [hrun (.inl (List.cons_ne_nil _ _))]
    show (Letter.render t e Letter.given >>= Document.html).map _ = _
    rw [hd]
    show d.html.map _ = _
    rw [hhtml, Letter.written_eq.1]
    rfl
  · rw [hanswer]
    show (Response.ofResult (Letter.render t e Letter.given >>= generated)).status = 200
    rw [hd]
    rw [Letter.written_eq.1] at hpages hhtml
    exact Letter.status_given hpages hhtml

/-- With a map without variables the line shows the old text of the estimate, where the rendering with
this map, which the service answers with, has none. -/
theorem Service.generate_letter : ∃ t e c, Proposal.read Letter.template = .ok t ∧
    Estimate.read Letter.estimate = .ok e ∧
    Command.ofWords (Letter.line (lit "none.json")) = .ok c ∧
    Command.Holds Letter.folder (lit "none.json") (Estimate.textMap []) ∧
    c.run Letter.folder [] Estimate.someDay =
      .ok ⟨0, Letter.document (lit "Old"), Letter.folder⟩ ∧
    (Letter.render t e [] >>= Document.html) = .ok (Letter.document (lit "&nbsp;")) ∧
    ∀ service, Service.start {} = .ok service →
      service.answer Estimate.someDay (Letter.request []) =
        .ofResult (Letter.render t e [] >>= Service.generated) := by
  obtain ⟨t, e, ht, he, hown, hrender⟩ := Letter.exists_render
  obtain ⟨dold, hold, -, hhtmlOld⟩ := hrender Letter.own
  obtain ⟨dnone, hnone, -, hhtmlNone⟩ := hrender []
  obtain ⟨hsettings, -, hday, hplain⟩ := Letter.line_words
  obtain ⟨htemplate, hestimate, -, hempty⟩ := Letter.holds
  have hline := Command.ofWords_render (hplain _ (List.mem_cons_of_mem _ List.mem_cons_self)) hday
  refine ⟨t, e, _, ht, he, hline, hempty, ?_, ?_, fun service hservice => ?_⟩
  · rw [Command.run_line hsettings htemplate hestimate hempty ht he, if_pos rfl, hown]
    show (Letter.render t e Letter.own >>= Document.html).map _ = _
    rw [hold]
    show dold.html.map _ = _
    rw [hhtmlOld, Letter.written_eq.2.1]
    rfl
  · rw [hnone, ← Letter.written_eq.2.2]
    exact hhtmlNone
  · rw [service.answer_generate (Letter.generates []) ht he, Service.start_renderer hservice]
    rfl

end Tender
