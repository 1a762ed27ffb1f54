/-
Refused records: how the service and the commands answer them.

* `Service.Weighs` — forms are read no further than their estimates, and complained about where
  those are;
* `Service.answer_cases` — a request with an estimate that breaks the reading off is answered with a
  failure, and one with a refused estimate with complaints;
* `Command.run_refused` — a command with a refused estimate ends with code one;
* `Estimate.ok_or_refused` — a record that does not break the reading off is read, or is refused by
  the service and by the commands.
-/
import Tender.Command.Run
import Tender.Proofs.Record.Estimate
import Tender.Proofs.Renderer
import Tender.Service.Basic

namespace Tender

open Survey (Tolerant)

/-! ### Templates -/

theorem TemplatePage.tolerant_readContent : Tolerant readContent :=
  Survey.tolerant_of_refuses fun v => by
    fun_cases readContent v with
    | case1 => exact .inl ⟨[], rfl⟩
    | case2 =>
      fun_cases Survey.text v with
      | case1 s => exact .inl ⟨s, rfl⟩
      | case2 => exact .inr ⟨.textType, [], rfl⟩

theorem TemplatePage.exists_reads (es : Entries Value) :
    ∃ flawed, (ofEntries es).Reads False flawed (Complaint.Passes (.map es)) := by
  obtain ⟨flawed, h⟩ := contentField.exists_reads_read es tolerant_readContent []
  exact ⟨flawed, h.map _⟩

namespace Proposal

theorem tolerant_readId : Tolerant readId :=
  Survey.tolerant_of_refuses fun v => by
    fun_cases readId v with
    | case1 => exact .inl ⟨none, rfl⟩
    | case2 => exact .inl ⟨some v.toText, rfl⟩
    | case3 => exact .inr ⟨.badValue, none, rfl⟩

theorem exists_reads (shape : Complaint.Kind) (es : Entries Value) :
    ∃ flawed, (ofEntries shape es).Reads False flawed (Complaint.Passes (.map es)) := by
  obtain ⟨_, hid⟩ := idField.exists_reads_read es tolerant_readId none
  obtain ⟨_, htitle⟩ := titleField.exists_reads_read es Survey.tolerant_text []
  obtain ⟨_, hversion⟩ := versionField.exists_reads_read es Survey.tolerant_integer 1
  obtain ⟨_, hcontent⟩ :=
    TemplatePage.contentField.exists_reads_read es TemplatePage.tolerant_readContent []
  obtain ⟨_, hpages⟩ := pagesField.exists_reads_read es
    (Survey.tolerant_record TemplatePage.exists_reads shape).list []
  exact ⟨_, hid.after fun _ => htitle.after fun _ => hversion.after fun _ => hcontent.after
    fun _ => hpages.map _⟩

theorem tolerant_survey (shape : Complaint.Kind) : Tolerant (survey shape) :=
  Survey.tolerant_record (exists_reads shape) shape

end Proposal

/-! ### Forms -/

namespace Service

theorem tolerant_readFlag : Tolerant readFlag :=
  Survey.tolerant_of_refuses fun v => by
    fun_cases readFlag v with
    | case1 b => exact .inl ⟨b, rfl⟩
    | case2 kind => exact .inr ⟨kind, true, rfl⟩

theorem tolerant_readPages : Tolerant readPages := by
  obtain ⟨flawed, hpages⟩ := (Survey.tolerant_record TemplatePage.exists_reads .recordShape).list
  refine ⟨fun v => v.isNull = false ∧ flawed v, fun v => ?_⟩
  fun_cases readPages v with
  | case1 hnull => exact (Survey.reads_pure none).congr Iff.rfl (by simp [hnull])
  | case2 hnull => exact ((hpages v).map _).congr Iff.rfl (by simp [hnull])

theorem exists_reads_readTexts (es : Entries Value) :
    ∃ flawed, (readTexts es).Reads False flawed (Complaint.Passes (.map es)) := by
  induction es with
  | nil => exact ⟨False, Survey.reads_pure []⟩
  | cons e es ih =>
    obtain ⟨k, v⟩ := e
    obtain ⟨_, htext⟩ := Survey.tolerant_text
    obtain ⟨_, hrest⟩ := ih
    have hparts (hsend : Json.isSendable (.map ((k, v) :: es)) = true) :
        (Json.isSpelled k = true ∧ Json.isSendable v = true) ∧
          Json.isSendable (.map es) = true := by
      rwa [Json.isSendable, Json.areSendableEntries, Bool.and_eq_true, Bool.and_eq_true] at hsend
    refine ⟨_, ((htext v).under fun c hc hsend => ?_).after fun _ =>
      (hrest.mono fun c hc hsend => hc (hparts hsend).2).map _⟩
    rw [Complaint.canSend_under, (hparts hsend).1.1, hc (hparts hsend).1.2]
    rfl

theorem tolerant_readVariables : Tolerant readVariables := by
  refine ⟨fun v => v ≠ .null ∧ ∀ es, v = .map es → (exists_reads_readTexts es).choose, fun v => ?_⟩
  cases v with
  | null => exact (Survey.reads_pure none).congr Iff.rfl (by simp)
  | map es => exact ((exists_reads_readTexts es).choose_spec.map _).congr Iff.rfl (by simp)
  | _ => exact (Survey.Reads.refuse (Survey.passes_self _ _) none).congr Iff.rfl (by simp)

/-! ### Forms with estimates -/

/-- The field of a form that the estimate is in. -/
def estimateField : Field := .plain "estimate"

/-- The estimate in a form breaks the reading off. -/
def BreaksForm (form : Entries Value) : Prop :=
  ∃ v, estimateField.Holds form v ∧ ∃ es, v = .map es ∧ Estimate.Breaks es

/-- There is no estimate in a form, or one that is refused. -/
def FlawedForm (form : Entries Value) : Prop :=
  (∀ v, ¬ estimateField.Holds form v) ∨
    ∃ v, estimateField.Holds form v ∧ ∀ es, v = .map es → Estimate.Flawed es

/-- A reading of forms that breaks off on what breaks the reading of their estimates off, and that
complains wherever that does. -/
def Weighs {α : Type} (ofEntries : Entries Value → Survey α) : Prop :=
  ∀ form, ∃ flawed : Prop, (FlawedForm form → flawed) ∧
    (ofEntries form).Reads (BreaksForm form) flawed (Complaint.Passes (.map form))

theorem reads_readEstimate (form : Entries Value) :
    (readEstimate form).Reads (BreaksForm form) (FlawedForm form) (Complaint.Passes (.map form)) :=
  estimateField.reads_require (by decide +kernel) (Survey.Judges.record
    (fun es => (Estimate.reads_ofEntries _ es).mono fun _ h => h.2) .recordShape) form

theorem exists_reads_readTemplate (form : Entries Value) :
    ∃ flawed, (readTemplate form).Reads False flawed (Complaint.Passes (.map form)) := by
  obtain ⟨_, h⟩ := Proposal.tolerant_survey .recordShape
  exact ⟨_, ((Field.plain "template").reads_require (by decide +kernel) h form).congr (by simp)
    Iff.rfl⟩

theorem weighs_preview : Weighs PreviewForm.ofEntries := by
  intro form
  obtain ⟨_, htemplate⟩ := exists_reads_readTemplate form
  obtain ⟨_, hediting⟩ :=
    (Field.keyed "editMode" "edit_mode").exists_reads_read form tolerant_readFlag true
  obtain ⟨_, hpages⟩ := (Field.plain "pages").exists_reads_read form tolerant_readPages none
  exact ⟨_, fun h => .inr (.inl h), htemplate.after fun _ =>
    ((reads_readEstimate form).bind fun _ => hediting.after fun _ => hpages.map _).congr (by simp)
      Iff.rfl⟩

theorem weighs_generate : Weighs GenerateForm.ofEntries := by
  intro form
  obtain ⟨_, htemplate⟩ := exists_reads_readTemplate form
  obtain ⟨_, hvalues⟩ := (Field.keyed "customVariables" "custom_variables").exists_reads_read form
    tolerant_readVariables none
  exact ⟨_, fun h => .inr (.inl h), htemplate.after fun _ =>
    ((reads_readEstimate form).bind fun _ => hvalues.map _).congr (by simp) Iff.rfl⟩

/-- A form that breaks the reading off is answered with a failure, and one that is refused with its
complaints, if they can be sent. -/
theorem answerForm_cases {α : Type} [Inhabited α] {ofEntries : Entries Value → Survey α}
    (h : Weighs ofEntries) (run : α → Except Fault Value) {body : Body} {form : Entries Value}
    (hbody : body.read = .ok (some (.map form))) (hsend : Json.isSendable (.map form) = true) :
    (BreaksForm form → answerForm ofEntries run body = .failure) ∧
      (¬ BreaksForm form → FlawedForm form → (answerForm ofEntries run body).status = 422) := by
  obtain ⟨flawed, hflawed, hreads⟩ := h form
  have hfinish : (Survey.record .recordShape ofEntries (.map form)).finish =
      (ofEntries form).finish := rfl
  rw [answerForm, hbody]
  simp only [hfinish]
  obtain ⟨hbreaks, f, hf, heq⟩ | ⟨hbreaks, -, cs, -, hcs, heq⟩ | ⟨hbreaks, hfine, -⟩ :=
    hreads.finish_cases
  · refine ⟨fun _ => ?_, fun h => absurd hbreaks h⟩
    rw [heq]
    show Response.ofFault f = _
    cases f with
    | invalid cs => exact absurd rfl (hf cs)
    | _ => rfl
  · refine ⟨fun h => absurd h hbreaks, fun _ _ => ?_⟩
    rw [heq]
    show (Response.refused cs).status = 422
    rw [Response.refused, if_pos (List.all_eq_true.2 fun c hc => hcs c hc hsend)]
  · exact ⟨fun h => absurd h hbreaks, fun _ h => absurd (hflawed h) hfine⟩

/-- A request for a document of an estimate, with a form that can be sent. -/
structure Request.Offers (r : Request) (es : Entries Value) : Prop where
  route : Route.ofPath? r.path = some .preview ∨ Route.ofPath? r.path = some .generate
  method : r.method.map Char.toUpper = lit "POST"
  body : ∃ form, r.body.read = .ok (some (.map form)) ∧ Json.isSendable (.map form) = true ∧
    Entries.get? estimateField.key form = some (.map es)

theorem holds_estimateField {form : Entries Value} {v : Value}
    (h : Entries.get? estimateField.key form = some v) (w : Value) :
    estimateField.Holds form w ↔ w = v :=
  Field.holds_iff (Field.find?_key h) w

/-- A request with an estimate is answered with a failure if that breaks the reading off, and with
complaints if it is refused. -/
theorem answer_cases (service : Service) (today : Date) {r : Request} {es : Entries Value}
    (h : r.Offers es) :
    (Estimate.Breaks es → service.answer today r = .failure) ∧
      (Estimate.Refused es → (service.answer today r).status = 422) := by
  obtain ⟨form, hbody, hsend, hget⟩ := h.body
  -- in this form the estimate is the record, whatever else is wrong with the form
  have hbreaks : BreaksForm form ↔ Estimate.Breaks es := by
    simp [BreaksForm, holds_estimateField hget]
  have hflawed : FlawedForm form ↔ Estimate.Flawed es := by
    simp [FlawedForm, holds_estimateField hget]
  have hcases {α : Type} [Inhabited α] {ofEntries : Entries Value → Survey α}
      (hweighs : Weighs ofEntries) (run : α → Except Fault Value) :
      (Estimate.Breaks es → answerForm ofEntries run r.body = .failure) ∧
        (Estimate.Refused es → (answerForm ofEntries run r.body).status = 422) := by
    have hform := answerForm_cases hweighs run hbody hsend
    rw [hbreaks, hflawed] at hform
    refine hform.imp_right fun h hrefused => ?_
    obtain ⟨hwhole, hflaw⟩ := Estimate.refused_iff.1 hrefused
    exact h hwhole hflaw
  obtain hroute | hroute := h.route
  · have hanswer : service.answer today r =
        answerForm PreviewForm.ofEntries (service.preview today) r.body := by
      simp only [answer, hroute, h.method,
        show (!Route.preview.methods.contains (lit "POST")) = false by decide +kernel]
      rfl
    rw [hanswer]
    exact hcases weighs_preview _
  · have hanswer : service.answer today r =
        answerForm GenerateForm.ofEntries (service.generate today) r.body := by
      simp only [answer, hroute, h.method,
        show (!Route.generate.methods.contains (lit "POST")) = false by decide +kernel]
      rfl
    rw [hanswer]
    exact hcases weighs_generate _

end Service

/-! ### Commands -/

namespace Command

theorem run_readValue {folder : Folder} {path s : Text} {v : Value}
    (hfile : folder.read? path = some s) (hjson : Json.read s = .ok v) :
    (readValue folder (some path)).run = .ok (some v) := by
  simp only [readValue, Disk.text?_ofFolder, hfile, hjson]
  rfl

/-- A command to render an estimate, whose template can be looked for. -/
structure Render.Offers (r : Render) (folder : Folder) (es : Entries Value) : Prop where
  estimate : (readValue folder r.estimate).run = .ok (some (.map es))
  template : ∃ v, (readValue folder r.template).run = .ok v

/-- A template is accepted or not, and no fault comes of it. -/
theorem accept_template (v : Value) :
    ∃ template, (accept (Proposal.read v)).run = .ok template := by
  obtain ⟨_, htolerant⟩ := Proposal.tolerant_survey .recordType
  obtain ⟨hfalse, -⟩ | ⟨-, -, cs, -, -, heq⟩ | ⟨-, -, template, heq⟩ := (htolerant v).finish_cases
  · exact hfalse.elim
  · exact ⟨none, by rw [Proposal.read, heq]; rfl⟩
  · exact ⟨some template, by rw [Proposal.read, heq]; rfl⟩

section

variable {r : Render} {folder : Folder} {es : Entries Value}

/-- What comes after a step of reading the inputs, once the step has been taken. -/
theorem run_bind_of_some {α β : Type} {x : Input α} {a : α} (h : x.run = .ok (some a))
    (f : α → Input β) : (x >>= f).run = (f a).run := by
  rw [OptionT.run_bind, h]
  rfl

theorem run_bind_of_none {α β : Type} {x : Input α} (h : x.run = .ok none) (f : α → Input β) :
    (x >>= f).run = .ok none := by
  rw [OptionT.run_bind, h]
  rfl

/-- Inputs with a refused estimate cannot be read. -/
theorem Render.inputs_refused (h : r.Offers folder es) (hrefused : Estimate.Refused es) :
    (r.inputs folder).run = .ok none := by
  obtain ⟨v, hv⟩ := h.template
  obtain ⟨cs, -, hread, -⟩ := hrefused
  rw [Render.inputs]
  -- the template is read first, and without it the estimate is not looked at
  cases v with
  | none => exact run_bind_of_none hv _
  | some v =>
    obtain ⟨template, htemplate⟩ := accept_template v
    rw [run_bind_of_some hv]
    cases template with
    | none => exact run_bind_of_none htemplate _
    | some template =>
      rw [run_bind_of_some htemplate, run_bind_of_some h.estimate, hread]
      exact run_bind_of_none rfl _

/-- A command with a refused estimate ends with code one and writes nothing. -/
theorem run_refused (h : r.Offers folder es) (hrefused : Estimate.Refused es)
    (environment : Entries Text) (now : Date) :
    (Command.render r).run folder environment now =
      (settings folder environment).map fun _ => ⟨1, [], folder⟩ := by
  rw [run]
  cases settings folder environment with
  | error f => rfl
  | ok s =>
    show r.run s folder now = _
    rw [Render.run, Render.inputs_refused h hrefused]
    rfl

end

end Command

/-! ### Estimates that are offered -/

namespace Estimate

/-- A record that is offered as an estimate is read, or refused with complaints that name its
fields, exactly if it does not break the reading off.  A refused one is refused by the service with
status 422, if the form around it can be sent, and by the commands with code one; the service fails
on one that breaks the reading off. -/
theorem ok_or_refused (es : Entries Value) :
    ((∃ e, read (.map es) = .ok e) ∨ Refused es ↔ ¬ Breaks es) ∧
    (Refused es →
      (∀ (service : Service) (today : Date) (r : Service.Request), r.Offers es →
        (service.answer today r).status = 422) ∧
      ∀ (r : Command.Render) (folder : Folder) (environment : Entries Text) (now : Date),
        r.Offers folder es → (Command.render r).run folder environment now =
          (Command.settings folder environment).map fun _ => ⟨1, [], folder⟩) ∧
    (Breaks es → ∀ (service : Service) (today : Date) (r : Service.Request), r.Offers es →
      service.answer today r = .failure) :=
  ⟨ok_or_refused_iff es, fun hrefused =>
    ⟨fun service today _ h => (service.answer_cases today h).2 hrefused,
      fun _ _ environment now h => Command.run_refused h hrefused environment now⟩,
    fun hbreaks service today _ h => (service.answer_cases today h).1 hbreaks⟩

/-- Whether what was read is a map with one entry, a text. -/
def isEntry (key text : Text) : Except Json.Problem Value → Bool
  | .ok (.map [(k, .text s)]) => k = key && s = text
  | _ => false

theorem eq_of_isEntry {key text : Text} {r : Except Json.Problem Value}
    (h : isEntry key text r = true) : r = .ok (.map [(key, .text text)]) := by
  fun_cases isEntry key text r with
  | case1 k s =>
    rw [isEntry, Bool.and_eq_true, decide_eq_true_eq, decide_eq_true_eq] at h
    rw [h.1, h.2]
  | case2 r hother =>
    rw [isEntry.eq_2 _ _ _ hother] at h
    cases h

/-- A record with a text where cost lines are listed. -/
def unlistedLabor : Entries Value := [(lit "labor", .text ['x'])]

/-- A request to preview a record, without a template. -/
def preview (es : Entries Value) : Service.Request :=
  ⟨lit "POST", lit "/proposals/preview", .value (.map [(lit "estimate", .map es)])⟩

/-- A folder with an empty template and that record. -/
def unlistedFolder : Folder where
  files := [(lit "template", lit "\x7b\x7d"), (lit "estimate", lit "\x7b\"labor\":\"x\"\x7d")]

/-- A command to render the files of a folder. -/
def renderFiles : Command.Render :=
  ⟨some (lit "template"), some (lit "estimate"), false, none, none, none⟩

/-- A service under the standard settings. -/
def standardService : Service := ⟨⟨20, []⟩, Renderer.standard {}⟩

/-- A day. -/
def someDay : Date := ⟨2024, 3, 15, by decide⟩

theorem refused_unlistedLabor : Refused unlistedLabor := by
  have hread : read (.map unlistedLabor) =
      .error (.invalid [⟨[lit "labor"], .listType, .text ['x']⟩]) := by
    with_unfolding_all rfl
  have hfind : (itemsField .labor).find? unlistedLabor = some (lit "labor", .text ['x']) := by
    with_unfolding_all rfl
  refine ⟨_, List.cons_ne_nil _ _, hread, List.forall_mem_singleton.2 ?_⟩
  exact ⟨itemsField .labor, by simp [fields, Category.mem_all], _, _, [], hfind, rfl⟩

theorem offers_preview {es : Entries Value} (h : Json.isSendable (.map es) = true) :
    (preview es).Offers es where
  route := .inl (show Service.Route.ofPath? (lit "/proposals/preview") = _ by decide +kernel)
  method := show (lit "POST").map Char.toUpper = _ by decide +kernel
  body := by
    have hkey : Json.isSpelled (lit "estimate") = true := by decide +kernel
    have hform : Json.isSendable (.map [(lit "estimate", .map es)]) = true := by
      rw [Json.isSendable, Json.areSendableEntries, h, hkey]
      rfl
    exact ⟨_, rfl, hform, if_pos rfl⟩

theorem offers_unlistedFolder : renderFiles.Offers unlistedFolder unlistedLabor where
  estimate := by
    have hfile : unlistedFolder.read? (lit "estimate") = some (lit "\x7b\"labor\":\"x\"\x7d") := by
      decide +kernel
    exact Command.run_readValue hfile (eq_of_isEntry (by decide +kernel))
  template := by
    have hjson : Json.read (lit "\x7b\x7d") = .ok (.map []) := by with_unfolding_all rfl
    exact ⟨_, Command.run_readValue (by decide +kernel) hjson⟩

/-- A record with a number where variables are. -/
def numberOfVariables : Entries Value := [(lit "customVariables", .int 5)]

theorem breaks_numberOfVariables : Breaks numberOfVariables := by
  have hfind : variablesField.find? numberOfVariables = some (lit "customVariables", .int 5) := by
    with_unfolding_all rfl
  exact .inr (.inr ⟨.int 5, ⟨_, hfind⟩, rfl, trivial⟩)

theorem ok_or_refused_unlistedLabor :
    (standardService.answer someDay (preview unlistedLabor)).status = 422 ∧
    standardService.answer someDay (preview numberOfVariables) = .failure ∧
    (Command.render renderFiles).run unlistedFolder [] someDay =
      (Command.settings unlistedFolder []).map fun _ => ⟨1, [], unlistedFolder⟩ := by
  have hall := (ok_or_refused unlistedLabor).2.1 refused_unlistedLabor
  have hfailure := (ok_or_refused numberOfVariables).2.2 breaks_numberOfVariables
  exact ⟨hall.1 _ _ _ (offers_preview (by decide +kernel)),
    hfailure _ _ _ (offers_preview (by decide +kernel)), hall.2 _ _ _ _ offers_unlistedFolder⟩

/-- A number is no map of variables, and reading the record breaks off. -/
theorem read_numberOfVariables :
    read (.map numberOfVariables) = .error (.notIterable (lit "int")) ∧
      ¬ ((∃ e, read (.map numberOfVariables) = .ok e) ∨ Refused numberOfVariables) := by
  have hread : read (.map numberOfVariables) = .error (.notIterable (lit "int")) := by
    with_unfolding_all rfl
  refine ⟨hread, ?_⟩
  rintro (⟨e, he⟩ | ⟨cs, -, hcs, -⟩)
  · rw [hread] at he
    cases he
  · rw [hread] at hcs
    cases hcs

end Estimate
end Tender
