/-
Estimates: which records are read, which are refused, and which break the reading off.

* `LineItem.reads_ofEntries`, `Estimate.reads_ofEntries` — what is wrong with a record is said of
  its fields;
* `Estimate.refused_iff`, `Estimate.ok_or_refused_iff` — which records are refused, and which are
  refused or read.
-/
import Tender.Proofs.Record.Variables

namespace Tender

open Survey (IsVast IsSignal)

/-! ### Cost lines -/

namespace LineItem

/-- The fields of a cost line that hold texts. -/
def textFields : List Field :=
  [idField, descriptionField, classificationField, subClassificationField]

/-- The fields of a cost line that hold amounts. -/
def amountFields : List Field := [costField, quantityField, totalField]

/-- An amount of the cost line is beyond the range of floats. -/
def Breaks (es : Entries Value) : Prop :=
  ∃ f ∈ amountFields, ∃ v, f.Holds es v ∧ IsVast v

/-- A text of the cost line cannot be written, or an amount is refused. -/
def Flawed (es : Entries Value) : Prop :=
  (∃ f ∈ textFields, ∃ v, f.Holds es v ∧ v.isWritable = false) ∨
    ∃ f ∈ amountFields, ∃ v, f.Holds es v ∧ IsSignal v

theorem reads_ofEntries (es : Entries Value) :
    (ofEntries es).Reads (Breaks es) (Flawed es) (Complaint.Belongs fields es) := by
  have htext : ∀ f ∈ fields, (f.read es none Survey.anyText).Reads False
      (∃ v, f.Holds es v ∧ v.isWritable = false) (Complaint.Belongs fields es) :=
    fun f hf => Field.reads_fine hf Survey.judges_anyText none
  have hamount : ∀ f ∈ fields, (f.read es none Survey.amount).Reads
      (∃ v, f.Holds es v ∧ IsVast v) (∃ v, f.Holds es v ∧ IsSignal v)
      (Complaint.Belongs fields es) :=
    fun f hf => Field.reads_read hf Survey.judges_amount none
  refine ((htext idField ?_).after fun _ => (htext descriptionField ?_).after fun _ =>
    (htext classificationField ?_).after fun _ => (htext subClassificationField ?_).after fun _ =>
    (hamount costField ?_).bind fun _ => (hamount quantityField ?_).bind fun _ =>
    (hamount totalField ?_).map _).congr ?_ ?_
  iterate 7 simp [fields]
  · simp [Breaks, amountFields]
  · simp [Flawed, textFields, amountFields, or_assoc]

end LineItem

namespace Estimate

/-! ### Versions and dates -/

/-- A value of a kind that no version has, and a decimal number that no float is near. -/
def Unversioned : Value → Prop
  | .decimal d => d.toBinary64? = none
  | .list _ | .map _ | .date _ | .moment _ => True
  | _ => False

theorem reads_refuseVersion (asInt : Complaint.Kind) (v : Value) :
    (refuseVersion asInt v).Reads False True (Complaint.Passes v) := by
  have hunder {step : Text} (hstep : Json.isSpelled step = true) (kind : Complaint.Kind) :
      (Survey.under step (Survey.complain kind v)).Reads False True (Complaint.Passes v) :=
    (Survey.reads_complain (Survey.passes_self kind v)).under fun c hc hsend => by
      rw [Complaint.canSend_under, hstep, hc hsend]
      rfl
  exact ((hunder (by decide +kernel) asInt).after fun _ => (hunder (by decide +kernel) _).after
    fun _ => (hunder (by decide +kernel) _).map _).congr Iff.rfl (by simp)

theorem judges_version : Survey.Judges readVersion (fun _ => False) Unversioned := by
  intro v
  cases v with
  | decimal d =>
    rw [readVersion, Unversioned]
    cases d.toBinary64? with
    | none => exact (reads_refuseVersion _ _).congr Iff.rfl (by simp)
    | some x => exact (Survey.reads_pure _).congr Iff.rfl (by simp)
  | list vs => exact reads_refuseVersion _ _
  | map es => exact reads_refuseVersion _ _
  | date d => exact reads_refuseVersion _ _
  | moment m => exact reads_refuseVersion _ _
  | _ => exact Survey.reads_pure _

/-- A value that is written as a date and cannot be. -/
def Undated (v : Value) : Prop :=
  (∀ n, v ≠ .int n) ∧ v.isWritable = false

theorem judges_date : Survey.Judges readDate (fun _ => False) Undated := by
  intro v
  fun_cases readDate v with
  | case5 v hint =>
    exact ((Survey.judges_anyText v).map _).congr Iff.rfl
      ⟨fun h => ⟨hint, h⟩, And.right⟩
  | case1 => exact (Survey.reads_pure _).congr Iff.rfl (by simp [Undated])
  | _ => exact (Survey.reads_pure _).congr Iff.rfl (by simp [Undated, Value.isWritable])

/-! ### Cost lines by category -/

/-- A value that is not null and no list of cost lines without flaws. -/
def Unlisted (v : Value) : Prop :=
  v ≠ .null ∧ ∀ vs, v = .list vs → ∃ x ∈ vs, ∀ es, x = .map es → LineItem.Flawed es

/-- A list with a cost line that breaks the reading off. -/
def BreaksAsList (v : Value) : Prop :=
  ∃ vs, v = .list vs ∧ ∃ x ∈ vs, ∃ es, x = .map es ∧ LineItem.Breaks es

theorem reads_readItems (shape : Complaint.Kind) (es : Entries Value) (cs : List Category) :
    (readItems shape es cs).Reads (∃ c ∈ cs, ∃ v, (itemsField c).Holds es v ∧ BreaksAsList v)
      (∃ c ∈ cs, ∃ v, (itemsField c).Holds es v ∧ Unlisted v) (Complaint.Belongs fields es) := by
  induction cs with
  | nil => exact (Survey.reads_pure []).congr (by simp) (by simp)
  | cons c cs ih =>
    have hc : itemsField c ∈ fields := by
      simp [fields, Category.mem_all]
    have hlines : Survey.Judges
        (Survey.list (Survey.record shape LineItem.ofEntries)) BreaksAsList Unlisted :=
      Survey.Judges.list (Survey.Judges.record
        (fun es => (LineItem.reads_ofEntries es).mono fun _ h => h.2) shape)
    rw [readItems]
    exact ((Field.reads_read hc hlines []).bind fun _ => ih.map _).congr (by simp) (by simp)

/-! ### Estimates -/

/-- The fields of an estimate that hold texts. -/
def textFields : List Field :=
  [idField, numberField, customerField, customerNameField, projectTitleField, projectNameField,
    jobAddressField, contactNameField, contactPhoneField, contactEmailField]

/-- The fields of an estimate that hold amounts. -/
def amountFields : List Field := [subTotalField, grandTotalField]

/-- What breaks the reading of an estimate off: an amount beyond the range of floats, in the
estimate or in one of its cost lines, and variables that no map can be made of. -/
def Breaks (es : Entries Value) : Prop :=
  (∃ f ∈ amountFields, ∃ v, f.Holds es v ∧ IsVast v) ∨
    (∃ c v, (itemsField c).Holds es v ∧ BreaksAsList v) ∨
    ∃ v, variablesField.Holds es v ∧ Unmappable v

/-- What an estimate is refused for. -/
def Flawed (es : Entries Value) : Prop :=
  (∃ f ∈ textFields, ∃ v, f.Holds es v ∧ v.isWritable = false) ∨
    (∃ v, versionField.Holds es v ∧ Unversioned v) ∨
    (∃ v, dateField.Holds es v ∧ Undated v) ∨
    (∃ f ∈ amountFields, ∃ v, f.Holds es v ∧ IsSignal v) ∨
    (∃ c v, (itemsField c).Holds es v ∧ Unlisted v) ∨
    ∃ v, variablesField.Holds es v ∧ Unwritable v

theorem reads_ofEntries (shape : Complaint.Kind) (es : Entries Value) :
    (ofEntries shape es).Reads (Breaks es) (Flawed es) (Complaint.Belongs fields es) := by
  have htext : ∀ f ∈ fields, (f.read es none Survey.anyText).Reads False
      (∃ v, f.Holds es v ∧ v.isWritable = false) (Complaint.Belongs fields es) :=
    fun f hf => Field.reads_fine hf Survey.judges_anyText none
  have hamount : ∀ f ∈ fields, (f.read es none Survey.amount).Reads
      (∃ v, f.Holds es v ∧ IsVast v) (∃ v, f.Holds es v ∧ IsSignal v)
      (Complaint.Belongs fields es) :=
    fun f hf => Field.reads_read hf Survey.judges_amount none
  rw [ofEntries]
  -- texts, version and date never break off; amounts, cost lines and variables may
  refine ((htext idField ?_).after fun _ => (htext numberField ?_).after fun _ =>
    (Field.reads_fine ?_ judges_version .null).after fun _ =>
    (Field.reads_fine ?_ judges_date .null).after fun _ =>
    (htext customerField ?_).after fun _ => (htext customerNameField ?_).after fun _ =>
    (htext projectTitleField ?_).after fun _ => (htext projectNameField ?_).after fun _ =>
    (htext jobAddressField ?_).after fun _ => (htext contactNameField ?_).after fun _ =>
    (htext contactPhoneField ?_).after fun _ => (htext contactEmailField ?_).after fun _ =>
    (hamount subTotalField ?_).bind fun _ => (hamount grandTotalField ?_).bind fun _ =>
    (reads_readItems shape es Category.all).bind fun _ =>
    (Field.reads_read ?_ judges_variables []).map _).congr ?_ ?_
  iterate 15 simp [fields]
  · simp [Breaks, amountFields, Category.mem_all, or_assoc]
  · simp only [Flawed, textFields, amountFields, Category.mem_all, List.mem_cons, List.not_mem_nil,
      or_false, exists_eq_or_imp, exists_eq_left, true_and]
    exact iff_of_eq (by ac_rfl)

/-- The record is refused with complaints that name its fields. -/
def Refused (es : Entries Value) : Prop :=
  ∃ cs, cs ≠ [] ∧ read (.map es) = .error (.invalid cs) ∧ ∀ c ∈ cs, c.Names fields es

/-- Reading an estimate breaks off, or refuses the record, or comes to an estimate. -/
theorem read_cases (es : Entries Value) :
    (Breaks es ∧ ∃ f : Fault, f.IsInternal ∧ read (.map es) = .error f) ∨
    (¬ Breaks es ∧ Flawed es ∧ Refused es) ∨
    (¬ Breaks es ∧ ¬ Flawed es ∧ ∃ e, read (.map es) = .ok e) :=
  (reads_ofEntries .recordType es).finish_cases.imp_right <| Or.imp_left <| And.imp_right <|
    And.imp_right fun ⟨cs, hne, hcs, heq⟩ => ⟨cs, hne, heq, fun c hc => (hcs c hc).1⟩

theorem refused_iff {es : Entries Value} : Refused es ↔ ¬ Breaks es ∧ Flawed es := by
  constructor
  · rintro ⟨cs, -, hread, -⟩
    obtain ⟨-, f, hf, heq⟩ | ⟨hbreaks, hflawed, -⟩ | ⟨-, -, e, heq⟩ := read_cases es
    · rw [hread] at heq
      cases heq
      exact absurd rfl (hf cs)
    · exact ⟨hbreaks, hflawed⟩
    · rw [hread] at heq
      cases heq
  · rintro ⟨hbreaks, hflawed⟩
    obtain ⟨h, -⟩ | ⟨-, -, h⟩ | ⟨-, h, -⟩ := read_cases es
    · exact absurd h hbreaks
    · exact h
    · exact absurd hflawed h

/-- A record is read or refused exactly if it does not break the reading off. -/
theorem ok_or_refused_iff (es : Entries Value) :
    (∃ e, read (.map es) = .ok e) ∨ Refused es ↔ ¬ Breaks es := by
  constructor
  · rintro (⟨e, hread⟩ | hrefused)
    · obtain ⟨-, f, -, heq⟩ | ⟨hbreaks, -⟩ | ⟨hbreaks, -⟩ := read_cases es
      · rw [hread] at heq
        cases heq
      · exact hbreaks
      · exact hbreaks
    · exact (refused_iff.1 hrefused).1
  · intro hbreaks
    obtain ⟨h, -⟩ | ⟨-, -, h⟩ | ⟨-, -, h⟩ := read_cases es
    · exact absurd h hbreaks
    · exact .inr h
    · exact .inl h

end Estimate
end Tender
