/-
Records in the form that reading leaves them in: they are read back out of the entries that show them.

* `Value.IsJson` — values without decimal numbers, days and moments;
* `LineItem.IsNormal`, `TemplatePage.IsNormal`, `Estimate.IsNormal`, `Proposal.IsNormal` — what is
  known of a record that was read: its amounts are numbers, its date and its version are of the kinds
  that are kept, and no extra stands under the key of a declared field;
* `Estimate.ReadFrom` — what an estimate that was read is, field by field;
* `LineItem.gives_ofEntries`, `Estimate.ReadFrom.isNormal`, … — a record that was read is normal;
* `LineItem.comes_ofEntries`, `Estimate.comes_ofEntries`, … — a normal record is read back from its
  entries, up to extras of one key, which become one;
* `records_reread` — so reading what a record that was read shows changes nothing more.
-/
import Tender.Proofs.Helper.Printed
import Tender.Proofs.Record.Accepted
import Tender.Proofs.Value.Order

namespace Tender

open Survey (Comes Gives)

/-- A value as it is written in JSON: no part of it is a decimal number, a day or a moment. -/
def Value.IsJson (v : Value) : Prop :=
  ∀ w ∈ v.parts, (∀ d, w ≠ .decimal d) ∧ (∀ d, w ≠ .date d) ∧ ∀ m, w ≠ .moment m

/-! ### Texts and amounts -/

theorem Amount.parse_ne_nan {v : Value} {x : Binary64} (h : parse v = .ok (some x)) : x ≠ .nan := by
  revert h
  fun_cases parse v with
  | case1 n y hy =>
    rintro ⟨⟩
    rw [Binary64.ofInt?, Option.guard_eq_some_iff] at hy
    exact hy.1 ▸ Binary64.nearest_ne_nan _ _ _
  | case2 => rintro ⟨⟩
  | case3 y =>
    split
    · rintro ⟨⟩
    · rintro ⟨⟩
      assumption
  | case4 d y =>
    split
    · rintro ⟨⟩
    · rintro ⟨⟩
      assumption
  | case5 => rintro ⟨⟩
  | case6 s =>
    intro h
    obtain ⟨r, -, rfl⟩ := Option.map_eq_some_iff.1 (Except.ok.inj h)
    exact Binary64.ofScientific_ne_nan _ _ _
  | case7 => rintro ⟨⟩

namespace Survey

theorem gives_anyText (v : Value) : (anyText v).Gives fun _ => True :=
  (judges_anyText v).follows.gives fun _ _ => trivial

/-- An amount that was read is a number. -/
theorem gives_amount (v : Value) : (amount v).Gives fun a => a ≠ some .nan := by
  fun_cases amount v with
  | case1 => exact gives_pure (Option.some_ne_none _).symm
  | case2 => exact gives_pure (Option.some_ne_none _).symm
  | case3 v _ _ x hparse =>
    refine gives_pure fun hx => ?_
    rw [hx] at hparse
    exact Amount.parse_ne_nan hparse rfl
  | case4 => exact gives_refuse
  | case5 => exact gives_fail

theorem gives_amountField (f : Field) (es : Entries Value) :
    (f.read es none amount).Gives fun a => a ≠ some .nan :=
  Field.gives_read (fun v _ => gives_amount v) fun _ => nofun

theorem comes_anyText (a : Option Text) : (anyText (LineItem.textValue a)).Comes a := by
  cases a <;> exact Comes.pure _

theorem comes_amount {a : Option Binary64} (h : a ≠ some .nan) :
    (amount (LineItem.numberValue a)).Comes a := by
  cases a with
  | none => exact Comes.pure none
  | some x =>
    have hx : x ≠ .nan := by
      rintro rfl
      exact h rfl
    have hread : amount (.float x) = pure (some x) := by
      rw [amount, Amount.parse_float hx]
      · nofun
      · nofun
    rw [LineItem.numberValue, hread]
    exact Comes.pure (some x)

end Survey

/-! ### Cost lines -/

namespace LineItem

variable {item : LineItem}

/-- The amounts are numbers, and no extra has the key of a declared field. -/
structure IsNormal (item : LineItem) : Prop where
  cost : item.cost ≠ some .nan
  quantity : item.quantity ≠ some .nan
  total : item.total ≠ some .nan
  extras : Field.Fresh fields item.extras

/-- The line with extras of one key made one. -/
def merged (item : LineItem) : LineItem :=
  { item with extras := Entries.ofPairs item.extras }

theorem gives_ofEntries (es : Entries Value) : (ofEntries es).Gives IsNormal := by
  have htext (f : Field) : (f.read es none Survey.anyText).Gives fun _ => True :=
    Field.gives_read (fun v _ => Survey.gives_anyText v) fun _ => trivial
  have hamount (f : Field) := Survey.gives_amountField f es
  exact (htext _).bind fun _ => (htext _).bind fun _ => (htext _).bind fun _ =>
    (htext _).bind fun _ => (hamount _).bind fun _ => (hamount _).bind fun _ =>
    (hamount _).bind fun _ => Survey.gives_pure fun htotal hquantity hcost _ _ _ _ =>
      ⟨hcost, hquantity, htotal, Field.fresh_extras fields es⟩

theorem nodup_keys : (fields.map Field.key).Nodup := by
  decide +kernel

/-- A cost line is read back from its entries. -/
theorem comes_ofEntries (h : item.IsNormal) :
    (ofEntries (item.toEntries true)).Comes item.merged := by
  have hfresh : Field.Fresh (item.declared.map Prod.fst) item.extras := h.extras
  have hget {f : Field} {v : Value} (hmem : (f, v) ∈ item.declared) :
      Entries.get? f.key (item.toEntries true) = some v := hfresh.get? nodup_keys hmem
  have htext {f : Field} {a : Option Text} (hmem : (f, textValue a) ∈ item.declared) :
      (f.read (item.toEntries true) none Survey.anyText).Comes a :=
    Field.comes_read (hget hmem) (Survey.comes_anyText a)
  have hamount {f : Field} {a : Option Binary64} (hmem : (f, numberValue a) ∈ item.declared)
      (ha : a ≠ some .nan) : (f.read (item.toEntries true) none Survey.amount).Comes a :=
    Field.comes_read (hget hmem) (Survey.comes_amount ha)
  have hextras : Field.extras fields (item.toEntries true) = Entries.ofPairs item.extras :=
    hfresh.extras_shown nodup_keys
  rw [ofEntries, hextras]
  exact (htext (by simp [declared])).bind <| (htext (by simp [declared])).bind <|
    (htext (by simp [declared])).bind <| (htext (by simp [declared])).bind <|
    (hamount (by simp [declared]) h.cost).bind <|
    (hamount (by simp [declared]) h.quantity).bind <|
    (hamount (by simp [declared]) h.total).bind <| Comes.pure item.merged

theorem toEntries_merged (h : item.IsNormal) :
    item.merged.toEntries true = item.toEntries true := by
  have hfresh : Field.Fresh (item.declared.map Prod.fst) item.extras := h.extras
  exact hfresh.putAll_ofPairs

end LineItem

/-! ### Estimates -/

namespace Estimate

variable {e : Estimate}

/-- A value of a kind that a version is kept in, a whole float being none. -/
def IsVersion : Value → Prop
  | .null | .int _ | .text _ => True
  | .float x => x.toInt? = none
  | _ => False

/-- A value of a kind that a date is kept in. -/
def IsDate : Value → Prop
  | .null | .int _ | .float _ | .text _ => True
  | _ => False

/-- The amounts are numbers, the version and the date are of the kinds that are kept, the cost lines
are normal, the variables have names of their own, and no extra has the key of a declared field. -/
structure IsNormal (e : Estimate) : Prop where
  version : IsVersion e.version
  date : IsDate e.date
  subTotal : e.subTotal ≠ some .nan
  grandTotal : e.grandTotal ≠ some .nan
  items : ∀ c, ∀ item ∈ e.items c, item.IsNormal
  values : (Entries.keys e.values).Nodup
  extras : Field.Fresh fields e.extras

/-- The estimate with extras of one key made one, those of its cost lines too. -/
def merged (e : Estimate) : Estimate :=
  { e with items := fun c => (e.items c).map LineItem.merged, extras := Entries.ofPairs e.extras }

theorem gives_version {v : Value} (hv : ∀ d, v ≠ .decimal d) : (readVersion v).Gives IsVersion := by
  refine (judges_version v).follows.gives fun a ha => ?_
  have ha := ha []
  cases v with
  | decimal d => exact absurd rfl (hv d)
  | float x =>
    cases ha
    cases hx : x.toInt? with
    | none => exact hx
    | some n => trivial
  | list vs => cases ha
  | map es => cases ha
  | date d => cases ha
  | moment m => cases ha
  | _ =>
    cases ha
    trivial

theorem gives_date (v : Value) : (readDate v).Gives IsDate := by
  have htext (v : Value) :
      (do return LineItem.textValue (← Survey.anyText v) : Survey Value).Gives IsDate :=
    (Survey.gives_anyText v).bind fun a => Survey.gives_pure fun _ => by
      cases a <;> trivial
  fun_cases readDate v with
  | case5 v => exact htext v
  | _ => exact Survey.gives_pure trivial

theorem gives_variables (v : Value) :
    (readVariables v).Gives fun values => (Entries.keys values).Nodup := by
  fun_cases readVariables v with
  | case1 => exact Survey.gives_pure List.nodup_nil
  | case2 => exact Survey.gives_pure (Entries.nodup_ofPairs _)
  | case3 => exact Survey.gives_refuse
  | case4 => exact Survey.gives_refuse
  | case5 => exact Survey.gives_fail

theorem gives_readItems (shape : Complaint.Kind) (es : Entries Value) (cs : List Category) :
    (readItems shape es cs).Gives fun read => ∀ c, ∀ item ∈ itemsOf read c, item.IsNormal := by
  induction cs with
  | nil => exact Survey.gives_pure fun _ _ hitem => absurd hitem List.not_mem_nil
  | cons c cs ih =>
    have hlines : ((itemsField c).read es []
        (Survey.list (Survey.record shape LineItem.ofEntries))).Gives
        fun items => ∀ item ∈ items, item.IsNormal :=
      Field.gives_read (fun v _ => Gives.list (Gives.record LineItem.gives_ofEntries shape) v)
        fun _ _ hitem => absurd hitem List.not_mem_nil
    rw [readItems]
    refine hlines.bind fun items => ih.bind fun rest => Survey.gives_pure fun hrest hitems d => ?_
    rw [itemsOf, List.lookup_cons]
    split
    · exact hitems
    · exact hrest d

/-- The estimate is what the fields are read as, each without a complaint. -/
structure ReadFrom (shape : Complaint.Kind) (es : Entries Value) (e : Estimate) : Prop where
  id : (idField.read es none Survey.anyText).Comes e.id
  number : (numberField.read es none Survey.anyText).Comes e.number
  version : (versionField.read es .null readVersion).Comes e.version
  date : (dateField.read es .null readDate).Comes e.date
  customer : (customerField.read es none Survey.anyText).Comes e.customer
  customerName : (customerNameField.read es none Survey.anyText).Comes e.customerName
  projectTitle : (projectTitleField.read es none Survey.anyText).Comes e.projectTitle
  projectName : (projectNameField.read es none Survey.anyText).Comes e.projectName
  jobAddress : (jobAddressField.read es none Survey.anyText).Comes e.jobAddress
  contactName : (contactNameField.read es none Survey.anyText).Comes e.contactName
  contactPhone : (contactPhoneField.read es none Survey.anyText).Comes e.contactPhone
  contactEmail : (contactEmailField.read es none Survey.anyText).Comes e.contactEmail
  subTotal : (subTotalField.read es none Survey.amount).Comes e.subTotal
  grandTotal : (grandTotalField.read es none Survey.amount).Comes e.grandTotal
  items : ∃ read, (readItems shape es Category.all).Comes read ∧ e.items = itemsOf read
  values : (variablesField.read es [] readVariables).Comes e.values
  extras : e.extras = Field.extras fields es

theorem gives_ofEntries (shape : Complaint.Kind) (es : Entries Value) :
    (ofEntries shape es).Gives (ReadFrom shape es) := by
  have hfield {α : Type} {read : Value → Survey α} (h : ∀ v, (read v).Follows (read v)) (f : Field)
      (missing : α) : (f.read es missing read).Gives (f.read es missing read).Comes :=
    (Survey.Follows.read h f es missing).gives fun _ ha => ha
  have htext (f : Field) := hfield (fun v => (Survey.judges_anyText v).follows) f none
  have hamount (f : Field) := hfield (fun v => (Survey.judges_amount v).follows) f none
  have hitems := (follows_readItems shape shape es Category.all).gives fun _ hread => hread
  exact (htext _).bind fun _ => (htext _).bind fun _ =>
    (hfield (fun v => (judges_version v).follows) _ _).bind fun _ =>
    (hfield (fun v => (judges_date v).follows) _ _).bind fun _ =>
    (htext _).bind fun _ => (htext _).bind fun _ => (htext _).bind fun _ => (htext _).bind fun _ =>
    (htext _).bind fun _ => (htext _).bind fun _ => (htext _).bind fun _ => (htext _).bind fun _ =>
    (hamount _).bind fun _ => (hamount _).bind fun _ => hitems.bind fun _ =>
    (hfield (fun v => (judges_variables v).follows) _ _).bind fun _ =>
    Survey.gives_pure fun hvalues hitems hgrand hsub hemail hphone hcontact haddress hname htitle
      hcustomerName hcustomer hdate hversion hnumber hid =>
      ⟨hid, hnumber, hversion, hdate, hcustomer, hcustomerName, htitle, hname, haddress, hcontact,
        hphone, hemail, hsub, hgrand, ⟨_, hitems, rfl⟩, hvalues, rfl⟩

/-- An estimate that was read is normal, unless its version was a decimal number. -/
theorem ReadFrom.isNormal {shape : Complaint.Kind} {es : Entries Value} (h : e.ReadFrom shape es)
    (hdecimal : ∀ d, ¬ versionField.Holds es (.decimal d)) : e.IsNormal where
  version := by
    have hgives : (versionField.read es .null readVersion).Gives IsVersion :=
      Field.gives_read (fun v hv => gives_version fun d hd => hdecimal d (hd ▸ hv)) fun _ => trivial
    exact hgives.of_comes h.version
  date := by
    have hgives : (dateField.read es .null readDate).Gives IsDate :=
      Field.gives_read (fun v _ => gives_date v) fun _ => trivial
    exact hgives.of_comes h.date
  subTotal := (Survey.gives_amountField _ es).of_comes h.subTotal
  grandTotal := (Survey.gives_amountField _ es).of_comes h.grandTotal
  items := by
    obtain ⟨read, hread, hitems⟩ := h.items
    rw [hitems]
    exact (gives_readItems shape es Category.all).of_comes hread
  values := by
    have hgives : (variablesField.read es [] readVariables).Gives
        fun values => (Entries.keys values).Nodup :=
      Field.gives_read (fun v _ => gives_variables v) fun _ => List.nodup_nil
    exact hgives.of_comes h.values
  extras := h.extras ▸ Field.fresh_extras fields es

theorem nodup_keys : (fields.map Field.key).Nodup := by
  decide +kernel

theorem comes_version {v : Value} (h : IsVersion v) : (readVersion v).Comes v := by
  cases v with
  | float x =>
    have hread : readVersion (.float x) = pure (.float x) := by
      rw [readVersion, show x.toInt? = none from h]
    rw [hread]
    exact Comes.pure _
  | null => exact Comes.pure _
  | int n => exact Comes.pure _
  | text s => exact Comes.pure _
  | _ => exact h.elim

theorem comes_date {v : Value} (h : IsDate v) : (readDate v).Comes v := by
  cases v with
  | null => exact Comes.pure _
  | int n => exact Comes.pure _
  | float x => exact Comes.pure _
  | text s => exact Comes.pure _
  | _ => exact h.elim

/-- Variables with names of their own are read back. -/
theorem comes_variables {values : Entries Text} (h : (Entries.keys values).Nodup) :
    (readVariables (textMap values)).Comes values := by
  cases hvalues : values with
  | nil => exact Comes.pure []
  | cons first rest =>
    rw [← hvalues]
    have hpresent : (textMap values).isPresent = true := by
      rw [hvalues]
      rfl
    have hpairs : pairs? (textMap values) =
        .ok (some (values.map fun p => (.text p.1, .text p.2))) := by
      rw [textMap, pairs?, List.map_map]
      rfl
    have hwritable : areWritable (values.map fun p => (.text p.1, .text p.2)) = true := by
      simp [areWritable, Value.isWritable]
    have hvariables : variablesOf (values.map fun p => (.text p.1, .text p.2)) = values := by
      rw [variablesOf, List.filter_eq_self.2, List.map_map]
      · exact (congrArg Entries.ofPairs (List.map_id _)).trans (Entries.ofPairs_of_nodup h)
      · rintro p hp
        obtain ⟨⟨k, s⟩, -, rfl⟩ := List.mem_map.1 hp
        rfl
    have hread : readVariables (textMap values) = pure values := by
      rw [readVariables, hpresent, hpairs]
      simp only [hwritable, hvariables]
      rfl
    rw [hread]
    exact Comes.pure values

theorem comes_readItems (shape : Complaint.Kind) {shown : Entries Value} (e : Estimate)
    (hitems : ∀ c, ∀ item ∈ e.items c, item.IsNormal)
    (hget : ∀ c, Entries.get? (itemsField c).key shown =
      some (.list ((e.items c).map fun item => .map (item.toEntries true)))) (cs : List Category) :
    (readItems shape shown cs).Comes (cs.map fun c => (c, e.merged.items c)) := by
  induction cs with
  | nil => exact Comes.pure []
  | cons c cs ih =>
    have hlines : ((itemsField c).read shown []
        (Survey.list (Survey.record shape LineItem.ofEntries))).Comes (e.merged.items c) :=
      Field.comes_read (hget c) (Comes.list fun item hitem =>
        LineItem.comes_ofEntries (hitems c item hitem))
    rw [readItems, List.map_cons]
    exact hlines.bind (ih.bind (Comes.pure _))

theorem itemsOf_all (items : Category → List LineItem) :
    itemsOf (Category.all.map fun c => (c, items c)) = items := by
  funext c
  cases c <;> rfl

theorem fields_declared (byKey : Bool) (e : Estimate) :
    (e.declared byKey).map Prod.fst = fields := by
  simp [declared, fields, Function.comp_def]

theorem IsNormal.fresh (h : e.IsNormal) : Field.Fresh ((e.declared true).map Prod.fst) e.extras :=
  fields_declared true e ▸ h.extras

/-- An estimate is read back from its entries. -/
theorem comes_ofEntries (shape : Complaint.Kind) (h : e.IsNormal) :
    (ofEntries shape (e.toEntries true)).Comes e.merged := by
  have hkeys : (((e.declared true).map Prod.fst).map Field.key).Nodup :=
    fields_declared true e ▸ nodup_keys
  have hget {f : Field} {v : Value} (hmem : (f, v) ∈ e.declared true) :
      Entries.get? f.key (e.toEntries true) = some v := h.fresh.get? hkeys hmem
  have htext {f : Field} {a : Option Text} (hmem : (f, LineItem.textValue a) ∈ e.declared true) :
      (f.read (e.toEntries true) none Survey.anyText).Comes a :=
    Field.comes_read (hget hmem) (Survey.comes_anyText a)
  have hamount {f : Field} {a : Option Binary64}
      (hmem : (f, LineItem.numberValue a) ∈ e.declared true) (ha : a ≠ some .nan) :
      (f.read (e.toEntries true) none Survey.amount).Comes a :=
    Field.comes_read (hget hmem) (Survey.comes_amount ha)
  have hversion : (versionField.read (e.toEntries true) .null readVersion).Comes e.version :=
    Field.comes_read (hget (by simp [declared])) (comes_version h.version)
  have hdate : (dateField.read (e.toEntries true) .null readDate).Comes e.date :=
    Field.comes_read (hget (by simp [declared])) (comes_date h.date)
  have hitems := comes_readItems shape e h.items
    (fun c => hget (List.mem_append_left _ (List.mem_append_right _
      (List.mem_map_of_mem (Category.mem_all c))))) Category.all
  have hvalues : (variablesField.read (e.toEntries true) [] readVariables).Comes e.values :=
    Field.comes_read (hget (by simp [declared])) (comes_variables h.values)
  have hextras : Field.extras fields (e.toEntries true) = Entries.ofPairs e.extras :=
    fields_declared true e ▸ h.fresh.extras_shown hkeys
  have hmerged : { e with
      items := itemsOf (Category.all.map fun c => (c, e.merged.items c)),
      extras := Entries.ofPairs e.extras } = e.merged := by
    rw [itemsOf_all]
    rfl
  rw [ofEntries, hextras, ← hmerged]
  -- field after field in the order of the reading
  exact (htext (by simp [declared])).bind <| (htext (by simp [declared])).bind <|
    hversion.bind <| hdate.bind <|
    (htext (by simp [declared])).bind <| (htext (by simp [declared])).bind <|
    (htext (by simp [declared])).bind <| (htext (by simp [declared])).bind <|
    (htext (by simp [declared])).bind <| (htext (by simp [declared])).bind <|
    (htext (by simp [declared])).bind <| (htext (by simp [declared])).bind <|
    (hamount (by simp [declared]) h.subTotal).bind <|
    (hamount (by simp [declared]) h.grandTotal).bind <|
    hitems.bind <| hvalues.bind <| Comes.pure _

theorem toEntries_merged (h : e.IsNormal) : e.merged.toEntries true = e.toEntries true := by
  have hlines (c : Category) : (e.merged.items c).map (fun item => Value.map (item.toEntries true)) =
      (e.items c).map fun item => .map (item.toEntries true) := by
    rw [merged, List.map_map]
    exact List.map_congr_left fun item hitem =>
      congrArg Value.map (LineItem.toEntries_merged (h.items c item hitem))
  have hdeclared : e.merged.declared true = e.declared true := by
    simp only [declared, hlines]
    rfl
  rw [toEntries, hdeclared]
  exact h.fresh.putAll_ofPairs

end Estimate

/-! ### Templates -/

namespace TemplatePage

variable {page : TemplatePage}

/-- No extra has the key of the declared field. -/
def IsNormal (page : TemplatePage) : Prop :=
  Field.Fresh [contentField] page.extras

/-- The page with extras of one key made one. -/
def merged (page : TemplatePage) : TemplatePage :=
  { page with extras := Entries.ofPairs page.extras }

theorem gives_ofEntries (es : Entries Value) : (ofEntries es).Gives IsNormal := by
  have hcontent : (contentField.read es [] readContent).Gives fun _ => True :=
    Field.gives_read (fun v _ => (Survey.follows_of_tolerant tolerant_readContent v).gives
      fun _ _ => trivial) fun _ => trivial
  exact hcontent.bind fun _ => Survey.gives_pure fun _ => Field.fresh_extras [contentField] es

/-- The declared field with its value. -/
def declared (page : TemplatePage) : List (Field × Value) :=
  [(contentField, .text page.content)]

theorem comes_content (s : Text) : (readContent (.text s)).Comes s :=
  Comes.pure s

/-- A page is read back from its entries. -/
theorem comes_ofEntries (h : page.IsNormal) : (ofEntries page.toEntries).Comes page.merged := by
  have hfresh : Field.Fresh (page.declared.map Prod.fst) page.extras := h
  have hkeys : ((page.declared.map Prod.fst).map Field.key).Nodup := List.nodup_singleton _
  have hget : Entries.get? contentField.key page.toEntries = some (.text page.content) :=
    hfresh.get? hkeys (List.mem_singleton_self _)
  have hextras : Field.extras [contentField] page.toEntries = Entries.ofPairs page.extras :=
    hfresh.extras_shown hkeys
  rw [ofEntries, hextras]
  exact (Field.comes_read hget (comes_content _)).bind (Comes.pure _)

theorem toEntries_merged (h : page.IsNormal) : page.merged.toEntries = page.toEntries := by
  have hfresh : Field.Fresh (page.declared.map Prod.fst) page.extras := h
  exact hfresh.putAll_ofPairs

end TemplatePage

namespace Proposal

variable {p : Proposal}

/-- The pages are normal, and no extra has the key of a declared field. -/
structure IsNormal (p : Proposal) : Prop where
  pages : ∀ page ∈ p.pages, page.IsNormal
  extras : Field.Fresh fields p.extras

/-- The template with extras of one key made one, those of its pages too. -/
def merged (p : Proposal) : Proposal :=
  { p with pages := p.pages.map TemplatePage.merged, extras := Entries.ofPairs p.extras }

/-- The declared fields with their values. -/
def declared (p : Proposal) : List (Field × Value) :=
  [(idField, LineItem.textValue p.id), (titleField, .text p.title), (versionField, .int p.version),
    (TemplatePage.contentField, .text p.content),
    (pagesField, .list (p.pages.map fun page => .map page.toEntries))]

/-- A template that was read is normal. -/
theorem gives_ofEntries (shape : Complaint.Kind) (es : Entries Value) :
    (ofEntries shape es).Gives IsNormal := by
  have hany {α : Type} {read : Value → Survey α} (h : Survey.Tolerant read) (f : Field)
      (missing : α) : (f.read es missing read).Gives fun _ => True :=
    Field.gives_read (fun v _ => (Survey.follows_of_tolerant h v).gives fun _ _ => trivial)
      fun _ => trivial
  have hpages : (pagesField.read es []
      (Survey.list (Survey.record shape TemplatePage.ofEntries))).Gives
      fun pages => ∀ page ∈ pages, page.IsNormal :=
    Field.gives_read (fun v _ => Gives.list (Gives.record TemplatePage.gives_ofEntries shape) v)
      fun _ _ hpage => absurd hpage List.not_mem_nil
  exact (hany tolerant_readId _ _).bind fun _ => (hany Survey.tolerant_text _ _).bind fun _ =>
    (hany Survey.tolerant_integer _ _).bind fun _ =>
    (hany TemplatePage.tolerant_readContent _ _).bind fun _ => hpages.bind fun _ =>
    Survey.gives_pure fun hpages _ _ _ _ => ⟨hpages, Field.fresh_extras fields es⟩

theorem nodup_keys : (fields.map Field.key).Nodup := by
  decide +kernel

theorem comes_id (a : Option Text) : (readId (LineItem.textValue a)).Comes a := by
  cases a <;> exact Comes.pure _

/-- A template is read back from its entries. -/
theorem comes_ofEntries (shape : Complaint.Kind) (h : p.IsNormal) :
    (ofEntries shape p.toEntries).Comes p.merged := by
  have hfresh : Field.Fresh (p.declared.map Prod.fst) p.extras := h.extras
  have hget {f : Field} {v : Value} (hmem : (f, v) ∈ p.declared) :
      Entries.get? f.key p.toEntries = some v := hfresh.get? nodup_keys hmem
  have hlist : Entries.get? pagesField.key p.toEntries =
      some (.list (p.pages.map fun page => .map page.toEntries)) := hget (by simp [declared])
  have hpages : (pagesField.read p.toEntries []
      (Survey.list (Survey.record shape TemplatePage.ofEntries))).Comes p.merged.pages :=
    Field.comes_read hlist (Comes.list fun page hpage =>
      TemplatePage.comes_ofEntries (h.pages page hpage))
  have hextras : Field.extras fields p.toEntries = Entries.ofPairs p.extras :=
    hfresh.extras_shown nodup_keys
  have hid : (idField.read p.toEntries none readId).Comes p.id :=
    Field.comes_read (hget (by simp [declared])) (comes_id p.id)
  have htitle : (titleField.read p.toEntries [] Survey.text).Comes p.title :=
    Field.comes_read (hget (v := .text p.title) (by simp [declared])) (Comes.pure _)
  have hversion : (versionField.read p.toEntries 1 Survey.integer).Comes p.version :=
    Field.comes_read (hget (v := .int p.version) (by simp [declared])) (Comes.pure _)
  have hcontent : (TemplatePage.contentField.read p.toEntries []
      TemplatePage.readContent).Comes p.content :=
    Field.comes_read (hget (by simp [declared])) (TemplatePage.comes_content p.content)
  rw [ofEntries, hextras]
  exact hid.bind <| htitle.bind <| hversion.bind <| hcontent.bind <| hpages.bind <|
    Comes.pure p.merged

theorem toEntries_merged (h : p.IsNormal) : p.merged.toEntries = p.toEntries := by
  have hpages : p.merged.pages.map (fun page => Value.map page.toEntries) =
      p.pages.map fun page => .map page.toEntries := by
    rw [merged, List.map_map]
    exact List.map_congr_left fun page hpage =>
      congrArg Value.map (TemplatePage.toEntries_merged (h.pages page hpage))
  have hfresh : Field.Fresh (p.declared.map Prod.fst) p.extras := h.extras
  rw [toEntries, hpages]
  exact hfresh.putAll_ofPairs

end Proposal

/-! ### Reading again -/

/-- What a record that was read shows is read as a record that shows the same: an estimate out of
JSON, and a template. -/
theorem records_reread :
    (∀ es e, (Value.map es).IsJson → Estimate.read (.map es) = .ok e →
      ∃ e', Estimate.read (.map (e.toEntries true)) = .ok e' ∧
        e'.toEntries true = e.toEntries true) ∧
    ∀ es p, Proposal.read (.map es) = .ok p →
      ∃ p', Proposal.read (.map p.toEntries) = .ok p' ∧ p'.toEntries = p.toEntries := by
  refine ⟨fun es e hjson hread => ?_, fun es p hread => ?_⟩
  · have hversion : ∀ d, ¬ Estimate.versionField.Holds es (.decimal d) := by
      intro d hd
      obtain ⟨key, hmem⟩ := Field.mem_of_holds hd
      exact (hjson _ (Value.parts_subset_map hmem (Value.mem_parts_self _))).1 d rfl
    have hnormal : e.IsNormal :=
      ((Estimate.gives_ofEntries .recordType es).finish hread).isNormal hversion
    -- what is read again may differ in its extras, but shows the same
    exact ⟨e.merged, (Estimate.comes_ofEntries .recordType hnormal).finish,
      Estimate.toEntries_merged hnormal⟩
  · have hnormal : p.IsNormal := (Proposal.gives_ofEntries .recordType es).finish hread
    exact ⟨p.merged, (Proposal.comes_ofEntries .recordType hnormal).finish,
      Proposal.toEntries_merged hnormal⟩

/-- An estimate with both names of a field, a formatted amount, a whole float, a cost line with an
extra, and pairs for variables. -/
def mixedEstimate : Entries Value :=
  [(lit "id", .int 7), (lit "_id", .bool true),
    (lit "version_number", .float (.ofScientific false 2 0)), (lit "date", .list [.null]),
    (lit "subTotal", .text (lit "$1,200.50")), (lit "note", .map []),
    (lit "labor", .list [.map [(lit "uom", .text (lit "hr")), (lit "cost", .int 5)]]),
    (lit "customVariables", .list [.list [.text ['a'], .int 1], .list [.text ['b'], .null]])]

/-- A template whose page has an extra and no content. -/
def mixedTemplate : Entries Value :=
  [(lit "version", .text (lit " 3.0")), (lit "id", .int 7),
    (lit "pages", .list [.map [(lit "content", .null), (lit "order", .int 1)]])]

theorem records_reread_mixed :
    (∃ e e', Estimate.read (.map mixedEstimate) = .ok e ∧
      Estimate.read (.map (e.toEntries true)) = .ok e' ∧ e'.toEntries true = e.toEntries true) ∧
    ∃ p p', Proposal.read (.map mixedTemplate) = .ok p ∧
      Proposal.read (.map p.toEntries) = .ok p' ∧ p'.toEntries = p.toEntries := by
  have hjson : (Value.map mixedEstimate).IsJson := by
    simp [mixedEstimate, Value.IsJson, Value.parts, Value.partsOf, Value.partsUnder]
  have hestimate : (Estimate.read (.map mixedEstimate)).isOk = true := by
    decide +kernel
  have htemplate : (Proposal.read (.map mixedTemplate)).isOk = true := by
    decide +kernel
  refine ⟨?_, ?_⟩
  · cases hread : Estimate.read (.map mixedEstimate) with
    | error f =>
      rw [hread] at hestimate
      cases hestimate
    | ok e =>
      obtain ⟨e', hagain, hshown⟩ := records_reread.1 mixedEstimate e hjson hread
      exact ⟨e, e', rfl, hagain, hshown⟩
  · cases hread : Proposal.read (.map mixedTemplate) with
    | error f =>
      rw [hread] at htemplate
      cases htemplate
    | ok p =>
      obtain ⟨p', hagain, hshown⟩ := records_reread.2 mixedTemplate p hread
      exact ⟨p, p', rfl, hagain, hshown⟩

end Tender
