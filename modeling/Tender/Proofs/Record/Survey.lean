/-
Readings of records: when they break off, and what they complain about.

* `Survey.Reads` — what a reading comes to, whatever has been noted before it;
* `Survey.Reads.bind` — readings after one another;
* `Survey.Reads.finish_cases` — a reading ends with a fault, with complaints or with a record;
* `Survey.judges_amount` — amounts break off on integers beyond the range of floats;
* `Survey.Judges.list`, `Survey.Judges.record` — lists and records, from their items and fields;
* `Field.reads_read` — what is wrong with a field is said under the key that its value has.
-/
import Mathlib.Logic.Basic
import Tender.Record.Survey
import Tender.Service.Message

namespace Tender

/-! ### Complaints -/

/-- A fault that is no complaint about a record. -/
def Fault.IsInternal (f : Fault) : Prop :=
  ∀ cs, f ≠ .invalid cs

/-- A complaint that can be sent if the value can in which it was found. -/
def Complaint.Passes (v : Value) (c : Complaint) : Prop :=
  Json.isSendable v = true → Service.Response.canSend c = true

/-- A complaint about one of the fields, by the key that its value has in the entries. -/
def Complaint.Names (fields : List Field) (es : Entries Value) (c : Complaint) : Prop :=
  ∃ f ∈ fields, ∃ key v rest, f.find? es = some (key, v) ∧ c.place = key :: rest

/-- A complaint that names one of the fields, and that can be sent if the entries can. -/
def Complaint.Belongs (fields : List Field) (es : Entries Value) (c : Complaint) : Prop :=
  c.Names fields es ∧ c.Passes (.map es)

theorem Json.isSpelled_ofNat (n : Nat) : isSpelled (Text.ofNat n) = true := by
  rw [isSpelled, Bool.not_eq_true', List.any_eq_false]
  intro c hc hhalf
  have hdigit : c.isDigit = true := Nat.isDigit_of_mem_toDigits (by omega) (by omega) hc
  rw [Char.isDigit_iff_toNat, show '9'.toNat = 57 from rfl] at hdigit
  rw [Text.isHalf, Bool.and_eq_true, decide_eq_true_iff] at hhalf
  omega

theorem Complaint.canSend_under {step : Text} {c : Complaint} :
    Service.Response.canSend (c.under step) =
      (Json.isSpelled step && Service.Response.canSend c) := by
  rw [Service.Response.canSend, Service.Response.canSend, Complaint.under, List.all_cons,
    Bool.and_assoc]

namespace Survey

variable {α β : Type} {breaks breaks' flawed flawed' : Prop} {sort sort' : Complaint → Prop}

/-- What a reading comes to, whatever has been noted before it: it breaks off with a fault under one
condition, and otherwise notes complaints of a sort under another. -/
structure Reads (s : Survey α) (breaks flawed : Prop) (sort : Complaint → Prop) : Prop where
  fault : breaks → ∃ f : Fault, f.IsInternal ∧ ∀ noted, s noted = .error f
  answer : ¬ breaks → ∃ a cs, (cs ≠ [] ↔ flawed) ∧ (∀ c ∈ cs, sort c) ∧
    ∀ noted, s noted = .ok (a, noted ++ cs)

theorem reads_pure (a : α) : (pure a : Survey α).Reads False False sort where
  fault h := h.elim
  answer _ := ⟨a, [], ⟨fun h => h rfl, False.elim⟩, fun _ hc => absurd hc List.not_mem_nil,
    fun noted => congrArg (fun cs => Except.ok (a, cs)) (List.append_nil noted).symm⟩

theorem reads_complain {kind : Complaint.Kind} {v : Value} (h : sort ⟨[], kind, v⟩) :
    (complain kind v).Reads False True sort where
  fault h := h.elim
  answer _ := ⟨(), [⟨[], kind, v⟩], iff_of_true (List.cons_ne_nil _ _) trivial,
    List.forall_mem_singleton.2 h, fun _ => rfl⟩

theorem reads_fail {f : Fault} (hf : f.IsInternal) :
    (fail f : Survey α).Reads True flawed sort where
  fault _ := ⟨f, hf, fun _ => rfl⟩
  answer h := absurd trivial h

namespace Reads

theorem congr {s : Survey α} (h : s.Reads breaks flawed sort) (hb : breaks ↔ breaks')
    (hf : flawed ↔ flawed') : s.Reads breaks' flawed' sort := by
  rwa [← propext hb, ← propext hf]

theorem mono {s : Survey α} (h : s.Reads breaks flawed sort) (hsort : ∀ c, sort c → sort' c) :
    s.Reads breaks flawed sort' where
  fault := h.fault
  answer hb := by
    obtain ⟨a, cs, hflawed, hcs, heq⟩ := h.answer hb
    exact ⟨a, cs, hflawed, fun c hc => hsort c (hcs c hc), heq⟩

/-- Readings after one another.  The second breaks off only if the first does not, but since it does
so whatever the first came to, either way the whole breaks off. -/
theorem bind {x : Survey α} {f : α → Survey β} (hx : x.Reads breaks flawed sort)
    (hf : ∀ a, (f a).Reads breaks' flawed' sort) :
    (x >>= f).Reads (breaks ∨ breaks') (flawed ∨ flawed') sort where
  fault h := by
    by_cases hb : breaks
    · obtain ⟨fault, hfault, heq⟩ := hx.fault hb
      refine ⟨fault, hfault, fun noted => ?_⟩
      show (x noted >>= fun p => f p.1 p.2) = _
      rw [heq]
      rfl
    · obtain ⟨a, cs, -, -, heq⟩ := hx.answer hb
      obtain ⟨fault, hfault, heq'⟩ := (hf a).fault (h.resolve_left hb)
      refine ⟨fault, hfault, fun noted => ?_⟩
      show (x noted >>= fun p => f p.1 p.2) = _
      rw [heq]
      exact heq' _
  answer h := by
    obtain ⟨hb, hb'⟩ := not_or.1 h
    obtain ⟨a, cs, hflawed, hcs, heq⟩ := hx.answer hb
    obtain ⟨b, cs', hflawed', hcs', heq'⟩ := (hf a).answer hb'
    refine ⟨b, cs ++ cs', ?_, fun c hc => (List.mem_append.1 hc).elim (hcs c) (hcs' c),
      fun noted => ?_⟩
    · rw [← hflawed, ← hflawed', ← not_and_or, ← List.append_eq_nil_iff]
    · show (x noted >>= fun p => f p.1 p.2) = _
      rw [heq, ← List.append_assoc]
      exact heq' _

/-- A reading whose result is only put in another form. -/
theorem map {x : Survey α} (hx : x.Reads breaks flawed sort) (f : α → β) :
    (x >>= fun a => pure (f a)).Reads breaks flawed sort :=
  (hx.bind fun a => reads_pure (f a)).congr (iff_of_eq (or_false _)) (iff_of_eq (or_false _))

/-- A value that is refused with a complaint. -/
theorem refuse {kind : Complaint.Kind} {v : Value} (h : sort ⟨[], kind, v⟩) (a : α) :
    (do complain kind v; return a : Survey α).Reads False True sort :=
  (reads_complain h).map fun _ => a

/-- A reading after one that cannot break off. -/
theorem after {x : Survey α} {f : α → Survey β} (hx : x.Reads False flawed sort)
    (hf : ∀ a, (f a).Reads breaks flawed' sort) :
    (x >>= f).Reads breaks (flawed ∨ flawed') sort :=
  (hx.bind hf).congr (iff_of_eq (false_or _)) Iff.rfl

/-- A reading of something further in. -/
theorem under {s : Survey α} {step : Text} (h : s.Reads breaks flawed sort)
    (hsort : ∀ c, sort c → sort' (c.under step)) :
    (Survey.under step s).Reads breaks flawed sort' where
  fault hb := by
    obtain ⟨f, hf, heq⟩ := h.fault hb
    exact ⟨f, hf, fun noted => by rw [Survey.under, heq]⟩
  answer hb := by
    obtain ⟨a, cs, hflawed, hcs, heq⟩ := h.answer hb
    refine ⟨a, cs.map (Complaint.under step), ?_, fun c hc => ?_, fun noted => ?_⟩
    · rw [← hflawed, Ne, List.map_eq_nil_iff]
    · obtain ⟨inner, hinner, rfl⟩ := List.mem_map.1 hc
      exact hsort inner (hcs inner hinner)
    · rw [Survey.under, heq, List.nil_append]

/-- A reading ends with a fault if it breaks off, with complaints if it notes any, and with what was
read if not. -/
theorem finish_cases {s : Survey α} (h : s.Reads breaks flawed sort) :
    (breaks ∧ ∃ f : Fault, f.IsInternal ∧ s.finish = .error f) ∨
    (¬ breaks ∧ flawed ∧ ∃ cs, cs ≠ [] ∧ (∀ c ∈ cs, sort c) ∧ s.finish = .error (.invalid cs)) ∨
    (¬ breaks ∧ ¬ flawed ∧ ∃ a, s.finish = .ok a) := by
  by_cases hb : breaks
  · obtain ⟨f, hf, heq⟩ := h.fault hb
    exact .inl ⟨hb, f, hf, by rw [finish, heq]⟩
  · obtain ⟨a, cs, hflawed, hcs, heq⟩ := h.answer hb
    have heq := heq []
    rw [List.nil_append] at heq
    cases cs with
    | nil => exact .inr (.inr ⟨hb, fun hf => hflawed.2 hf rfl, a, by rw [finish, heq]⟩)
    | cons c cs =>
      have hne : c :: cs ≠ [] := List.cons_ne_nil _ _
      exact .inr (.inl ⟨hb, hflawed.1 hne, c :: cs, hne, hcs, by rw [finish, heq]⟩)

end Reads

/-! ### Readings of values -/

/-- A reading of values that breaks off on some of them and complains about others, and whose
complaints can be sent with the value. -/
def Judges (read : Value → Survey α) (breaks flawed : Value → Prop) : Prop :=
  ∀ v, (read v).Reads (breaks v) (flawed v) (Complaint.Passes v)

/-- A complaint about a value itself can be sent with it. -/
theorem passes_self (kind : Complaint.Kind) (v : Value) : Complaint.Passes v ⟨[], kind, v⟩ :=
  fun hv => hv

/-- A reading that refuses some values and never breaks off. -/
theorem judges_of_refuses {read : Value → Survey α} {flawed : Value → Prop}
    (hflawed : ∀ v, flawed v → ∃ kind a, read v = do complain kind v; return a)
    (hfine : ∀ v, ¬ flawed v → ∃ a, read v = pure a) :
    Judges read (fun _ => False) flawed := by
  intro v
  by_cases hv : flawed v
  · obtain ⟨kind, a, heq⟩ := hflawed v hv
    rw [heq]
    exact (Reads.refuse (passes_self kind v) a).congr Iff.rfl (iff_of_true trivial hv)
  · obtain ⟨a, heq⟩ := hfine v hv
    rw [heq]
    exact (reads_pure a).congr Iff.rfl (iff_of_false id hv)

theorem judges_anyText : Judges anyText (fun _ => False) (fun v => v.isWritable = false) :=
  judges_of_refuses (fun v hv => ⟨.badValue, none, by rw [anyText, hv]; rfl⟩) fun v hv =>
    ⟨stringify v, by rw [anyText, if_pos (Bool.not_eq_false _ ▸ hv)]⟩

/-- A reading of values that never breaks off, and whose complaints can be sent with the value. -/
def Tolerant (read : Value → Survey α) : Prop :=
  ∃ flawed, Judges read (fun _ => False) flawed

theorem tolerant_of_refuses {read : Value → Survey α} (h : ∀ v, (∃ a, read v = pure a) ∨
    ∃ kind a, read v = do complain kind v; return a) : Tolerant read :=
  ⟨fun v => ¬ ∃ a, read v = pure a,
    judges_of_refuses (fun v hv => (h v).resolve_left hv) fun _ hv => not_not.1 hv⟩

theorem tolerant_text : Tolerant text :=
  tolerant_of_refuses fun v => by
    fun_cases text v with
    | case1 s => exact .inl ⟨s, rfl⟩
    | case2 => exact .inr ⟨.textType, [], rfl⟩

theorem tolerant_integer : Tolerant integer :=
  tolerant_of_refuses fun v => by
    fun_cases integer v with
    | case1 n => exact .inl ⟨n, rfl⟩
    | case2 kind => exact .inr ⟨kind, 0, rfl⟩

/-- An integer beyond the range of floats. -/
def IsVast (v : Value) : Prop :=
  ∃ n, v = .int n ∧ Binary64.ofInt? n = none

/-- A decimal number that is refused as an amount. -/
def IsSignal (v : Value) : Prop :=
  ∃ d, v = .decimal d ∧ d.toBinary64? = none

theorem judges_amount : Judges amount IsVast IsSignal := by
  intro v
  have hvast : IsVast v ↔ Amount.parse v = .error .tooLarge := by
    simp [IsVast, Amount.parse_error_iff]
  have hsignal : IsSignal v ↔ Amount.parse v = .error .signallingNaN := by
    simp [IsSignal, Amount.parse_error_iff]
  fun_cases amount v with
  | case1 => exact (reads_pure none).congr (iff_of_false nofun nofun) (iff_of_false nofun nofun)
  | case2 => exact (reads_pure none).congr (iff_of_false nofun nofun) (iff_of_false nofun nofun)
  | case3 v _ _ x hparse =>
    rw [hvast, hsignal, hparse]
    exact (reads_pure x).congr (iff_of_false nofun nofun) (iff_of_false nofun nofun)
  | case4 v _ _ hparse =>
    rw [hvast, hsignal, hparse]
    exact (Reads.refuse (passes_self _ v) none).congr (iff_of_false nofun nofun)
      (iff_of_true trivial rfl)
  | case5 v _ _ f hf hparse =>
    obtain ⟨_, _, _, rfl⟩ | ⟨_, _, _, rfl⟩ := Amount.parse_error_iff.1 hparse
    · rw [hvast]
      exact (reads_fail (f := .tooLarge) nofun).congr (iff_of_true trivial hparse) Iff.rfl
    · exact absurd rfl hf

/-! ### Lists and records -/

theorem reads_items {read : Value → Survey α} {breaks flawed : Value → Prop}
    (h : Judges read breaks flawed) (vs : List Value) (i : Nat) :
    (items read i vs).Reads (∃ v ∈ vs, breaks v) (∃ v ∈ vs, flawed v)
      (Complaint.Passes (.list vs)) := by
  induction vs generalizing i with
  | nil => exact (reads_pure []).congr (by simp) (by simp)
  | cons v vs ih =>
    -- a list can be sent if its first item and the rest can, and so can what is said about them
    have hfirst : (under (Text.ofNat i) (read v)).Reads (breaks v) (flawed v)
        (Complaint.Passes (.list (v :: vs))) := (h v).under fun c hc hsend => by
      rw [Json.isSendable, Json.areSendable, Bool.and_eq_true] at hsend
      rw [Complaint.canSend_under, Json.isSpelled_ofNat, hc hsend.1]
      rfl
    have hrest (a : α) : (items read (i + 1) vs >>= fun as => pure (a :: as)).Reads
        (∃ v ∈ vs, breaks v) (∃ v ∈ vs, flawed v) (Complaint.Passes (.list (v :: vs))) :=
      ((ih (i + 1)).mono fun c hc hsend => by
        rw [Json.isSendable, Json.areSendable, Bool.and_eq_true] at hsend
        exact hc (by rw [Json.isSendable]; exact hsend.2)).map _
    rw [items]
    exact (hfirst.bind hrest).congr (by simp) (by simp)

namespace Judges

theorem list {read : Value → Survey α} {breaks flawed : Value → Prop}
    (h : Judges read breaks flawed) :
    Judges (Survey.list read) (fun v => ∃ vs, v = .list vs ∧ ∃ x ∈ vs, breaks x)
      (fun v => v ≠ .null ∧ ∀ vs, v = .list vs → ∃ x ∈ vs, flawed x) := by
  intro v
  cases v with
  | null => exact (reads_pure []).congr (by simp) (by simp)
  | list vs => exact (reads_items h vs 0).congr (by simp) (by simp)
  | _ => exact (Reads.refuse (passes_self _ _) []).congr (by simp) (by simp)

theorem record [Inhabited α] {read : Entries Value → Survey α}
    {breaks flawed : Entries Value → Prop}
    (h : ∀ es, (read es).Reads (breaks es) (flawed es) (Complaint.Passes (.map es)))
    (kind : Complaint.Kind) :
    Judges (Survey.record kind read) (fun v => ∃ es, v = .map es ∧ breaks es)
      (fun v => ∀ es, v = .map es → flawed es) := by
  intro v
  cases v with
  | map es => exact (h es).congr (by simp) (by simp)
  | _ => exact (Reads.refuse (passes_self _ _) default).congr (by simp) (by simp)

end Judges

theorem Tolerant.list {read : Value → Survey α} (h : Tolerant read) :
    Tolerant (Survey.list read) := by
  obtain ⟨flawed, h⟩ := h
  exact ⟨_, fun v => (h.list v).congr (by simp) Iff.rfl⟩

theorem tolerant_record [Inhabited α] {read : Entries Value → Survey α}
    (h : ∀ es, ∃ flawed, (read es).Reads False flawed (Complaint.Passes (.map es)))
    (kind : Complaint.Kind) : Tolerant (Survey.record kind read) := by
  have hjudges := Judges.record (fun es => (h es).choose_spec) kind
  exact ⟨_, fun v => (hjudges v).congr (by simp) Iff.rfl⟩

end Survey

/-! ### Fields -/

theorem Json.sendable_of_get? {es : Entries Value} {key : Text} {v : Value}
    (hget : Entries.get? key es = some v) (h : isSendable (.map es) = true) :
    isSpelled key = true ∧ isSendable v = true := by
  rw [isSendable] at h
  induction es with
  | nil => cases hget
  | cons e es ih =>
    obtain ⟨k, w⟩ := e
    rw [areSendableEntries, Bool.and_eq_true, Bool.and_eq_true] at h
    rw [Entries.get?] at hget
    split at hget
    · rename_i hk
      cases hget
      exact hk ▸ h.1
    · exact ih hget h.2

namespace Field

variable {α : Type} {read : Value → Survey α} {breaks flawed : Value → Prop} {f : Field}
  {fields : List Field} {es : Entries Value}

/-- The field has the value in the entries. -/
def Holds (f : Field) (es : Entries Value) (v : Value) : Prop :=
  ∃ key, f.find? es = some (key, v)

theorem not_holds (h : f.find? es = none) (v : Value) : ¬ f.Holds es v := by
  rintro ⟨key, hkey⟩
  rw [h] at hkey
  cases hkey

theorem holds_iff {key : Text} {v : Value} (h : f.find? es = some (key, v)) (w : Value) :
    f.Holds es w ↔ w = v := by
  rw [Holds, h]
  exact ⟨fun ⟨_, heq⟩ => (Prod.mk.inj (Option.some.inj heq)).2.symm, fun hw => ⟨key, hw ▸ rfl⟩⟩

theorem get?_of_find? {key : Text} {v : Value} (h : f.find? es = some (key, v)) :
    Entries.get? key es = some v := by
  rw [find?] at h
  split at h
  · rename_i hkey
    cases h
    exact hkey
  · obtain ⟨w, hname, hw⟩ := Option.map_eq_some_iff.1 h
    cases hw
    exact hname

theorem passes_under {key : Text} {v : Value} {c : Complaint} (h : f.find? es = some (key, v))
    (hc : c.Passes v) : (c.under key).Passes (.map es) := by
  intro hsend
  obtain ⟨hkey, hv⟩ := Json.sendable_of_get? (get?_of_find? h) hsend
  rw [Complaint.canSend_under, hkey, hc hv]
  rfl

/-- What is wrong with a field is said under the key that its value has. -/
theorem reads_read (hf : f ∈ fields) (h : Survey.Judges read breaks flawed) (missing : α) :
    (f.read es missing read).Reads (∃ v, f.Holds es v ∧ breaks v) (∃ v, f.Holds es v ∧ flawed v)
      (Complaint.Belongs fields es) := by
  rw [Field.read]
  cases hfind : f.find? es with
  | none =>
    exact (Survey.reads_pure missing).congr (by simp [not_holds hfind]) (by simp [not_holds hfind])
  | some found =>
    obtain ⟨key, v⟩ := found
    exact ((h v).under fun c hc =>
      ⟨⟨f, hf, key, v, c.place, hfind, rfl⟩, passes_under hfind hc⟩).congr
      (by simp [holds_iff hfind]) (by simp [holds_iff hfind])

/-- A field whose values never break the reading off. -/
theorem reads_fine (hf : f ∈ fields) (h : Survey.Judges read (fun _ => False) flawed)
    (missing : α) : (f.read es missing read).Reads False (∃ v, f.Holds es v ∧ flawed v)
      (Complaint.Belongs fields es) :=
  (reads_read hf h missing).congr (iff_of_false (fun ⟨_, h⟩ => h.2) fun h => h) Iff.rfl

/-- A field whose values never break the reading off, whatever is wrong with them. -/
theorem exists_reads_read (f : Field) (es : Entries Value) (h : Survey.Tolerant read)
    (missing : α) :
    ∃ flawed, (f.read es missing read).Reads False flawed (Complaint.Passes (.map es)) := by
  obtain ⟨flawed, h⟩ := h
  exact ⟨_, (reads_fine (List.mem_singleton_self f) h missing).mono fun _ hc => hc.2⟩

/-- A field that has to be there is complained about if it is not. -/
theorem reads_require [Inhabited α] (hkey : Json.isSpelled f.key = true)
    (h : Survey.Judges read breaks flawed) (es : Entries Value) :
    (f.require es read).Reads (∃ v, f.Holds es v ∧ breaks v)
      ((∀ v, ¬ f.Holds es v) ∨ ∃ v, f.Holds es v ∧ flawed v) (Complaint.Passes (.map es)) := by
  rw [Field.require]
  cases hfind : f.find? es with
  | none =>
    refine (((Survey.reads_complain (Survey.passes_self .missing (.map es))).under
      fun c hc hsend => ?_).map fun _ => default).congr (by simp [not_holds hfind])
      (by simp [not_holds hfind])
    rw [Complaint.canSend_under, hkey, hc hsend]
    rfl
  | some found =>
    obtain ⟨key, v⟩ := found
    exact ((h v).under fun c hc => passes_under hfind hc).congr (by simp [holds_iff hfind])
      (by simp [holds_iff hfind])

end Field
end Tender
