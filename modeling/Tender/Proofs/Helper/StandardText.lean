/-
A date and its standard text are written alike.

* `DateText.write_cases` — a pattern is written for every date, or cannot be spelled for any, or is no
  text for any;
* `DateText.writeRead_eq_iff` — when a moment that was read is written as a date is;
* `Moment.reread_eq_iff` — which moments are read back as they are;
* `Estimate.date_of_holds` — an estimate keeps a date as its standard text;
* `DateText.format_standardText` — so a text stands for its date exactly if the pattern can be
  spelled, and for its moment if moreover the pattern does not show an offset of less than a second.
-/
import Tender.Proofs.Calendar.Iso
import Tender.Proofs.Helper.DateText
import Tender.Proofs.Record.Normal

namespace Tender

/-! ### Patterns -/

theorem Text.halves?_eq_none_iff {s : Text} : halves? s = none ↔ ∀ c ∈ s, isHalf c = false := by
  rw [halves?]
  induction s with
  | nil => simp
  | cons c s ih =>
    rw [List.forall_mem_cons]
    cases hc : isHalf c with
    | false => simpa [hc] using ih
    | true => simp [hc]

namespace DateText

variable {pattern chosen standard : Outcome}

/-- The pattern that a date is written by. -/
def used (chosen standard : Outcome) : Outcome :=
  if isPattern chosen then chosen else standard

/-- A pattern without halves of wide characters. -/
def IsSpelled (pattern : Outcome) : Prop :=
  ∀ p, pattern.toValue = .text p → ∀ c ∈ p, Text.isHalf c = false

/-- What becomes of a pattern does not depend on the date. -/
theorem write_cases (pattern : Outcome) :
    (IsSpelled pattern ∧ ∃ p, ∀ o, write pattern o = .ok (Pattern.write p o)) ∨
    (¬ IsSpelled pattern ∧ ∃ n run, ∀ o, write pattern o = .error (.unencodable n run)) ∨
    (IsSpelled pattern ∧ ∃ kind, ∀ o, write pattern o = .error (.patternKind kind)) := by
  cases hvalue : pattern.toValue with
  | text p =>
    have hspelled : IsSpelled pattern ↔ ∀ c ∈ p, Text.isHalf c = false := by
      simp [IsSpelled, hvalue]
    have hwrite (o : Pattern.Occasion) :
        write pattern o = (Fault.checkSpelling p).map fun _ => Pattern.write p o := by
      rw [write, hvalue]
    rw [hspelled, ← Text.halves?_eq_none_iff]
    cases hhalves : Text.halves? p with
    | none =>
      refine .inl ⟨rfl, p, fun o => ?_⟩
      rw [hwrite, Fault.checkSpelling, hhalves]
      rfl
    | some found =>
      refine .inr (.inl ⟨Option.some_ne_none found, found.1, found.2, fun o => ?_⟩)
      rw [hwrite, Fault.checkSpelling, hhalves]
      rfl
  | null =>
    refine .inr (.inr ⟨fun p hp => ?_, lit "None", fun o => by rw [write, hvalue]⟩)
    rw [hvalue] at hp
    cases hp
  | _ =>
    refine .inr (.inr ⟨fun p hp => ?_, _, fun o => by rw [write, hvalue]⟩)
    rw [hvalue] at hp
    cases hp

/-- A moment that was read is written as a date is, if the pattern can be spelled and shows the same
of both; if it cannot be spelled the date is refused and the text is left as it is. -/
theorem writeRead_eq_iff (v : Value) (m : Moment) (o : Pattern.Occasion) :
    writeRead (.value v) (some m) pattern = (write pattern o).map (fun s => .value (.text s)) ↔
      IsSpelled pattern ∧ write pattern (.ofMoment m) = write pattern o := by
  rw [writeRead]
  -- only a fault of the spelling leaves the text as it is
  obtain ⟨hspelled, p, hwrite⟩ | ⟨hspelled, n, run, hwrite⟩ | ⟨hspelled, kind, hwrite⟩ :=
    write_cases pattern
  · simp [hwrite, hspelled, Except.map]
  · simp [hwrite, hspelled, Except.map]
  · simp [hwrite, hspelled, Except.map]

/-! ### Texts in place of dates -/

theorem format_date (d : Date) : format (.value (.date d)) chosen standard =
    (write (used chosen standard) (.ofDate d)).map fun s => .value (.text s) := rfl

theorem format_moment (m : Moment) : format (.value (.moment m)) chosen standard =
    (write (used chosen standard) (.ofMoment m)).map fun s => .value (.text s) := rfl

/-- A text in the characters of standard texts is read as it stands. -/
theorem format_text {s : Text} (hs : ∀ c ∈ s, c ∈ Iso.characters) (hsome : s ≠ []) :
    format (.value (.text s)) chosen standard =
      writeRead (.value (.text s)) (Iso.readMoment? s) (used chosen standard) := by
  have htrim : Text.trim s = s := Text.trim_of_not_blank fun c hc => by
    have := Iso.of_mem_characters hs (P := fun c => !Text.isBlank c) (by decide) c hc
    rwa [Bool.not_eq_true'] at this
  cases s with
  | nil => exact absurd rfl hsome
  | cons c s =>
    show writeRead _ (Iso.readMoment? (Text.trim (c :: s))) _ = _
    rw [htrim]
    rfl

theorem format_toText_iff (d : Date) :
    format (.value (.text d.toText)) chosen standard = format (.value (.date d)) chosen standard ↔
      IsSpelled (used chosen standard) := by
  have hsome : d.toText ≠ [] := by
    simp [Date.toText]
  rw [format_text (fun _ => Date.mem_toText) hsome, Iso.readMoment?_toText, format_date,
    writeRead_eq_iff]
  exact and_iff_left rfl

theorem format_toIso_iff (m : Moment) :
    format (.value (.text m.toIso)) chosen standard = format (.value (.moment m)) chosen standard ↔
      IsSpelled (used chosen standard) ∧
        write (used chosen standard) (.ofMoment m.reread) =
          write (used chosen standard) (.ofMoment m) := by
  have hsome : m.toIso ≠ [] := by
    simp [Moment.toIso_eq]
  rw [format_text (fun _ => Moment.mem_toIso) hsome, Iso.readMoment?_toIso, format_moment,
    writeRead_eq_iff]

end DateText

theorem Offset.reread_eq_iff (o : Offset) :
    o.reread = o ↔ o.micros = 0 ∨ 1000000 ≤ o.micros.natAbs := by
  rw [reread]
  split
  · rename_i hsmall
    rw [or_iff_left (Nat.not_le_of_lt hsmall)]
    constructor
    · rintro h
      rw [← h]
      rfl
    · cases o
      rintro rfl
      rfl
  · rename_i hlarge
    exact iff_of_true rfl (.inr (Nat.le_of_not_lt hlarge))

/-- A moment is read back as it is, unless its offset is less than a second and not zero. -/
theorem Moment.reread_eq_iff (m : Moment) :
    m.reread = m ↔ ∀ o, m.offset = some o → o.micros = 0 ∨ 1000000 ≤ o.micros.natAbs := by
  have hoffset : m.reread = m ↔ m.offset.map Offset.reread = m.offset :=
    ⟨fun h => congrArg Moment.offset h, fun h => by rw [reread, h]⟩
  rw [hoffset]
  cases m.offset with
  | none => simp
  | some o =>
    rw [Option.map_some, Option.some_inj, Offset.reread_eq_iff]
    simp

/-! ### Estimates -/

namespace Estimate

/-- An estimate keeps a date as its standard text. -/
theorem date_of_holds {es : Entries Value} {e : Estimate} (h : read (.map es) = .ok e) :
    (∀ d, dateField.Holds es (.date d) → e.date = .text d.toText) ∧
    ∀ m, dateField.Holds es (.moment m) → e.date = .text m.toIso := by
  have hdate := ((gives_ofEntries .recordType es).finish h).date
  have hread {v w : Value} (hv : dateField.Holds es v) (hw : readDate v = pure w) : e.date = w := by
    have hcomes := Field.comes_of_holds (fun v => (judges_date v).follows) hdate hv []
    rw [hw] at hcomes
    exact (Prod.mk.inj (Except.ok.inj hcomes)).1.symm
  exact ⟨fun d hd => hread hd rfl, fun m hm => hread hm rfl⟩

end Estimate

namespace DateText

/-- The standard text of a day is written as the day is, exactly if the pattern can be spelled.  So is
the standard text of a moment, exactly if moreover the pattern does not tell the moment from the one
that is read back, which is the moment itself unless its offset is less than a second and not zero.
And an estimate that is made with a day or a moment keeps its standard text. -/
theorem format_standardText (d : Date) (m : Moment) (chosen standard : Outcome)
    (es : Entries Value) :
    (format (.value (.text d.toText)) chosen standard = format (.value (.date d)) chosen standard ↔
      IsSpelled (used chosen standard)) ∧
    (format (.value (.text m.toIso)) chosen standard =
        format (.value (.moment m)) chosen standard ↔
      IsSpelled (used chosen standard) ∧
        write (used chosen standard) (.ofMoment m.reread) =
          write (used chosen standard) (.ofMoment m)) ∧
    (m.reread = m ↔ ∀ o, m.offset = some o → o.micros = 0 ∨ 1000000 ≤ o.micros.natAbs) ∧
    ∀ e, Estimate.read (.map es) = .ok e →
      (Estimate.dateField.Holds es (.date d) → e.date = .text d.toText) ∧
      (Estimate.dateField.Holds es (.moment m) → e.date = .text m.toIso) :=
  ⟨format_toText_iff d, format_toIso_iff m, Moment.reread_eq_iff m, fun _ he =>
    ⟨(Estimate.date_of_holds he).1 d, (Estimate.date_of_holds he).2 m⟩⟩

theorem isDay_march : Calendar.IsDay 2024 3 15 := by
  decide

/-- The fifteenth of March 2024. -/
def march : Date := ⟨2024, 3, 15, isDay_march⟩

/-- Ten o'clock that day, so many microseconds from universal time. -/
def tenOClock (o : Offset) : Moment := ⟨march, 10, 0, 0, 0, some o⟩

/-- An estimate that is made with a moment half an hour from universal time. -/
def datedEstimate : Entries Value :=
  [(lit "date", .moment (tenOClock ⟨1800000000, by decide⟩)), (lit "customer", .text ['A'])]

/-- The text in the estimate is written as the moment is. -/
theorem format_datedEstimate :
    ∃ e, Estimate.read (.map datedEstimate) = .ok e ∧
      e.date = .text (tenOClock ⟨1800000000, by decide⟩).toIso ∧
      format (.value e.date) (.value (.text ['%', 'z'])) (.value .null) =
        format (.value (.moment (tenOClock ⟨1800000000, by decide⟩))) (.value (.text ['%', 'z']))
          (.value .null) := by
  have haccepted : (Estimate.read (.map datedEstimate)).isOk = true := by
    decide +kernel
  have hholds : Estimate.dateField.Holds datedEstimate
      (.moment (tenOClock ⟨1800000000, by decide⟩)) := ⟨_, Field.find?_key (if_pos rfl)⟩
  cases hread : Estimate.read (.map datedEstimate) with
  | error f =>
    rw [hread] at haccepted
    cases haccepted
  | ok e =>
    obtain ⟨-, hformat, hreread, hestimate⟩ := format_standardText march
      (tenOClock ⟨1800000000, by decide⟩) (.value (.text ['%', 'z'])) (.value .null) datedEstimate
    have hdate := (hestimate e hread).2 hholds
    have hspelled : IsSpelled (used (.value (.text ['%', 'z'])) (.value .null)) := by
      rintro p ⟨⟩
      exact List.forall_mem_cons.2 ⟨rfl, List.forall_mem_singleton.2 rfl⟩
    have hsame : (tenOClock ⟨1800000000, by decide⟩).reread = tenOClock ⟨1800000000, by decide⟩ :=
      hreread.2 fun o ho => by
        cases ho
        decide
    refine ⟨e, rfl, hdate, ?_⟩
    rw [hdate]
    exact hformat.2 ⟨hspelled, by rw [hsame]⟩

/-- A pattern with half of a wide character is refused for a day but leaves the standard text as it
is, and an offset of a microsecond is not seen in the standard text. -/
theorem format_standardText_differs :
    (format (.value (.text march.toText)) (.value (.text ['%', Text.half 0xD83D])) (.value .null) =
        .ok (.value (.text march.toText)) ∧
      format (.value (.date march)) (.value (.text ['%', Text.half 0xD83D])) (.value .null) =
        .error (.unencodable 1 [Text.half 0xD83D])) ∧
    format (.value (.text (tenOClock ⟨1, by decide⟩).toIso)) (.value (.text ['%', 'z']))
        (.value .null) = .ok (.value (.text (lit "+0000"))) ∧
      format (.value (.moment (tenOClock ⟨1, by decide⟩))) (.value (.text ['%', 'z']))
        (.value .null) = .ok (.value (.text (lit "+000000.000001"))) := by
  have hhalf (o : Pattern.Occasion) : write (.value (.text ['%', Text.half 0xD83D])) o =
      .error (.unencodable 1 [Text.half 0xD83D]) := rfl
  have hread : Pattern.write ['%', 'z'] (.ofMoment (tenOClock ⟨1, by decide⟩).reread) =
      lit "+0000" := by
    decide +kernel
  have hown : Pattern.write ['%', 'z'] (.ofMoment (tenOClock ⟨1, by decide⟩)) =
      lit "+000000.000001" := by
    decide +kernel
  refine ⟨⟨?_, ?_⟩, ?_, ?_⟩
  · rw [format_text (fun _ => Date.mem_toText) (by simp [Date.toText]), Iso.readMoment?_toText]
    show writeRead _ _ (.value (.text ['%', Text.half 0xD83D])) = _
    rw [writeRead, hhalf]
  · rw [format_date]
    show (write (.value (.text ['%', Text.half 0xD83D])) _).map _ = _
    rw [hhalf]
    rfl
  · rw [format_text (fun _ => Moment.mem_toIso) (by simp [Moment.toIso_eq]),
      Iso.readMoment?_toIso, ← hread]
    rfl
  · rw [format_moment, ← hown]
    rfl

end DateText

end Tender
