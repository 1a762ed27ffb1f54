/-
Diagnostics as dates.

A diagnostic starts with a bracket, and no date does, so the date helper takes no diagnostic for a date.

* `Iso.readMoment?_bracket` — no moment is read from a text that starts with a bracket;
* `DateText.format_diagnostic` — a diagnostic in place of the date is left as it is;
* `DateText.format_value` — what is written for a value is a value.
-/
import Tender.Helper.DateText
import Tender.Proofs.Template.Written
import Tender.Proofs.Text.Blank

namespace Tender

/-- The first byte of a text that starts with a bracket is no digit. -/
theorem Iso.digitAt_bracket (s : Text) :
    Bytes.digitAt ⟨(String.ofList ('<' :: s)).toUTF8.data⟩ 0 = false := by
  have hbytes : (String.ofList ('<' :: s)).toUTF8.data = #[0x3c] ++ s.utf8Encode.data := by
    show ('<' :: s).utf8Encode.data = _
    rw [List.utf8Encode_cons, ByteArray.data_append]
    rfl
  rw [hbytes, Bytes.digitAt, Bytes.at, Array.getD_eq_getD_getElem?, Array.getElem?_append_left]
  · decide
  · decide

theorem Iso.readMoment?_bracket (s : Text) : readMoment? ('<' :: s) = none := by
  have hfirst := digitAt_bracket s
  rw [readMoment?]
  split
  · rfl
  · generalize (String.ofList ('<' :: s)).toUTF8.data = bytes at hfirst
    -- every form of a day starts with the year, and the first byte is none of its digits
    have hyear : Bytes.digits? ⟨bytes⟩ 0 4 = none := by
      rw [Bytes.digits?, show List.range 4 = [0, 1, 2, 3] from rfl, List.foldl_cons]
      simp only [Option.bind_some, Nat.add_zero, hfirst]
      rfl
    show (separatorAt ⟨bytes⟩ bytes.size >>= fun stop => readDay? ⟨bytes⟩ stop >>= _) = none
    cases separatorAt ⟨bytes⟩ bytes.size with
    | none => rfl
    | some stop =>
      have hday : readDay? ⟨bytes⟩ stop = none := by
        rw [readDay?, hyear]
        rfl
      show (readDay? _ _ >>= _) = none
      rw [hday]
      rfl

namespace DateText

theorem helperWith_positional (pattern : Text) (o : Outcome) :
    helperWith pattern ⟨[o], []⟩ = format o (.value .null) (.value (.text pattern)) := by
  have hkey : lit "default_format" ∈ signature.parameters := by
    simp [signature, Signature.parameters]
  have hfree : Entries.get? (lit "default_format") (signature.parameters.zip [o]) = none := by
    simp [signature, Signature.parameters, Entries.get?, lit_inj]
  have hfill : signature.fill (signature.parameters.zip [o])
      [(lit "default_format", .value (.text pattern))] =
        .ok [(lit "value", o), (lit "default_format", .value (.text pattern))] := by
    show (if lit "default_format" ∈ signature.parameters then
      if (Entries.get? (lit "default_format") (signature.parameters.zip [o])).isSome then _
      else Except.ok (signature.parameters.zip [o] ++ _) else _) = _
    rw [if_pos hkey, hfree]
    rfl
  have hbind : signature.bind ⟨[o], [(lit "default_format", .value (.text pattern))]⟩ =
      .ok [some o, none, some (.value (.text pattern))] := by
    rw [Signature.bind, Signature.bindEntries, hfill]
    simp [signature, Signature.parameters, Entries.get?, lit_inj, bind, pure, Except.bind,
      Except.pure]
  show (signature.bind ⟨[o], [(lit "default_format", .value (.text pattern))]⟩ >>= _) = _
  rw [hbind]
  rfl

theorem writeRead_value {v : Value} {moment : Option Moment} {pattern o : Outcome}
    (h : writeRead (.value v) moment pattern = .ok o) : ∃ v', o = .value v' := by
  revert h
  fun_cases writeRead (.value v) moment pattern <;> intro h <;> cases h <;> exact ⟨_, rfl⟩

theorem format_value {v : Value} {chosen standard o : Outcome}
    (h : format (.value v) chosen standard = .ok o) : ∃ v', o = .value v' := by
  have hwrite : ∀ {pattern occasion},
      (write pattern occasion).map (fun s => Outcome.value (.text s)) = .ok o →
        ∃ v', o = .value v' := by
    intro pattern occasion hmap
    obtain ⟨s, -, rfl⟩ := ok_of_map hmap
    exact ⟨_, rfl⟩
  revert h
  -- a date or a moment is written, what may be one is read first, and anything else is left
  fun_cases format (.value v) chosen standard <;> intro h
  all_goals first
    | exact hwrite h
    | exact writeRead_value h
    | (cases h; exact ⟨_, rfl⟩)

theorem format_diagnostic (q : Problem) (chosen standard : Outcome) :
    format (.failure q.diagnostic) chosen standard = .ok (.failure q.diagnostic) := by
  obtain ⟨d, hd⟩ := q.diagnostic_eq
  rw [hd]
  show writeRead _ (Iso.readMoment? (Text.trim ('<' :: (d ++ ['>'])))) _ = _
  rw [Text.trim_cons (by decide), Iso.readMoment?_bracket]
  rfl

end DateText

end Tender
