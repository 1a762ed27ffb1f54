/-
Start tags that are written with one blank before each attribute and with double quotes.

* `readAttributes_spelled` — attributes are read as they are written;
* `readTag_spelled` — and so is the whole tag, whatever follows it.
-/
import Tender.Html.Tag

namespace Tender.Html

open Text

/-- A character that goes on with the name of an attribute. -/
def isAttributeChar (c : Char) : Bool :=
  !(isBlank c || c = '/' || c = '=' || c = '>')

namespace WrittenAttribute

/-- An attribute as it is written after what stands before it. -/
def spelled (a : WrittenAttribute) : Text :=
  ' ' :: a.name ++ match a.value with
    | some v => '=' :: '"' :: v ++ ['"']
    | none => []

/-- An attribute that is read as it is written. -/
structure Plain (a : WrittenAttribute) : Prop where
  named : a.name ≠ []
  name : ∀ c ∈ a.name, isAttributeChar c = true
  value : ∀ v, a.value = some v → '"' ∉ v

end WrittenAttribute

/-- The end of a tag, with a slash or without. -/
def tagEnd (slash : Bool) : Text :=
  if slash then [' ', '/', '>'] else ['>']

/-- The attributes of a tag and its end. -/
def spelledRest (as : List WrittenAttribute) (slash : Bool) : Text :=
  as.flatMap WrittenAttribute.spelled ++ tagEnd slash

/-- A start tag as it is written. -/
def spelledTag (name : Text) (as : List WrittenAttribute) (slash : Bool) : Text :=
  '<' :: name ++ spelledRest as slash

/-- A text before which a name ends, and that gives no value to an attribute. -/
structure EndsName (s : Text) : Prop where
  head : s.head? = some ' ' ∨ s.head? = some '>'
  sign : (trimStart s).head? ≠ some '='

theorem takeWhile_name {p : Char → Bool} {w s : Text} (hw : ∀ c ∈ w, p c = true)
    (hs : ∀ c ∈ s.head?, p c = false) :
    (w ++ s).takeWhile p = w ∧ (w ++ s).dropWhile p = s := by
  rw [List.takeWhile_append_of_pos hw, List.dropWhile_append_of_pos hw]
  cases s with
  | nil => exact ⟨List.append_nil w, rfl⟩
  | cons c s =>
    have hc : ¬ p c = true := by simp [hs c rfl]
    rw [List.takeWhile_cons_of_neg hc, List.dropWhile_cons_of_neg hc, List.append_nil]
    exact ⟨rfl, rfl⟩

namespace EndsName

theorem stops {s : Text} (h : EndsName s) : ∀ c ∈ s.head?, isAttributeChar c = false := by
  intro c hc
  rcases h.head with hs | hs
  · rw [hs] at hc
    cases hc
    decide
  · rw [hs] at hc
    cases hc
    decide

theorem readValue {s : Text} (h : EndsName s) : readValue? s = none := by
  unfold readValue?
  split
  · rename_i heq
    exact absurd (by rw [heq]; rfl) h.sign
  · rfl

end EndsName

variable {as : List WrittenAttribute} {slash : Bool} {rest : Text}

theorem isAttributeChar_iff {c : Char} :
    isAttributeChar c = true ↔ isBlank c = false ∧ c ≠ '/' ∧ c ≠ '=' ∧ c ≠ '>' := by
  simp [isAttributeChar, and_assoc]

/-- Written out, an attribute is a blank, the first character of its name, and what follows. -/
theorem WrittenAttribute.Plain.spelled_eq {a : WrittenAttribute} (h : a.Plain) :
    ∃ c s, a.spelled = ' ' :: c :: s ∧ isAttributeChar c = true := by
  obtain ⟨c, name, hname⟩ := List.exists_cons_of_ne_nil h.named
  have hc := h.name c (hname ▸ List.mem_cons_self)
  rw [WrittenAttribute.spelled, hname]
  exact ⟨c, _, rfl, hc⟩

theorem spelledRest_cons (a : WrittenAttribute) (as : List WrittenAttribute) (slash : Bool) :
    spelledRest (a :: as) slash = a.spelled ++ spelledRest as slash := by
  rw [spelledRest, List.flatMap_cons, List.append_assoc]
  rfl

theorem trimStart_blank {c : Char} (hc : isBlank c = false) (s : Text) :
    trimStart (' ' :: c :: s) = c :: s := by
  have hspace : isBlank ' ' = true := by decide
  rw [trimStart, List.dropWhile_cons_of_pos hspace, List.dropWhile_cons_of_neg (by simp [hc])]

theorem endsName_rest (h : ∀ a ∈ as, a.Plain) : EndsName (spelledRest as slash ++ rest) := by
  cases as with
  | nil =>
    cases slash with
    | true => exact ⟨.inl rfl, by rintro ⟨⟩⟩
    | false => exact ⟨.inr rfl, by rintro ⟨⟩⟩
  | cons a as =>
    obtain ⟨c, s, heq, hc⟩ := (h a List.mem_cons_self).spelled_eq
    obtain ⟨hblank, -, hsign, -⟩ := isAttributeChar_iff.1 hc
    rw [spelledRest_cons, heq]
    refine ⟨.inl rfl, ?_⟩
    show (trimStart (' ' :: c :: (s ++ spelledRest as slash ++ rest))).head? ≠ some '='
    rw [trimStart_blank hblank]
    exact fun h => hsign (Option.some.inj h)

/-! ### Attributes -/

theorem readValue_quoted {v : Text} (h : '"' ∉ v) (s : Text) :
    readValue? ('=' :: '"' :: v ++ '"' :: s) = some (v, '"', s) := by
  have hv : ∀ c ∈ v, (c != '"') = true := fun c hc => by
    have hne : c ≠ '"' := fun heq => h (heq ▸ hc)
    simp [hne]
  have hsplit := takeWhile_name (s := '"' :: s) hv (by rintro c ⟨⟩; rfl)
  have hafter : afterChar? '"' (v ++ '"' :: s) = some s := by
    rw [afterChar?, hsplit.2]
  have htrim : trimStart ('=' :: '"' :: v ++ '"' :: s) = '=' :: '"' :: (v ++ '"' :: s) :=
    List.dropWhile_cons_of_neg (by decide)
  have hbody : trimStart ('"' :: (v ++ '"' :: s)) = '"' :: (v ++ '"' :: s) :=
    List.dropWhile_cons_of_neg (by decide)
  have hsigns : ('"' :: (v ++ '"' :: s)).dropWhile (· = '=') = '"' :: (v ++ '"' :: s) :=
    List.dropWhile_cons_of_neg (by decide)
  rw [readValue?, htrim]
  simp only [hsigns, hbody, or_true, if_true, hafter, hsplit.1]

/-- The character after which what follows an attribute is read. -/
def WrittenAttribute.last (a : WrittenAttribute) : Char :=
  match a.value with
  | some _ => '"'
  | none => a.name.getLastD ' '

theorem readAttribute_cons {before c : Char} (hbefore : opensAttribute before = true)
    (hc : isAttributeChar c = true) (s : Text) :
    readAttribute? before (c :: s) =
      match readValue? (s.dropWhile isAttributeChar) with
      | some (value, last, rest) =>
        some (⟨c :: s.takeWhile isAttributeChar, some value⟩, skipGap last rest)
      | none =>
        some (⟨c :: s.takeWhile isAttributeChar, none⟩,
          skipGap ((c :: s.takeWhile isAttributeChar).getLastD c) (s.dropWhile isAttributeChar)) := by
  obtain ⟨hblank, hslash, -, hclose⟩ := isAttributeChar_iff.1 hc
  have hnone : ¬ (!opensAttribute before || isBlank c || c = '/' || c = '>') = true := by
    simp [hbefore, hblank, hslash, hclose]
  have hname : (fun c => !(isBlank c || decide (c = '/') || decide (c = '=') || decide (c = '>'))) =
      isAttributeChar := rfl
  rw [readAttribute?, if_neg hnone, hname]
  dsimp only
  rcases readValue? (s.dropWhile isAttributeChar) with _ | ⟨value, last, rest⟩
  · rfl
  · rfl

theorem readAttribute_spelled {a : WrittenAttribute} (h : a.Plain) {s : Text} (hs : EndsName s) :
    ∃ body, a.spelled = ' ' :: body ∧
      readAttribute? ' ' (body ++ s) = some (a, skipGap a.last s) := by
  obtain ⟨name, value⟩ := a
  obtain ⟨c, tail, hname⟩ := List.exists_cons_of_ne_nil h.named
  change name = c :: tail at hname
  subst hname
  have hc := h.name c List.mem_cons_self
  have htail : ∀ d ∈ tail, isAttributeChar d = true := fun d hd =>
    h.name d (List.mem_cons_of_mem c hd)
  have hopens : opensAttribute ' ' = true := by decide
  cases value with
  | none =>
    have hsplit := takeWhile_name htail hs.stops
    refine ⟨c :: tail, by simp [WrittenAttribute.spelled], ?_⟩
    rw [List.cons_append, readAttribute_cons hopens hc, hsplit.1, hsplit.2, hs.readValue]
    rfl
  | some v =>
    have hsplit := takeWhile_name (s := '=' :: '"' :: v ++ '"' :: s) htail (by rintro c ⟨⟩; decide)
    refine ⟨c :: (tail ++ '=' :: '"' :: v ++ ['"']), by simp [WrittenAttribute.spelled], ?_⟩
    have happend : c :: (tail ++ '=' :: '"' :: v ++ ['"']) ++ s =
        c :: (tail ++ ('=' :: '"' :: v ++ '"' :: s)) := by simp
    rw [happend, readAttribute_cons hopens hc, hsplit.1, hsplit.2, readValue_quoted (h.value v rfl)]
    rfl

theorem readAttributes_none {before : Char} {s : Text} (done : List WrittenAttribute)
    (h : readAttribute? before s = none) : readAttributes done before s = (done.reverse, s) := by
  rw [readAttributes]
  split
  · rfl
  · rename_i heq
    rw [h] at heq
    cases heq

theorem readAttributes_some {before last : Char} {s rest : Text} {a : WrittenAttribute}
    (done : List WrittenAttribute) (h : readAttribute? before s = some (a, last, rest)) :
    readAttributes done before s = readAttributes (a :: done) last rest := by
  conv => lhs; rw [readAttributes]
  split
  · rename_i heq
    rw [h] at heq
    cases heq
  · rename_i heq
    rw [h] at heq
    cases heq
    rfl

theorem skipGap_blank (before : Char) {c : Char} (h : isAttributeChar c = true) (s : Text) :
    skipGap before (' ' :: c :: s) = (' ', c :: s) := by
  obtain ⟨hblank, hslash, -, -⟩ := isAttributeChar_iff.1 h
  have hspace : (isBlank ' ' || (' ' = '/' && (c :: s).head? ≠ some '>')) = true := by
    rw [show isBlank ' ' = true by decide, Bool.true_or]
  have hc : ¬ (isBlank c || (c = '/' && s.head? ≠ some '>')) = true := by simp [hblank, hslash]
  rw [skipGap, if_pos hspace, skipGap, if_neg hc]

/-- The end of a tag without the blank in front. -/
def bracket (slash : Bool) : Text :=
  if slash then ['/', '>'] else ['>']

theorem readAttribute_end {before c : Char} (hc : c = '/' ∨ c = '>') (s : Text) :
    readAttribute? before (c :: s) = none := by
  rw [readAttribute?]
  refine if_pos ?_
  rcases hc with rfl | rfl
  · simp
  · simp

theorem readAttributes_spelled (h : ∀ a ∈ as, a.Plain) (done : List WrittenAttribute)
    (before : Char) (slash : Bool) (rest : Text) :
    readAttributes done (skipGap before (spelledRest as slash ++ rest)).1
        (skipGap before (spelledRest as slash ++ rest)).2 =
      (done.reverse ++ as, bracket slash ++ rest) := by
  induction as generalizing done before with
  | nil =>
    have hgap : (skipGap before (spelledRest [] slash ++ rest)).2 = bracket slash ++ rest := by
      cases slash with
      | true => rfl
      | false => rfl
    rw [hgap, List.append_nil]
    refine readAttributes_none done ?_
    cases slash with
    | true => exact readAttribute_end (.inl rfl) _
    | false => exact readAttribute_end (.inr rfl) _
  | cons a as ih =>
    have ha := h a List.mem_cons_self
    have has : ∀ b ∈ as, b.Plain := fun b hb => h b (List.mem_cons_of_mem a hb)
    obtain ⟨c, s, heq, hc⟩ := ha.spelled_eq
    -- the name and the value of `a` end before the attributes after it
    have hend : EndsName (spelledRest as slash ++ rest) := endsName_rest has
    obtain ⟨body, hbody, hread⟩ := readAttribute_spelled ha hend
    have hbody' : body = c :: s := by
      rw [heq] at hbody
      exact (List.cons.inj hbody).2.symm
    subst hbody'
    have hgap : skipGap before (spelledRest (a :: as) slash ++ rest) =
        (' ', c :: s ++ (spelledRest as slash ++ rest)) := by
      rw [spelledRest_cons, heq, List.append_assoc]
      exact skipGap_blank before hc _
    rw [hgap, readAttributes_some done hread, ih has, List.reverse_cons, List.append_assoc,
      List.singleton_append]

/-! ### Tags -/

theorem readTag_spelled {name : Text} (hname : ∀ c ∈ name, isTagNameChar c = true)
    (h : ∀ a ∈ as, a.Plain) (slash : Bool) (rest : Text) :
    readTag (name ++ (spelledRest as slash ++ rest)) = .tag name as slash rest := by
  have hstop : ∀ c ∈ (spelledRest as slash ++ rest).head?, isTagNameChar c = false := by
    intro c hc
    have hend : EndsName (spelledRest as slash ++ rest) := endsName_rest h
    rcases hend.head with hhead | hhead
    · rw [hhead] at hc
      cases hc
      decide
    · rw [hhead] at hc
      cases hc
      decide
  have hsplit := takeWhile_name hname hstop
  have hread := readAttributes_spelled h [] (name.getLastD '<') slash rest
  rw [readTag, hsplit.1, hsplit.2]
  dsimp only
  rw [hread]
  cases slash with
  | true => rfl
  | false => rfl

end Tender.Html
