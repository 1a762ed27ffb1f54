/-
Start tags: a name and attributes, each with a value or without.

The reader takes what is nearly a tag as one.  An attribute starts after a blank, a slash or a quote.
A quoted value ends at the next quote of its kind, wherever that is; a quote without an end is no
value.

Main statement: `length_readTag`, a tag that is read is not empty.
-/
import Tender.Html.Reference
import Tender.Text.Case
import Tender.Text.Search
import Tender.Value.Basic

namespace Tender.Html

/-- A character that can be part of the name of an element. -/
def isTagNameChar (c : Char) : Bool :=
  !(['\t', '\n', '\r', '\x0c', ' ', '/', '>', '\x00'].contains c)

/-- Goes past blanks and slashes, but not past the slash that ends a tag.  `before` is the character
before the text. -/
def skipGap (before : Char) : Text → Char × Text
  | [] => (before, [])
  | c :: s =>
    if Text.isBlank c || (c = '/' && s.head? ≠ some '>') then skipGap c s else (before, c :: s)

theorem length_skipGap (before : Char) (s : Text) : (skipGap before s).2.length ≤ s.length := by
  induction s generalizing before with
  | nil => simp [skipGap]
  | cons c s ih =>
    simp only [skipGap]
    split
    · have := ih c
      simp only [List.length_cons]; omega
    · simp

/-- A character after which an attribute may start. -/
def opensAttribute (before : Char) : Bool :=
  before = '\'' || before = '"' || before = '/' || Text.isBlank before

/-- A character that can be part of a value without quotes. -/
def isBareChar (c : Char) : Bool :=
  c != '>' && !Text.isBlank c

/-- A value without quotes, the character before it, the last one read and the rest. -/
def bareValue (before : Char) (s : Text) : Text × Char × Text :=
  let value := s.takeWhile isBareChar
  (value, value.getLast?.getD before, s.dropWhile isBareChar)

/-- The value of an attribute after its name, the last character read and the rest. -/
def readValue? (s : Text) : Option (Text × Char × Text) :=
  match Text.trimStart s with
  | '=' :: s =>
    let moreSigns := s.takeWhile (· = '=')
    let afterSigns := s.dropWhile (· = '=')
    let body := Text.trimStart afterSigns
    match body with
    | [] => some ([], '=', [])
    | q :: inner =>
      if q = '\'' ∨ q = '"' then
        match Text.afterChar? q inner with
        | some rest => some (inner.takeWhile (· != q), q, rest)
        | none =>
          if body.length < afterSigns.length then some ([], ' ', body)
          else if moreSigns = [] then none
          else
            let (value, last, rest) := bareValue '=' afterSigns
            some ('=' :: value, last, rest)
      else some (bareValue '=' body)
  | _ => none

theorem length_bareValue (before : Char) (s : Text) :
    (bareValue before s).2.2.length ≤ s.length :=
  (List.dropWhile_sublist _).length_le

theorem length_readValue? {s value rest : Text} {last : Char}
    (h : readValue? s = some (value, last, rest)) : rest.length ≤ s.length := by
  have hs := Text.length_trimStart_le s
  unfold readValue? at h
  split at h
  · rename_i t ht
    rw [ht, List.length_cons] at hs
    have hd : (t.dropWhile (· = '=')).length ≤ t.length := (List.dropWhile_sublist _).length_le
    have hb := Text.length_trimStart_le (t.dropWhile (· = '='))
    simp only at h
    split at h
    · cases h; simp
    · rename_i q inner hq
      rw [hq, List.length_cons] at hb
      split at h
      · split at h
        · rename_i r hr
          have := Text.length_afterChar? hr
          cases h; omega
        · split at h
          · cases h
            have hl := congrArg List.length hq
            rw [List.length_cons] at hl
            omega
          · split at h
            · simp at h
            · have hv := length_bareValue '=' (t.dropWhile (· = '='))
              rcases hbv : bareValue '=' (t.dropWhile (· = '=')) with ⟨v, l, r⟩
              rw [hbv] at h hv
              cases h
              exact Nat.le_trans hv (by omega)
      · have hv := length_bareValue '=' (Text.trimStart (t.dropWhile (· = '=')))
        rw [hq] at hv
        rw [← hq, Option.some.inj h, hq, List.length_cons] at hv
        change rest.length ≤ _ at hv
        omega
  · simp at h

/-- An attribute as it is written. -/
structure WrittenAttribute where
  name : Text
  value : Option Text

/-- The attribute at the start of a text, the last character read and the rest, gap included. -/
def readAttribute? (before : Char) (s : Text) : Option (WrittenAttribute × Char × Text) :=
  match s with
  | [] => none
  | c :: s =>
    if !opensAttribute before || Text.isBlank c || c = '/' || c = '>' then none
    else
      let inName := fun c => !(Text.isBlank c || c = '/' || c = '=' || c = '>')
      let name := c :: s.takeWhile inName
      let afterName := s.dropWhile inName
      let (value, last, rest) := match readValue? afterName with
        | some (value, last, rest) => (some value, last, rest)
        | none => (none, name.getLastD c, afterName)
      some (⟨name, value⟩, skipGap last rest)

theorem length_readAttribute? {before last : Char} {s rest : Text} {a : WrittenAttribute}
    (h : readAttribute? before s = some (a, last, rest)) : rest.length < s.length := by
  unfold readAttribute? at h
  split at h
  · simp at h
  · rename_i c s
    split at h
    · simp at h
    · have hd : (s.dropWhile fun c => !(Text.isBlank c || c = '/' || c = '=' || c = '>')).length ≤
          s.length := (List.dropWhile_sublist _).length_le
      simp only [Option.some.injEq, Prod.mk.injEq] at h
      obtain ⟨-, hr⟩ := h
      rw [List.length_cons]
      split at hr
      · rename_i v l r hv
        have h₁ := length_readValue? hv
        have h₂ := length_skipGap l r
        rw [hr] at h₂
        simp only at h₂
        omega
      · rename_i hv
        have h₂ := length_skipGap ((c :: s.takeWhile fun c =>
          !(Text.isBlank c || c = '/' || c = '=' || c = '>')).getLastD c)
          (s.dropWhile fun c => !(Text.isBlank c || c = '/' || c = '=' || c = '>'))
        rw [hr] at h₂
        simp only at h₂
        omega

/-- The attributes at the start of a text after those read (reversed), and the rest. -/
def readAttributes (done : List WrittenAttribute) (before : Char) (s : Text) :
    List WrittenAttribute × Text :=
  match _h : readAttribute? before s with
  | none => (done.reverse, s)
  | some (a, last, rest) => readAttributes (a :: done) last rest
termination_by s.length
decreasing_by exact length_readAttribute? _h

theorem length_readAttributes (done : List WrittenAttribute) (before : Char) (s : Text) :
    (readAttributes done before s).2.length ≤ s.length := by
  fun_induction readAttributes done before s with
  | case1 => simp
  | case2 done before s a last rest h ih =>
    have := length_readAttribute? h
    omega

/-- A start tag. -/
structure Tag where
  /-- The name in small letters. -/
  name : Text
  /-- The attributes by their names in small letters; the last of one name counts. -/
  attributes : Entries Text
  /-- Whether a slash stands before the end of the tag. -/
  slash : Bool

/-- What is read where a start tag seems to start. -/
inductive TagReading where
  | tag (name : Text) (attributes : List WrittenAttribute) (slash : Bool) (rest : Text)
  /-- No tag: what was read is text. -/
  | text (attributes : List WrittenAttribute) (rest : Text)
  /-- The text ends before the tag does. -/
  | incomplete

/-- The text that a reading leaves. -/
def TagReading.rest? : TagReading → Option Text
  | .tag _ _ _ rest => some rest
  | .text _ rest => some rest
  | .incomplete => none

/-- Reads a start tag after its opening bracket; the text starts with a letter. -/
def readTag (s : Text) : TagReading :=
  let name := s.takeWhile isTagNameChar
  let (before, afterGap) := skipGap (name.getLastD '<') (s.dropWhile isTagNameChar)
  let (attributes, rest) := readAttributes [] before afterGap
  match rest with
  | [] => .incomplete
  | '>' :: rest => .tag name attributes false rest
  | '/' :: '>' :: rest => .tag name attributes true rest
  | c :: rest => if c.isAlpha ∨ c = '=' ∨ c = '/' then .incomplete else .text attributes (c :: rest)

theorem length_readTag {s rest : Text} (h : (readTag s).rest? = some rest) :
    rest.length ≤ s.length := by
  have h₁ : (s.dropWhile isTagNameChar).length ≤ s.length := (List.dropWhile_sublist _).length_le
  have h₂ := length_skipGap ((s.takeWhile isTagNameChar).getLastD '<') (s.dropWhile isTagNameChar)
  have h₃ := length_readAttributes []
    (skipGap ((s.takeWhile isTagNameChar).getLastD '<') (s.dropWhile isTagNameChar)).1
    (skipGap ((s.takeWhile isTagNameChar).getLastD '<') (s.dropWhile isTagNameChar)).2
  unfold readTag at h
  simp only at h
  split at h
  · simp [TagReading.rest?] at h
  · rename_i r hr
    rw [hr] at h₃
    cases h
    simp only [List.length_cons] at h₃
    omega
  · rename_i r hr
    rw [hr] at h₃
    cases h
    simp only [List.length_cons] at h₃
    omega
  · rename_i c r _ _ hr
    rw [hr] at h₃
    split at h
    · simp [TagReading.rest?] at h
    · cases h
      omega

/-- Writes the attributes of a tag out; one without a value has an empty one. -/
def writeOut : List WrittenAttribute → Except Fault (Entries Text)
  | [] => .ok []
  | a :: rest => do
    let value ← expandAll (a.value.getD [])
    let rest ← writeOut rest
    return (Text.toLower a.name, value) :: rest

/-- The tag with its attributes written out. -/
def Tag.of (name : Text) (attributes : List WrittenAttribute) (slash : Bool) : Except Fault Tag := do
  return ⟨Text.toLower name, Entries.ofPairs (← writeOut attributes), slash⟩

end Tender.Html
