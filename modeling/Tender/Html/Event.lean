/-
Reading a page of HTML as a row of events: tags, and what stands between them.

The reader never refuses what a browser would show somehow: what is no tag and no reference is text.
It goes over the page twice.  The first time it stops where the page seems to end too early; the
second time it goes on from there and knows that nothing follows, so what is left is text.

Main statement: `length_step`, each step leaves a shorter text, so the reading ends.
-/
import Tender.Html.Tag

namespace Tender.Html

/-- What is found on a page. -/
inductive Event where
  | text (s : Text)
  | start (tag : Tag)
  /-- An end tag with its name in small letters. -/
  | close (name : Text)
  /-- A section of characters that mean nothing else. -/
  | section (s : Text)
  /-- Something that is not shown: a comment, a declaration or an instruction. -/
  | remark

/-- The elements whose content is raw text. -/
def rawElements : List Text := [lit "script", lit "style"]

/-- A closing bracket after blanks. -/
def afterBracket? (s : Text) : Option Text :=
  match Text.trimStart s with
  | '>' :: rest => some rest
  | _ => none

theorem length_afterBracket? {s rest : Text} (h : afterBracket? s = some rest) :
    rest.length < s.length := by
  have hs := Text.length_trimStart_le s
  unfold afterBracket? at h
  split at h
  · rename_i r hr
    cases h
    rw [hr, List.length_cons] at hs
    omega
  · simp at h

/-- The end of a comment. -/
def afterCommentEnd? : Text → Option Text
  | '-' :: '-' :: s => afterBracket? s
  | _ => none

/-- The end of a marked section with `brackets` closing brackets before the last. -/
def afterSectionEnd? : (brackets : Nat) → Text → Option Text
  | 0, s => afterBracket? s
  | n + 1, s => match Text.trimStart s with
    | ']' :: s => afterSectionEnd? n s
    | _ => none

/-- The end of a marked section, at its first closing bracket. -/
def sectionEnd? (brackets : Nat) (s : Text) : Option Text :=
  if s.head? = some ']' then afterSectionEnd? brackets s else none

theorem length_afterCommentEnd? {s rest : Text} (h : afterCommentEnd? s = some rest) :
    rest.length ≤ s.length := by
  unfold afterCommentEnd? at h
  split at h
  · have := length_afterBracket? h
    simp only [List.length_cons]; omega
  · simp at h

theorem length_afterSectionEnd? {n : Nat} {s rest : Text}
    (h : afterSectionEnd? n s = some rest) : rest.length ≤ s.length := by
  induction n generalizing s with
  | zero => exact Nat.le_of_lt (length_afterBracket? h)
  | succ n ih =>
    have hs := Text.length_trimStart_le s
    simp only [afterSectionEnd?] at h
    split at h
    · rename_i r hr
      have := ih h
      rw [hr, List.length_cons] at hs
      omega
    · simp at h

theorem length_sectionEnd? {n : Nat} {s rest : Text} (h : sectionEnd? n s = some rest) :
    rest.length ≤ s.length := by
  unfold sectionEnd? at h
  split at h
  · exact length_afterSectionEnd? h
  · simp at h

/-- What a reader finds after an opening bracket: events and the rest of the page, or the page ends
too early. -/
abbrev Found := Option (List Event × Text)

/-- Reads a comment after its opening dashes. -/
def readComment (s : Text) : Found :=
  (Text.cutWhere afterCommentEnd? s).map fun (_, rest) => ([.remark], rest)

/-- Reads what ends at the next closing bracket and is not shown. -/
def readRemark (s : Text) : Found :=
  (Text.afterChar? '>' s).map fun rest => ([.remark], rest)

/-- A character that can be part of the name of a marked section. -/
def isSectionNameChar (c : Char) : Bool :=
  c.isAlphanum || c = '-' || c = '_' || c = '.'

/-- The event of a marked section. -/
def sectionEvent (content : Text) : Event :=
  match Text.afterWord? (lit "cdata[") content with
  | some s => .section s
  | none => .remark

/-- Reads a marked section after its opening; `page` is the page from the opening on. -/
def readSection (page s : Text) : Except Fault Found :=
  match s with
  | [] => .ok none
  | c :: _ =>
    if !c.isAlpha then .error (.unreadable (.noSectionName page))
    else
      let name := s.takeWhile isSectionNameChar
      let afterName := s.dropWhile isSectionNameChar
      let rest := Text.trimStart afterName
      let kind := name.map Char.toLower
      if rest = [] then .ok none
      else if (["temp", "cdata", "ignore", "include", "rcdata"].map lit).contains kind then
        .ok ((Text.cutWhere (sectionEnd? 2) s).map fun (content, rest) =>
          ([sectionEvent content], rest))
      else if (["if", "else", "endif"].map lit).contains kind then
        .ok ((Text.cutWhere (sectionEnd? 1) s).map fun (content, rest) =>
          ([sectionEvent content], rest))
      else .error (.unreadable (.unknownSection (s.take (s.length - rest.length))))

/-- The name of a regular end tag after its slash, and the rest of the page. -/
def endTagName? (s : Text) : Option (Text × Text) :=
  match Text.trimStart s with
  | c :: s =>
    if c.isAlpha then
      let inName := fun c => isSectionNameChar c || c = ':'
      (afterBracket? (s.dropWhile inName)).map fun rest => (c :: s.takeWhile inName, rest)
    else none
  | [] => none

/-- Reads an end tag after its slash. -/
def readEndTag (s : Text) : Found :=
  match Text.afterChar? '>' s with
  | none => none
  | some rest => match endTagName? s with
    | some (name, rest) => some ([.close (Text.toLower name)], rest)
    | none => match s with
      | '>' :: _ => some ([], rest)
      | c :: _ =>
        if c.isAlpha then some ([.close (Text.toLower (s.takeWhile isTagNameChar))], rest)
        else some ([.remark], rest)
      | [] => none

/-- A reading that is going on: the element whose raw text is being read, and the rest of the page. -/
structure Reading where
  raw : Option Text
  rest : Text

/-- A step of a reading. -/
inductive Step where
  | go (events : List Event) (next : Reading)
  /-- The page seems to end too early. -/
  | stop (events : List Event) (rest : Text)

/-- The step for what is found after an opening bracket; `s` is the page from the bracket on.  What ends
too early is text when nothing follows. -/
def Step.ofFound (isLast : Bool) (s : Text) : Found → Step
  | some (events, rest) => .go events ⟨none, rest⟩
  | none =>
    if !isLast then .stop [] s
    else match s with
      | [] => .stop [] []
      | c :: inner =>
        if '>' ∈ inner then
          let shown := inner.takeWhile (· != '>')
          .go [.text (c :: shown ++ ['>'])] ⟨none, inner.drop (shown.length + 1)⟩
        else if '<' ∈ inner then
          .go [.text (c :: inner.takeWhile (· != '<'))] ⟨none, inner.dropWhile (· != '<')⟩
        else .go [.text [c]] ⟨none, inner⟩

/-- The step for a start tag after its opening bracket. -/
def stepTag (isLast : Bool) (s : Text) : Except Fault Step :=
  match readTag s with
  | .tag name attributes slash rest =>
    (Tag.of name attributes slash).map fun tag =>
      .go [.start tag]
        ⟨if !slash && rawElements.contains tag.name then some tag.name else none, rest⟩
  | .text attributes rest =>
    (writeOut attributes).map fun _ =>
      .go [.text ('<' :: s.take (s.length - rest.length))] ⟨none, rest⟩
  | .incomplete => .ok (Step.ofFound isLast ('<' :: s) none)

/-- The step at an opening bracket; `s` is the page after it. -/
def stepBracket (isLast : Bool) (s : Text) : Except Fault Step :=
  let found := fun f => Step.ofFound isLast ('<' :: s) f
  match s with
  | [] => .ok (.stop [] ['<'])
  | '/' :: inner => .ok (found (readEndTag inner))
  | '!' :: '-' :: '-' :: inner => .ok (found (readComment inner))
  | '!' :: '[' :: inner => (readSection ('<' :: s) inner).map found
  | '!' :: inner => .ok (found (readRemark inner))
  | '?' :: inner => .ok (found (readRemark inner))
  | c :: inner =>
    if c.isAlpha then stepTag isLast (c :: inner)
    else .ok (.go [.text ['<']] ⟨none, c :: inner⟩)

/-- The text without the semicolon at its start. -/
def dropSemicolon : Text → Text
  | ';' :: s => s
  | s => s

/-- The number that a reference writes after its number sign, and the rest of the page; the number
must be followed by something else than a digit. -/
def readNumber? (s : Text) : Option (Except Fault Nat × Text) :=
  let digits := s.takeWhile Char.isDigit
  if digits ≠ [] then
    match s.dropWhile Char.isDigit with
    | [] => none
    | c :: rest => if isHexDigit c then none else some (decimalNumber digits, c :: rest)
  else match s with
    | x :: s =>
      let digits := s.takeWhile isHexDigit
      if (x = 'x' ∨ x = 'X') ∧ digits ≠ [] then
        match s.dropWhile isHexDigit with
        | [] => none
        | c :: rest => some (.ok (hexValue digits), c :: rest)
      else none
    | [] => none

/-- The step at the number sign of a reference; `s` is the page after it. -/
def stepNumber (s : Text) : Except Fault Step :=
  match readNumber? s with
  | some (n, rest) => n.map fun n => .go [.text [textChar n]] ⟨none, dropSemicolon rest⟩
  | none =>
    if ';' ∈ s then .ok (.stop [.text ['&', '#']] s)
    else .ok (.stop [] ('&' :: '#' :: s))

/-- A character that can be part of the name of a reference. -/
def isReferenceChar (c : Char) : Bool :=
  c.isAlphanum || c = '-' || c = '.'

/-- The name of a reference at the start of a text and the rest of the text, which may not be empty: if
it is, the name ends before its last sign that is no letter or digit. -/
def referenceName? (s : Text) : Option (Text × Text) :=
  match s.dropWhile isReferenceChar with
  | c :: rest => some (s.takeWhile isReferenceChar, c :: rest)
  | [] =>
    let tail := (s.reverse.takeWhile Char.isAlphanum).length + 1
    if tail < s.length then some (s.take (s.length - tail), s.drop (s.length - tail)) else none

/-- The characters that the name of a reference stands for in running text. -/
def textOfName (name : Text) : Text :=
  (named? name).getD ('&' :: name)

/-- The step at an ampersand; `s` is the page after it. -/
def stepAmpersand (isLast : Bool) (s : Text) : Except Fault Step :=
  match s with
  | [] => .ok (.stop [] ['&'])
  | '#' :: s => stepNumber s
  | c :: inner =>
    if c.isAlpha then
      match referenceName? s with
      | some (name, rest) => .ok (.go [.text (textOfName name)] ⟨none, dropSemicolon rest⟩)
      | none => .ok (.stop [] (if isLast ∧ inner = [] then s else '&' :: s))
    else .ok (.go [.text ['&']] ⟨none, s⟩)

/-- The end tag of an element with raw text, in any case, at the start of a text. -/
def rawEnd? (name : Text) (s : Text) : Option Text :=
  match s with
  | '<' :: '/' :: inner => do
    let _ ← afterBracket? (← Text.afterWord? name (Text.trimStart inner))
    return s
  | _ => none

/-- The step inside an element with raw text. -/
def stepRaw (name s : Text) : Step :=
  match Text.cutWhere (rawEnd? name) s with
  | some (before, '<' :: '/' :: inner) =>
    let shown : List Event := if before = [] then [] else [.text before]
    match endTagName? inner with
    | some (name, rest) => .go (shown ++ [.close (Text.toLower name)]) ⟨none, rest⟩
    | none => match Text.afterChar? '>' inner with
      | some rest =>
        .go (shown ++ [.text ('<' :: '/' :: inner.takeWhile (· != '>') ++ ['>'])])
          ⟨some name, rest⟩
      | none => .stop [] s
  | _ => .stop [] s

/-- A character of running text that means nothing else. -/
def isTextChar (c : Char) : Bool :=
  c != '&' && c != '<'

/-- A step of a reading at a text that is not empty: `c` is its first character. -/
def step (isLast : Bool) (raw : Option Text) (c : Char) (s : Text) : Except Fault Step :=
  match raw with
  | some name => .ok (stepRaw name (c :: s))
  | none =>
    if c = '<' then stepBracket isLast s
    else if c = '&' then stepAmpersand isLast s
    else .ok (.go [.text (c :: s.takeWhile isTextChar)] ⟨none, s.dropWhile isTextChar⟩)

/-! Each step leaves a shorter text. -/

theorem length_readComment {s rest : Text} {events : List Event}
    (h : readComment s = some (events, rest)) : rest.length ≤ s.length := by
  simp only [readComment, Option.map_eq_some_iff] at h
  obtain ⟨⟨before, r⟩, hr, heq⟩ := h
  obtain ⟨-, rfl⟩ := Prod.mk.inj heq
  exact Text.length_cutWhere (fun _ _ => length_afterCommentEnd?) hr

theorem length_readRemark {s rest : Text} {events : List Event}
    (h : readRemark s = some (events, rest)) : rest.length ≤ s.length := by
  simp only [readRemark, Option.map_eq_some_iff] at h
  obtain ⟨r, hr, heq⟩ := h
  obtain ⟨-, rfl⟩ := Prod.mk.inj heq
  exact Nat.le_of_lt (Text.length_afterChar? hr)

theorem length_readSection {page s rest : Text} {events : List Event}
    (h : readSection page s = .ok (some (events, rest))) : rest.length ≤ s.length := by
  unfold readSection at h
  split at h
  · simp at h
  · split at h
    · simp at h
    · simp only at h
      split at h
      · simp at h
      · have key : ∀ {n : Nat} {t : Text}, (Text.cutWhere (sectionEnd? n) t).map
            (fun x => ([sectionEvent x.1], x.2)) = some (events, rest) →
            rest.length ≤ t.length := by
          intro n t ht
          obtain ⟨⟨before, r⟩, hr, heq⟩ := Option.map_eq_some_iff.1 ht
          obtain ⟨-, rfl⟩ := Prod.mk.inj heq
          exact Text.length_cutWhere (fun _ _ => length_sectionEnd?) hr
        split at h
        · exact key (Except.ok.inj h)
        · split at h
          · exact key (Except.ok.inj h)
          · simp at h

theorem length_endTagName? {s name rest : Text} (h : endTagName? s = some (name, rest)) :
    rest.length ≤ s.length := by
  have hs := Text.length_trimStart_le s
  unfold endTagName? at h
  split at h
  · rename_i c t ht
    rw [ht, List.length_cons] at hs
    split at h
    · simp only [Option.map_eq_some_iff] at h
      obtain ⟨r, hr, heq⟩ := h
      obtain ⟨-, rfl⟩ := Prod.mk.inj heq
      have h₁ := length_afterBracket? hr
      have h₂ := (List.dropWhile_sublist (l := t) fun c => isSectionNameChar c || c = ':').length_le
      omega
    · simp at h
  · simp at h

theorem length_readEndTag {s rest : Text} {events : List Event}
    (h : readEndTag s = some (events, rest)) : rest.length ≤ s.length := by
  unfold readEndTag at h
  split at h
  · simp at h
  · rename_i r hr
    have hlt := Text.length_afterChar? hr
    split at h
    · rename_i name t ht
      have := length_endTagName? ht
      cases h; exact this
    · split at h
      · cases h; omega
      · split at h <;> (cases h; omega)
      · simp at h

theorem length_ofFound {isLast : Bool} {s : Text} {found : Found} {events : List Event}
    {next : Reading} (hf : ∀ ev rest, found = some (ev, rest) → rest.length < s.length)
    (h : Step.ofFound isLast s found = .go events next) : next.rest.length < s.length := by
  unfold Step.ofFound at h
  split at h
  · rename_i rest
    cases h
    exact hf _ rest rfl
  · split at h
    · simp at h
    · split at h
      · simp at h
      · rename_i c inner
        rw [List.length_cons]
        split at h
        · cases h
          simp only [List.length_drop]; omega
        · split at h
          · cases h
            have := (List.dropWhile_sublist (l := inner) (· != '<')).length_le
            exact Nat.lt_succ_of_le this
          · cases h
            exact Nat.lt_succ_self _

theorem length_stepTag {isLast : Bool} {s : Text} {events : List Event} {next : Reading}
    (h : stepTag isLast s = .ok (.go events next)) : next.rest.length < s.length + 1 := by
  unfold stepTag at h
  split at h
  · rename_i name attributes slash rest ht
    have hr : rest.length ≤ s.length := length_readTag (by rw [ht]; rfl)
    cases hw : Tag.of name attributes slash with
    | error f => simp [hw, Except.map] at h
    | ok tag =>
      simp only [hw, Except.map, Except.ok.injEq, Step.go.injEq] at h
      rw [← h.2]
      exact Nat.lt_succ_of_le hr
  · rename_i attributes rest ht
    have hr : rest.length ≤ s.length := length_readTag (by rw [ht]; rfl)
    cases hw : writeOut attributes with
    | error f => simp [hw, Except.map] at h
    | ok _ =>
      simp only [hw, Except.map, Except.ok.injEq, Step.go.injEq] at h
      rw [← h.2]
      exact Nat.lt_succ_of_le hr
  · exact length_ofFound (s := '<' :: s) (by simp) (Except.ok.inj h)

theorem length_stepBracket {isLast : Bool} {s : Text} {events : List Event} {next : Reading}
    (h : stepBracket isLast s = .ok (.go events next)) : next.rest.length < s.length + 1 := by
  unfold stepBracket at h
  split at h
  · simp at h
  · refine length_ofFound (s := '<' :: '/' :: _) (fun ev rest hf => ?_) (Except.ok.inj h)
    have := length_readEndTag hf
    simp only [List.length_cons]; omega
  · refine length_ofFound (s := '<' :: '!' :: '-' :: '-' :: _) (fun ev rest hf => ?_)
      (Except.ok.inj h)
    have := length_readComment hf
    simp only [List.length_cons]; omega
  · rename_i inner
    cases hsec : readSection ('<' :: '!' :: '[' :: inner) inner with
    | error f => simp [hsec, Except.map] at h
    | ok found =>
      simp only [hsec, Except.map, Except.ok.injEq] at h
      refine length_ofFound (s := '<' :: '!' :: '[' :: inner) (fun ev rest hf => ?_) h
      have := length_readSection (hf ▸ hsec)
      simp only [List.length_cons]; omega
  · refine length_ofFound (s := '<' :: '!' :: _) (fun ev rest hf => ?_) (Except.ok.inj h)
    have := length_readRemark hf
    simp only [List.length_cons]; omega
  · refine length_ofFound (s := '<' :: '?' :: _) (fun ev rest hf => ?_) (Except.ok.inj h)
    have := length_readRemark hf
    simp only [List.length_cons]; omega
  · split at h
    · exact length_stepTag h
    · cases h
      exact Nat.lt_succ_self _

theorem length_dropSemicolon_le (s : Text) : (dropSemicolon s).length ≤ s.length := by
  unfold dropSemicolon
  split <;> simp

theorem length_readNumber? {s rest : Text} {n : Except Fault Nat}
    (h : readNumber? s = some (n, rest)) : rest.length ≤ s.length := by
  unfold readNumber? at h
  simp only at h
  split at h
  · have hd := (List.dropWhile_sublist (l := s) Char.isDigit).length_le
    split at h
    · simp at h
    · rename_i c r hr
      rw [hr] at hd
      split at h
      · simp at h
      · cases h; exact hd
  · split at h
    · rename_i x t _
      have hd := (List.dropWhile_sublist (l := t) isHexDigit).length_le
      split at h
      · split at h
        · simp at h
        · rename_i c r hr
          rw [hr] at hd
          cases h
          exact Nat.le_succ_of_le hd
      · simp at h
    · simp at h

theorem length_stepNumber {s : Text} {events : List Event} {next : Reading}
    (h : stepNumber s = .ok (.go events next)) : next.rest.length ≤ s.length := by
  unfold stepNumber at h
  split at h
  · rename_i n rest hn
    cases n with
    | error f => simp [Except.map] at h
    | ok n =>
      have h₁ := length_readNumber? hn
      have h₂ := length_dropSemicolon_le rest
      simp only [Except.map, Except.ok.injEq, Step.go.injEq] at h
      rw [← h.2]
      exact Nat.le_trans h₂ h₁
  · split at h <;> simp at h

theorem length_referenceName? {s name rest : Text} (h : referenceName? s = some (name, rest)) :
    rest.length ≤ s.length := by
  unfold referenceName? at h
  split at h
  · rename_i c r hr
    have hd := (List.dropWhile_sublist (l := s) isReferenceChar).length_le
    rw [hr] at hd
    cases h; exact hd
  · simp only at h
    split at h
    · cases h; simp
    · simp at h

theorem length_stepAmpersand {isLast : Bool} {s : Text} {events : List Event} {next : Reading}
    (h : stepAmpersand isLast s = .ok (.go events next)) : next.rest.length ≤ s.length := by
  unfold stepAmpersand at h
  split at h
  · simp at h
  · exact Nat.le_succ_of_le (length_stepNumber h)
  · split at h
    · split at h
      · rename_i name rest hr
        have h₁ := length_referenceName? hr
        have h₂ := length_dropSemicolon_le rest
        cases h
        exact Nat.le_trans h₂ h₁
      · simp at h
    · cases h
      exact Nat.le_refl _

theorem rawEnd?_eq {name s rest : Text} (h : rawEnd? name s = some rest) : rest = s := by
  unfold rawEnd? at h
  split at h
  · simp only [bind, Option.bind_eq_some_iff, pure, Option.some.injEq] at h
    obtain ⟨_, -, _, -, rfl⟩ := h
    rfl
  · simp at h

theorem length_stepRaw {name s : Text} {events : List Event} {next : Reading}
    (h : stepRaw name s = .go events next) : next.rest.length < s.length := by
  unfold stepRaw at h
  split at h
  · rename_i before inner hcut
    have hle := Text.length_cutWhere
      (fun _ _ hr => Nat.le_of_eq (congrArg List.length (rawEnd?_eq hr))) hcut
    simp only [List.length_cons] at hle
    simp only at h
    split at h
    · rename_i n rest hn
      have := length_endTagName? hn
      cases h
      change rest.length < _
      omega
    · split at h
      · rename_i rest hr
        have := Text.length_afterChar? hr
        cases h
        change rest.length < _
        omega
      · simp at h
  · simp at h

theorem length_step {isLast : Bool} {raw : Option Text} {c : Char} {s : Text}
    {events : List Event} {next : Reading} (h : step isLast raw c s = .ok (.go events next)) :
    next.rest.length < (c :: s).length := by
  unfold step at h
  split at h
  · exact length_stepRaw (Except.ok.inj h)
  · rw [List.length_cons]
    split at h
    · exact length_stepBracket h
    · split at h
      · exact Nat.lt_succ_of_le (length_stepAmpersand h)
      · cases h
        exact Nat.lt_succ_of_le (List.dropWhile_sublist _).length_le

/-- Goes over a text until it ends or a step stops, after the events `done` (reversed). -/
def pass (isLast : Bool) (done : List Event) (raw : Option Text) (s : Text) :
    Except Fault (List Event × Reading) :=
  match s with
  | [] => .ok (done, ⟨raw, []⟩)
  | c :: s => match _h : step isLast raw c s with
    | .error f => .error f
    | .ok (.stop events rest) => .ok (events.reverse ++ done, ⟨raw, rest⟩)
    | .ok (.go events next) => pass isLast (events.reverse ++ done) next.raw next.rest
termination_by s.length
decreasing_by exact length_step _h

/-- The text that is left at last; raw text without an end is not shown. -/
def leftOver (r : Reading) : List Event :=
  if r.raw = none ∧ r.rest ≠ [] then [.text r.rest] else []

/-- The events of a page. -/
def events (page : Text) : Except Fault (List Event) := do
  let (done, first) ← pass false [] none page
  let (done, last) ← pass true done first.raw first.rest
  return done.reverse ++ leftOver last

end Tender.Html
