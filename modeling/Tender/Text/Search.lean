/-
Searching forward in a text.

Main statements: `length_afterWord?`, a word is as long in any case, and `length_cutWhere`, what
follows a find is no longer than the text.
-/
import Tender.Text.Blank

namespace Tender.Text

/-- Whether a character is a small letter in some case or form. -/
def sameLetter (small c : Char) : Bool :=
  c = small || c.toLower = small || (small = 'i' && (c = '\u0130' || c = '\u0131')) ||
    (small = 'k' && c = '\u212A') || (small = 's' && c = '\u017F')

/-- The text after a word in any case; the word is given in small letters. -/
def afterWord? : (word : Text) → Text → Option Text
  | [], s => some s
  | _ :: _, [] => none
  | w :: word, c :: s => if sameLetter w c then afterWord? word s else none

theorem length_afterWord? {word s rest : Text} (h : afterWord? word s = some rest) :
    rest.length + word.length = s.length := by
  induction word generalizing s with
  | nil => simp_all [afterWord?]
  | cons w word ih =>
    cases s with
    | nil => simp [afterWord?] at h
    | cons c s =>
      simp only [afterWord?] at h
      split at h
      · have := ih h
        simp only [List.length_cons]; omega
      · simp at h

/-- The text after the next character that is `c`. -/
def afterChar? (c : Char) (s : Text) : Option Text :=
  match s.dropWhile (· != c) with
  | [] => none
  | _ :: s => some s

theorem length_afterChar? {c : Char} {s rest : Text} (h : afterChar? c s = some rest) :
    rest.length < s.length := by
  unfold afterChar? at h
  have hle := (List.dropWhile_sublist (l := s) (· != c)).length_le
  split at h
  · simp at h
  · rename_i hs
    cases h
    rw [hs, List.length_cons] at hle
    omega

/-- The text before the first place where `find` succeeds, with `seen` (reversed) already read, and
what `find` leaves there. -/
def cutWhereFrom (find : Text → Option Text) : (seen : Text) → Text → Option (Text × Text)
  | seen, [] => (find []).map fun rest => (seen.reverse, rest)
  | seen, c :: s => match find (c :: s) with
    | some rest => some (seen.reverse, rest)
    | none => cutWhereFrom find (c :: seen) s

/-- The text before the first place where `find` succeeds, and what `find` leaves there. -/
def cutWhere (find : Text → Option Text) (s : Text) : Option (Text × Text) :=
  cutWhereFrom find [] s

theorem length_cutWhereFrom {find : Text → Option Text}
    (hf : ∀ s rest, find s = some rest → rest.length ≤ s.length) {seen s before rest : Text}
    (h : cutWhereFrom find seen s = some (before, rest)) : rest.length ≤ s.length := by
  induction s generalizing seen with
  | nil =>
    simp only [cutWhereFrom, Option.map_eq_some_iff] at h
    obtain ⟨r, hr, heq⟩ := h
    obtain ⟨-, rfl⟩ := Prod.mk.inj heq
    exact hf _ _ hr
  | cons c s ih =>
    simp only [cutWhereFrom] at h
    split at h
    · rename_i r hr
      obtain ⟨-, rfl⟩ := Prod.mk.inj (Option.some.inj h)
      exact hf _ _ hr
    · have := ih h
      simp only [List.length_cons]; omega

theorem length_cutWhere {find : Text → Option Text}
    (hf : ∀ s rest, find s = some rest → rest.length ≤ s.length) {s before rest : Text}
    (h : cutWhere find s = some (before, rest)) : rest.length ≤ s.length :=
  length_cutWhereFrom hf h

theorem length_trimStart_le (s : Text) : (trimStart s).length ≤ s.length :=
  (List.dropWhile_sublist _).length_le

/-- The words of a text, with the word `word` (reversed) begun. -/
def wordsFrom : (word : Text) → Text → List Text
  | word, [] => if word = [] then [] else [word.reverse]
  | word, c :: s =>
    if isBlank c then
      if word = [] then wordsFrom [] s else word.reverse :: wordsFrom [] s
    else wordsFrom (c :: word) s

/-- The words of a text: what stands between blanks. -/
def words (s : Text) : List Text :=
  wordsFrom [] s

end Tender.Text
