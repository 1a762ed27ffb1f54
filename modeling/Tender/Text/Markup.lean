/-
Text as markup: the five characters that mean something in HTML are written as character
references, and so are braces, which would otherwise read as the start of a tag.

Main statements: `escape_append`, `encodeBraces_append` (both work character by character) and
`no_brace_encodeBraces` (no brace is left).
-/
import Tender.Text.Basic

namespace Tender.Text

/-- A character as HTML text. -/
def escapeChar : Char → Text
  | '&' => lit "&amp;"
  | '<' => lit "&lt;"
  | '>' => lit "&gt;"
  | '"' => lit "&#34;"
  | '\'' => lit "&#39;"
  | c => [c]

/-- A text as HTML text, safe also between quotes. -/
def escape (s : Text) : Text :=
  s.flatMap escapeChar

/-- A brace as a character reference. -/
def encodeBrace : Char → Text
  | '{' => lit "&#123;"
  | '}' => lit "&#125;"
  | c => [c]

/-- A text with its braces as character references. -/
def encodeBraces (s : Text) : Text :=
  s.flatMap encodeBrace

/-- A text as HTML text in which no tag can be read. -/
def safe (s : Text) : Text :=
  encodeBraces (escape s)

theorem escape_append (s t : Text) : escape (s ++ t) = escape s ++ escape t := by
  simp [escape]

theorem encodeBraces_append (s t : Text) :
    encodeBraces (s ++ t) = encodeBraces s ++ encodeBraces t := by
  simp [encodeBraces]

/-- Whether no character of a text is a brace. -/
def hasNoBrace (s : Text) : Bool :=
  s.all fun c => c ≠ '{' && c ≠ '}'

theorem ne_brace_of_hasNoBrace {s : Text} (hs : hasNoBrace s = true) {c : Char} (h : c ∈ s) :
    c ≠ '{' ∧ c ≠ '}' := by
  have := List.all_eq_true.1 hs c h
  simpa using this

theorem no_brace_encodeBrace {c d : Char} (h : d ∈ encodeBrace c) : d ≠ '{' ∧ d ≠ '}' := by
  unfold encodeBrace at h
  split at h
  · exact ne_brace_of_hasNoBrace (by decide +kernel) h
  · exact ne_brace_of_hasNoBrace (by decide +kernel) h
  · rename_i h₁ h₂
    rw [List.mem_singleton] at h
    subst h
    exact ⟨h₁, h₂⟩

theorem no_brace_encodeBraces {s : Text} {c : Char} (h : c ∈ encodeBraces s) :
    c ≠ '{' ∧ c ≠ '}' := by
  obtain ⟨d, -, hd⟩ := List.mem_flatMap.1 h
  exact no_brace_encodeBrace hd

end Tender.Text
