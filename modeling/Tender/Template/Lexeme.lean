/-
The lexemes of an expression: parentheses, quoted texts, option keys and words.

Main statement: `length_lexeme_lt`, every lexeme uses up some of the text.
-/
import Tender.Text.Blank

namespace Tender

/-- A lexeme of an expression. -/
inductive Lexeme where
  | opened
  | closed
  /-- What stands between quotes. -/
  | quoted (s : Text)
  /-- A name with an equals sign after it. -/
  | key (s : Text)
  | word (s : Text)
  deriving DecidableEq

namespace Lexeme

/-- The text that messages show for a lexeme. -/
def text : Lexeme → Text
  | .opened => ['(']
  | .closed => [')']
  | .quoted s => s
  | .key s => s
  | .word s => s

/-- Reads up to the closing `quote`; a backslash takes the next character with it, which may not
be the end of a line. -/
def readQuoted (quote : Char) : (seen s : Text) → Option (Text × Text)
  | _, [] => none
  | seen, c :: s =>
    if c = quote then some (seen.reverse, s)
    else if c = '\\' then
      match s with
      | [] => none
      | d :: s => if d = '\n' then none else readQuoted quote (d :: c :: seen) s
    else readQuoted quote (c :: seen) s

theorem length_readQuoted {quote : Char} {seen s a b : Text}
    (h : readQuoted quote seen s = some (a, b)) : b.length < s.length := by
  fun_induction readQuoted quote seen s with
  | case1 => simp at h
  | case2 seen s => simp_all
  | case3 => simp at h
  | case4 => simp at h
  | case5 => rename_i ih; have := ih h; simp only [List.length_cons]; omega
  | case6 => rename_i ih; have := ih h; simp only [List.length_cons]; omega

/-- A character that may stand in a word outside brackets. -/
def isWordChar (c : Char) : Bool :=
  !(Text.isBlank c || c == '(' || c == ')' || c == '=' || c == '"' || c == '\'' || c == '[')

/-- Reads a word; between brackets, any character but a closing bracket belongs to it. -/
def readWord : (inside : Bool) → (seen s : Text) → Text × Text
  | _, seen, [] => (seen.reverse, [])
  | true, seen, c :: s => readWord (c != ']') (c :: seen) s
  | false, seen, c :: s =>
    if c = '[' then
      if s.elem ']' then readWord true (c :: seen) s else (seen.reverse, c :: s)
    else if isWordChar c then readWord false (c :: seen) s
    else (seen.reverse, c :: s)

theorem length_readWord (inside : Bool) (seen s : Text) :
    (readWord inside seen s).1.length + (readWord inside seen s).2.length
      = seen.length + s.length := by
  fun_induction readWord inside seen s with
  | case1 => simp
  | case2 _ _ _ ih => rw [ih]; simp only [List.length_cons]; omega
  | case3 _ _ _ ih => rw [ih]; simp only [List.length_cons]; omega
  | case4 => simp
  | case5 _ _ _ _ _ ih => rw [ih]; simp only [List.length_cons]; omega
  | case6 => simp

/-- Reads a name with an equals sign after it. -/
def readKey? (s : Text) : Option (Text × Text) :=
  let name := s.takeWhile Text.isNameRest
  match s.dropWhile Text.isNameRest with
  | '=' :: rest => if Text.isName name then some (name, rest) else none
  | _ => none

theorem length_readKey {s a b : Text} (h : readKey? s = some (a, b)) : b.length < s.length := by
  simp only [readKey?] at h
  split at h
  · rename_i rest hrest
    split at h
    · obtain ⟨rfl, rfl⟩ := Prod.mk.inj (Option.some.inj h)
      have := (List.dropWhile_sublist Text.isNameRest (l := s)).length_le
      rw [hrest, List.length_cons] at this
      omega
    · simp at h
  · simp at h

/-- Reads a key or else a word, which may not be empty. -/
def readBare? (s : Text) : Option (Lexeme × Text) :=
  match readKey? s with
  | some (name, rest) => some (.key name, rest)
  | none => match readWord false [] s with
    | ([], _) => none
    | (c :: w, rest) => some (.word (c :: w), rest)

/-- Reads a lexeme at the start of a text. -/
def read? : Text → Option (Lexeme × Text)
  | '(' :: s => some (.opened, s)
  | ')' :: s => some (.closed, s)
  | '"' :: s => (readQuoted '"' [] s).map fun (q, rest) => (.quoted q, rest)
  | '\'' :: s => (readQuoted '\'' [] s).map fun (q, rest) => (.quoted q, rest)
  | s => readBare? s

theorem length_readBare {s rest : Text} {l : Lexeme} (h : readBare? s = some (l, rest)) :
    rest.length < s.length := by
  simp only [readBare?] at h
  split at h
  · rename_i hk
    obtain ⟨-, rfl⟩ := Prod.mk.inj (Option.some.inj h)
    exact length_readKey hk
  · split at h
    · simp at h
    · rename_i c w r hw
      obtain ⟨-, rfl⟩ := Prod.mk.inj (Option.some.inj h)
      have := length_readWord false [] s
      rw [hw] at this
      simp only [List.length_cons, List.length_nil] at this
      omega

theorem length_lexeme_lt {s rest : Text} {l : Lexeme} (h : read? s = some (l, rest)) :
    rest.length < s.length := by
  unfold read? at h
  split at h
  · obtain ⟨-, rfl⟩ := Prod.mk.inj (Option.some.inj h); simp
  · obtain ⟨-, rfl⟩ := Prod.mk.inj (Option.some.inj h); simp
  · obtain ⟨⟨q, r⟩, hq, heq⟩ := Option.map_eq_some_iff.1 h
    obtain ⟨-, rfl⟩ := Prod.mk.inj heq
    exact Nat.lt_succ_of_lt (length_readQuoted hq)
  · obtain ⟨⟨q, r⟩, hq, heq⟩ := Option.map_eq_some_iff.1 h
    obtain ⟨-, rfl⟩ := Prod.mk.inj heq
    exact Nat.lt_succ_of_lt (length_readQuoted hq)
  · exact length_readBare h

/-- The lexemes of a text, after the lexemes `done` (reversed); none if some character fits no
lexeme. -/
def readAll (done : List Lexeme) (s : Text) : Option (List Lexeme) :=
  match _hs : Text.trimStart s with
  | [] => some done.reverse
  | c :: r => match _h : read? (c :: r) with
    | none => none
    | some (l, rest) => readAll (l :: done) rest
termination_by s.length
decreasing_by
  have h₁ := length_lexeme_lt _h
  have h₂ : (Text.trimStart s).length ≤ s.length := (List.dropWhile_sublist _).length_le
  rw [_hs] at h₂
  omega

/-- The lexemes of a text. -/
def ofText? (s : Text) : Option (List Lexeme) :=
  readAll [] s

end Lexeme
end Tender
