/-
Text as a list of characters, with the few operations the engine needs: cutting at the first
occurrence of a pattern, splitting at all of them, and joining.

Main statements:
* `cut_eq` — the two parts of a cut and the pattern between them are the text;
* `length_of_cut` — the part after the cut is shorter than the text by at least the pattern.
-/

namespace Tender

/-- A text: its characters in order. -/
abbrev Text := List Char

/-- The characters of a string.  It unfolds only where a proof asks for it. -/
@[irreducible] def lit (s : String) : Text :=
  s.toList

/-- Rewriting with this takes a literal apart without running the decoder of strings. -/
theorem lit_ofList (s : Text) : lit (String.ofList s) = s := by
  rw [lit, String.toList_ofList]

/-- Literals are told apart by their strings. -/
theorem lit_inj {s t : String} : lit s = lit t ↔ s = t := by
  rw [lit, lit, String.toList_inj]

theorem lit_beq {s t : String} : (lit s == lit t) = (s == t) := by
  rw [Bool.eq_iff_iff, beq_iff_eq, beq_iff_eq, lit_inj]

namespace Text

/-- The decimal numeral of a natural number. -/
def ofNat (n : Nat) : Text :=
  Nat.toDigits 10 n

/-- The decimal numeral of an integer. -/
def ofInt (n : Int) : Text :=
  if n < 0 then '-' :: ofNat n.natAbs else ofNat n.natAbs

/-- The numeral of `n` with zeros in front, at least `width` digits long. -/
def padded (width n : Nat) : Text :=
  let digits := ofNat n
  List.replicate (width - digits.length) '0' ++ digits

/-- `s` is `start` and what follows it. -/
def after? : (start s : Text) → Option Text
  | [], s => some s
  | _ :: _, [] => none
  | c :: start, d :: s => if c = d then after? start s else none

theorem eq_of_after? {start s rest : Text} (h : after? start s = some rest) :
    s = start ++ rest := by
  induction start generalizing s with
  | nil => simp_all [after?]
  | cons c start ih =>
    cases s with
    | nil => simp [after?] at h
    | cons d s =>
      simp only [after?] at h
      split at h
      · rename_i heq
        subst heq
        rw [ih h, List.cons_append]
      · simp at h

/-- Whether `s` starts with `start`. -/
def startsWith (start s : Text) : Bool :=
  (after? start s).isSome

/-- Whether `s` ends with `tail`. -/
def endsWith (tail s : Text) : Bool :=
  startsWith tail.reverse s.reverse

/-- The text before and after the first `pattern` in `s`, with `seen` (reversed) already read. -/
def cutFrom (pattern : Text) : (seen s : Text) → Option (Text × Text)
  | seen, [] => match after? pattern [] with
    | some rest => some (seen.reverse, rest)
    | none => none
  | seen, c :: s => match after? pattern (c :: s) with
    | some rest => some (seen.reverse, rest)
    | none => cutFrom pattern (c :: seen) s

/-- The text before and after the first occurrence of `pattern`. -/
def cut (pattern s : Text) : Option (Text × Text) :=
  cutFrom pattern [] s

theorem cutFrom_eq {pattern seen s a b : Text} (h : cutFrom pattern seen s = some (a, b)) :
    seen.reverse ++ s = a ++ (pattern ++ b) := by
  induction s generalizing seen with
  | nil =>
    simp only [cutFrom] at h
    split at h
    · rename_i rest hrest
      obtain ⟨rfl, rfl⟩ := Prod.mk.inj (Option.some.inj h)
      rw [eq_of_after? hrest]
    · simp at h
  | cons c s ih =>
    simp only [cutFrom] at h
    split at h
    · rename_i rest hrest
      obtain ⟨rfl, rfl⟩ := Prod.mk.inj (Option.some.inj h)
      rw [eq_of_after? hrest]
    · rw [← ih h]; simp

theorem cut_eq {pattern s a b : Text} (h : cut pattern s = some (a, b)) :
    s = a ++ (pattern ++ b) := by
  simpa using cutFrom_eq h

theorem length_of_cut {pattern s a b : Text} (h : cut pattern s = some (a, b)) :
    b.length + pattern.length ≤ s.length := by
  rw [cut_eq h]; simp only [List.length_append]; omega

/-- The pieces of `s` between the occurrences of `pattern`, after the pieces `done` (reversed). -/
def splitFrom (pattern : Text) (h : pattern ≠ []) (done : List Text) (s : Text) : List Text :=
  match _hcut : cut pattern s with
  | none => (s :: done).reverse
  | some (a, b) => splitFrom pattern h (a :: done) b
termination_by s.length
decreasing_by
  have := length_of_cut _hcut
  have : 0 < pattern.length := List.length_pos_iff.mpr h
  omega

/-- The pieces of `s` between the occurrences of a pattern that is not empty. -/
def splitOn (pattern : Text) (h : pattern ≠ []) (s : Text) : List Text :=
  splitFrom pattern h [] s

/-- The texts with `separator` between neighbours. -/
def joinWith (separator : Text) (parts : List Text) : Text :=
  List.intercalate separator parts

/-- `s` with every `pattern` replaced, left to right. -/
def replace (pattern replacement : Text) (s : Text) : Text :=
  if h : pattern = [] then s else joinWith replacement (splitOn pattern h s)

/-- Whether `pattern` occurs in `s`. -/
def occursIn (pattern s : Text) : Bool :=
  (cut pattern s).isSome

/-- Whether the code of `c` lies in one of the ranges, ends included. -/
def inRanges (ranges : List (Nat × Nat)) (c : Char) : Bool :=
  ranges.any fun (lo, hi) => lo ≤ c.toNat && c.toNat ≤ hi

/-- A letter of the Latin alphabet without marks, or the low line. -/
def isNameStart (c : Char) : Bool :=
  c.isAlpha || c == '_'

/-- A character that may stand in a name after its first. -/
def isNameRest (c : Char) : Bool :=
  c.isAlphanum || c == '_'

/-- A name: a letter or low line, then letters, digits and low lines. -/
def isName : Text → Bool
  | [] => false
  | c :: rest => isNameStart c && rest.all isNameRest

end Text
end Tender
