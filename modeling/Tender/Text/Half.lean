/-
Halves of wide characters.

Inside a tag a character above U+FFFF is kept as the two halves of its 16-bit spelling, so it
is not the character that data hold.  The half with code `0xD800 + k` is written as the
character `0xCD800 + k` of an unassigned plane.

Main statements: `codePoint_half`, a half counts as its own code, and `split_narrow`, a text of
narrow characters is its own spelling.
-/
import Tender.Text.Basic

namespace Tender.Text

/-- The character that stands for the half with code `code`. -/
def half (code : Nat) : Char :=
  Char.ofNat (0xC0000 + code)

/-- The character with a code, a half standing for the code of a half. -/
def ofCode (code : Nat) : Char :=
  if 0xD800 ≤ code ∧ code < 0xE000 then half code else Char.ofNat code

/-- Whether a character stands for a half of a wide one. -/
def isHalf (c : Char) : Bool :=
  0xCD800 ≤ c.toNat && c.toNat < 0xCE000

/-- The first run of halves in a text, with the number of characters before it: halves have no
spelling in bytes. -/
def halves? (s : Text) : Option (Nat × Text) :=
  let before := s.takeWhile (!isHalf ·)
  let run := (s.dropWhile (!isHalf ·)).takeWhile isHalf
  if run = [] then none else some (before.length, run)

/-- The place of a character in the order of texts: a half counts as its own code. -/
def codePoint (c : Char) : Nat :=
  if isHalf c then c.toNat - 0xC0000 else c.toNat

/-- A character as it is spelled inside a tag. -/
def spell (c : Char) : Text :=
  if c.toNat < 0x10000 then [c]
  else [half (0xD800 + (c.toNat - 0x10000) / 0x400), half (0xDC00 + (c.toNat - 0x10000) % 0x400)]

/-- A text as it is spelled inside a tag. -/
def split (s : Text) : Text :=
  s.flatMap spell

theorem codePoint_half {code : Nat} (h : 0xD800 ≤ code) (h' : code < 0xE000) :
    codePoint (half code) = code := by
  have hv : (0xC0000 + code).isValidChar := by
    right; constructor <;> omega
  have hn : (half code).toNat = 0xC0000 + code := by
    have : half code = Char.ofNatAux (0xC0000 + code) hv := dif_pos hv
    rw [this]; rfl
  simp only [codePoint, isHalf, hn]
  rw [if_pos (by simp; omega)]
  omega

theorem split_narrow {s : Text} (h : ∀ c ∈ s, c.toNat < 0x10000) : split s = s := by
  induction s with
  | nil => rfl
  | cons c s ih =>
    have hc : spell c = [c] := by simp [spell, h c (by simp)]
    have hs : split s = s := ih fun d hd => h d (by simp [hd])
    simp only [split, List.flatMap_cons] at hs ⊢
    rw [hc, hs]; rfl

end Tender.Text
