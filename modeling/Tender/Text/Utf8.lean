/-
Texts in bytes: UTF-8.

Bytes are read one by one; a character of several bytes is begun with the first of them, and each byte
that follows has to lie between two bounds.

Main statement: `decode_ascii`, bytes below 0x80 are read as their characters.
-/
import Tender.Text.Quoted

namespace Tender.Utf8

/-- Why bytes spell no character. -/
inductive Reason where
  | badStart
  | badContinuation
  | endOfBytes

/-- The wording of a reason. -/
def Reason.message : Reason → Text
  | .badStart => lit "invalid start byte"
  | .badContinuation => lit "invalid continuation byte"
  | .endOfBytes => lit "unexpected end of data"

/-- Bytes that spell no character: their place, the first of them, and how many there are. -/
structure Problem where
  position : Nat
  first : Nat
  count : Nat
  reason : Reason

/-- The wording of a problem. -/
def Problem.message (p : Problem) : Text :=
  lit "'utf-8' codec can't decode " ++
    (if p.count = 1 then
      lit "byte 0x" ++ Text.hex 2 p.first ++ lit " in position " ++ Text.ofNat p.position
    else
      lit "bytes in position " ++ Text.ofNat p.position ++ '-' ::
        Text.ofNat (p.position + p.count - 1)) ++
    lit ": " ++ p.reason.message

/-- A character of which some bytes have been read. -/
structure Begun where
  first : Nat
  /-- How many bytes have been read. -/
  taken : Nat
  /-- How many bytes are to come. -/
  owed : Nat
  /-- The code that the bytes spell so far. -/
  code : Nat
  /-- The bounds of the next byte. -/
  low : Nat
  high : Nat

namespace Begun

/-- The character that a byte begins, if it begins one of several bytes.  The bounds leave out longer
spellings than needed, halves of wide characters and codes beyond the last character. -/
def ofFirst? (b : Nat) : Option Begun :=
  if 0xC2 ≤ b ∧ b ≤ 0xDF then some ⟨b, 1, 1, b - 0xC0, 0x80, 0xBF⟩
  else if 0xE0 ≤ b ∧ b ≤ 0xEF then
    some ⟨b, 1, 2, b - 0xE0, if b = 0xE0 then 0xA0 else 0x80, if b = 0xED then 0x9F else 0xBF⟩
  else if 0xF0 ≤ b ∧ b ≤ 0xF4 then
    some ⟨b, 1, 3, b - 0xF0, if b = 0xF0 then 0x90 else 0x80, if b = 0xF4 then 0x8F else 0xBF⟩
  else none

/-- The character with one more byte. -/
def add (c : Begun) (b : Nat) : Begun :=
  ⟨c.first, c.taken + 1, c.owed - 1, c.code * 0x40 + (b - 0x80), 0x80, 0xBF⟩

/-- What is wrong with a character that begins at a place and does not go on. -/
def problem (c : Begun) (position : Nat) (reason : Reason) : Problem :=
  ⟨position, c.first, c.taken, reason⟩

end Begun

/-- Reads bytes after the characters `done` (reversed); the next character, which may have begun, is at
`position`. -/
def decodeFrom (done : Text) (position : Nat) : Option Begun → List UInt8 → Except Problem Text
  | none, [] => .ok done.reverse
  | some c, [] => .error (c.problem position .endOfBytes)
  | none, b :: rest =>
    if b < 0x80 then decodeFrom (Char.ofNat b.toNat :: done) (position + 1) none rest
    else match Begun.ofFirst? b.toNat with
      | none => .error ⟨position, b.toNat, 1, .badStart⟩
      | some c => decodeFrom done position (some c) rest
  | some c, b :: rest =>
    if c.low ≤ b.toNat ∧ b.toNat ≤ c.high then
      let c := c.add b.toNat
      if c.owed = 0 then decodeFrom (Char.ofNat c.code :: done) (position + c.taken) none rest
      else decodeFrom done position (some c) rest
    else .error (c.problem position .badContinuation)

/-- The text that bytes spell. -/
def decode (bytes : List UInt8) : Except Problem Text :=
  decodeFrom [] 0 none bytes

theorem decodeFrom_ascii {bytes : List UInt8} (h : ∀ b ∈ bytes, b < 0x80) (done : Text)
    (position : Nat) : decodeFrom done position none bytes =
      .ok (done.reverse ++ bytes.map fun b => Char.ofNat b.toNat) := by
  induction bytes generalizing done position with
  | nil => rw [decodeFrom, List.map_nil, List.append_nil]
  | cons b rest ih =>
    rw [decodeFrom, if_pos (h b List.mem_cons_self),
      ih (fun c hc => h c (List.mem_cons_of_mem b hc)), List.reverse_cons, List.append_assoc]
    rfl

theorem decode_ascii {bytes : List UInt8} (h : ∀ b ∈ bytes, b < 0x80) :
    decode bytes = .ok (bytes.map fun b => Char.ofNat b.toNat) :=
  decodeFrom_ascii h [] 0

end Tender.Utf8
