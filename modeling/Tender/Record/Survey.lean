/-
Reading records field by field.

A reading goes through all fields of a record and notes a complaint for each one that cannot be
read; a fault ends it at once.  What it returns counts only if there are no complaints.

Main statements: `finish_ok_iff`, a survey comes to a record exactly if it has no complaint, and
`find?_key`, the field's own key goes before its second name.
-/
import Tender.Helper.Amount
import Tender.Number.Integer
import Tender.Value.Order

namespace Tender

/-- A reading that notes complaints as it goes on. -/
abbrev Survey (α : Type) := StateT (List Complaint) (Except Fault) α

namespace Survey

/-- Notes a complaint about a value. -/
def complain (kind : Complaint.Kind) (found : Value) : Survey Unit :=
  modify (· ++ [⟨[], kind, found⟩])

/-- Fails with a fault. -/
def fail {α : Type} (f : Fault) : Survey α :=
  throw f

/-- A reading of something further in: its complaints are seen from here. -/
def under {α : Type} (step : Text) (s : Survey α) : Survey α := fun cs =>
  match s [] with
  | .ok (a, inner) => .ok (a, cs ++ inner.map (Complaint.under step))
  | .error f => .error f

/-- The record that was read, or else the fault or all complaints. -/
def finish {α : Type} (s : Survey α) : Except Fault α :=
  match s [] with
  | .ok (a, []) => .ok a
  | .ok (_, c :: cs) => .error (.invalid (c :: cs))
  | .error f => .error f

theorem finish_ok_iff {α : Type} {s : Survey α} {a : α} : s.finish = .ok a ↔ s [] = .ok (a, []) := by
  unfold finish
  split
  · rename_i b h; rw [h]; simp
  · rename_i b c cs h; rw [h]; simp
  · rename_i f h; rw [h]; simp

end Survey

/-- A field of a record: the key it is stored under, and a second name that is also accepted. -/
structure Field where
  key : Text
  name : Text

namespace Field

/-- A field that is stored under its name. -/
def plain (s : String) : Field := ⟨lit s, lit s⟩

/-- A field with a key of its own. -/
def keyed (key name : String) : Field := ⟨lit key, lit name⟩

/-- The value of a field with the key that it is found under. -/
def find? (f : Field) (es : Entries Value) : Option (Text × Value) :=
  match Entries.get? f.key es with
  | some v => some (f.key, v)
  | none => (Entries.get? f.name es).map fun v => (f.name, v)

theorem find?_key {f : Field} {es : Entries Value} {v : Value} (h : Entries.get? f.key es = some v) :
    f.find? es = some (f.key, v) := by
  simp [find?, h]

/-- Whether the entry under a key is the value of the field. -/
def uses (f : Field) (es : Entries Value) (key : Text) : Bool :=
  key = f.key || (key = f.name && (Entries.get? f.key es).isNone)

/-- The entries that are the value of no field. -/
def extras (fields : List Field) (es : Entries Value) : Entries Value :=
  es.filter fun (k, _) => !fields.any fun f => f.uses es k

/-- The name of a field in a listing: its key or its second name. -/
def label (f : Field) (byKey : Bool) : Text :=
  if byKey then f.key else f.name

/-- Reads a field: its value is given to `read`, or `missing` stands if there is none. -/
def read {α : Type} (f : Field) (es : Entries Value) (missing : α) (read : Value → Survey α) :
    Survey α :=
  match f.find? es with
  | none => pure missing
  | some (key, v) => Survey.under key (read v)

/-- Reads a field that has to be there. -/
def require {α : Type} [Inhabited α] (f : Field) (es : Entries Value) (read : Value → Survey α) :
    Survey α :=
  match f.find? es with
  | none => Survey.under f.key do Survey.complain .missing (.map es); return default
  | some (key, v) => Survey.under key (read v)

end Field

mutual
/-- Whether a value can be written as text: no integer in it has too many digits. -/
def Value.isWritable : Value → Bool
  | .int n => n.natAbs < Nat.pow 10 Integer.maxDigits
  | .list vs => areWritable vs
  | .map es => areWritableEntries es
  | _ => true

/-- Whether all items of a list can be written. -/
def Value.areWritable : List Value → Bool
  | [] => true
  | v :: vs => v.isWritable && areWritable vs

/-- Whether the values of all entries of a map can be written. -/
def Value.areWritableEntries : List (Text × Value) → Bool
  | [] => true
  | (_, v) :: es => v.isWritable && areWritableEntries es
end

namespace Survey

/-- A value as the text of a field; a whole float loses its fraction, null stays absent. -/
def stringify : Value → Option Text
  | .null => none
  | .float x => some (Value.floatText x)
  | v => some v.toText

/-- Reads a text, or whatever can be written as one. -/
def anyText (v : Value) : Survey (Option Text) :=
  if v.isWritable then pure (stringify v)
  else do complain .badValue v; return none

/-- Reads a text and nothing else. -/
def text (v : Value) : Survey Text :=
  match v with
  | .text s => pure s
  | v => do complain .textType v; return []

/-- Reads an amount: a number, or a text that spells one; nothing for null, for an empty text and for
what spells no number. -/
def amount (v : Value) : Survey (Option Binary64) :=
  match v with
  | .null => pure none
  | .text [] => pure none
  | v => match Amount.parse v with
    | .ok x => pure x
    | .error .signallingNaN => do complain .badValue v; return none
    | .error f => fail f

/-- The characters that are trimmed from a written integer. -/
def isSpace (c : Char) : Bool :=
  [0x9, 0xA, 0xB, 0xC, 0xD, 0x20, 0x85, 0xA0, 0x1680, 0x2028, 0x2029, 0x202F, 0x205F,
    0x3000].contains c.toNat || (0x2000 ≤ c.toNat && c.toNat ≤ 0x200A)

/-- The part of a written integer before its point, if nothing but zeros follows the point. -/
def dropZeroFraction (s : Text) : Text :=
  match s.dropWhile (· != '.') with
  | '.' :: zeros => if zeros.all (· == '0') then s.takeWhile (· != '.') else s
  | _ => s

/-- The integer that a text spells. -/
def writtenInt (s : Text) : Except Complaint.Kind Int :=
  let s := ((s.dropWhile isSpace).reverse.dropWhile isSpace).reverse
  if 4300 < s.length then .error .intTooLong
  else
    let (negative, digits) := match s with
      | '-' :: s => (true, s)
      | '+' :: s => (false, s)
      | s => (false, s)
    match Integer.spacedDigits? Char.isDigit (dropZeroFraction digits) with
    | some digits =>
      let n : Int := Decimal.digitsValue digits
      .ok (if negative then -n else n)
    | none => .error .intText

/-- The integer that a value is or stands for. -/
def integerOf : Value → Except Complaint.Kind Int
  | .int n => .ok n
  | .bool b => .ok (if b then 1 else 0)
  | .text s => writtenInt s
  | .float x =>
    if !x.isFinite then .error .intInfinite
    else match x.toInt? with
      | none => .error .intFraction
      | some n => if Integer.isWord (n - 1) && Integer.isWord n then .ok n else .error .intTooLong
  | .decimal d => match d.toRat? with
    | none => .error .intInfinite
    | some r => if r.den = 1 then .ok r.num else .error .intFraction
  | _ => .error .intType

/-- Reads an integer. -/
def integer (v : Value) : Survey Int :=
  match integerOf v with
  | .ok n => pure n
  | .error kind => do complain kind v; return 0

/-- Reads the items of a list, each under its number. -/
def items {α : Type} (read : Value → Survey α) : (index : Nat) → List Value → Survey (List α)
  | _, [] => pure []
  | i, v :: vs => do
    let a ← under (Text.ofNat i) (read v)
    let as ← items read (i + 1) vs
    return a :: as

/-- Reads a list; null counts as an empty one. -/
def list {α : Type} (read : Value → Survey α) (v : Value) : Survey (List α) :=
  match v with
  | .null => pure []
  | .list vs => items read 0 vs
  | v => do complain .listType v; return []

/-- Reads a record from its entries; `kind` is the complaint about what is no record. -/
def record {α : Type} [Inhabited α] (kind : Complaint.Kind) (read : Entries Value → Survey α)
    (v : Value) : Survey α :=
  match v with
  | .map es => read es
  | v => do complain kind v; return default

end Survey
end Tender
