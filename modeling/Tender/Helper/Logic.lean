/-
Comparing values and joining conditions.

Values of kinds that have no order are compared as numbers if both spell one; if not, every ordering
of them is false.

Main statements: `notEqual_eq`, `allOf_nil` and `anyOf_nil`.
-/
import Tender.Helper.Amount
import Tender.Value.Order

namespace Tender.Logic

/-- A true or false value. -/
def isBool : Value → Bool
  | .bool _ => true
  | _ => false

/-- A text. -/
def isText : Value → Bool
  | .text _ => true
  | _ => false

/-- Strict equality: a truth value equals no number and a text only a text. -/
def equal (a b : Value) : Except Fault Bool :=
  if isBool a ≠ isBool b then .ok false
  else if isText a ≠ isText b then .ok false
  else Value.same a b

/-- The opposite of `equal`. -/
def notEqual (a b : Value) : Except Fault Bool :=
  (equal a b).map not

/-- Whether an ordering, given as the relations it accepts, holds of two values. -/
def ordered (accepts : Relation → Bool) (a b : Value) : Except Fault Bool := do
  match ← Value.compare a b with
  | .incomparable =>
    let left ← Amount.parse a
    let right ← Amount.parse b
    match left, right with
    | some x, some y =>
      match Value.toReal? (.float x), Value.toReal? (.float y) with
      | some r, some s => return accepts (Real.compare r s)
      | _, _ => return false
    | _, _ => return false
  | r => return accepts r

/-- The first comes after the second. -/
def greater (a b : Value) : Except Fault Bool :=
  ordered (fun r => r == .greater) a b

/-- The first comes after the second or with it. -/
def greaterEq (a b : Value) : Except Fault Bool :=
  ordered (fun r => r == .greater || r == .equal) a b

/-- The first comes before the second. -/
def less (a b : Value) : Except Fault Bool :=
  ordered (fun r => r == .less) a b

/-- The first comes before the second or with it. -/
def lessEq (a b : Value) : Except Fault Bool :=
  ordered (fun r => r == .less || r == .equal) a b

/-- All of the values are there. -/
def allOf (vs : List Value) : Bool :=
  vs.all Value.isPresent

/-- Some of the values is there. -/
def anyOf (vs : List Value) : Bool :=
  vs.any Value.isPresent

theorem notEqual_eq (a b : Value) : notEqual a b = (equal a b).map not := rfl

theorem allOf_nil : allOf [] = true := rfl

theorem anyOf_nil : anyOf [] = false := rfl

/-- A helper of two parameters that answers a condition. -/
def binary (name : String) (f : Value → Value → Except Fault Bool) : Helper := fun args => do
  match ← (Signature.mk (lit name) [lit "a", lit "b"] []).bind args with
  | [some a, some b] => return .value (.bool (← f a.toValue b.toValue))
  | _ => return .value .null

/-- A helper of any number of values that answers a condition. -/
def joining (name : String) (f : List Value → Bool) : Helper := fun args => do
  let values ← Signature.bindAll (lit name) args
  return .value (.bool (f (values.map Outcome.toValue)))

/-- The helper that negates. -/
def negation : Helper := fun args => do
  match ← (Signature.mk (lit "not_") [lit "value"] []).bind args with
  | [some v] => return .value (.bool (!v.toValue.isPresent))
  | _ => return .value .null

end Tender.Logic
