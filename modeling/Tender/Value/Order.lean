/-
Equality and order of values.

Numbers of every kind compare by their exact values, texts by the codes of their characters,
lists item by item, days and moments by time.  Other pairs have no order.  A decimal number that
is no number cannot be put in order at all.

Main statements: `Real.compare_swap` and `compareCodes_swap`, comparing the other way round gives
the converse.
-/
import Tender.Fault
import Tender.Value.Basic

namespace Tender

/-- How one value stands to another. -/
inductive Relation where
  | less
  | equal
  | greater
  /-- Of one kind, but neither is first. -/
  | unordered
  /-- Of kinds that have no order. -/
  | incomparable
  deriving DecidableEq

/-- The relation seen from the other side. -/
def Relation.swap : Relation → Relation
  | .less => .greater
  | .greater => .less
  | r => r

/-- A number for comparing. -/
inductive Real where
  | exact (r : Rat)
  | infinite (negative : Bool)
  | nan
  deriving DecidableEq

namespace Real

/-- How two numbers stand. -/
def compare : Real → Real → Relation
  | .nan, _ => .unordered
  | _, .nan => .unordered
  | .infinite a, .infinite b => if a = b then .equal else if a then .less else .greater
  | .infinite a, .exact _ => if a then .less else .greater
  | .exact _, .infinite b => if b then .greater else .less
  | .exact a, .exact b => if a < b then .less else if b < a then .greater else .equal

theorem compare_swap (a b : Real) : compare b a = (compare a b).swap := by
  cases a with
  | nan => cases b <;> rfl
  | infinite s =>
    cases b with
    | nan => rfl
    | infinite t => cases s <;> cases t <;> rfl
    | exact b => cases s <;> rfl
  | exact a =>
    cases b with
    | nan => rfl
    | infinite t => cases t <;> rfl
    | exact b =>
      simp only [compare]
      by_cases h : a < b
      · rw [if_pos h, if_neg (Rat.not_lt.2 (Rat.le_of_lt h)), if_pos h]; rfl
      · by_cases h' : b < a
        · rw [if_pos h', if_neg h, if_pos h']; rfl
        · rw [if_neg h', if_neg h, if_neg h, if_neg h']; rfl

end Real

/-- How two texts stand, by the codes of their characters. -/
def compareCodes : Text → Text → Relation
  | [], [] => .equal
  | [], _ :: _ => .less
  | _ :: _, [] => .greater
  | a :: s, b :: t =>
    if Text.codePoint a < Text.codePoint b then .less
    else if Text.codePoint b < Text.codePoint a then .greater
    else compareCodes s t

theorem compareCodes_swap (s t : Text) : compareCodes t s = (compareCodes s t).swap := by
  induction s generalizing t with
  | nil => cases t <;> rfl
  | cons a s ih =>
    cases t with
    | nil => rfl
    | cons b t =>
      simp only [compareCodes]
      by_cases h : Text.codePoint a < Text.codePoint b
      · rw [if_pos h, if_neg (by omega), if_pos h]; rfl
      · by_cases h' : Text.codePoint b < Text.codePoint a
        · rw [if_pos h', if_neg h, if_pos h']; rfl
        · rw [if_neg h', if_neg h, if_neg h, if_neg h']; exact ih t

/-- How two integers stand. -/
def compareInts (a b : Int) : Relation :=
  if a < b then .less else if b < a then .greater else .equal

namespace Value

/-- The exact value of a number of any kind. -/
def toReal? : Value → Option Real
  | .bool b => some (.exact (if b then 1 else 0))
  | .int n => some (.exact n)
  | .float .nan => some .nan
  | .float (.infinite s) => some (.infinite s)
  | .float (.finite s r) => some (((Binary64.finite s r).toRat?).elim .nan .exact)
  | .decimal (.finite s c e) => some (((Decimal.finite s c e).toRat?).elim .nan .exact)
  | .decimal (.infinite s) => some (.infinite s)
  | .decimal (.nan _ _ _) => some .nan
  | _ => none

/-- A decimal number. -/
def isDecimal : Value → Bool
  | .decimal _ => true
  | _ => false

/-- A decimal number that signals when it is used. -/
def isSignalling : Value → Bool
  | .decimal (.nan _ signalling _) => signalling
  | _ => false

/-- How two numbers of any kind stand.  Decimal arithmetic refuses to order what is no number. -/
def compareNumbers (a b : Value) (x y : Real) : Except Fault Relation :=
  if (x = .nan ∨ y = .nan) ∧ (a.isDecimal ∨ b.isDecimal) then .error .invalidOperation
  else .ok (Real.compare x y)

/-- How two moments stand: by universal time if both have an offset, by the clock if neither. -/
def compareMoments (a b : Moment) : Relation :=
  if a.comparable b then compareInts a.instant b.instant else .incomparable

mutual
/-- Whether two values are equal; numbers of different kinds may be. -/
def same (a b : Value) : Except Fault Bool :=
  match a, b with
  | .null, .null => .ok true
  | .text s, .text t => .ok (s == t)
  | .list xs, .list ys => if xs.length = ys.length then sameItems xs ys else .ok false
  | .map xs, .map ys => if xs.length = ys.length then sameEntries xs ys else .ok false
  | .date x, .date y => .ok (x == y)
  | .moment x, .moment y => .ok (compareMoments x y == .equal)
  | a, b => match a.toReal?, b.toReal? with
    | some x, some y =>
      if a.isSignalling ∨ b.isSignalling then .error .invalidOperation
      else .ok (Real.compare x y == .equal)
    | _, _ => .ok false

/-- Whether two lists have equal items, read side by side. -/
def sameItems : List Value → List Value → Except Fault Bool
  | x :: xs, y :: ys => do
    if ← same x y then sameItems xs ys else return false
  | _, _ => .ok true

/-- Whether the second map has an equal value under each key of the first. -/
def sameEntries : List (Text × Value) → List (Text × Value) → Except Fault Bool
  | [], _ => .ok true
  | (k, x) :: xs, ys => match Entries.get? k ys with
    | none => .ok false
    | some y => do
      if ← same x y then sameEntries xs ys else return false
end

mutual
/-- How one value stands to another. -/
def compare (a b : Value) : Except Fault Relation :=
  match a, b with
  | .text s, .text t => .ok (compareCodes s t)
  | .list xs, .list ys => compareItems xs ys
  | .date x, .date y => .ok (compareInts x.ordinal y.ordinal)
  | .moment x, .moment y => .ok (compareMoments x y)
  | a, b => match a.toReal?, b.toReal? with
    | some x, some y => compareNumbers a b x y
    | _, _ => .ok .incomparable

/-- Lists stand as their first items that differ, or else as their lengths. -/
def compareItems : List Value → List Value → Except Fault Relation
  | [], [] => .ok .equal
  | [], _ :: _ => .ok .less
  | _ :: _, [] => .ok .greater
  | x :: xs, y :: ys => do
    if ← same x y then compareItems xs ys else compare x y
end

end Value
end Tender
