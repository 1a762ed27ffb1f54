/-
The shortest decimal numeral of a binary64 number: the fewest digits that read back as the
number and, of those, the nearest to it; of two that are equally near, the even one.

Main statement: `readsBack_of_candidate`, what is found does read back.
-/
import Tender.Number.Binary64
import Tender.Text.Basic

namespace Tender.Binary64

/-- A decimal numeral: `digits * 10 ^ exponent`. -/
structure Numeral where
  digits : Nat
  exponent : Int
  deriving DecidableEq

/-- The power of ten that the first digit of `num / den` stands for. -/
def decade (num den : Nat) : Int :=
  if den ≤ num then ((Text.ofNat (num / den)).length : Int) - 1
  else -((Text.ofNat ((den + num - 1) / num - 1)).length : Int)

/-- The quotient `num / den` over `10 ^ exponent`, as a fraction. -/
def scaleBy (num den : Nat) (exponent : Int) : Nat × Nat :=
  match exponent with
  | .ofNat e => (num, den * Nat.pow 10 e)
  | .negSucc e => (num * Nat.pow 10 (e + 1), den)

/-- Whether a numeral, read to the nearest number, has the given rank. -/
def readsBack (rank : Nat) (n : Numeral) : Bool :=
  match n.exponent with
  | .ofNat e => nearestRank (n.digits * Nat.pow 10 e) 1 == rank
  | .negSucc e => nearestRank n.digits (Nat.pow 10 (e + 1)) == rank

/-- The two multiples of `10 ^ exponent` around the number of this rank. -/
def neighbours (rank : Nat) (exponent : Int) : Numeral × Numeral :=
  let (num, den) := scaleBy (units rank) unitsPerOne exponent
  (⟨num / den, exponent⟩, ⟨num / den + 1, exponent⟩)

/-- Whether the lower of the two neighbours is the nearer one, an even one also at equal
distance. -/
def lowerIsNearer (rank : Nat) (exponent : Int) : Bool :=
  let (num, den) := scaleBy (units rank) unitsPerOne exponent
  roundDiv num den == num / den

/-- The neighbour that reads back as the number of this rank, the nearer one if both do. -/
def candidate? (rank : Nat) (exponent : Int) : Option Numeral :=
  let (low, high) := neighbours rank exponent
  if readsBack rank low && (lowerIsNearer rank exponent || !readsBack rank high) then some low
  else if readsBack rank high then some high
  else none

theorem readsBack_of_candidate {rank : Nat} {exponent : Int} {n : Numeral}
    (h : candidate? rank exponent = some n) : readsBack rank n = true := by
  simp only [candidate?, Bool.and_eq_true] at h
  split at h
  · rename_i hlow
    exact Option.some.inj h ▸ hlow.1
  · split at h
    · rename_i hhigh
      exact Option.some.inj h ▸ hhigh
    · simp at h

/-- Drops the zeros at the end of a numeral, at most `fuel` of them. -/
def Numeral.trim : Nat → Numeral → Numeral
  | 0, n => n
  | fuel + 1, n =>
    if n.digits % 10 = 0 ∧ n.digits ≠ 0 then Numeral.trim fuel ⟨n.digits / 10, n.exponent + 1⟩
    else n

/-- The shortest numeral of the number of a rank, without zeros at its end. -/
def shortest (rank : Nat) : Numeral :=
  if rank = 0 then ⟨0, 0⟩
  else
    let top := decade (units rank) unitsPerOne
    let found := (List.range 17).findSome? fun (n : Nat) => candidate? rank (top - (n : Int))
    (found.getD ⟨0, 0⟩).trim 17

/-- The digits of a number with the point where it belongs, or with a power of ten when that is
below `10 ^ (-4)` or from `10 ^ 16` on. -/
def plain (rank : Nat) : Text :=
  let n := shortest rank
  let digits := Text.ofNat n.digits
  let top := n.exponent + (digits.length : Int) - 1
  if -4 ≤ top ∧ top < 16 then
    if 0 ≤ n.exponent then
      digits ++ List.replicate n.exponent.toNat '0' ++ lit ".0"
    else if 0 ≤ top then
      digits.take (top.toNat + 1) ++ '.' :: digits.drop (top.toNat + 1)
    else
      '0' :: '.' :: List.replicate (-top - 1).toNat '0' ++ digits
  else
    let mantissa := match digits with
      | [d] => [d]
      | d :: rest => d :: '.' :: rest
      | [] => []
    mantissa ++ 'e' :: (if top < 0 then '-' else '+') :: Text.padded 2 top.natAbs

/-- The text of a number. -/
def toText : Binary64 → Text
  | .nan => lit "nan"
  | .infinite false => lit "inf"
  | .infinite true => lit "-inf"
  | .finite false r => plain r
  | .finite true r => '-' :: plain r

end Tender.Binary64
