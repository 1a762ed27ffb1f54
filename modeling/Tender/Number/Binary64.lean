/-
Numbers of the binary64 format.

The finite numbers of one sign are numbered from zero up by their rank, so the next larger
number has the next rank and every rank is a number.  All of them are multiples of the smallest
positive one, `2 ^ (-1074)`; `units` counts these multiples.

Main statements:
* `units_lt_units` — a larger rank is a larger number;
* `nearest_zero` — nothing is lost on zero.
-/

namespace Tender

/-- How many numbers there are from one power of two to the next: 52 binary places tell them
apart. -/
def Binary64.perBinade : Nat := 4503599627370496

/-- How many finite numbers of one sign there are. -/
def Binary64.ranks : Nat := 2047 * Binary64.perBinade

/-- How many units make one. -/
@[irreducible] def Binary64.unitsPerOne : Nat := Nat.pow 2 1074

/-- A binary64 number. -/
inductive Binary64 where
  | nan
  | infinite (negative : Bool)
  | finite (negative : Bool) (rank : Fin Binary64.ranks)
  deriving DecidableEq

namespace Binary64

/-- The number of rank `rank`, in units of `2 ^ (-1074)`. -/
def units (rank : Nat) : Nat :=
  if rank < perBinade then rank
  else (perBinade + rank % perBinade) * Nat.pow 2 (rank / perBinade - 1)

theorem units_lt_units_succ (rank : Nat) : units rank < units (rank + 1) := by
  have size : perBinade = 4503599627370496 := rfl
  unfold units
  by_cases h : rank + 1 < perBinade
  · rw [if_pos (by omega), if_pos h]; omega
  · rw [if_neg h]
    by_cases h' : rank < perBinade
    · have first : rank + 1 = perBinade := by omega
      rw [if_pos h', first, Nat.mod_self, Nat.div_self (by decide)]
      change rank < (perBinade + 0) * 1
      omega
    · rw [if_neg h']
      have hp : 0 < Nat.pow 2 (rank / perBinade - 1) := Nat.two_pow_pos _
      by_cases hc : rank % perBinade + 1 < perBinade
      · have h1 : (rank + 1) % perBinade = rank % perBinade + 1 := by rw [size] at hc ⊢; omega
        have h2 : (rank + 1) / perBinade = rank / perBinade := by rw [size] at hc ⊢; omega
        rw [h1, h2]
        exact Nat.mul_lt_mul_of_pos_right (Nat.lt_succ_self _) hp
      · have h1 : (rank + 1) % perBinade = 0 := by rw [size] at hc ⊢; omega
        have h2 : (rank + 1) / perBinade - 1 = (rank / perBinade - 1) + 1 := by
          rw [size] at hc h' ⊢; omega
        have h3 : Nat.pow 2 (rank / perBinade - 1 + 1) = 2 * Nat.pow 2 (rank / perBinade - 1) :=
          Nat.mul_comm ..
        have h4 : rank % perBinade < perBinade := Nat.mod_lt _ (by decide)
        rw [h1, h2, h3, ← Nat.mul_assoc]
        exact Nat.mul_lt_mul_of_pos_right (by omega) hp

theorem units_lt_units {a b : Nat} (h : a < b) : units a < units b := by
  induction b with
  | zero => omega
  | succ b ih =>
    rcases Nat.lt_succ_iff_lt_or_eq.1 h with h | rfl
    · exact Nat.lt_trans (ih h) (units_lt_units_succ b)
    · exact units_lt_units_succ a

/-- The quotient `num / den` to the nearest whole number, a half to the even one. -/
def roundDiv (num den : Nat) : Nat :=
  let q := num / den
  let r := num % den
  if 2 * r < den then q else if den < 2 * r then q + 1 else q + q % 2

/-- The rank nearest to `num / den`, with no upper bound on ranks. -/
def nearestRank (num den : Nat) : Nat :=
  let scaled := num * unitsPerOne
  let shift := Nat.log2 (scaled / den) - 52
  shift * perBinade + roundDiv scaled (den * Nat.pow 2 shift)

/-- The number nearest to `num / den`, a half to the even rank; infinite past the last rank. -/
def nearest (negative : Bool) (num den : Nat) : Binary64 :=
  let rank := nearestRank num den
  if h : rank < ranks then .finite negative ⟨rank, h⟩ else .infinite negative

/-- The number nearest to `digits * 10 ^ exponent`. -/
def ofScientific (negative : Bool) (digits : Nat) (exponent : Int) : Binary64 :=
  match exponent with
  | .ofNat e => if digits ≠ 0 ∧ 400 < e then .infinite negative else
      nearest negative (digits * Nat.pow 10 (if digits = 0 then 0 else e)) 1
  | .negSucc e =>
      if Nat.log2 digits + 1200 < 3 * e then .finite negative ⟨0, by decide⟩
      else nearest negative digits (Nat.pow 10 (e + 1))

/-- Positive zero. -/
def zero : Binary64 := .finite false ⟨0, by decide⟩

theorem nearest_zero (negative : Bool) : nearest negative 0 1 = .finite negative ⟨0, by decide⟩ := by
  cases negative <;> decide +kernel

/-- Neither infinite nor `nan`. -/
def isFinite : Binary64 → Bool
  | .finite _ _ => true
  | _ => false

/-- The integer as a number, if it is in range after rounding. -/
def ofInt? (n : Int) : Option Binary64 :=
  Option.guard isFinite (nearest (n < 0) n.natAbs 1)

/-- The exact value, in units of `2 ^ (-1074)`. -/
def signedUnits (negative : Bool) (rank : Nat) : Int :=
  if negative then -(units rank : Int) else units rank

/-- The exact value of a finite number. -/
def toRat? : Binary64 → Option Rat
  | .finite s r => some (mkRat (signedUnits s r) unitsPerOne)
  | _ => none

/-- The sum, rounded to nearest; a sum of zero is negative only if both terms are. -/
def add : Binary64 → Binary64 → Binary64
  | .nan, _ => .nan
  | _, .nan => .nan
  | .infinite s, .infinite t => if s = t then .infinite s else .nan
  | .infinite s, .finite _ _ => .infinite s
  | .finite _ _, .infinite t => .infinite t
  | .finite s r, .finite t u =>
    let sum := signedUnits s r + signedUnits t u
    if sum = 0 then .finite (s && t) ⟨0, by decide⟩
    else nearest (sum < 0) sum.natAbs unitsPerOne

/-- Zero of either sign. -/
def isZero : Binary64 → Bool
  | .finite _ r => r.val == 0
  | _ => false

/-- A finite number without a fraction, as an integer. -/
def toInt? : Binary64 → Option Int
  | .finite s r =>
    if units r % unitsPerOne = 0 then
      some (if s then -((units r / unitsPerOne : Nat) : Int) else (units r / unitsPerOne : Nat))
    else none
  | _ => none

end Binary64
end Tender
