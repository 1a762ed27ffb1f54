/-
Data: the values that records hold and templates show.

A map keeps its entries in the order in which they were first put.

Main statements: `get?_put_self` and `get?_put_other` — a map gives back what was put last —
and `keys_put_of_mem`, putting under a key that is there keeps the order of the keys.
-/
import Tender.Calendar.Moment
import Tender.Number.Decimal
import Tender.Number.Shortest

namespace Tender

/-- A value. -/
inductive Value where
  | null
  | bool (b : Bool)
  | int (n : Int)
  | float (x : Binary64)
  | decimal (d : Decimal)
  | text (s : Text)
  | list (items : List Value)
  | map (entries : List (Text × Value))
  | date (d : Date)
  | moment (m : Moment)

instance : Inhabited Value := ⟨.null⟩

/-- Entries of a map in order. -/
abbrev Entries (α : Type) := List (Text × α)

namespace Entries

variable {α : Type}

/-- The value under a key. -/
def get? (key : Text) : Entries α → Option α
  | [] => none
  | (k, v) :: rest => if k = key then some v else get? key rest

/-- Puts a value under a key: in the place of the key if it is there, else at the end. -/
def put (key : Text) (value : α) : Entries α → Entries α
  | [] => [(key, value)]
  | (k, v) :: rest => if k = key then (k, value) :: rest else (k, v) :: put key value rest

/-- Puts all entries of a second map, in order. -/
def putAll (more : Entries α) (entries : Entries α) : Entries α :=
  more.foldl (fun acc (k, v) => put k v acc) entries

/-- The entries of a list of pairs; a later pair replaces the value of an earlier one. -/
def ofPairs (pairs : List (Text × α)) : Entries α :=
  putAll pairs []

/-- The keys in order. -/
def keys (entries : Entries α) : List Text :=
  List.map Prod.fst entries

/-- The entries but for the one under a key. -/
def erase (key : Text) (entries : Entries α) : Entries α :=
  entries.filter fun e => e.1 ≠ key

@[simp] theorem get?_put_self (key : Text) (value : α) (entries : Entries α) :
    get? key (put key value entries) = some value := by
  induction entries with
  | nil => simp [put, get?]
  | cons e entries ih =>
    obtain ⟨k, v⟩ := e
    by_cases h : k = key <;> simp [put, get?, h, ih]

theorem get?_put_other {key other : Text} (h : other ≠ key) (value : α) (entries : Entries α) :
    get? other (put key value entries) = get? other entries := by
  induction entries with
  | nil => simp [put, get?, h.symm]
  | cons e entries ih =>
    obtain ⟨k, v⟩ := e
    by_cases hk : k = key
    · subst hk; simp [put, get?, h.symm]
    · by_cases ho : k = other <;> simp [put, get?, hk, ho, h, ih]

theorem keys_put_of_mem {key : Text} {entries : Entries α} (h : key ∈ keys entries) (value : α) :
    keys (put key value entries) = keys entries := by
  induction entries with
  | nil => simp [keys] at h
  | cons e entries ih =>
    obtain ⟨k, v⟩ := e
    by_cases hk : k = key
    · simp [put, keys, hk]
    · have : key ∈ keys entries := by
        simp only [keys, List.map_cons, List.mem_cons] at h
        exact h.resolve_left (Ne.symm hk)
      simpa [put, keys, hk] using ih this

theorem mem_keys_put {key other : Text} {value : α} {entries : Entries α} :
    other ∈ keys (put key value entries) ↔ other = key ∨ other ∈ keys entries := by
  induction entries with
  | nil => simp [put, keys]
  | cons e entries ih =>
    obtain ⟨k, v⟩ := e
    simp only [keys] at ih
    by_cases hk : k = key
    · simp [put, keys, hk]
    · simp [put, keys, hk, ih, or_left_comm]

theorem mem_keys_erase {key other : Text} {entries : Entries α} :
    other ∈ keys (erase key entries) ↔ other ∈ keys entries ∧ other ≠ key := by
  simp only [keys, erase, List.mem_map, List.mem_filter, decide_eq_true_eq]
  constructor
  · rintro ⟨e, ⟨he, hne⟩, rfl⟩
    exact ⟨⟨e, he, rfl⟩, hne⟩
  · rintro ⟨⟨e, he, rfl⟩, hne⟩
    exact ⟨e, ⟨he, hne⟩, rfl⟩

theorem get?_eq_none_iff {key : Text} {entries : Entries α} :
    get? key entries = none ↔ key ∉ keys entries := by
  induction entries with
  | nil => simp [get?, keys]
  | cons e entries ih =>
    obtain ⟨k, v⟩ := e
    simp only [keys] at ih
    by_cases hk : k = key
    · simp [get?, keys, hk]
    · simp [get?, keys, hk, ih, Ne.symm hk]

end Entries

namespace Value

/-- The name of a value's kind, as messages give it. -/
def kind : Value → Text
  | .null => lit "NoneType"
  | .bool _ => lit "bool"
  | .int _ => lit "int"
  | .float _ => lit "float"
  | .decimal _ => lit "decimal.Decimal"
  | .text _ => lit "str"
  | .list _ => lit "list"
  | .map _ => lit "dict"
  | .date _ => lit "datetime.date"
  | .moment _ => lit "datetime.datetime"

/-- Whether a value is null. -/
def isNull : Value → Bool
  | .null => true
  | _ => false

/-- Whether a value is there at all: not null, false, zero or empty. -/
def isPresent : Value → Bool
  | .null => false
  | .bool b => b
  | .int n => n != 0
  | .float x => !x.isZero
  | .decimal (.finite _ c _) => c != 0
  | .decimal _ => true
  | .text s => !s.isEmpty
  | .list xs => !xs.isEmpty
  | .map es => !es.isEmpty
  | .date _ => true
  | .moment _ => true

/-- Whether a block shows for a value: as `isPresent`, but maps and decimal numbers always count
and a float that is no number does not. -/
def isTruthy : Value → Bool
  | .float x => !x.isZero && x != .nan
  | .decimal _ => true
  | .map _ => true
  | v => v.isPresent

end Value
end Tender
