/-
Grouping the items of a list by a property.

Main statement: `keys_add_of_mem`, a group keeps the place where its key was first seen.
-/
import Tender.Helper.Basic

namespace Tender.Group

/-- The value under a path of keys; null where a step leads nowhere. -/
def lookup : Value → List Text → Value
  | v, [] => v
  | .map es, key :: rest => match Entries.get? key es with
    | some v => if v.isNull then .null else lookup v rest
    | none => .null
  | _, _ :: _ => .null

/-- The key that a property value groups under. -/
def key : Value → Text
  | .null => lit "undefined"
  | .bool true => lit "true"
  | .bool false => lit "false"
  | .float x => Value.floatText x
  | v => v.toText

/-- Adds an item to the group of a key, or starts the group. -/
def add (groups : Entries (List Value)) (key : Text) (item : Value) : Entries (List Value) :=
  Entries.put key ((Entries.get? key groups).getD [] ++ [item]) groups

theorem keys_add_of_mem {groups : Entries (List Value)} {key : Text}
    (h : key ∈ Entries.keys groups) (item : Value) :
    Entries.keys (add groups key item) = Entries.keys groups :=
  Entries.keys_put_of_mem h _

/-- The items of a list by the property at a path, groups in the order of their first items. -/
def groups (path : List Text) (items : List Value) : Entries (List Value) :=
  items.foldl (fun acc item => add acc (key (lookup item path)) item) []

/-- The steps of a path with points between them. -/
def path (s : Text) : List Text :=
  Text.splitOn ['.'] (by decide) s

/-- The groups of a list as a map; no groups unless there is a list and a property. -/
def format (collection property : Value) : Value :=
  match collection, property with
  | .list items, .text p => .map ((groups (path p) items).map fun (k, vs) => (k, .list vs))
  | _, _ => .map []

/-- The parameters of the grouping helper. -/
def signature : Signature :=
  ⟨lit "group_by", [lit "collection", lit "prop"], []⟩

/-- The helper that groups. -/
def helper : Helper := fun args => do
  match ← signature.bind args with
  | [some collection, some property] =>
    return .value (format collection.toValue property.toValue)
  | _ => return .value .null

end Tender.Group
