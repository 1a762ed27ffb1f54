/-
Controls with the keys that they carry.

A control is harvested by its place among the controls of a page, whatever key is written on it.

* `controls_eq_keyed`, `places_keyed` — which token an element stands for, and which key is written
  on it, shows in its start tag alone.
-/
import Tender.Harvest
import Tender.Proofs.Html.Order

namespace Tender.Harvest

open Html Text

/-- The key that is written on an element. -/
def ownKey? (attributes : Entries Text) : Option Text :=
  Entries.get? (lit "data-var-key") attributes

mutual
/-- The controls in a part of a page, in order, each with the key that is written on it. -/
def keyed : Html.Node → List (Control × Option Text)
  | .text _ => []
  | .element name attributes children =>
    ((control? name attributes children).map fun x => (x, ownKey? attributes)).toList ++
      keyedAmong children
/-- The controls in parts of a page, each with the key that is written on it. -/
def keyedAmong : List Html.Node → List (Control × Option Text)
  | [] => []
  | n :: rest => keyed n ++ keyedAmong rest
end

mutual
theorem controls_eq_keyed (n : Html.Node) : controls n = (keyed n).map Prod.fst := by
  cases n with
  | text s => rfl
  | element name attributes children =>
    rw [controls, keyed, controlsAmong_eq_keyed children, List.map_append]
    cases control? name attributes children <;> rfl
theorem controlsAmong_eq_keyed (ns : List Html.Node) :
    controlsAmong ns = (keyedAmong ns).map Prod.fst := by
  cases ns with
  | nil => rfl
  | cons n ns =>
    rw [controlsAmong, keyedAmong, controls_eq_keyed n, controlsAmong_eq_keyed ns, List.map_append]
end

/-- The token for which an element is harvested, with the key that is written on it. -/
def place? (o : Opening) : Option (Token × Option Text) :=
  (control? o.1 o.2 []).map fun x => (x.token, ownKey? o.2)

/-- What stands in an element says nothing about the token. -/
theorem place?_eq (name : Text) (attributes : Entries Text) (children : List Html.Node) :
    place? (name, attributes) =
      (control? name attributes children).map fun x => (x.token, ownKey? attributes) := by
  rw [place?, control?, control?]
  split
  · rfl
  · split <;> rfl

mutual
/-- The tokens of the controls and the keys on them, as the start tags show them. -/
theorem places_keyed (n : Html.Node) :
    n.openings.filterMap place? = (keyed n).map fun p => (p.1.token, p.2) := by
  cases n with
  | text s => rfl
  | element name attributes children =>
    rw [Html.Node.openings, keyed, List.filterMap_cons, placesAmong_keyed children,
      place?_eq name attributes children, List.map_append]
    cases control? name attributes children <;> rfl
theorem placesAmong_keyed (ns : List Html.Node) :
    (openingsAmong ns).filterMap place? = (keyedAmong ns).map fun p => (p.1.token, p.2) := by
  cases ns with
  | nil => rfl
  | cons n ns =>
    rw [openingsAmong, keyedAmong, List.filterMap_append, places_keyed n, placesAmong_keyed ns,
      List.map_append]
end

end Tender.Harvest
