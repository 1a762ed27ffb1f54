/-
What can be sent as JSON: values whose floats are all finite and whose texts have a spelling in
bytes.

Main statement: `isSendable_text`, a text can be sent exactly if it has no halves of wide characters.
-/
import Tender.Text.Half
import Tender.Value.Basic

namespace Tender.Json

/-- Whether a text has a spelling in bytes. -/
def isSpelled (s : Text) : Bool :=
  !s.any Text.isHalf

mutual
/-- Whether a value can be sent. -/
def isSendable : Value → Bool
  | .float x => x.isFinite
  | .text s => isSpelled s
  | .list vs => areSendable vs
  | .map es => areSendableEntries es
  | _ => true

/-- Whether all items of a list can be sent. -/
def areSendable : List Value → Bool
  | [] => true
  | v :: vs => isSendable v && areSendable vs

/-- Whether all entries of a map can be sent. -/
def areSendableEntries : List (Text × Value) → Bool
  | [] => true
  | (k, v) :: es => isSpelled k && isSendable v && areSendableEntries es
end

theorem isSendable_text (s : Text) :
    isSendable (.text s) = true ↔ ∀ c ∈ s, Text.isHalf c = false := by
  rw [isSendable, isSpelled]
  simp

end Tender.Json
