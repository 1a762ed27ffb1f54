/-
The counters of a document: how many tokens of each kind have been bound so far.

Main statement: `next_number`, the tokens of one kind are numbered one after the other.
-/
import Tender.Token

namespace Tender

/-- The number of the next token of each kind; all cost lines share one counter. -/
structure Counters where
  custom : VariableKind → Nat
  lineItem : Nat

namespace Counters

/-- Nothing bound yet. -/
def start : Counters := ⟨fun _ => 0, 0⟩

/-- The number of the next token. -/
def number (c : Counters) : Token → Nat
  | .custom k => c.custom k
  | .item _ => c.lineItem

/-- The counters after a token. -/
def next (c : Counters) : Token → Counters
  | .custom k => { c with custom := fun j => if j = k then c.custom k + 1 else c.custom j }
  | .item _ => { c with lineItem := c.lineItem + 1 }

theorem next_number (c : Counters) (t : Token) : (c.next t).number t = c.number t + 1 := by
  cases t <;> simp [next, number]

/-- The counters after a row of tokens. -/
def after (c : Counters) (tokens : List Token) : Counters :=
  tokens.foldl next c

end Counters

/-- The key that the `n`-th token of its kind is bound to. -/
def Token.variableKey (t : Token) (n : Nat) : Text :=
  (match t with
    | .custom k => k.name
    | .item _ => lit "lineItem") ++ '_' :: Text.ofNat n

end Tender
