/-
Counting tokens.

* `number_after` — after a row of tokens a counter has moved on by the tokens that share it;
* `Counters.ext_number` — counters are known from the numbers they give.

So the order in which tokens are counted does not matter (`after_perm`).
-/
import Tender.Counters

namespace Tender

/-- Whether two tokens are counted by one counter. -/
def Token.shares : Token → Token → Bool
  | .custom k, .custom j => k = j
  | .item _, .item _ => true
  | _, _ => false

namespace Counters

theorem number_next (c : Counters) (t u : Token) :
    (c.next u).number t = c.number t + if t.shares u then 1 else 0 := by
  cases t with
  | custom k =>
    cases u with
    | custom j =>
      by_cases h : k = j
      · simp [next, number, Token.shares, h]
      · simp [next, number, Token.shares, h]
    | item _ => rfl
  | item _ => cases u <;> rfl

theorem number_eq_of_shares {t u : Token} (h : t.shares u = true) (c : Counters) :
    c.number t = c.number u := by
  cases t with
  | custom k =>
    cases u with
    | custom j =>
      rw [of_decide_eq_true h]
    | item _ => cases h
  | item _ =>
    cases u with
    | custom j => cases h
    | item _ => rfl

@[simp] theorem after_nil (c : Counters) : c.after [] = c := rfl

@[simp] theorem after_cons (c : Counters) (t : Token) (ts : List Token) :
    c.after (t :: ts) = (c.next t).after ts := rfl

theorem after_append (c : Counters) (ts us : List Token) :
    c.after (ts ++ us) = (c.after ts).after us := List.foldl_append

theorem number_after (c : Counters) (ts : List Token) (t : Token) :
    (c.after ts).number t = c.number t + ts.countP t.shares := by
  induction ts generalizing c with
  | nil => rfl
  | cons u ts ih =>
    rw [after_cons, ih, number_next, List.countP_cons]
    omega

theorem ext_number {c d : Counters} (h : ∀ t, c.number t = d.number t) : c = d := by
  obtain ⟨custom, lineItem⟩ := c
  obtain ⟨custom', lineItem'⟩ := d
  have hcustom : custom = custom' := funext fun k => h (.custom k)
  have hitem : lineItem = lineItem' := h (.item .labor)
  rw [hcustom, hitem]

theorem after_perm {ts us : List Token} (h : ts.Perm us) (c : Counters) :
    c.after ts = c.after us :=
  ext_number fun t => by rw [number_after, number_after, h.countP_eq]

end Counters
end Tender
