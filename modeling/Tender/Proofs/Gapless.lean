/-
The keys of harvested values have no gaps.

* `filter_keysFrom` — tokens of one counter go by the keys that count up from where it stands;
* `nodup_keysFrom` — and tokens of different counters never share a key;
* `controlsAmong_eq` — the controls of a page are elements of it, in the order in which they open;
* `read_gapless` — so what is harvested from a page holds one entry for each control in order, and for
  each kind exactly the keys from zero on, and putting the entries into a map one by one takes none of
  them away.
-/
import Tender.Proofs.Harvest
import Tender.Proofs.Value.Entries

namespace Tender

open Text Binding

/-! ### The keys of tokens -/

namespace Harvest

/-- A name with the sign that parts it from a number. -/
def keyStart (name : Text) : Text := name ++ ['_']

/-- The key of a name with a number. -/
def key (name : Text) (n : Nat) : Text := keyStart name ++ Text.ofNat n

theorem variableKey_eq (t : Token) (n : Nat) : t.variableKey n = key (counterName t) n := by
  rw [key, keyStart, List.append_assoc]
  cases t <;> rfl

theorem counterName_of_shares {t u : Token} (h : t.shares u = true) :
    counterName t = counterName u := by
  have hall : ∀ t ∈ Token.all, ∀ u ∈ Token.all, t.shares u = true →
      counterName t = counterName u := by decide +kernel
  exact hall t t.mem_all u u.mem_all h

/-- The keys of a counter's tokens are known by their start. -/
theorem startsWith_variableKey (t u : Token) (n : Nat) :
    startsWith (keyStart (counterName t)) (u.variableKey n) = t.shares u := by
  rw [Bool.eq_iff_iff, startsWith_iff, variableKey_eq]
  constructor
  · rintro ⟨rest, hrest⟩
    rw [key, keyStart, keyStart, List.append_assoc, List.append_assoc] at hrest
    exact shares_of_counterName
      (eq_of_append_cons_eq (not_mem_counterName t) (not_mem_counterName u) hrest)
  · intro hshares
    rw [counterName_of_shares hshares]
    exact List.prefix_append _ _

/-- The tokens of one counter go by the keys that count up from where it stands. -/
theorem filter_keysFrom (c : Counters) (ts : List Token) (t : Token) :
    (keysFrom c ts).filter (startsWith (keyStart (counterName t))) =
      (List.range (ts.countP t.shares)).map fun n => key (counterName t) (c.number t + n) := by
  induction ts generalizing c with
  | nil => rfl
  | cons u ts ih =>
    rw [keysFrom, List.filter_cons, startsWith_variableKey, ih, List.countP_cons,
      Counters.number_next]
    cases hshares : t.shares u with
    | false => rfl
    | true =>
      rw [if_pos rfl, if_pos rfl, List.range_succ_eq_map, List.map_cons, List.map_map,
        variableKey_eq, ← counterName_of_shares hshares, ← Counters.number_eq_of_shares hshares]
      refine congrArg _ (List.map_congr_left fun n _ => ?_)
      exact congrArg _ (Nat.add_right_comm ..)

/-- Every key counts a token. -/
theorem exists_token_of_mem {c : Counters} {ts : List Token} {k : Text} (h : k ∈ keysFrom c ts) :
    ∃ t ∈ ts, ∃ n, k = t.variableKey n := by
  induction ts generalizing c with
  | nil => cases h
  | cons u ts ih =>
    rcases List.mem_cons.1 h with rfl | h
    · exact ⟨u, List.mem_cons_self, _, rfl⟩
    · obtain ⟨t, ht, hk⟩ := ih h
      exact ⟨t, List.mem_cons_of_mem u ht, hk⟩

/-- No two tokens go by the same key. -/
theorem nodup_keysFrom (c : Counters) (ts : List Token) : (keysFrom c ts).Nodup := by
  induction ts generalizing c with
  | nil => exact List.nodup_nil
  | cons u ts ih =>
    refine List.nodup_cons.2 ⟨fun hmem => ?_, ih _⟩
    -- among the later keys those of this counter count up from one more
    have hlater : u.variableKey (c.number u) ∈
        (keysFrom (c.next u) ts).filter (startsWith (keyStart (counterName u))) := by
      refine List.mem_filter.2 ⟨hmem, ?_⟩
      rw [startsWith_variableKey]
      cases u <;> simp [Token.shares]
    rw [filter_keysFrom, Counters.next_number] at hlater
    obtain ⟨n, -, heq⟩ := List.mem_map.1 hlater
    rw [← variableKey_eq] at heq
    have := (variableKey_inj heq).2
    omega

end Harvest

/-! ### The elements of a page -/

namespace Html

/-- An element of a page, with what stands in it. -/
structure Element where
  name : Text
  attributes : Entries Text
  children : List Node

mutual
/-- The elements in a part of a page, each before what stands in it. -/
def Node.elements : Node → List Element
  | .text _ => []
  | .element name attributes children => ⟨name, attributes, children⟩ :: elementsAmong children
/-- The elements in parts of a page. -/
def elementsAmong : List Node → List Element
  | [] => []
  | n :: rest => n.elements ++ elementsAmong rest
end

namespace Element

open Harvest

/-- The kind of custom variable that an element is an input for: that of the first of its classes
that belongs to one. -/
def inputKind? (e : Element) : Option VariableKind :=
  if e.name = lit "input" then (classes e.attributes).findSome? kindOfClass? else none

/-- Whether an element is a selector of cost lines. -/
def isSelector (e : Element) : Bool :=
  e.name = lit "select" && (classes e.attributes).contains (lit "line-item-select")

/-- What the key of a control begins with; most elements are no controls. -/
def family? (e : Element) : Option Text :=
  match e.inputKind? with
  | some k => some k.name
  | none => if e.isSelector then some (lit "lineItem") else none

/-- The value of a control: what is typed in, or the label that is chosen. -/
def value (e : Element) : Text :=
  if e.name = lit "input" then (Entries.get? (lit "value") e.attributes).getD []
  else chosenLabel e.attributes e.children

/-- The control that an element is. -/
def control? (e : Element) : Option Control :=
  Harvest.control? e.name e.attributes e.children

/-- An element is an input, a selector or no control. -/
theorem control?_cases (e : Element) :
    (∃ k, e.inputKind? = some k ∧ e.isSelector = false ∧ e.control? = some (.input k e.value)) ∨
    (e.inputKind? = none ∧ e.isSelector = true ∧ e.control? = some (.selector e.value)) ∨
    (e.inputKind? = none ∧ e.isSelector = false ∧ e.control? = none) := by
  rw [control?, Harvest.control?, inputKind?, isSelector, value]
  by_cases hinput : e.name = lit "input"
  · have hselect : ¬ e.name = lit "select" := by
      rw [hinput]
      decide +kernel
    simp only [if_pos hinput, hselect, decide_false, Bool.false_and]
    cases (classes e.attributes).findSome? kindOfClass? with
    | some k => exact .inl ⟨k, rfl, trivial, rfl⟩
    | none => exact .inr (.inr ⟨rfl, trivial, rfl⟩)
  · simp only [if_neg hinput]
    split
    · rename_i h
      exact .inr (.inl ⟨trivial, by simpa using h, rfl⟩)
    · rename_i h
      exact .inr (.inr ⟨trivial, by simpa using h, rfl⟩)

end Element
end Html

namespace Harvest

open Html (Element)

mutual
theorem controls_eq : (n : Html.Node) → controls n = n.elements.filterMap Element.control?
  | .text _ => by
    rw [controls, Html.Node.elements]
    rfl
  | .element name attributes children => by
    rw [controls, Html.Node.elements, controlsAmong_eq children, List.filterMap_cons]
    show (Element.control? ⟨name, attributes, children⟩).toList ++ _ = _
    cases Element.control? ⟨name, attributes, children⟩ <;> rfl
/-- The controls of a page are those of its elements in order. -/
theorem controlsAmong_eq :
    (ns : List Html.Node) → controlsAmong ns = (Html.elementsAmong ns).filterMap Element.control?
  | [] => by
    rw [controlsAmong, Html.elementsAmong]
    rfl
  | n :: rest => by
    rw [controlsAmong, Html.elementsAmong, controls_eq n, controlsAmong_eq rest,
      List.filterMap_append]
end

/-- What is harvested from elements: an entry for each control in order, under keys that count each
kind of control from zero on. -/
structure Gapless (elements : List Element) (values : Entries Text) : Prop where
  /-- The entries are the values of the controls, each under a key of its kind. -/
  entries : List.Forall₂
    (fun e v => (∃ family n, e.family? = some family ∧ v.1 = key family n) ∧ v.2 = e.value)
    (elements.filter fun e => e.family?.isSome) values
  /-- The keys of a kind of input, in order. -/
  inputs : ∀ k : VariableKind, (Entries.keys values).filter (startsWith (keyStart k.name)) =
    (List.range (elements.countP fun e => e.inputKind? = some k)).map (key k.name)
  /-- The keys of the selectors, in order. -/
  selectors : (Entries.keys values).filter (startsWith (keyStart (lit "lineItem"))) =
    (List.range (elements.countP Element.isSelector)).map (key (lit "lineItem"))
  /-- These are all the keys. -/
  keys : ∀ s, s ∈ Entries.keys values ↔
    (∃ (k : VariableKind) (n : Nat),
      n < (elements.countP fun e => e.inputKind? = some k) ∧ s = key k.name n) ∨
    ∃ n < elements.countP Element.isSelector, s = key (lit "lineItem") n
  /-- No entry takes the place of another one when they are put into a map in order. -/
  assigned : (Entries.keys values).Nodup ∧ Entries.ofPairs values = values

/-- How many elements have a control of a kind. -/
theorem countP_control (elements : List Element) (p : Element → Bool) (t : Token)
    (h : ∀ e, p e = true ↔ ∃ x, e.control? = some x ∧ t.shares x.token = true) :
    ((elements.filterMap Element.control?).map Control.token).countP t.shares =
      elements.countP p := by
  rw [List.countP_map, List.countP_filterMap]
  refine List.countP_congr fun e _ => ?_
  rw [h e]
  cases e.control? with
  | none => simp
  | some x => simp

theorem shares_input_iff (k : VariableKind) (e : Element) :
    decide (e.inputKind? = some k) = true ↔
      ∃ x, e.control? = some x ∧ (Token.custom k).shares x.token = true := by
  rw [decide_eq_true_eq]
  obtain ⟨j, hj, -, hx⟩ | ⟨hnone, -, hx⟩ | ⟨hnone, -, hx⟩ := e.control?_cases
  · rw [hj, hx]
    simp only [Option.some.injEq, exists_eq_left', Control.token, Token.shares, decide_eq_true_eq]
    exact eq_comm
  · rw [hnone, hx]
    simp [Control.token, Token.shares]
  · rw [hnone, hx]
    simp

theorem shares_selector_iff (e : Element) :
    e.isSelector = true ↔
      ∃ x, e.control? = some x ∧ (Token.item .miscellaneous).shares x.token = true := by
  obtain ⟨j, -, hselector, hx⟩ | ⟨-, hselector, hx⟩ | ⟨-, hselector, hx⟩ := e.control?_cases
  · rw [hselector, hx]
    simp [Control.token, Token.shares]
  · rw [hselector, hx]
    simp [Control.token, Token.shares]
  · rw [hselector, hx]
    simp

theorem entries_variablesFrom (c : Counters) (elements : List Element) :
    List.Forall₂
      (fun e v => (∃ family n, e.family? = some family ∧ v.1 = key family n) ∧ v.2 = e.value)
      (elements.filter fun e => e.family?.isSome)
      (variablesFrom c (elements.filterMap Element.control?)) := by
  induction elements generalizing c with
  | nil => exact .nil
  | cons e elements ih =>
    rw [List.filter_cons, List.filterMap_cons, Element.family?]
    obtain ⟨k, hk, -, hx⟩ | ⟨hnone, hselector, hx⟩ | ⟨hnone, hselector, hx⟩ := e.control?_cases
    · rw [hk, hx]
      refine .cons ⟨⟨k.name, _, ?_, variableKey_eq (.custom k) _⟩, rfl⟩ (ih _)
      rw [Element.family?, hk]
    · rw [hnone, hx, hselector]
      refine .cons ⟨⟨lit "lineItem", _, ?_, variableKey_eq (.item .miscellaneous) _⟩, rfl⟩ (ih _)
      rw [Element.family?, hnone, hselector]
      rfl
    · rw [hnone, hx, hselector]
      exact ih c

/-- What is harvested from the elements of a page has no gaps. -/
theorem gapless_values (nodes : List Html.Node) :
    Gapless (Html.elementsAmong nodes) (values (controlsAmong nodes)) := by
  have hkeys := keys_variables Counters.start (controlsAmong nodes)
  have hzero : ∀ t, Counters.start.number t = 0 := fun t => by cases t <;> rfl
  have hfilter (t : Token) (p : Element → Bool)
      (hp : ∀ e, p e = true ↔ ∃ x, e.control? = some x ∧ t.shares x.token = true) :
      (Entries.keys (values (controlsAmong nodes))).filter (startsWith (keyStart (counterName t))) =
        (List.range ((Html.elementsAmong nodes).countP p)).map (key (counterName t)) := by
    rw [values, hkeys, filter_keysFrom, controlsAmong_eq, countP_control _ p t hp, hzero]
    simp only [Nat.zero_add]
  have hinputs (k : VariableKind) := hfilter (.custom k) _ (shares_input_iff k)
  have hselectors := hfilter (.item .miscellaneous) _ shares_selector_iff
  have hnodup : (Entries.keys (values (controlsAmong nodes))).Nodup := by
    rw [values, hkeys]
    exact nodup_keysFrom _ _
  refine ⟨?_, hinputs, hselectors, fun s => ⟨fun hs => ?_, ?_⟩, hnodup,
    Entries.ofPairs_of_nodup hnodup⟩
  · rw [controlsAmong_eq]
    exact entries_variablesFrom _ _
  · -- every key counts a token, so that it is among those of the token's counter
    have hmem := hs
    rw [values, hkeys] at hmem
    obtain ⟨t, -, n, rfl⟩ := exists_token_of_mem hmem
    cases t with
    | custom k =>
      have hkind := List.mem_filter.2 ⟨hs,
        (startsWith_variableKey (.custom k) (.custom k) n).trans (decide_eq_true rfl)⟩
      rw [hinputs] at hkind
      obtain ⟨m, hm, heq⟩ := List.mem_map.1 hkind
      exact .inl ⟨k, m, List.mem_range.1 hm, heq.symm⟩
    | item category =>
      have hkind := List.mem_filter.2 ⟨hs,
        startsWith_variableKey (.item .miscellaneous) (.item category) n⟩
      rw [hselectors] at hkind
      obtain ⟨m, hm, heq⟩ := List.mem_map.1 hkind
      exact .inr ⟨m, List.mem_range.1 hm, heq.symm⟩
  · rintro (⟨k, n, hn, rfl⟩ | ⟨n, hn, rfl⟩)
    · have hmem := List.mem_map_of_mem (f := key (counterName (.custom k))) (List.mem_range.2 hn)
      rw [← hinputs] at hmem
      exact (List.mem_filter.1 hmem).1
    · have hmem := List.mem_map_of_mem (f := key (counterName (.item .miscellaneous)))
        (List.mem_range.2 hn)
      rw [← hselectors] at hmem
      exact (List.mem_filter.1 hmem).1

/-- Whatever a page is, what is harvested from it has no gaps; and only a page that cannot be read
cannot be harvested. -/
theorem read_gapless (page : Text) :
    match Html.read page with
    | .ok nodes => ∃ values, Harvest.read page = .ok values ∧
        Gapless (Html.elementsAmong nodes) values
    | .error f => Harvest.read page = .error f := by
  rw [Harvest.read]
  cases Html.read page with
  | ok nodes => exact ⟨_, rfl, gapless_values nodes⟩
  | error f => rfl

/-- An input of two kinds counts for the first, and what stands in one control counts for itself. -/
example : (Harvest.read (lit ("<input class=\"custom-var-number custom-var-text\">" ++
    "<select class=line-item-select><input class=custom-var-text></select>" ++
    "<select class=custom-var-text><input class=custom-var-number>"))).toOption.map Entries.keys =
      some [lit "customNumber_0", lit "lineItem_0", lit "customText_0", lit "customNumber_1"] := by
  decide +kernel

end Harvest

end Tender
