/-
The controls of a page with tokens bound for changes, read back.

* `shows_variable` — an input, also behind a currency symbol, is read as the value it holds;
* `shows_selector` — a selector is read as the label that is chosen in it.

Either is read with the key that was written on it.
-/
import Tender.Proofs.Binding.Keyed
import Tender.Proofs.Binding.Replacement
import Tender.Proofs.Html.Element

namespace Tender

namespace Binding

open Text Html

/-! ### Constant values of attributes -/

/-- Whether no character of a text ends a value or starts a reference. -/
def isQuiet (s : Text) : Bool :=
  s.all fun c => c ≠ '"' && c ≠ '&'

@[simp] theorem isQuiet_nil : isQuiet [] = true := rfl

@[simp] theorem isQuiet_cons (c : Char) (s : Text) :
    isQuiet (c :: s) = ((c ≠ '"' && c ≠ '&') && isQuiet s) := rfl

@[simp] theorem isQuiet_append (s t : Text) : isQuiet (s ++ t) = (isQuiet s && isQuiet t) :=
  List.all_append

theorem isQuiet_iff {s : Text} : isQuiet s = true ↔ '"' ∉ s ∧ '&' ∉ s := by
  constructor
  · intro h
    refine ⟨fun hmem => ?_, fun hmem => ?_⟩
    · exact absurd (List.all_eq_true.1 h _ hmem) (by decide)
    · exact absurd (List.all_eq_true.1 h _ hmem) (by decide)
  · rintro ⟨hquote, hamp⟩
    refine List.all_eq_true.2 fun c hc => ?_
    have hc₁ : c ≠ '"' := fun heq => hquote (heq ▸ hc)
    have hc₂ : c ≠ '&' := fun heq => hamp (heq ▸ hc)
    simp [hc₁, hc₂]

@[simp] theorem isQuiet_ofNat (n : Nat) : isQuiet (ofNat n) = true :=
  isQuiet_iff.2 ⟨not_mem_ofNat (by decide), not_mem_ofNat (by decide)⟩

@[simp] theorem isQuiet_ofInt (n : Int) : isQuiet (ofInt n) = true :=
  isQuiet_iff.2 ⟨not_mem_ofInt (by decide), not_mem_ofInt (by decide)⟩

/-- The names of the attributes of controls. -/
def attributeNames : List Text :=
  ["type", "class", "data-var-key", "value", "placeholder", "oninput", "style", "data-category",
    "disabled", "selected", "data-prompt"].map lit

theorem isAttributeName_of_mem {name : Text} (h : name ∈ attributeNames) : IsAttributeName name := by
  have hall : attributeNames.all (fun name => decide (IsAttributeName name)) = true := by
    simp only [attributeNames, List.map_cons, List.map_nil]
    repeat rw [lit_ofList]
    decide
  exact of_decide_eq_true (List.all_eq_true.1 hall name h)

theorem isElementName_input : IsElementName (lit "input") := by
  rw [lit_ofList]
  decide

theorem isContainerName_of_mem {name : Text}
    (h : name ∈ [lit "span", lit "select", lit "option"]) : IsContainerName name := by
  have hall : [lit "span", lit "select", lit "option"].all
      (fun name => decide (IsElementName name)) = true := by
    repeat rw [lit_ofList]
    decide
  refine ⟨of_decide_eq_true (List.all_eq_true.1 hall name h), ?_⟩
  simp only [List.mem_cons, List.not_mem_nil, or_false] at h
  rcases h with rfl | rfl | rfl <;>
    simp [rawElements, voidElements, Builder.isCalm, apartElements, spacedElements, lit_inj]

/-- An attribute of a control with a constant value. -/
theorem spelled_quiet {as : List WrittenAttribute} {es : Entries Text} {name value : Text}
    (hname : name ∈ attributeNames) (hvalue : isQuiet value = true) (h : Spelled as es) :
    Spelled (⟨name, some value⟩ :: as) ((name, value) :: es) :=
  h.quiet (isAttributeName_of_mem hname) (isQuiet_iff.1 hvalue).1 (isQuiet_iff.1 hvalue).2

/-! ### Inputs -/

/-- The attributes of an input as they are written. -/
def inputWritten (a : Variable.Appearance) (key value : Text) : List WrittenAttribute :=
  [⟨lit "type", some (lit "text")⟩, ⟨lit "class", some a.cssClass⟩, ⟨lit "data-var-key", some key⟩,
    ⟨lit "value", some (safe value)⟩, ⟨lit "placeholder", some a.placeholder⟩,
    ⟨lit "oninput", some (Variable.resize a)⟩, ⟨lit "style", some (Variable.inputStyle a value)⟩]

/-- The attributes of an input as they are read. -/
def inputRead (a : Variable.Appearance) (key value : Text) : Entries Text :=
  [(lit "type", lit "text"), (lit "class", a.cssClass), (lit "data-var-key", key),
    (lit "value", value), (lit "placeholder", a.placeholder), (lit "oninput", Variable.resize a),
    (lit "style", Variable.inputStyle a value)]

theorem control_eq (a : Variable.Appearance) (key value : Text) :
    Variable.control a key value = spelledTag (lit "input") (inputWritten a key value) true := by
  simp only [Variable.control, Variable.attr, spelledTag, spelledRest, inputWritten, tagEnd,
    WrittenAttribute.spelled, List.flatMap_cons, List.flatMap_nil, List.append_assoc,
    List.cons_append, List.nil_append, if_true]
  repeat rw [lit_ofList]
  simp only [List.cons_append, List.nil_append]

theorem nodup_inputRead (a : Variable.Appearance) (key value : Text) :
    (Entries.keys (inputRead a key value)).Nodup := by
  simp [inputRead, Entries.keys, lit_inj]

theorem isQuiet_appearance (k : VariableKind) (value : Text) :
    isQuiet (Variable.appearance k).cssClass = true ∧
      isQuiet (Variable.appearance k).placeholder = true ∧
      isQuiet (Variable.resize (Variable.appearance k)) = true ∧
      isQuiet (Variable.inputStyle (Variable.appearance k) value) = true := by
  cases k <;>
  · simp only [Variable.appearance, Variable.resize, Variable.inputStyle, isQuiet_append,
      isQuiet_ofNat, isQuiet_ofInt, Bool.and_true]
    repeat rw [lit_ofList]
    decide

theorem spelled_input (k : VariableKind) {key : Text} (hkey : isQuiet key = true) (value : Text) :
    Spelled (inputWritten (Variable.appearance k) key value)
      (inputRead (Variable.appearance k) key value) := by
  obtain ⟨hclass, hplaceholder, hresize, hstyle⟩ := isQuiet_appearance k value
  have htext : isQuiet (lit "text") = true := by
    rw [lit_ofList]
    decide
  refine spelled_quiet (by simp [attributeNames]) htext
    (spelled_quiet (by simp [attributeNames]) hclass
      (spelled_quiet (by simp [attributeNames]) hkey
        (Spelled.safe ?_ (isAttributeName_of_mem (by simp [attributeNames])) value)))
  exact spelled_quiet (by simp [attributeNames]) hplaceholder
    (spelled_quiet (by simp [attributeNames]) hresize
      (spelled_quiet (by simp [attributeNames]) hstyle Spelled.nil))

theorem words_cssClass (k : VariableKind) :
    words (Variable.appearance k).cssClass = [(Variable.appearance k).cssClass] := by
  cases k <;>
  · simp only [Variable.appearance]
    rw [lit_ofList]
    decide

/-- An input is read as its kind, its value and its key. -/
theorem shows_control (k : VariableKind) {key : Text} (hkey : isQuiet key = true) (value : Text) :
    ∃ n, Shows (Variable.control (Variable.appearance k) key value) n ∧
      Harvest.keyed n = [(.input k value, some key)] := by
  have hnodup := nodup_inputRead (Variable.appearance k) key value
  have hshows := shows_slash (spelled_input k hkey value) isElementName_input hnodup
  rw [← control_eq] at hshows
  refine ⟨_, hshows, ?_⟩
  have hclass : Entries.get? (lit "class") (inputRead (Variable.appearance k) key value) =
      some (Variable.appearance k).cssClass := Entries.get?_of_mem hnodup (by simp [inputRead])
  have hvalue : Entries.get? (lit "value") (inputRead (Variable.appearance k) key value) =
      some value := Entries.get?_of_mem hnodup (by simp [inputRead])
  have hkey : Harvest.ownKey? (inputRead (Variable.appearance k) key value) = some key :=
    Entries.get?_of_mem hnodup (by simp [inputRead])
  have hkind : (words (Variable.appearance k).cssClass).findSome? Harvest.kindOfClass? = some k := by
    rw [words_cssClass]
    cases k <;>
      simp [Harvest.kindOfClass?, Variable.appearance, List.lookup_cons, lit_beq]
  rw [Harvest.keyed, Harvest.control?, if_pos rfl, Harvest.classes, hclass, hvalue, hkey]
  show ((((words (Variable.appearance k).cssClass).findSome? Harvest.kindOfClass?).map _).map
    _).toList ++ Harvest.keyedAmong [] = _
  rw [hkind]
  rfl

/-- A part that holds no control. -/
def IsInert (n : Html.Node) : Prop := Harvest.keyed n = []

theorem isInert_text (s : Text) : IsInert (.text s) := Harvest.keyed.eq_1 s

theorem keyedAmong_of_inert {ns : List Html.Node} (h : ∀ n ∈ ns, IsInert n) :
    Harvest.keyedAmong ns = [] := by
  induction ns with
  | nil => rfl
  | cons n ns ih =>
    rw [Harvest.keyedAmong, h n List.mem_cons_self,
      ih fun m hm => h m (List.mem_cons_of_mem n hm)]
    rfl

/-- An element that is no control is looked through. -/
theorem keyed_of_ne {name : Text} (hinput : name ≠ lit "input") (hselect : name ≠ lit "select")
    (es : Entries Text) (ns : List Html.Node) :
    Harvest.keyed (.element name es ns) = Harvest.keyedAmong ns := by
  rw [Harvest.keyed, Harvest.control?, if_neg hinput, if_neg fun h => hselect h.1]
  rfl

theorem keyed_span (es : Entries Text) (ns : List Html.Node) :
    Harvest.keyed (.element (lit "span") es ns) = Harvest.keyedAmong ns :=
  keyed_of_ne (by simp [lit_inj]) (by simp [lit_inj]) es ns

/-- A span with a constant style. -/
theorem shows_span {style s : Text} {ns : List Html.Node} (hstyle : isQuiet style = true)
    (hs : Fills s ns) :
    Shows (spelledTag (lit "span") [⟨lit "style", some style⟩] false ++ (s ++ closeTag (lit "span")))
      (.element (lit "span") [(lit "style", style)] ns) := by
  have hspelled : Spelled [⟨lit "style", some style⟩] [(lit "style", style)] :=
    spelled_quiet (by simp [attributeNames]) hstyle Spelled.nil
  exact Fills.element hspelled (isContainerName_of_mem (by simp)) (by simp [Entries.keys]) hs

/-- The styles of the spans around an input that holds an amount. -/
theorem input_eq (symbol : Text) (k : VariableKind) (key value : Text)
    (hcurrency : (Variable.appearance k).currency = true) :
    ∃ outer inner : Text, isQuiet outer = true ∧ isQuiet inner = true ∧
      Variable.input symbol (Variable.appearance k) key value =
        spelledTag (lit "span") [⟨lit "style", some outer⟩] false ++
          ((spelledTag (lit "span") [⟨lit "style", some inner⟩] false ++
              (safe symbol ++ closeTag (lit "span")) ++
            (Variable.control (Variable.appearance k) key value ++ [])) ++
          closeTag (lit "span")) := by
  refine ⟨lit "display: inline-flex; align-items: center; margin: 0;",
    lit "color: #374151; font-weight: 500;", ?_, ?_, ?_⟩
  · rw [lit_ofList]
    decide
  · rw [lit_ofList]
    decide
  · rw [Variable.input, if_pos hcurrency]
    simp only [spelledTag, spelledRest, tagEnd, closeTag, WrittenAttribute.spelled,
      List.flatMap_cons, List.flatMap_nil, List.append_assoc, List.cons_append, List.nil_append,
      List.append_nil, Bool.false_eq_true, if_false]
    repeat rw [lit_ofList]
    simp only [List.cons_append, List.nil_append]

/-- An input, also behind a currency symbol, is read as its kind, its value and its key. -/
theorem shows_variable (symbol : Text) (k : VariableKind) {key : Text} (hkey : isQuiet key = true)
    (value : Text) :
    ∃ n, Shows (Variable.input symbol (Variable.appearance k) key value) n ∧
      Harvest.keyed n = [(.input k value, some key)] := by
  obtain ⟨n, hshows, hkeyed⟩ := shows_control k hkey value
  cases hcurrency : (Variable.appearance k).currency with
  | false =>
    rw [Variable.input, hcurrency]
    exact ⟨n, hshows, hkeyed⟩
  | true =>
    obtain ⟨outer, inner, houter, hinner, heq⟩ := input_eq symbol k key value hcurrency
    obtain ⟨ns, hns, htexts⟩ := Fills.anyText (readsAs_safe symbol)
    have hsymbol := shows_span hinner hns
    refine ⟨_, heq ▸ shows_span houter (Fills.cons hsymbol (Fills.cons hshows Fills.nil)), ?_⟩
    have hinert : Harvest.keyedAmong ns = [] := by
      refine keyedAmong_of_inert fun m hm => ?_
      obtain ⟨t, rfl⟩ := htexts m hm
      exact isInert_text t
    rw [keyed_span, Harvest.keyedAmong, keyed_span, hinert, Harvest.keyedAmong, hkeyed]
    rfl

/-! ### Selectors -/

/-- The attributes of an option, as they are written and as they are read. -/
def optionWritten (id : Text) (selected : Bool) : List WrittenAttribute :=
  ⟨lit "value", some (safe id)⟩ :: if selected then [⟨lit "selected", none⟩] else []

def optionRead (id : Text) (selected : Bool) : Entries Text :=
  (lit "value", id) :: if selected then [(lit "selected", [])] else []

theorem option_eq (id label : Text) (selected : Bool) :
    Selector.option id label selected =
      spelledTag (lit "option") (optionWritten id selected) false ++
        (safe label ++ closeTag (lit "option")) := by
  cases selected <;>
  · simp only [Selector.option, Variable.attr, optionWritten, spelledTag, spelledRest, tagEnd,
      closeTag, WrittenAttribute.spelled, List.flatMap_cons, List.flatMap_nil, List.append_assoc,
      List.cons_append, List.nil_append, List.append_nil, Bool.false_eq_true, if_false, if_true]
    repeat rw [lit_ofList]
    simp only [List.cons_append, List.nil_append]

theorem prompt_eq (words : Text) :
    Selector.prompt words =
      spelledTag (lit "option") [⟨lit "value", some (safe [])⟩, ⟨lit "data-prompt", none⟩] false ++
        (words ++ closeTag (lit "option")) := by
  simp only [Selector.prompt, safe_nil, spelledTag, spelledRest, tagEnd, closeTag,
    WrittenAttribute.spelled, List.flatMap_cons, List.flatMap_nil, List.append_assoc,
    List.cons_append, List.nil_append, List.append_nil, Bool.false_eq_true, if_false]
  repeat rw [lit_ofList]
  simp only [List.cons_append, List.nil_append]

/-- What stands in an option with a label. -/
def labelNodes (label : Text) : List Html.Node :=
  if label = [] then [] else [.text (Builder.collapse label)]

theorem isInert_labelNodes (label : Text) : ∀ n ∈ labelNodes label, IsInert n := by
  intro n hn
  rw [labelNodes] at hn
  split at hn
  · cases hn
  · rw [List.mem_singleton.1 hn]
    exact isInert_text _

theorem fills_label (label : Text) : Fills (safe label) (labelNodes label) := by
  rw [labelNodes]
  split
  · rename_i hempty
    rw [hempty]
    exact Fills.nil
  · rename_i hne
    exact Fills.text (readsAs_safe label) hne

theorem isBlank_of_isLooseBlank {c : Char} (h : Builder.isLooseBlank c = true) :
    isBlank c = true := by
  have hall : ([' ', '\n', '\t', '\x0c', '\r'].all isBlank) = true := by decide
  exact List.all_eq_true.1 hall c (List.contains_iff_mem.1 h)

theorem exists_visible {label : Text} (h : allBlank label = false) :
    ∃ c ∈ label, Builder.isLooseBlank c = false := by
  obtain ⟨c, hc, hblank⟩ := List.all_eq_false.1 h
  refine ⟨c, hc, ?_⟩
  cases hloose : Builder.isLooseBlank c with
  | false => rfl
  | true => exact absurd (isBlank_of_isLooseBlank hloose) hblank

/-- A label that shows something is shown as it is. -/
theorem shownAll_labelNodes {label : Text} (h : allBlank label = false) :
    Html.shownAll (labelNodes label) = label := by
  obtain ⟨c, hc, hblank⟩ := exists_visible h
  rw [labelNodes, if_neg (List.ne_nil_of_mem hc), Builder.collapse_of_visible hc hblank]
  simp [Html.shownAll, Html.Node.shown]

theorem shows_option (id label : Text) (selected : Bool) :
    Shows (Selector.option id label selected)
      (.element (lit "option") (optionRead id selected) (labelNodes label)) := by
  have hnodup : (Entries.keys (optionRead id selected)).Nodup := by
    cases selected with
    | false => simp [optionRead, Entries.keys]
    | true => simp [optionRead, Entries.keys, lit_inj]
  have hspelled : Spelled (optionWritten id selected) (optionRead id selected) := by
    refine Spelled.safe ?_ (isAttributeName_of_mem (by simp [attributeNames])) id
    cases selected with
    | false => exact Spelled.nil
    | true => exact Spelled.nil.bare (isAttributeName_of_mem (by simp [attributeNames]))
  rw [option_eq]
  exact Fills.element hspelled (isContainerName_of_mem (by simp)) hnodup (fills_label label)

/-- The attributes of a prompt as they are read. -/
def promptRead : Entries Text :=
  [(lit "value", []), (lit "data-prompt", [])]

theorem shows_prompt {words : Text} {c : Char} (hwords : ∀ d ∈ words, isTextChar d = true)
    (hc : c ∈ words) (hblank : Builder.isLooseBlank c = false) :
    Shows (Selector.prompt words) (.element (lit "option") promptRead [.text words]) := by
  have hnodup : (Entries.keys promptRead).Nodup := by simp [promptRead, Entries.keys, lit_inj]
  have hspelled : Spelled [⟨lit "value", some (safe [])⟩, ⟨lit "data-prompt", none⟩] promptRead :=
    Spelled.safe (Spelled.nil.bare (isAttributeName_of_mem (by simp [attributeNames])))
      (isAttributeName_of_mem (by simp [attributeNames])) []
  have hfills := Fills.text (readsAs_plain hwords) (List.ne_nil_of_mem hc)
  rw [Builder.collapse_of_visible hc hblank] at hfills
  rw [prompt_eq]
  exact Fills.element hspelled (isContainerName_of_mem (by simp)) hnodup hfills

/-- The options of a selector as they are read. -/
def optionNodes (category : Category) (selected : Option Nat) : Nat → List LineItem → List Html.Node
  | _, [] => []
  | i, item :: rest =>
    .element (lit "option") (optionRead (item.id.getD []) (selected == some i))
        (labelNodes (item.label category)) :: optionNodes category selected (i + 1) rest

theorem fills_options (category : Category) (selected : Option Nat) (items : List LineItem)
    (i : Nat) :
    Fills (Selector.options category selected i items).flatten
      (optionNodes category selected i items) := by
  induction items generalizing i with
  | nil => exact Fills.nil
  | cons item rest ih =>
    rw [Selector.options, List.flatten_cons, optionNodes]
    exact Fills.cons (shows_option _ _ _) (ih (i + 1))

/-! ### The label that is chosen -/

/-- The label that a selector keeps: the saved one if an item has it. -/
def keptLabel (category : Category) (items : List LineItem) (saved : Text) : Text :=
  if items.any fun item => item.label category = saved then saved else []

/-- The label that a selector shows: the saved one as an option shows it, if an item has it. -/
def shownLabel (category : Category) (items : List LineItem) (saved : Text) : Text :=
  if items.any fun item => item.label category = saved then Html.shownAll (labelNodes saved) else []

theorem shownLabel_of_visible {category : Category} {items : List LineItem}
    (hlabels : ∀ item ∈ items, allBlank (item.label category) = false) (saved : Text) :
    shownLabel category items saved = keptLabel category items saved := by
  rw [shownLabel, keptLabel]
  split
  · rename_i hany
    obtain ⟨item, hitem, hlabel⟩ := List.any_eq_true.1 hany
    rw [← of_decide_eq_true hlabel, shownAll_labelNodes (hlabels item hitem)]
  · rfl

theorem has_optionRead (id : Text) (selected : Bool) :
    Harvest.has (optionRead id selected) "selected" = selected ∧
      Harvest.has (optionRead id selected) "data-prompt" = false := by
  cases selected with
  | false => simp [Harvest.has, optionRead, Entries.get?, lit_inj]
  | true => simp [Harvest.has, optionRead, Entries.get?, lit_inj]

theorem chosenAmong_labelNodes (label : Text) : Harvest.chosenAmong? (labelNodes label) = none := by
  rw [labelNodes]
  split <;> rfl

theorem chosen_option (id label : Text) (selected : Bool) :
    Harvest.chosen? (.element (lit "option") (optionRead id selected) (labelNodes label)) =
      if selected then some (optionRead id true, labelNodes label) else none := by
  rw [Harvest.chosen?, (has_optionRead id selected).1, chosenAmong_labelNodes]
  cases selected with
  | false => rw [if_neg (by simp)]; rfl
  | true => rw [if_pos ⟨rfl, rfl⟩]; rfl

/-- Among options numbered from `i` on, the first one with the saved label is chosen. -/
theorem chosenAmong_options (category : Category) (items : List LineItem) (saved : Text) (i : Nat) :
    Harvest.chosenAmong? (optionNodes category
        ((items.findIdx? fun item => item.label category = saved).map (· + i)) i items) =
      (items.find? fun item => item.label category = saved).map fun item =>
        (optionRead (item.id.getD []) true, labelNodes saved) := by
  induction items generalizing i with
  | nil => rfl
  | cons item rest ih =>
    rw [List.findIdx?_cons, List.find?_cons, optionNodes, Harvest.chosenAmong?, chosen_option]
    by_cases hitem : item.label category = saved
    · simp [hitem]
    · have hrest :
          ((rest.findIdx? fun item => item.label category = saved).map (· + 1)).map (· + i) =
            (rest.findIdx? fun item => item.label category = saved).map (· + (i + 1)) := by
        rw [Option.map_map]
        congr 1
        funext j
        show j + 1 + i = j + (i + 1)
        omega
      have hother : (((rest.findIdx? fun item => item.label category = saved).map
          (· + (i + 1))) == some i) = false := by
        cases rest.findIdx? fun item => item.label category = saved with
        | none => rfl
        | some j => simp; omega
      simp only [hitem, decide_false, Bool.false_eq_true, if_false, hrest, hother]
      exact ih (i + 1)

/-- What is shown in the chosen option is the saved label as it is shown, if an item has it. -/
theorem chosenLabel_options (category : Category) (items : List LineItem) (saved words : Text)
    {attributes : Entries Text} (henabled : Harvest.has attributes "disabled" = false) :
    Harvest.chosenLabel attributes (.element (lit "option") promptRead [.text words] ::
        optionNodes category (items.findIdx? fun item => item.label category = saved) 0 items) =
      shownLabel category items saved := by
  have hprompt : Harvest.chosen? (.element (lit "option") promptRead [.text words]) = none := by
    have hhas : Harvest.has promptRead "selected" = false := by
      simp [Harvest.has, promptRead, Entries.get?, lit_inj]
    rw [Harvest.chosen?, hhas, if_neg (by simp)]
    rfl
  have hoptions := chosenAmong_options category items saved 0
  have hmap : ((items.findIdx? fun item => item.label category = saved).map (· + 0)) =
      items.findIdx? fun item => item.label category = saved := by simp
  rw [hmap] at hoptions
  rw [Harvest.chosenLabel, henabled, if_neg Bool.false_ne_true, Harvest.chosenAmong?, hprompt]
  dsimp only
  rw [hoptions, shownLabel]
  cases hfind : items.find? fun item => item.label category = saved with
  | none =>
    have hany : (items.any fun item => item.label category = saved) = false := by
      rw [List.any_eq_false]
      exact List.find?_eq_none.1 hfind
    rw [hany]
    rfl
  | some item =>
    have hlabel := List.find?_some hfind
    have hany : (items.any fun item => item.label category = saved) = true :=
      List.any_eq_true.2 ⟨item, List.mem_of_find?_eq_some hfind, hlabel⟩
    rw [hany]
    show (if Harvest.has (optionRead (item.id.getD []) true) "data-prompt" then [] else
      Html.shownAll (labelNodes saved)) = Html.shownAll (labelNodes saved)
    rw [(has_optionRead _ true).2]
    rfl

theorem isInert_option (es : Entries Text) {ns : List Html.Node} (hns : ∀ n ∈ ns, IsInert n) :
    IsInert (.element (lit "option") es ns) := by
  rw [IsInert, keyed_of_ne (by simp [lit_inj]) (by simp [lit_inj]), keyedAmong_of_inert hns]

theorem isInert_prompt (words : Text) :
    IsInert (.element (lit "option") promptRead [.text words]) := by
  refine isInert_option _ fun n hn => ?_
  rw [List.mem_singleton.1 hn]
  exact isInert_text words

theorem isInert_options (category : Category) (selected : Option Nat) (i : Nat)
    (items : List LineItem) : ∀ n ∈ optionNodes category selected i items, IsInert n := by
  induction items generalizing i with
  | nil => exact fun n hn => by cases hn
  | cons item rest ih =>
    intro n hn
    rcases List.mem_cons.1 hn with rfl | hn
    · exact isInert_option _ (isInert_labelNodes _)
    · exact ih (i + 1) n hn

/-! ### Whole selectors -/

/-- The attributes of a selector, as they are written and as they are read. -/
def selectWritten (category : Category) (key : Text) (disabled : Bool) (style : Text) :
    List WrittenAttribute :=
  ⟨lit "class", some (lit "line-item-select")⟩ :: ⟨lit "data-category", some category.key⟩ ::
    ⟨lit "data-var-key", some key⟩ ::
      ((if disabled then [⟨lit "disabled", none⟩] else []) ++ [⟨lit "style", some style⟩])

def selectRead (category : Category) (key : Text) (disabled : Bool) (style : Text) :
    Entries Text :=
  (lit "class", lit "line-item-select") :: (lit "data-category", category.key) ::
    (lit "data-var-key", key) ::
      ((if disabled then [(lit "disabled", [])] else []) ++ [(lit "style", style)])

theorem nodup_selectRead (category : Category) (key : Text) (disabled : Bool) (style : Text) :
    (Entries.keys (selectRead category key disabled style)).Nodup := by
  cases disabled with
  | false => simp [selectRead, Entries.keys, lit_inj]
  | true => simp [selectRead, Entries.keys, lit_inj]

theorem spelled_select (category : Category) {key style : Text} (hkey : isQuiet key = true)
    (hstyle : isQuiet style = true) (disabled : Bool) :
    Spelled (selectWritten category key disabled style)
      (selectRead category key disabled style) := by
  have hclass : isQuiet (lit "line-item-select") = true := by
    rw [lit_ofList]
    decide
  have hcategory : isQuiet category.key = true := by
    cases category <;>
    · rw [Category.key, lit_ofList]
      decide
  have hend : Spelled [⟨lit "style", some style⟩] [(lit "style", style)] :=
    spelled_quiet (by simp [attributeNames]) hstyle Spelled.nil
  refine spelled_quiet (by simp [attributeNames]) hclass
    (spelled_quiet (by simp [attributeNames]) hcategory
      (spelled_quiet (by simp [attributeNames]) hkey ?_))
  cases disabled with
  | false => exact hend
  | true => exact hend.bare (isAttributeName_of_mem (by simp [attributeNames]))

/-- A selector with its content. -/
theorem shows_select (category : Category) {key style s : Text} {ns : List Html.Node}
    (hkey : isQuiet key = true) (hstyle : isQuiet style = true) (disabled : Bool)
    (hs : Fills s ns) :
    Shows (spelledTag (lit "select") (selectWritten category key disabled style) false ++
        (s ++ closeTag (lit "select")))
      (.element (lit "select") (selectRead category key disabled style) ns) :=
  Fills.element (spelled_select category hkey hstyle disabled) (isContainerName_of_mem (by simp))
    (nodup_selectRead category key disabled style) hs

theorem keyed_select (category : Category) (key : Text) (disabled : Bool) (style : Text)
    {ns : List Html.Node} (hns : ∀ n ∈ ns, IsInert n) :
    Harvest.keyed (.element (lit "select") (selectRead category key disabled style) ns) =
      [(.selector (Harvest.chosenLabel (selectRead category key disabled style) ns),
        some key)] := by
  have hname : lit "select" ≠ lit "input" := by simp [lit_inj]
  have hclass : Entries.get? (lit "class") (selectRead category key disabled style) =
      some (lit "line-item-select") :=
    Entries.get?_of_mem (nodup_selectRead category key disabled style) List.mem_cons_self
  have hwords : (words (lit "line-item-select")).contains (lit "line-item-select") = true := by
    rw [lit_ofList]
    decide
  have hclasses : Harvest.classes (selectRead category key disabled style) =
      words (lit "line-item-select") := by
    rw [Harvest.classes, hclass]
    rfl
  have hkey : Harvest.ownKey? (selectRead category key disabled style) = some key :=
    Entries.get?_of_mem (nodup_selectRead category key disabled style) (by simp [selectRead])
  rw [Harvest.keyed, Harvest.control?, if_neg hname, hclasses, if_pos ⟨rfl, hwords⟩, hkey,
    keyedAmong_of_inert hns]
  rfl

theorem has_disabled (category : Category) (key : Text) (disabled : Bool) (style : Text) :
    Harvest.has (selectRead category key disabled style) "disabled" = disabled := by
  cases disabled with
  | false => simp [Harvest.has, selectRead, Entries.get?, lit_inj]
  | true => simp [Harvest.has, selectRead, Entries.get?, lit_inj]

theorem selectTag_eq (category : Category) (key style : Text) (disabled : Bool) :
    spelledTag (lit "select") (selectWritten category key disabled style) false =
      lit "<select " ++ (Selector.identity category key ++
        ((if disabled then lit " disabled " else [' ']) ++
          (Variable.attr "style" style ++ ['>']))) := by
  cases disabled <;>
  · simp only [Selector.identity, Variable.attr, selectWritten, spelledTag, spelledRest, tagEnd,
      WrittenAttribute.spelled, List.flatMap_cons, List.flatMap_nil, List.append_assoc,
      List.cons_append, List.nil_append, List.append_nil, Bool.false_eq_true, if_false, if_true]
    repeat rw [lit_ofList]
    simp only [List.cons_append, List.nil_append]

theorem closeTag_select : closeTag (lit "select") = lit "</select>" := by
  rw [closeTag]
  repeat rw [lit_ofList]
  rfl

/-- A selector is its tag, a prompt, and its options unless there is nothing to choose from. -/
theorem select_eq (category : Category) (key : Text) (items : List LineItem) (saved : Text) :
    Selector.select category key items saved =
      if items.isEmpty then
        spelledTag (lit "select") (selectWritten category key true Selector.emptyStyle) false ++
          ((Selector.prompt (lit "No " ++ category.label ++ ['s']) ++ []) ++
            closeTag (lit "select"))
      else
        spelledTag (lit "select") (selectWritten category key false Selector.style) false ++
          ((Selector.prompt (lit "Select " ++ category.label ++ lit "...") ++
              (Selector.options category (items.findIdx? fun item => item.label category = saved) 0
                items).flatten) ++
            closeTag (lit "select")) := by
  rw [Selector.select, selectTag_eq, selectTag_eq, closeTag_select]
  generalize Selector.emptyStyle = emptyStyle
  generalize Selector.style = style
  split
  · simp [List.append_assoc]
  · simp [List.append_assoc]

/-- The words of a prompt are running text that shows something. -/
theorem prompt_words (category : Category) :
    ((∀ c ∈ lit "No " ++ category.label ++ ['s'], isTextChar c = true) ∧
      's' ∈ lit "No " ++ category.label ++ ['s']) ∧
    (∀ c ∈ lit "Select " ++ category.label ++ lit "...", isTextChar c = true) ∧
      'S' ∈ lit "Select " ++ category.label ++ lit "..." := by
  have hall : ((lit "No " ++ category.label ++ ['s']).all isTextChar) = true ∧
      ((lit "Select " ++ category.label ++ lit "...").all isTextChar) = true := by
    cases category <;>
    · rw [Category.label]
      repeat rw [lit_ofList]
      decide
  have hcapital : 'S' ∈ lit "Select " := by
    rw [lit_ofList]
    decide
  exact ⟨⟨List.all_eq_true.1 hall.1, List.mem_append_right _ List.mem_cons_self⟩,
    List.all_eq_true.1 hall.2,
    List.mem_append_left _ (List.mem_append_left _ hcapital)⟩

/-- A selector is read as the label that it shows, and its key. -/
theorem shows_selector (category : Category) {key : Text} (hkey : isQuiet key = true)
    (items : List LineItem) (saved : Text) :
    ∃ n, Shows (Selector.select category key items saved) n ∧
      Harvest.keyed n = [(.selector (shownLabel category items saved), some key)] := by
  have hstyle : isQuiet Selector.style = true ∧ isQuiet Selector.emptyStyle = true := by
    rw [Selector.style, Selector.emptyStyle]
    repeat rw [lit_ofList]
    decide
  obtain ⟨⟨hno, hsmall⟩, hselect, hcapital⟩ := prompt_words category
  rw [select_eq]
  cases items with
  | nil =>
    have hprompt := shows_prompt hno hsmall (by decide)
    refine ⟨_, shows_select category hkey hstyle.2 true (Fills.cons hprompt Fills.nil), ?_⟩
    rw [keyed_select category key true _ (by simpa using isInert_prompt _),
      Harvest.chosenLabel, has_disabled]
    rfl
  | cons item rest =>
    have hprompt := shows_prompt hselect hcapital (by decide)
    have hoptions := fills_options category
      ((item :: rest).findIdx? fun item => item.label category = saved) (item :: rest) 0
    refine ⟨_, shows_select category hkey hstyle.1 false (Fills.cons hprompt hoptions), ?_⟩
    rw [keyed_select category key false _ fun n hn => ?_,
      chosenLabel_options category (item :: rest) saved _ (has_disabled category key false _)]
    rcases List.mem_cons.1 hn with rfl | hn
    · exact isInert_prompt _
    · exact isInert_options category _ 0 (item :: rest) n hn

end Binding
end Tender
