/-
Editing, harvesting and rendering again.

A document of plain text and tokens that is rendered with controls can be harvested:

* `read_filled` — one value for each token is found, under its key and in the order of the document;
* `replacement_held` — these values put the same controls in the place of the tokens;
* `harvest_edit` — so rendering with the harvested values gives the same document again, with
  controls, and without them if every saved label is one of an item.
-/
import Tender.Proofs.Harvest
import Tender.Proofs.Numbering
import Tender.Proofs.Plain

namespace Tender

open Text Binding

/-! ### What a control keeps -/

/-- The value that the control of a token keeps: the saved value of a variable, and of a cost line
the saved label if an item has it. -/
def heldValue (e : Estimate) (values : Entries Text) : Token × Nat → Text
  | (.custom k, n) => saved values ((Token.custom k).variableKey n)
  | (.item c, n) => keptLabel c (e.items c) (saved values ((Token.item c).variableKey n))

/-- The values that a document keeps, each under the key of its token. -/
def heldValues (e : Estimate) (values : Entries Text) (bs : List (Token × Nat)) : Entries Text :=
  bs.map fun b => (b.1.variableKey b.2, heldValue e values b)

/-- The control of a token. -/
def controlOf (e : Estimate) (values : Entries Text) : Token × Nat → Harvest.Control
  | (.custom k, n) => .input k (heldValue e values (.custom k, n))
  | (.item c, n) => .selector (heldValue e values (.item c, n))

theorem isQuiet_variableKey (t : Token) (n : Nat) : isQuiet (t.variableKey n) = true := by
  cases t with
  | custom k =>
    cases k <;>
    · simp only [Token.variableKey, VariableKind.name, isQuiet_append, isQuiet_cons, isQuiet_ofNat,
        Bool.and_true]
      rw [lit_ofList]
      decide
  | item c =>
    simp only [Token.variableKey, isQuiet_append, isQuiet_cons, isQuiet_ofNat, Bool.and_true]
    rw [lit_ofList]
    decide

/-- The control of a token as it is read: of a cost line, with the label as an option shows it. -/
def shownControl (e : Estimate) (values : Entries Text) : Token × Nat → Harvest.Control
  | (.custom k, n) => .input k (heldValue e values (.custom k, n))
  | (.item c, n) =>
    .selector (shownLabel c (e.items c) (saved values ((Token.item c).variableKey n)))

/-- What stands for a token is read as one control with the key of the token. -/
theorem shows_shownControl (r : Renderer) (e : Estimate) (values : Entries Text)
    (b : Token × Nat) :
    ∃ n, Html.Shows (r.replacement e .edit values b) n ∧
      Harvest.keyed n = [(shownControl e values b, some (b.1.variableKey b.2))] := by
  obtain ⟨t, n⟩ := b
  cases t with
  | custom k => exact shows_variable _ k (isQuiet_variableKey _ n) _
  | item c => exact shows_selector c (isQuiet_variableKey _ n) _ _

/-- Labels that are not made of blanks only. -/
def HasVisibleLabels (e : Estimate) : Prop :=
  ∀ c, ∀ item ∈ e.items c, allBlank (item.label c) = false

theorem shownControl_eq {e : Estimate} (hlabels : HasVisibleLabels e) (values : Entries Text)
    (b : Token × Nat) : shownControl e values b = controlOf e values b := by
  obtain ⟨t, n⟩ := b
  cases t with
  | custom k => rfl
  | item c => exact congrArg _ (shownLabel_of_visible (hlabels c) _)

theorem shows_replacement (r : Renderer) {e : Estimate} (hlabels : HasVisibleLabels e)
    (values : Entries Text) (b : Token × Nat) :
    ∃ n, Html.Shows (r.replacement e .edit values b) n ∧
      Harvest.controls n = [controlOf e values b] := by
  obtain ⟨n, hshows, hkeyed⟩ := shows_shownControl r e values b
  refine ⟨n, hshows, ?_⟩
  rw [Harvest.controls_eq_keyed, hkeyed, ← shownControl_eq hlabels]
  rfl

/-! ### Harvesting -/

theorem variablesFrom_controls (e : Estimate) (values : Entries Text) (c : Counters)
    (as : List (Atom Token)) :
    Harvest.variablesFrom c ((Atom.items (numberFrom [] c as)).map (controlOf e values)) =
      heldValues e values (Atom.items (numberFrom [] c as)) := by
  induction as generalizing c with
  | nil => rfl
  | cons a as ih =>
    cases a with
    | char x =>
      rw [numberFrom_char, Atom.items_char]
      exact ih c
    | item t =>
      rw [numberFrom_item, Atom.items_item, List.map_cons, Harvest.variablesFrom]
      cases t with
      | custom k => exact congrArg _ (ih _)
      | item i => exact congrArg _ (ih _)

/-- A character of plain text: it means nothing in markup or in a template. -/
def isPlainChar (c : Char) : Bool :=
  c != '<' && c != '&' && c != '{' && c != '}'

/-- A row of plain characters and tokens. -/
def IsPlainRow (row : List (Atom Token)) : Prop :=
  ∀ c, .char c ∈ row → isPlainChar c = true

theorem IsPlainRow.isTokenRow {row : List (Atom Token)} (h : IsPlainRow row) : IsTokenRow row := by
  intro c hc
  have hplain := h c hc
  simp only [isPlainChar, Bool.and_eq_true, bne_iff_ne] at hplain
  exact ⟨hplain.1.2, hplain.2⟩

theorem IsPlainRow.isTextChar {row : List (Atom Token)} (h : IsPlainRow row) :
    ∀ c, .char c ∈ row → Html.isTextChar c = true := by
  intro c hc
  have hplain := h c hc
  simp only [isPlainChar, Bool.and_eq_true, bne_iff_ne] at hplain
  simp [Html.isTextChar, hplain.1.1.1, hplain.1.1.2]

theorem char_mem_numberFrom {c : Counters} {as : List (Atom Token)} {x : Char} :
    .char x ∈ numberFrom [] c as ↔ .char x ∈ as := by
  induction as generalizing c with
  | nil => simp
  | cons a as ih =>
    cases a with
    | char y => simp [ih]
    | item t => simp [ih]

/-- The controls of a row give one value for each of its tokens. -/
theorem read_filled (r : Renderer) {e : Estimate} (hlabels : HasVisibleLabels e)
    (values : Entries Text) {row : List (Atom Token)} (hrow : IsPlainRow row) :
    Harvest.read (Atom.fill (r.replacement e .edit values) (numberFrom [] Counters.start row)) =
      .ok (heldValues e values (numbered (tokens row))) := by
  have hchars : ∀ c, .char c ∈ numberFrom [] Counters.start row → Html.isTextChar c = true :=
    fun c hc => hrow.isTextChar c (char_mem_numberFrom.1 hc)
  rw [Harvest.controls_row hchars fun b _ => shows_replacement r hlabels values b, Harvest.values,
    variablesFrom_controls, items_numberFrom]

theorem nodup_keys_heldValues (e : Estimate) (values : Entries Text) (row : List (Atom Token)) :
    (Entries.keys (heldValues e values (numbered (tokens row)))).Nodup := by
  have hnodup := nodup_keys Counters.start row
  rw [items_numberFrom] at hnodup
  rw [Entries.keys, heldValues, List.map_map]
  exact hnodup

/-- The values that are held are found again. -/
theorem saved_heldValues (e : Estimate) (values : Entries Text) {row : List (Atom Token)}
    {b : Token × Nat} (hb : b ∈ numbered (tokens row)) :
    saved (heldValues e values (numbered (tokens row))) (b.1.variableKey b.2) =
      heldValue e values b := by
  rw [saved, Entries.get?_of_mem (nodup_keys_heldValues e values row)
    (List.mem_map.2 ⟨b, hb, rfl⟩)]
  rfl

/-! ### Rendering again -/

/-- A label that is no item's is as good as none. -/
theorem findIdx_keptLabel {c : Category} {items : List LineItem}
    (hlabels : ∀ item ∈ items, allBlank (item.label c) = false) (label : Text) :
    (items.findIdx? fun item => item.label c = keptLabel c items label) =
      items.findIdx? fun item => item.label c = label := by
  rw [keptLabel]
  split
  · rfl
  · rename_i hany
    have hnone : ∀ item ∈ items, ¬ item.label c = label := by
      intro item hitem heq
      exact hany (List.any_eq_true.2 ⟨item, hitem, by simp [heq]⟩)
    have hempty : ∀ item ∈ items, ¬ item.label c = [] := by
      intro item hitem heq
      have hvisible := hlabels item hitem
      rw [heq] at hvisible
      cases hvisible
    rw [List.findIdx?_eq_none_iff.2 fun item hitem => decide_eq_false (hempty item hitem),
      List.findIdx?_eq_none_iff.2 fun item hitem => decide_eq_false (hnone item hitem)]

/-- The values that are held put the same controls in the place of the tokens. -/
theorem replacement_held (r : Renderer) {e : Estimate} (hlabels : HasVisibleLabels e)
    (values : Entries Text) {row : List (Atom Token)} {b : Token × Nat}
    (hb : b ∈ numbered (tokens row)) :
    r.replacement e .edit (heldValues e values (numbered (tokens row))) b =
      r.replacement e .edit values b := by
  have hsaved := saved_heldValues e values hb
  obtain ⟨t, n⟩ := b
  cases t with
  | custom k => exact r.replacement_congr e .edit hsaved
  | item c =>
    -- the kept label may differ from the saved one, but they choose the same option
    show Selector.select c _ (e.items c) (saved _ _) = Selector.select c _ (e.items c) (saved _ _)
    rw [hsaved, heldValue, Selector.select, Selector.select, findIdx_keptLabel (hlabels c)]

/-- Every label that is saved for a token is one of its items. -/
def SavesLabels (e : Estimate) (values : Entries Text) (bs : List (Token × Nat)) : Prop :=
  ∀ c n, (.item c, n) ∈ bs → saved values ((Token.item c).variableKey n) ≠ [] →
    ∃ item ∈ e.items c, item.label c = saved values ((Token.item c).variableKey n)

theorem keptLabel_of_mem {c : Category} {items : List LineItem} {label : Text}
    (h : label ≠ [] → ∃ item ∈ items, item.label c = label) : keptLabel c items label = label := by
  rw [keptLabel]
  split
  · rfl
  · rename_i hany
    by_cases hempty : label = []
    · exact hempty.symm
    · obtain ⟨item, hitem, heq⟩ := h hempty
      exact absurd (List.any_eq_true.2 ⟨item, hitem, by simp [heq]⟩) hany

/-- If all saved labels are labels of items, then the values that are held are the saved ones. -/
theorem heldValue_of_savesLabels {e : Estimate} {values : Entries Text} {bs : List (Token × Nat)}
    (h : SavesLabels e values bs) {b : Token × Nat} (hb : b ∈ bs) :
    heldValue e values b = saved values (b.1.variableKey b.2) := by
  obtain ⟨t, n⟩ := b
  cases t with
  | custom k => rfl
  | item c => exact keptLabel_of_mem (h c n hb)

/-! ### Documents -/

theorem tokens_joinRows (marker : Text) (rows : List (List (Atom Token))) :
    tokens (joinRows marker rows) = rows.flatMap tokens := by
  induction rows with
  | nil => rfl
  | cons row rest ih =>
    cases rest with
    | nil => simp [joinRows, List.intercalate]
    | cons next rest => simp [joinRows_cons_cons, ih]

theorem isPlainRow_joinRows {marker : Text} (hmarker : ∀ c ∈ marker, isPlainChar c = true)
    {rows : List (List (Atom Token))} (hrows : ∀ row ∈ rows, IsPlainRow row) :
    IsPlainRow (joinRows marker rows) := by
  induction rows with
  | nil => intro c hc; cases hc
  | cons row rest ih =>
    have hrow := hrows row List.mem_cons_self
    have hrest := ih fun r hr => hrows r (List.mem_cons_of_mem row hr)
    cases rest with
    | nil => simpa [joinRows, List.intercalate] using hrow
    | cons next rest =>
      intro c hc
      rw [joinRows_cons_cons] at hc
      rcases List.mem_append.1 hc with hc | hc
      · exact hrow c hc
      · rcases List.mem_append.1 hc with hc | hc
        · obtain ⟨d, hd, heq⟩ := List.mem_map.1 hc
          cases heq
          exact hmarker c hd
        · exact hrest c hc

/-- The text that a rendering with the values ends in. -/
def Renderer.Writes (r : Renderer) (template : Proposal) (e : Estimate) (mode : Mode)
    (values : Entries Text) (today : Date) (html : Text) : Prop :=
  ∃ d, r.render template e mode (some values) today = .ok d ∧ d.html = .ok html

/-- A document of plain text and tokens that is rendered with controls gives one value for each
token, under the key of the token and in the order of the document. With these values the document
is rendered the same again with controls, and also as a final text if all saved labels are labels
of items. -/
theorem Renderer.harvest_edit {settings : Settings} {r : Renderer}
    (hr : Renderer.new settings = .ok r) {template : Proposal} {rows : List (List (Atom Token))}
    (hsources : template.sources = rows.map (Atom.fill spelling))
    (hrows : ∀ row ∈ rows, IsPlainRow row)
    (hmarker : ∀ c ∈ settings.pageBreakMarker, isPlainChar c = true)
    (hlimit : rows.length ≤ settings.maxPages)
    (hlength : ∀ row ∈ rows, (Atom.fill spelling row).length ≤ settings.maxPageChars)
    {e : Estimate} (hlabels : HasVisibleLabels e) {today : Date} {context : Entries Value}
    (hcontext : Context.build e today settings = .ok context) (values : Entries Text) :
    ∃ html held,
      r.Writes template e .edit values today html ∧
      Harvest.read html = .ok held ∧
      held = heldValues e values (numbered (rows.flatMap tokens)) ∧ (Entries.keys held).Nodup ∧
      r.Writes template e .edit held today html ∧
      (SavesLabels e values (numbered (rows.flatMap tokens)) →
        ∃ final, r.Writes template e .view values today final ∧
          r.Writes template e .view held today final) := by
  -- the whole document is one row: the pages with the marker between them
  let row := joinRows settings.pageBreakMarker rows
  have hrow : IsPlainRow row := isPlainRow_joinRows hmarker hrows
  have hwrites : ∀ mode values, r.Writes template e mode values today
      (Atom.fill (r.replacement e mode values) (numberFrom [] Counters.start row)) := by
    intro mode values
    exact Renderer.render_rows hr hsources (fun row hrow => (hrows row hrow).isTokenRow) hlimit
      hlength hcontext mode (some values)
  have hbound : ∀ b, .item b ∈ numberFrom [] Counters.start row → b ∈ numbered (tokens row) :=
    fun b hb => items_numberFrom row ▸ Atom.mem_items.2 hb
  rw [← tokens_joinRows settings.pageBreakMarker]
  refine ⟨_, _, hwrites .edit values, read_filled r hlabels values hrow, rfl,
    nodup_keys_heldValues e values row, ?_, fun hsaves => ?_⟩
  · have hagain := hwrites .edit (heldValues e values (numbered (tokens row)))
    rwa [fill_congr fun b hb => replacement_held r hlabels values (hbound b hb)] at hagain
  · have hagain := hwrites .view (heldValues e values (numbered (tokens row)))
    have hsame : ∀ b, .item b ∈ numberFrom [] Counters.start row →
        r.replacement e .view (heldValues e values (numbered (tokens row))) b =
          r.replacement e .view values b := by
      intro b hb
      refine r.replacement_congr e .view ?_
      rw [saved_heldValues e values (hbound b hb), heldValue_of_savesLabels hsaves (hbound b hb)]
    rw [fill_congr hsame] at hagain
    exact ⟨_, hwrites .view values, hagain⟩

/-- Two pages with tokens of three categories. -/
def offer : List (List (Atom Token)) :=
  [[.char '"', .item (.custom .text), .char '>', .item (.item .labor)],
    [.item (.item .material), .item (.custom .text)]]

def offerTemplate : Proposal :=
  { (default : Proposal) with pages := offer.map fun row => ⟨Atom.fill spelling row, []⟩ }

/-- An estimate with the same two cost lines in every category. -/
def offerEstimate : Estimate :=
  { (default : Estimate) with
    items := fun _ =>
      [{ (default : LineItem) with description := some (lit "Roof & gutter") },
        { (default : LineItem) with description := some (lit "Roof & gutter") }] }

theorem Renderer.harvest_edit_offer :
    ∃ html, (Renderer.standard {}).Writes offerTemplate offerEstimate .edit
        [(lit "customText_0", lit "\"\x7b&"), (lit "lineItem_0", lit "Roof & gutter"),
          (lit "lineItem_1", lit "Cellar")] ⟨2024, 2, 29, by decide⟩ html ∧
      Harvest.read html =
        .ok [(lit "customText_0", lit "\"\x7b&"), (lit "lineItem_0", lit "Roof & gutter"),
          (lit "lineItem_1", []), (lit "customText_1", [])] := by
  have hrows : ∀ row ∈ offer, IsPlainRow row := by
    simp [offer, IsPlainRow, isPlainChar]
  have hmarker : ({} : Settings).pageBreakMarker.all isPlainChar = true := by decide +kernel
  have hlabels : HasVisibleLabels offerEstimate := by
    have hall : ∀ c ∈ Category.all, ∀ item ∈ offerEstimate.items c,
        allBlank (item.label c) = false := by decide +kernel
    exact fun c => hall c c.mem_all
  have hcontext : (Context.build offerEstimate ⟨2024, 2, 29, by decide⟩ {}).toBool = true := by
    decide +kernel
  obtain ⟨context, hcontext⟩ := exists_ok_of_toBool hcontext
  have hsources : offerTemplate.sources = offer.map (Atom.fill spelling) := rfl
  obtain ⟨html, held, hwrites, hread, hheld, -⟩ := Renderer.harvest_edit (Renderer.new_eq {})
    hsources hrows (List.all_eq_true.1 hmarker) (by decide) (by decide +kernel) hlabels hcontext
    [(lit "customText_0", lit "\"\x7b&"), (lit "lineItem_0", lit "Roof & gutter"),
      (lit "lineItem_1", lit "Cellar")]
  refine ⟨html, hwrites, ?_⟩
  rw [hread, hheld]
  exact congrArg Except.ok (by decide +kernel)

end Tender
