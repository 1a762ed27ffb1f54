/-
Elements as they are written and as they are read.

* `Shows`, `Fills` — a text is read as one element, or as what stands in one;
* `shows_slash`, `Fills.element` — an element of a written tag, without content and with some;
* `Spelled` — attributes as they are written, with what is read for them.
-/
import Tender.Proofs.Html.Event
import Tender.Proofs.Html.Node
import Tender.Proofs.Value.Entries

namespace Tender.Html

open Text

/-! ### Attributes -/

/-- A name that is read as it is written. -/
def IsAttributeName (name : Text) : Prop :=
  name ≠ [] ∧ name.all isAttributeChar = true ∧ toLower name = name

instance (name : Text) : Decidable (IsAttributeName name) :=
  inferInstanceAs (Decidable (_ ∧ _ ∧ _))

/-- Attributes as they are written, and what they are read as. -/
structure Spelled (as : List WrittenAttribute) (es : Entries Text) : Prop where
  plain : ∀ a ∈ as, a.Plain
  written : writeOut as = .ok es

namespace Spelled

variable {as : List WrittenAttribute} {es : Entries Text} {name : Text}

theorem nil : Spelled [] [] := ⟨fun _ h => (List.not_mem_nil h).elim, rfl⟩

theorem cons (h : Spelled as es) (hname : IsAttributeName name) {value : Option Text} {read : Text}
    (hquote : ∀ v, value = some v → '"' ∉ v) (hread : expandAll (value.getD []) = .ok read) :
    Spelled (⟨name, value⟩ :: as) ((name, read) :: es) := by
  obtain ⟨hne, hchars, hlower⟩ := hname
  refine ⟨fun a ha => ?_, ?_⟩
  · rcases List.mem_cons.1 ha with rfl | ha
    · exact ⟨hne, List.all_eq_true.1 hchars, hquote⟩
    · exact h.plain a ha
  · rw [writeOut]
    show (do
      let value ← expandAll (value.getD [])
      let rest ← writeOut as
      return (toLower name, value) :: rest) = _
    rw [hread, h.written, hlower]
    rfl

/-- An attribute without a value. -/
theorem bare (h : Spelled as es) (hname : IsAttributeName name) :
    Spelled (⟨name, none⟩ :: as) ((name, []) :: es) :=
  h.cons hname (fun _ hv => by cases hv) rfl

/-- An attribute whose value has neither quotes nor references. -/
theorem quiet (h : Spelled as es) (hname : IsAttributeName name) {value : Text}
    (hquote : '"' ∉ value) (hamp : '&' ∉ value) :
    Spelled (⟨name, some value⟩ :: as) ((name, value) :: es) :=
  h.cons hname (fun _ hv => by cases hv; exact hquote) (expandAll_of_plain hamp)

/-- An attribute whose value is made safe. -/
theorem safe (h : Spelled as es) (hname : IsAttributeName name) (v : Text) :
    Spelled (⟨name, some (Text.safe v)⟩ :: as) ((name, v) :: es) := by
  refine h.cons hname (fun _ hv => ?_) (expandAll_safe v)
  cases hv
  exact fun hmem => absurd (isMark_of_mem_safe hmem) (by decide)

end Spelled

/-! ### Elements -/

/-- A text that is read as one element, whatever stands around it. -/
def Shows (s : Text) (n : Node) : Prop :=
  s.head? = some '<' ∧ ∃ es, Reads s es ∧ Builder.Element es n

/-- A text that is read, before a tag, as what stands in an element. -/
def Fills (s : Text) (ns : List Node) : Prop :=
  ∃ fs, Builder.Content fs ns ∧
    ∀ t es, t.head? = some '<' → Reads t es → Reads (s ++ t) (fs ++ es)

/-- An end tag. -/
def closeTag (name : Text) : Text :=
  '<' :: '/' :: name ++ ['>']

/-- A name of an element that is read as it is written. -/
def IsElementName (name : Text) : Prop :=
  name ≠ [] ∧ (name.all fun c => c.isAlpha && !isBlank c && isTagNameChar c) = true ∧
    toLower name = name

instance (name : Text) : Decidable (IsElementName name) :=
  inferInstanceAs (Decidable (_ ∧ _ ∧ _))

/-- A name of an element whose content is read as it is written. -/
def IsContainerName (name : Text) : Prop :=
  IsElementName name ∧ rawElements.contains name = false ∧ voidElements.contains name = false ∧
    Builder.isCalm name = true

theorem IsElementName.char {name : Text} (h : IsElementName name) {c : Char} (hc : c ∈ name) :
    c.isAlpha = true ∧ isBlank c = false ∧ isTagNameChar c = true := by
  simpa [and_assoc] using List.all_eq_true.1 h.2.1 c hc

section

variable {as : List WrittenAttribute} {es : Entries Text} {name : Text}

theorem tag_of_spelled (h : Spelled as es) (hname : IsElementName name)
    (hnodup : (Entries.keys es).Nodup) (slash : Bool) :
    Tag.of name as slash = .ok ⟨name, es, slash⟩ := by
  rw [Tag.of, h.written, hname.2.2]
  show Except.ok (Tag.mk name (Entries.ofPairs es) slash) = _
  rw [Entries.ofPairs_of_nodup hnodup]

theorem reads_tag (h : Spelled as es) (hname : IsElementName name)
    (hnodup : (Entries.keys es).Nodup) {slash : Bool}
    (hraw : (!slash && rawElements.contains name) = false) :
    Reads (spelledTag name as slash) [.start ⟨name, es, slash⟩] := by
  have htag := tag_of_spelled h hname hnodup slash
  obtain ⟨c, rest, rfl⟩ := List.exists_cons_of_ne_nil hname.1
  exact reads_start (hname.char List.mem_cons_self).1 (fun d hd => (hname.char hd).2.2) h.plain htag
    hraw

theorem reads_closeTag (hname : IsElementName name) : Reads (closeTag name) [.close name] := by
  obtain ⟨c, rest, rfl⟩ := List.exists_cons_of_ne_nil hname.1
  have hclose := reads_close (hname.char List.mem_cons_self).2.1 fun d hd => (hname.char hd).1
  rw [hname.2.2] at hclose
  exact hclose

/-- An element without content. -/
theorem shows_slash (h : Spelled as es) (hname : IsElementName name)
    (hnodup : (Entries.keys es).Nodup) :
    Shows (spelledTag name as true) (.element name es []) :=
  ⟨rfl, _, reads_tag h hname hnodup rfl, Builder.element_slash rfl⟩

namespace Fills

variable {s t v : Text} {n : Node} {ns : List Node}

theorem nil : Fills [] [] := ⟨[], Builder.Content.nil, fun _ _ _ h => h⟩

theorem cons (hs : Shows s n) (ht : Fills t ns) : Fills (s ++ t) (n :: ns) := by
  obtain ⟨-, es, hreads, helement⟩ := hs
  obtain ⟨fs, hcontent, hfills⟩ := ht
  refine ⟨es ++ fs, Builder.Content.cons helement hcontent, fun u gs hu hgs => ?_⟩
  rw [List.append_assoc, List.append_assoc]
  exact hreads.append (hfills u gs hu hgs)

/-- A text that is not empty. -/
theorem text (h : ReadsAs s v) (hne : v ≠ []) : Fills s [.text (Builder.collapse v)] := by
  obtain ⟨parts, rfl, hpass⟩ := h
  have hparts : parts ≠ [] := by
    rintro rfl
    exact hne rfl
  have hcontent := Builder.content_texts parts
  rw [if_neg hparts] at hcontent
  exact ⟨parts.map .text, hcontent, fun _ _ ht hes => hpass.before ht hes⟩

/-- Any text. -/
theorem anyText (h : ReadsAs s v) : ∃ ns, Fills s ns ∧ ∀ n ∈ ns, ∃ t, n = .text t := by
  obtain ⟨parts, rfl, hpass⟩ := h
  refine ⟨_, ⟨parts.map .text, Builder.content_texts parts, fun _ _ ht hes =>
    hpass.before ht hes⟩, fun n hn => ?_⟩
  split at hn
  · cases hn
  · rw [List.mem_singleton.1 hn]
    exact ⟨_, rfl⟩

/-- An element with content. -/
theorem element (h : Spelled as es) (hname : IsContainerName name)
    (hnodup : (Entries.keys es).Nodup) (hs : Fills s ns) :
    Shows (spelledTag name as false ++ (s ++ closeTag name)) (.element name es ns) := by
  obtain ⟨hname, hraw, hvoid, hcalm⟩ := hname
  obtain ⟨fs, hcontent, hfills⟩ := hs
  refine ⟨rfl, _, (reads_tag h hname hnodup (by rw [hraw]; rfl)).append
    (hfills _ _ rfl (reads_closeTag hname)), ?_⟩
  exact Builder.element_of_content hcontent rfl hvoid hcalm

end Fills

end

end Tender.Html
