/-
The events of a page that is written part by part.

A part is read as events whatever follows it (`Reads`): a tag on its own, a text before a tag.

* `reads_start`, `reads_close`, `reads_safe` — the parts;
* `events_of_row` — a page is read as the events of its parts with the texts between them.
-/
import Tender.Proofs.Html.Reference
import Tender.Proofs.Html.Tag

namespace Tender.Html

open Text

/-- A text is read as events, whatever follows it. -/
def Reads (s : Text) (events : List Event) : Prop :=
  ∀ done rest, pass false done none (s ++ rest) = pass false (events.reverse ++ done) none rest

theorem Reads.append {s t : Text} {es fs : List Event} (hs : Reads s es) (ht : Reads t fs) :
    Reads (s ++ t) (es ++ fs) := by
  intro done rest
  rw [List.append_assoc, hs, ht, List.reverse_append, List.append_assoc]

theorem pass_go {done events : List Event} {c : Char} {s rest : Text}
    (h : step false none c s = .ok (.go events ⟨none, rest⟩)) :
    pass false done none (c :: s) = pass false (events.reverse ++ done) none rest := by
  conv => lhs; rw [pass]
  split
  · rename_i heq
    rw [h] at heq
    cases heq
  · rename_i heq
    rw [h] at heq
    cases heq
  · rename_i heq
    rw [h] at heq
    cases heq
    rfl

/-! ### Tags -/

theorem stepBracket_alpha {c : Char} (hc : c.isAlpha = true) (s : Text) :
    stepBracket false (c :: s) = stepTag false (c :: s) := by
  have hne : ∀ d : Char, d.isAlpha = false → c ≠ d := by
    rintro d hd rfl
    rw [hc] at hd
    cases hd
  unfold stepBracket
  dsimp only
  split
  · rename_i heq
    cases heq
  · rename_i heq
    exact absurd (List.cons.inj heq).1 (hne '/' rfl)
  · rename_i heq
    exact absurd (List.cons.inj heq).1 (hne '!' rfl)
  · rename_i heq
    exact absurd (List.cons.inj heq).1 (hne '!' rfl)
  · rename_i heq
    exact absurd (List.cons.inj heq).1 (hne '!' rfl)
  · rename_i heq
    exact absurd (List.cons.inj heq).1 (hne '?' rfl)
  · rename_i heq
    cases heq
    rw [if_pos hc]

theorem reads_start {c : Char} {name : Text} {as : List WrittenAttribute} {slash : Bool} {tag : Tag}
    (hc : c.isAlpha = true) (hname : ∀ d ∈ c :: name, isTagNameChar d = true)
    (has : ∀ a ∈ as, a.Plain) (htag : Tag.of (c :: name) as slash = .ok tag)
    (hraw : (!slash && rawElements.contains tag.name) = false) :
    Reads (spelledTag (c :: name) as slash) [.start tag] := by
  intro done rest
  have hread := readTag_spelled hname has slash rest
  rw [List.cons_append] at hread
  have htagged : stepTag false (c :: (name ++ (spelledRest as slash ++ rest))) =
      .ok (.go [.start tag] ⟨none, rest⟩) := by
    rw [stepTag, hread]
    dsimp only
    rw [htag]
    show Except.ok (Step.go [.start tag] ⟨if (!slash && _) = true then _ else none, rest⟩) = _
    rw [hraw]
    rfl
  have hstep : step false none '<' (c :: (name ++ (spelledRest as slash ++ rest))) =
      .ok (.go [.start tag] ⟨none, rest⟩) := (stepBracket_alpha hc _).trans htagged
  rw [← pass_go hstep]
  simp [spelledTag]

theorem readEndTag_letters {c : Char} {name : Text} (hblank : isBlank c = false)
    (hname : ∀ d ∈ c :: name, d.isAlpha = true) (rest : Text) :
    readEndTag (c :: (name ++ '>' :: rest)) = some ([.close (toLower (c :: name))], rest) := by
  have hplain : ∀ d ∈ c :: name, (d != '>') = true := fun d hd => by
    have hne : d ≠ '>' := by
      rintro rfl
      exact absurd (hname '>' hd) (by decide)
    simp [hne]
  have hinside : ∀ d ∈ name, (isSectionNameChar d || d = ':') = true := fun d hd => by
    simp [isSectionNameChar, Char.isAlphanum, hname d (List.mem_cons_of_mem c hd)]
  have hafter : afterChar? '>' (c :: name ++ '>' :: rest) = some rest := by
    rw [afterChar?, (takeWhile_name hplain (by rintro d ⟨⟩; rfl)).2]
  have hsplit := takeWhile_name (s := '>' :: rest) hinside (by rintro d ⟨⟩; decide)
  have htrim : trimStart (c :: (name ++ '>' :: rest)) = c :: (name ++ '>' :: rest) :=
    List.dropWhile_cons_of_neg (by simp [hblank])
  have hbracket : afterBracket? ('>' :: rest) = some rest := by
    rw [afterBracket?, show trimStart ('>' :: rest) = '>' :: rest from
      List.dropWhile_cons_of_neg (by decide)]
    rfl
  have hend : endTagName? (c :: (name ++ '>' :: rest)) = some (c :: name, rest) := by
    rw [endTagName?, htrim]
    dsimp only
    rw [if_pos (hname c List.mem_cons_self), hsplit.1, hsplit.2, hbracket]
    rfl
  rw [List.cons_append] at hafter
  rw [readEndTag, hafter]
  dsimp only
  rw [hend]

theorem reads_close {c : Char} {name : Text} (hblank : isBlank c = false)
    (hname : ∀ d ∈ c :: name, d.isAlpha = true) :
    Reads ('<' :: '/' :: c :: name ++ ['>']) [.close (toLower (c :: name))] := by
  intro done rest
  have hstep : step false none '<' ('/' :: c :: (name ++ '>' :: rest)) =
      .ok (.go [.close (toLower (c :: name))] ⟨none, rest⟩) := by
    show Except.ok (Step.ofFound false _ (readEndTag (c :: (name ++ '>' :: rest)))) = _
    rw [readEndTag_letters hblank hname]
    rfl
  rw [← pass_go hstep]
  simp

/-! ### Texts -/

theorem pass_text {u rest : Text} (hne : u ≠ []) (hu : ∀ c ∈ u, isTextChar c = true)
    (hrest : ∀ c ∈ rest.head?, isTextChar c = false) (done : List Event) :
    pass false done none (u ++ rest) = pass false (.text u :: done) none rest := by
  obtain ⟨c, u, rfl⟩ := List.exists_cons_of_ne_nil hne
  have hc := hu c List.mem_cons_self
  have hsplit := takeWhile_name (fun d hd => hu d (List.mem_cons_of_mem c hd)) hrest
  have hstep : step false none c (u ++ rest) = .ok (.go [.text (c :: u)] ⟨none, rest⟩) := by
    have hlt : c ≠ '<' := by
      rintro rfl
      exact absurd hc (by decide)
    have hamp : c ≠ '&' := by
      rintro rfl
      exact absurd hc (by decide)
    show (if c = '<' then _ else if c = '&' then _ else _) = _
    rw [if_neg hlt, if_neg hamp, hsplit.1, hsplit.2]
  rw [List.cons_append, pass_go hstep]
  rfl

theorem pass_reference {u : Text} {c : Char} (h : Refers u c) (done : List Event) (rest : Text) :
    pass false done none ('&' :: u ++ rest) = pass false (.text [c] :: done) none rest := by
  have hstep : step false none '&' (u ++ rest) = .ok (.go [.text [c]] ⟨none, rest⟩) :=
    h.text false rest
  rw [List.cons_append, pass_go hstep]
  rfl

/-- A text is read as texts, if what follows is no running text. -/
def ReadsInParts (s : Text) (parts : List Text) : Prop :=
  ∀ rest, (∀ c ∈ rest.head?, isTextChar c = false) → ∀ done,
    pass false done none (s ++ rest) =
      pass false ((parts.map Event.text).reverse ++ done) none rest

/-- A text is read as texts that are another one together. -/
def ReadsAs (s v : Text) : Prop :=
  ∃ parts : List Text, parts.flatten = v ∧ ReadsInParts s parts

theorem readsAs_plain {u : Text} (hu : ∀ c ∈ u, isTextChar c = true) : ReadsAs u u := by
  by_cases hne : u = []
  · exact ⟨[], by rw [hne]; rfl, fun rest _ done => by rw [hne]; rfl⟩
  · exact ⟨[u], by simp, fun rest hrest done => pass_text hne hu hrest done⟩

/-- A safe text is read as itself, also after the characters `u` of a text that has begun. -/
theorem readsAs_safe_from (v : Text) {u : Text} (hu : ∀ c ∈ u, isTextChar c = true) :
    ReadsAs (u ++ safe v) (u ++ v) := by
  -- characters that need no reference pile up in `u` until a reference or the end
  induction v generalizing u with
  | nil =>
    rw [safe_nil, List.append_nil]
    exact readsAs_plain hu
  | cons c v ih =>
    rw [safe_cons]
    rcases refers_of_safe c with ⟨hc, heq⟩ | ⟨w, heq, hrefers⟩
    · -- the character goes on with the text that has begun
      have hrun := ih (u := u ++ [c]) fun d hd => by
        rcases List.mem_append.1 hd with hd | hd
        · exact hu d hd
        · rw [List.mem_singleton.1 hd]
          exact hc
      rw [List.append_assoc, List.append_assoc] at hrun
      rw [heq]
      exact hrun
    · obtain ⟨before, hbefore, hrun⟩ := readsAs_plain hu
      obtain ⟨parts, hparts, hpass⟩ := ih (u := []) fun d hd => by cases hd
      refine ⟨before ++ [c] :: parts, by simp [hbefore, hparts], fun rest hrest done => ?_⟩
      have hassoc : u ++ (safeChar c ++ safe v) ++ rest = u ++ ('&' :: w ++ (safe v ++ rest)) := by
        rw [heq, List.append_assoc, List.append_assoc]
      rw [hassoc, hrun _ (by rintro d ⟨⟩; rfl), pass_reference hrefers]
      rw [List.nil_append] at hpass
      rw [hpass rest hrest]
      simp

theorem readsAs_safe (v : Text) : ReadsAs (safe v) v :=
  readsAs_safe_from v (u := []) fun c hc => by cases hc

/-- Before a tag, a text is read as its parts. -/
theorem ReadsInParts.before {s t : Text} {parts : List Text} {events : List Event}
    (hs : ReadsInParts s parts) (ht : t.head? = some '<') (h : Reads t events) :
    Reads (s ++ t) (parts.map .text ++ events) := by
  intro done rest
  have hstop : ∀ c ∈ (t ++ rest).head?, isTextChar c = false := by
    rintro c hc
    rw [List.head?_append, ht] at hc
    cases hc
    rfl
  rw [List.append_assoc, hs _ hstop, h, List.reverse_append, List.append_assoc]

/-! ### Whole pages -/

/-- The events of a row: those of its items in order, with texts between them. -/
inductive Interleaved {β : Type} (events : β → List Event → Prop) :
    List (Atom β) → List Event → Prop
  | nil : Interleaved events [] []
  | text {u : Text} {row : List (Atom β)} {es : List Event} :
    Interleaved events row es → Interleaved events (u.map .char ++ row) (.text u :: es)
  | item {b : β} {row : List (Atom β)} {fs es : List Event} :
    events b fs → Interleaved events row es → Interleaved events (.item b :: row) (fs ++ es)

theorem pass_nil (done : List Event) : pass false done none [] = .ok (done, ⟨none, []⟩) := by
  rw [pass]

/-- A row after the characters `u` of a text that has begun. -/
theorem pass_row {β : Type} {w : β → Text} {events : β → List Event → Prop} {row : List (Atom β)}
    (hchars : ∀ c, .char c ∈ row → isTextChar c = true)
    (hitems : ∀ b, .item b ∈ row → (w b).head? = some '<' ∧ ∃ es, Reads (w b) es ∧ events b es)
    {u : Text} (hu : ∀ c ∈ u, isTextChar c = true) :
    ∃ es, Interleaved events (u.map .char ++ row) es ∧ ∀ done,
      pass false done none (u ++ Atom.fill w row) = .ok (es.reverse ++ done, ⟨none, []⟩) := by
  -- one text event takes all the characters up to the next item, so they are kept back in `u`
  induction row generalizing u with
  | nil =>
    by_cases hne : u = []
    · rw [hne]
      exact ⟨[], .nil, fun done => pass_nil done⟩
    · refine ⟨[.text u], .text .nil, fun done => ?_⟩
      rw [Atom.fill_nil, pass_text hne hu (by rintro c ⟨⟩), pass_nil]
      rfl
  | cons a row ih =>
    have hchars' : ∀ c, .char c ∈ row → isTextChar c = true := fun c hc =>
      hchars c (List.mem_cons_of_mem a hc)
    have hitems' := fun b hb => hitems b (List.mem_cons_of_mem a hb)
    cases a with
    | char c =>
      obtain ⟨es, hes, hpass⟩ := ih hchars' hitems' (u := u ++ [c]) fun d hd => by
        rcases List.mem_append.1 hd with hd | hd
        · exact hu d hd
        · rw [List.mem_singleton.1 hd]
          exact hchars c List.mem_cons_self
      refine ⟨es, ?_, fun done => ?_⟩
      · rw [List.map_append, List.append_assoc] at hes
        exact hes
      · rw [← hpass, List.append_assoc]
        rfl
    | item b =>
      obtain ⟨hhead, fs, hreads, hfs⟩ := hitems b List.mem_cons_self
      obtain ⟨es, hes, hpass⟩ := ih hchars' hitems' (u := []) fun c hc => by cases hc
      rw [List.nil_append] at hpass
      have hitem (done : List Event) : pass false done none (Atom.fill w (.item b :: row)) =
          .ok ((fs ++ es).reverse ++ done, ⟨none, []⟩) := by
        rw [Atom.fill_item, hreads, hpass, List.reverse_append, List.append_assoc]
      by_cases hne : u = []
      · rw [hne]
        exact ⟨fs ++ es, .item hfs hes, hitem⟩
      · refine ⟨.text u :: (fs ++ es), .text (.item hfs hes), fun done => ?_⟩
        have hstop : ∀ c ∈ (Atom.fill w (.item b :: row)).head?, isTextChar c = false := by
          intro c hc
          rw [Atom.fill_item, List.head?_append, hhead] at hc
          cases hc
          rfl
        rw [pass_text hne hu hstop, hitem]
        simp

theorem events_row {β : Type} {w : β → Text} {events : β → List Event → Prop} {row : List (Atom β)}
    (hchars : ∀ c, .char c ∈ row → isTextChar c = true)
    (hitems : ∀ b, .item b ∈ row → (w b).head? = some '<' ∧ ∃ es, Reads (w b) es ∧ events b es) :
    ∃ es, Interleaved events row es ∧ Html.events (Atom.fill w row) = .ok es := by
  obtain ⟨es, hes, hpass⟩ := pass_row hchars hitems (u := []) fun c hc => by cases hc
  rw [List.nil_append] at hpass
  refine ⟨es, hes, ?_⟩
  have hlast : pass true (es.reverse ++ []) none [] = .ok (es.reverse ++ [], ⟨none, []⟩) := by
    rw [pass]
  rw [Html.events, hpass []]
  show Except.bind (pass true (es.reverse ++ []) none []) _ = _
  rw [hlast]
  show Except.ok ((es.reverse ++ []).reverse ++ leftOver ⟨none, []⟩) = _
  simp [leftOver]

end Tender.Html
