/-
The page breaks of a document, as texts.

* `Form.after?_eq_some_iff` — a page break is found exactly where a text starts with one of the
  spellings of its form;
* `Form.atoms_induction`, `Form.fill_atoms` — a document is read as characters and page breaks, and
  nothing is lost;
* `normalise_of_not_broken`, `split_of_not_broken` — a text without page breaks is left as it is,
  and split at the marker;
* `not_broken_of_infix` — where page breaks were replaced and no marker stands, no page break of any
  form is left, not even one across a replaced one.
-/
import Tender.Proofs.PageBreak.Split
import Tender.Proofs.Text.Search

namespace Tender

open Text

namespace PageBreak

/-! ### The spellings of a page break -/

/-- A page break of a form, as it is written. -/
inductive Form.Spells : Form → Text → Prop
  | comment {a x b y e : Text} (ha : InAnyCase (lit "<!--") a) (hx : allBlank x = true)
      (hb : InAnyCase (lit "pagebreak") b) (hy : allBlank y = true)
      (he : InAnyCase (lit "-->") e) : Spells .comment (a ++ (x ++ (b ++ (y ++ e))))
  | classed {a x e : Text} (ha : InAnyCase (lit "<div class=\"page-break\">") a)
      (hx : allBlank x = true) (he : InAnyCase (lit "</div>") e) :
      Spells .classed (a ++ (x ++ e))
  | styled {a x b u v y e : Text} (ha : InAnyCase (lit "<div style=\"page-break-after:") a)
      (hx : allBlank x = true) (hb : InAnyCase (lit "always") b) (hu : '"' ∉ u) (hv : '>' ∉ v)
      (hy : allBlank y = true) (he : InAnyCase (lit "</div>") e) :
      Spells .styled (a ++ (x ++ (b ++ (u ++ '"' :: (v ++ '>' :: (y ++ e))))))

theorem afterClose?_eq_some_iff {s rest : Text} : afterClose? s = some rest ↔
    ∃ x e, allBlank x = true ∧ InAnyCase (lit "</div>") e ∧ x ++ (e ++ rest) = s :=
  afterWord?_trimStart_iff (lit "</div>") (by decide +kernel) s rest

/-- A page break is found exactly where a text starts with one. -/
theorem Form.after?_eq_some_iff {form : Form} {s rest : Text} :
    form.after? s = some rest ↔ ∃ w, form.Spells w ∧ w ++ rest = s := by
  cases form with
  | comment =>
    have hword := afterWord?_trimStart_iff (lit "pagebreak") (by decide +kernel)
    have hend := afterWord?_trimStart_iff (lit "-->") (by decide +kernel)
    simp only [after?, Option.bind_eq_bind, Option.bind_eq_some_iff, afterWord?_eq_some_iff, hword,
      hend]
    constructor
    · rintro ⟨_, ⟨a, ha, rfl⟩, _, ⟨x, b, hx, hb, rfl⟩, y, e, hy, he, rfl⟩
      exact ⟨_, .comment ha hx hb hy he, by simp only [List.append_assoc]⟩
    · rintro ⟨w, hw, rfl⟩
      cases hw with | comment ha hx hb hy he => ?_
      simp only [List.append_assoc]
      exact ⟨_, ⟨_, ha, rfl⟩, _, ⟨_, _, hx, hb, rfl⟩, _, _, hy, he, rfl⟩
  | classed =>
    simp only [after?, Option.bind_eq_bind, Option.bind_eq_some_iff, afterWord?_eq_some_iff,
      afterClose?_eq_some_iff]
    constructor
    · rintro ⟨_, ⟨a, ha, rfl⟩, x, e, hx, he, rfl⟩
      exact ⟨_, .classed ha hx he, by simp only [List.append_assoc]⟩
    · rintro ⟨w, hw, rfl⟩
      cases hw with | classed ha hx he => ?_
      simp only [List.append_assoc]
      exact ⟨_, ⟨_, ha, rfl⟩, _, _, hx, he, rfl⟩
  | styled =>
    have hword := afterWord?_trimStart_iff (lit "always") (by decide +kernel)
    simp only [after?, Option.bind_eq_bind, Option.bind_eq_some_iff, afterWord?_eq_some_iff, hword,
      afterChar?_eq_some_iff, afterClose?_eq_some_iff]
    constructor
    · rintro ⟨_, ⟨a, ha, rfl⟩, _, ⟨x, b, hx, hb, rfl⟩, _, ⟨u, hu, rfl⟩, _, ⟨v, hv, rfl⟩, y, e, hy,
        he, rfl⟩
      exact ⟨_, .styled ha hx hb hu hv hy he, by simp only [List.append_assoc, List.cons_append]⟩
    · rintro ⟨w, hw, rfl⟩
      cases hw with | styled ha hx hb hu hv hy he => ?_
      simp only [List.append_assoc, List.cons_append]
      exact ⟨_, ⟨_, ha, rfl⟩, _, ⟨_, _, hx, hb, rfl⟩, _, ⟨_, hu, rfl⟩, _, ⟨_, hv, rfl⟩, _, _, hy, he,
        rfl⟩

/-- Every page break starts with an angle bracket and ends in one. -/
theorem Form.Spells.brackets {form : Form} {w : Text} (h : form.Spells w) :
    w.head? = some '<' ∧ w.getLast? = some '>' := by
  cases h with
  | comment ha _ _ _ he =>
    have hfirst := ha.head? (k := '<') (by decide +kernel) (by decide)
    have hlast := he.getLast? (k := '>') (by decide +kernel) (by decide)
    simp [hfirst, hlast]
  | classed ha _ he =>
    have hfirst := ha.head? (k := '<') (by decide +kernel) (by decide)
    have hlast := he.getLast? (k := '>') (by decide +kernel) (by decide)
    simp [hfirst, hlast]
  | styled ha _ _ _ _ _ he =>
    have hfirst := ha.head? (k := '<') (by decide +kernel) (by decide)
    have hlast := he.getLast? (k := '>') (by decide +kernel) (by decide)
    simp [hfirst, hlast, List.getLast?_cons]

theorem Form.Spells.ne_nil {form : Form} {w : Text} (h : form.Spells w) : w ≠ [] := by
  rintro rfl
  cases h.brackets.1

/-- A page break of some form stands in a text. -/
def Broken (s : Text) : Prop := ∃ form : Form, ∃ w, form.Spells w ∧ w <:+: s

theorem broken_iff {s : Text} :
    Broken s ↔ ∃ form ∈ Form.all, ∃ v ∈ s.tails, (form.after? v).isSome = true := by
  constructor
  · rintro ⟨form, w, hw, x, y, rfl⟩
    refine ⟨form, by cases form <;> decide, w ++ y, ?_, ?_⟩
    · rw [List.mem_tails, List.append_assoc]
      exact List.suffix_append x _
    · rw [Form.after?_eq_some_iff.2 ⟨w, hw, rfl⟩]
      rfl
  · rintro ⟨form, -, v, hv, hafter⟩
    obtain ⟨rest, hrest⟩ := Option.isSome_iff_exists.1 hafter
    obtain ⟨w, hw, rfl⟩ := Form.after?_eq_some_iff.1 hrest
    exact ⟨form, w, hw,
      (List.prefix_append w rest).isInfix.trans ((List.mem_tails _ _).1 hv).isInfix⟩

instance (s : Text) : Decidable (Broken s) := decidable_of_iff' _ broken_iff

/-! ### Reading page breaks -/

namespace Form

variable {form : Form} {s : Text}

theorem find_eq_none (h : form.after? s = none) (before : Option Char) :
    form.find before s = none := by
  rw [find, h]
  rfl

theorem find_append {w : Text} (hw : form.Spells w) (before : Option Char) (rest : Text) :
    form.find before (w ++ rest) = some (w, w.length - 1) := by
  rw [find, after?_eq_some_iff.2 ⟨w, hw, rfl⟩]
  simp

theorem atomsFrom_before (form : Form) (before : Option Char) (s : Text) :
    atomsFrom form.find [] before 0 s = Text.atoms form.find s := by
  cases s <;> rfl

theorem atoms_cons_of_none {c : Char} (h : form.after? (c :: s) = none) :
    Text.atoms form.find (c :: s) = .char c :: Text.atoms form.find s := by
  rw [Text.atoms, atomsFrom_none (find_eq_none h none), atomsFrom_before]

theorem atoms_append {w : Text} (hw : form.Spells w) (s : Text) :
    Text.atoms form.find (w ++ s) = .item w :: Text.atoms form.find s := by
  obtain ⟨c, u, rfl⟩ := List.exists_cons_of_ne_nil hw.ne_nil
  have hfind := find_append hw none s
  rw [List.length_cons, Nat.add_sub_cancel] at hfind
  rw [Text.atoms, atomsFrom_some hfind, atomsFrom_before]

/-- What is read of a document is built from its end on, by characters at which no page break starts
and by page breaks. -/
theorem atoms_induction (form : Form) {motive : Text → List (Atom Text) → Prop}
    (nil : motive [] [])
    (char : ∀ c s as, form.after? (c :: s) = none → motive s as → motive (c :: s) (.char c :: as))
    (item : ∀ w s as, form.Spells w → motive s as → motive (w ++ s) (.item w :: as))
    (s : Text) : motive s (Text.atoms form.find s) := by
  induction hn : s.length using Nat.strongRecOn generalizing s with
  | _ n ih =>
    cases s with
    | nil => exact nil
    | cons c s =>
      cases hafter : form.after? (c :: s) with
      | none =>
        rw [atoms_cons_of_none hafter]
        exact char c s _ hafter (ih s.length (hn ▸ Nat.lt_succ_self _) s rfl)
      | some rest =>
        obtain ⟨w, hw, heq⟩ := after?_eq_some_iff.1 hafter
        rw [← heq, atoms_append hw]
        refine item w rest _ hw (ih rest.length ?_ rest rfl)
        have := List.length_pos_iff.2 hw.ne_nil
        rw [← hn, ← heq, List.length_append]
        omega

theorem fill_atoms (form : Form) (s : Text) : Atom.fill id (Text.atoms form.find s) = s := by
  induction s using form.atoms_induction with
  | nil => rfl
  | char c s as _ ih => rw [Atom.fill_char, ih]
  | item w s as _ ih => rw [Atom.fill_item, ih, id]

/-- A text in which no page break of the form stands is read as its characters. -/
theorem atoms_of_none (h : ∀ w, form.Spells w → ¬ w <:+: s) :
    Text.atoms form.find s = s.map .char := by
  induction s using form.atoms_induction with
  | nil => rfl
  | char c s as _ ih =>
    rw [ih fun w hw hin => h w hw (hin.trans (List.suffix_cons c s).isInfix)]
    rfl
  | item w s as hw _ => exact absurd (List.prefix_append w s).isInfix (h w hw)

end Form

/-! ### Replacing page breaks -/

/-- A text without page breaks of a form is left as it is where these are replaced. -/
theorem replaceForm_of_none (parts : List Marker.Part) {form : Form} {s : Text}
    (h : ∀ w, form.Spells w → ¬ w <:+: s) : replaceForm parts s form = s := by
  rw [replaceForm, Form.atoms_of_none h, Atom.fill_chars]

/-- A text without page breaks is left as it is. -/
theorem normalise_of_not_broken (parts : List Marker.Part) {s : Text} (h : ¬ Broken s) :
    normalise parts s = s := by
  have hreplace (form : Form) : replaceForm parts s form = s :=
    replaceForm_of_none parts fun w hw hin => h ⟨form, w, hw, hin⟩
  show replaceForm parts (replaceForm parts (replaceForm parts s .comment) .classed) .styled = s
  simp only [hreplace]

variable {marker w : Text}

/-- What is read behind replaced page breaks as a text that does not hold the marker, and that ends
in no character of it, is read from plain characters. -/
theorem chars_of_fill {y : Text} (hmarker : ¬ marker <:+: w)
    (hlast : ∀ c ∈ w.getLast?, c ∉ marker) {as : List (Atom Text)}
    (h : w ++ y = Atom.fill (fun _ => marker) as) : ∃ bs, as = w.map .char ++ bs := by
  induction as generalizing w with
  | nil =>
    obtain ⟨rfl, -⟩ := List.append_eq_nil_iff.1 h
    exact ⟨[], rfl⟩
  | cons a as ih =>
    cases w with
    | nil => exact ⟨a :: as, rfl⟩
    | cons c w =>
      cases a with
      | char d =>
        obtain ⟨rfl, hrest⟩ := List.cons.inj h
        obtain ⟨bs, rfl⟩ := ih (fun hin => hmarker (hin.trans (List.suffix_cons c w).isInfix))
          (fun d hd => hlast d (by simp [List.getLast?_cons, Option.mem_def.1 hd])) hrest
        exact ⟨bs, rfl⟩
      | item b =>
        -- the text would hold the marker, or end in it
        exfalso
        have hpre : marker <+: c :: w ++ y := ⟨_, h.symm⟩
        rcases List.prefix_or_prefix_of_prefix hpre (List.prefix_append (c :: w) y) with hin | hin
        · exact hmarker hin.isInfix
        · have hmem := List.getLast?_eq_some_getLast (List.cons_ne_nil c w)
          exact hlast _ hmem (hin.subset (List.getLast_mem _))

/-- A text stands behind another if its first character does not stand in that. -/
theorem infix_of_infix_append {c : Char} {u t : Text} (hc : c ∉ u) (h : c :: w <:+: u ++ t) :
    c :: w <:+: t := by
  induction u with
  | nil => exact h
  | cons d u ih =>
    rcases List.infix_cons_iff.1 h with hpre | hin
    · exact absurd (List.cons_prefix_cons.1 hpre).1 fun heq => hc (heq ▸ List.mem_cons_self)
    · exact ih (fun hmem => hc (List.mem_cons_of_mem d hmem)) hin

/-- Where the page breaks of a form were replaced by a marker without angle brackets, every page
break that does not hold the marker stood there before, and it is none of that form. -/
theorem infix_of_infix_replaceForm (hopen : '<' ∉ marker) (hclose : '>' ∉ marker)
    {form form' : Form} {html : Text} (hw : form'.Spells w) (hmarker : ¬ marker <:+: w)
    (h : w <:+: replaceForm (marker.map .char) html form) : ¬ form.Spells w ∧ w <:+: html := by
  have hfill : Marker.fill (marker.map .char) = fun _ => marker :=
    funext fun found => Marker.fill_literal marker found
  rw [replaceForm, hfill] at h
  obtain ⟨hfirst, hlast⟩ := hw.brackets
  have hback := form.fill_atoms html
  induction html using form.atoms_induction with
  | nil => exact absurd (List.infix_nil.1 h) hw.ne_nil
  | char c s as hnone ih =>
    rcases List.infix_cons_iff.1 h with ⟨y, hy⟩ | hin
    · -- the page break starts here, so it was here before, and the scan has not found it
      have hstart : w ++ y = Atom.fill (fun _ => marker) (.char c :: as) := hy
      obtain ⟨bs, hbs⟩ := chars_of_fill hmarker
        (fun d hd => by rw [hlast] at hd; cases hd; exact hclose) hstart
      rw [hbs, Atom.fill_append, Atom.fill_chars] at hback
      refine ⟨fun hspells => ?_, (hback ▸ List.prefix_append w _).isInfix⟩
      rw [Form.after?_eq_some_iff.2 ⟨w, hspells, hback⟩] at hnone
      cases hnone
    · obtain ⟨hnot, hin⟩ := ih hin (List.cons.inj hback).2
      exact ⟨hnot, hin.trans (List.suffix_cons c s).isInfix⟩
  | item b s as hb ih =>
    obtain ⟨v, rfl⟩ : ∃ v, w = '<' :: v := List.head?_eq_some_iff.1 hfirst
    obtain ⟨hnot, hin⟩ := ih (infix_of_infix_append hopen h) (List.append_cancel_left hback)
    exact ⟨hnot, hin.trans (List.suffix_append b s).isInfix⟩

/-- Where all page breaks were replaced by a marker without angle brackets, a part in which the
marker does not stand holds no page break. -/
theorem not_broken_of_infix (hopen : '<' ∉ marker) (hclose : '>' ∉ marker) {html part : Text}
    (hpart : part <:+: normalise (marker.map .char) html) (hmarker : ¬ marker <:+: part) :
    ¬ Broken part := by
  rintro ⟨form, w, hw, hin⟩
  have hin' : w <:+: replaceForm (marker.map .char) (replaceForm (marker.map .char)
    (replaceForm (marker.map .char) html .comment) .classed) .styled := hin.trans hpart
  have hclean : ¬ marker <:+: w := fun h => hmarker (h.trans hin)
  obtain ⟨hstyled, hin'⟩ := infix_of_infix_replaceForm hopen hclose hw hclean hin'
  obtain ⟨hclassed, hin'⟩ := infix_of_infix_replaceForm hopen hclose hw hclean hin'
  obtain ⟨hcomment, -⟩ := infix_of_infix_replaceForm hopen hclose hw hclean hin'
  cases form with
  | comment => exact hcomment hw
  | classed => exact hclassed hw
  | styled => exact hstyled hw

/-! ### Splitting -/

theorem split_of_read (h : marker ≠ []) {parts : List Marker.Part}
    (hread : Marker.read marker = .ok parts) (html : Text) :
    split marker html = .ok (visible (splitOn marker h (normalise parts html))) := by
  rw [split, hread]
  show (if h : marker = [] then _ else _) = _
  rw [dif_neg h]
  rfl

/-- A text without page breaks is split at the marker. -/
theorem split_of_not_broken (h : marker ≠ []) {html : Text} (hbroken : ¬ Broken html)
    {parts : List Marker.Part} (hread : Marker.read marker = .ok parts) :
    split marker html = .ok (visible (splitOn marker h html)) := by
  rw [split_of_read h hread, normalise_of_not_broken parts hbroken]

end PageBreak

end Tender
