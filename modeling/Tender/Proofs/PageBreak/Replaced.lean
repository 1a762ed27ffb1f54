/-
Page breaks that a marker is written for.

* `Marker.eq_chars_of_prefix` — a marker that is found at the start of what is written for it is
  written as it stands;
* `OnlyBreak.normalise_eq` — of a text with one page break, this one is replaced and nothing else;
* `replacesBreaks_iff` — a page break divides every text as the marker does exactly if the marker is
  written as it stands, or cannot be read at all.
-/
import Tender.Proofs.PageBreak.Stable

namespace Tender

open Text

/-! ### What is written for a marker -/

namespace Marker

variable {found : Text}

/-- What is written for a piece of a marker: the piece as it stands, or a text with fewer backslashes,
or one with no more of them and with fewer characters. -/
def Wears (found s : Text) (parts : List Part) : Prop :=
  parts = s.map .char ∨ (fill parts found).count '\\' < s.count '\\' ∨
    ((fill parts found).count '\\' ≤ s.count '\\' ∧ (fill parts found).length < s.length)

@[simp] theorem fill_append (parts more : List Part) (found : Text) :
    fill (parts ++ more) found = fill parts found ++ fill more found :=
  List.flatMap_append

theorem Wears.count_le {s : Text} {parts : List Part} (h : Wears found s parts) :
    (fill parts found).count '\\' ≤ s.count '\\' := by
  rcases h with rfl | h | h
  · rw [fill_literal]
  · exact Nat.le_of_lt h
  · exact h.1

theorem Wears.append {s t : Text} {parts more : List Part} (hs : Wears found s parts)
    (ht : Wears found t more) : Wears found (s ++ t) (parts ++ more) := by
  have hscount := hs.count_le
  have htcount := ht.count_le
  simp only [Wears, fill_append, List.count_append, List.length_append, List.map_append] at hs ht ⊢
  rcases hs with rfl | hs | hs
  · rcases ht with rfl | ht | ht
    · exact .inl rfl
    · exact .inr (.inl (by omega))
    · rw [fill_literal]
      exact .inr (.inr ⟨by omega, by omega⟩)
  · exact .inr (.inl (by omega))
  · rcases ht with rfl | ht | ht
    · rw [fill_literal]
      exact .inr (.inr ⟨by omega, by omega⟩)
    · exact .inr (.inl (by omega))
    · exact .inr (.inr ⟨by omega, by omega⟩)

/-- A single character is written for a longer piece with a backslash. -/
theorem wears_char {s : Text} (d : Char) (hback : '\\' ∈ s) (hlength : 1 < s.length) :
    Wears found s [.char d] := by
  have hpos := List.count_pos_iff.2 hback
  have hone : [d].count '\\' ≤ 1 := List.count_le_length
  have hfill : fill [.char d] found = [d] := rfl
  refine .inr (.inr ⟨?_, ?_⟩) <;> rw [hfill]
  · omega
  · exact hlength

theorem spelled_cons (x : Symbol) (xs : List Symbol) : spelled (x :: xs) = x.toText ++ spelled xs :=
  List.flatMap_cons

theorem spelled_append (xs ys : List Symbol) : spelled (xs ++ ys) = spelled xs ++ spelled ys :=
  List.flatMap_append

/-- The symbols of a marker, and a backslash that is left, are the marker. -/
theorem spelled_symbols (marker : Text) :
    spelled (symbols marker).1 ++ (if (symbols marker).2 then ['\\'] else []) = marker := by
  fun_induction symbols marker with
  | case1 => rfl
  | case2 => rfl
  | case3 c s rest broken hrest ih =>
    rw [hrest] at ih
    simpa [spelled_cons, Symbol.toText] using ih
  | case4 c s _ _ rest broken hrest ih =>
    rw [hrest] at ih
    simpa [spelled_cons, Symbol.toText] using ih

namespace Source

variable {src : Source}

/-- A group stands for the break. -/
theorem named_ok {name : Text} {rest : List Symbol} {part : Part}
    (h : src.named name rest = .ok part) : part = .whole := by
  unfold named at h
  dsimp only at h
  split at h
  · cases h
  split at h
  · cases h
  split at h
  · cases h
  split at h
  · cases h
  split at h
  · exact (Except.ok.inj h).symm
  · cases h

theorem group_ok {rest after : List Symbol} {part : Part}
    (h : src.group rest = .ok (part, after)) :
    part = .whole ∧ src.next after = .ok () ∧ after <:+ rest := by
  unfold group at h
  split at h
  · rename_i inner
    obtain ⟨_, -, h⟩ := ok_of_bind h
    dsimp only at h
    split at h
    · split at h
      · cases h
      split at h <;> cases h
    · rename_i x after' hdrop
      obtain ⟨_, hnext, h⟩ := ok_of_bind h
      obtain ⟨part', hpart, h⟩ := ok_of_bind h
      cases h
      have hinner : x :: after <:+ inner := hdrop ▸ List.dropWhile_suffix _
      exact ⟨named_ok hpart, hnext,
        ((List.suffix_cons x after).trans hinner).trans (List.suffix_cons _ inner)⟩
  · cases h

/-- A run of digits stands for a character. -/
theorem numbered_ok {digits : Text} {rest : List Symbol} {part : Part}
    (h : src.numbered digits rest = .ok part) : ∃ d, part = .char d := by
  unfold numbered at h
  dsimp only at h
  split at h
  · exact ⟨_, (Except.ok.inj h).symm⟩
  split at h
  · split at h
    · cases h
    · exact ⟨_, (Except.ok.inj h).symm⟩
  · cases h

theorem lettered_ok {c : Char} {rest : List Symbol} {parts : List Part}
    (h : src.lettered c rest = .ok parts) :
    (∃ d, parts = [.char d]) ∨ parts = [.char '\\', .char c] := by
  unfold lettered at h
  split at h
  · exact .inl ⟨_, (Except.ok.inj h).symm⟩
  · split at h
    · cases h
    · exact .inr (Except.ok.inj h).symm

theorem broken_of_next_nil (h : src.next [] = .ok ()) : src.broken = false := by
  cases hbroken : src.broken with
  | false => rfl
  | true =>
    rw [next, hbroken] at h
    cases h

/-- If symbols are read to the end, no lone backslash follows them, and what is written for them
wears off or stays as it stands. -/
theorem wears_read (hfound : '\\' ∉ found) {fuel : Nat} {xs : List Symbol} {parts : List Part}
    (hfuel : xs.length ≤ fuel) (hnext : src.next xs = .ok ()) (h : src.read fuel xs = .ok parts) :
    src.broken = false ∧ Wears found (spelled xs) parts := by
  induction fuel generalizing xs parts with
  | zero =>
    obtain rfl := List.length_eq_zero_iff.1 (Nat.le_zero.1 hfuel)
    cases h
    exact ⟨broken_of_next_nil hnext, .inl rfl⟩
  | succ fuel ih =>
    match xs with
    | [] =>
      cases h
      exact ⟨broken_of_next_nil hnext, .inl rfl⟩
    | .plain c :: rest =>
      obtain ⟨_, hrest, h⟩ := ok_of_bind h
      obtain ⟨more, hmore, h⟩ := ok_of_bind h
      cases h
      obtain ⟨hbroken, hwears⟩ := ih (Nat.le_of_succ_le_succ hfuel) hrest hmore
      have hchar : Wears found [c] [.char c] := .inl rfl
      exact ⟨hbroken, spelled_cons .. ▸ hchar.append hwears⟩
    | .escape c :: rest =>
      have hlength : rest.length ≤ fuel := Nat.le_of_succ_le_succ hfuel
      obtain ⟨_, hrest, h⟩ := ok_of_bind h
      -- the symbols of a group or of a run of digits are read with the backslash
      have hpiece {after : List Symbol} (hafter : after <:+ rest) (hnext' : src.next after = .ok ())
          {part more : List Part} (hmore : src.read fuel after = .ok more)
          (hpart : ∀ s, 1 < ('\\' :: s).length → Wears found ('\\' :: s) part) :
          src.broken = false ∧ Wears found (spelled (.escape c :: rest)) (part ++ more) := by
        obtain ⟨before, rfl⟩ := hafter
        obtain ⟨hbroken, hwears⟩ := ih (by simp at hlength; omega) hnext' hmore
        refine ⟨hbroken, ?_⟩
        rw [spelled_cons, spelled_append, ← List.append_assoc]
        exact (hpart (c :: spelled before) (by simp)).append hwears
      split at h
      · obtain ⟨⟨part, after⟩, hgroup, h⟩ := ok_of_bind h
        obtain ⟨more, hmore, h⟩ := ok_of_bind h
        cases h
        obtain ⟨rfl, hnext', hafter⟩ := group_ok hgroup
        have hwhole (s : Text) : Wears found ('\\' :: s) [.whole] := by
          have hfill : fill [.whole] found = found := List.append_nil found
          refine .inr (.inl ?_)
          rw [hfill, List.count_eq_zero_of_not_mem hfound]
          exact List.count_pos_iff.2 List.mem_cons_self
        exact hpiece hafter hnext' hmore fun s _ => hwhole s
      split at h
      · obtain ⟨_, hnext', h⟩ := ok_of_bind h
        obtain ⟨part, hpart, h⟩ := ok_of_bind h
        obtain ⟨more, hmore, h⟩ := ok_of_bind h
        cases h
        obtain ⟨d, rfl⟩ := numbered_ok hpart
        have hchar (s : Text) (hs : 1 < ('\\' :: s).length) : Wears found ('\\' :: s) [.char d] :=
          wears_char d List.mem_cons_self hs
        exact hpiece (List.drop_suffix _ rest) hnext' hmore hchar
      · obtain ⟨parts', hparts, h⟩ := ok_of_bind h
        obtain ⟨more, hmore, h⟩ := ok_of_bind h
        cases h
        obtain ⟨hbroken, hwears⟩ := ih hlength hrest hmore
        refine ⟨hbroken, spelled_cons .. ▸ Wears.append ?_ hwears⟩
        rcases lettered_ok hparts with ⟨d, rfl⟩ | rfl
        · exact wears_char d List.mem_cons_self Nat.one_lt_two
        · exact .inl rfl

end Source

/-- A marker that stands at the start of what is written for it, is written as it stands. -/
theorem eq_chars_of_prefix {marker : Text} {parts : List Part} (hread : read marker = .ok parts)
    (hfound : '\\' ∉ found) (h : marker <+: fill parts found) : parts = marker.map .char := by
  obtain ⟨_, hnext, hread⟩ := ok_of_bind hread
  obtain ⟨hbroken, hwears⟩ := Source.wears_read hfound (Nat.le_refl _) hnext hread
  have hspelled := spelled_symbols marker
  rw [show (symbols marker).2 = false from hbroken, if_neg Bool.false_ne_true,
    List.append_nil] at hspelled
  rw [hspelled] at hwears
  rcases hwears with heq | hless | ⟨-, hless⟩
  · exact heq
  · exact absurd (h.sublist.count_le '\\') (Nat.not_le.2 hless)
  · exact absurd h.length_le (Nat.not_le.2 hless)

end Marker

namespace PageBreak

variable {marker a b w : Text} {form : Form}

/-! ### One page break -/

/-- A text in three parts has one page break: the middle part, which is of the form. -/
def OnlyBreak (form : Form) (a w b : Text) : Prop :=
  ∀ form' x v y, Form.Spells form' v → x ++ (v ++ y) = a ++ (w ++ b) →
    form' = form ∧ x = a ∧ v = w

theorem onlyBreak_iff : OnlyBreak form a w b ↔
    ∀ form' ∈ Form.all, ∀ n ∈ List.range ((a ++ (w ++ b)).length + 1),
      ∀ rest ∈ form'.after? ((a ++ (w ++ b)).drop n), form' = form ∧ n = a.length ∧ rest = b := by
  constructor
  · intro h form' _ n hn rest hrest
    obtain ⟨v, hv, hdrop⟩ := Form.after?_eq_some_iff.1 hrest
    have hsplit : (a ++ (w ++ b)).take n ++ (v ++ rest) = a ++ (w ++ b) := by
      rw [hdrop, List.take_append_drop]
    obtain ⟨hform, hx, rfl⟩ := h form' _ v rest hv hsplit
    rw [hx] at hsplit
    have hlength := congrArg List.length hx
    rw [List.length_take, Nat.min_eq_left (Nat.le_of_lt_succ (List.mem_range.1 hn))] at hlength
    exact ⟨hform, hlength, List.append_cancel_left (List.append_cancel_left hsplit)⟩
  · intro h form' x v y hv hsplit
    have hdrop : (a ++ (w ++ b)).drop x.length = v ++ y := by rw [← hsplit, List.drop_left]
    have hlength : x.length < (a ++ (w ++ b)).length + 1 := by
      rw [← hsplit, List.length_append]
      omega
    obtain ⟨hform, hx, rfl⟩ := h form' (by cases form' <;> decide) x.length
      (List.mem_range.2 hlength) y (Form.after?_eq_some_iff.2 ⟨v, hv, hdrop.symm⟩)
    obtain ⟨rfl, hrest⟩ := List.append_inj hsplit hx
    exact ⟨hform, rfl, List.append_cancel_right hrest⟩

instance : Decidable (OnlyBreak form a w b) := decidable_of_iff' _ onlyBreak_iff

namespace OnlyBreak

theorem tail {c : Char} (h : OnlyBreak form (c :: a) w b) : OnlyBreak form a w b := by
  intro form' x v y hv hsplit
  obtain ⟨hform, hx, hvw⟩ := h form' (c :: x) v y hv (congrArg (List.cons c) hsplit)
  exact ⟨hform, (List.cons.inj hx).2, hvw⟩

/-- Behind a page break that is the only one, there is none. -/
theorem not_infix (hw : form.Spells w) (h : OnlyBreak form [] w b) {form' : Form} {v : Text}
    (hv : form'.Spells v) : ¬ v <:+: b := by
  rintro ⟨x, y, rfl⟩
  obtain ⟨-, hnil, -⟩ := h form' (w ++ x) v y hv (by simp)
  exact hw.ne_nil (List.append_eq_nil_iff.1 hnil).1

theorem atoms_eq (hw : form.Spells w) (h : OnlyBreak form a w b) :
    Text.atoms form.find (a ++ (w ++ b)) = a.map .char ++ .item w :: b.map .char := by
  induction a with
  | nil =>
    rw [List.nil_append, Form.atoms_append hw, Form.atoms_of_none fun v hv => h.not_infix hw hv]
    rfl
  | cons c a ih =>
    have hnone : form.after? (c :: (a ++ (w ++ b))) = none := by
      rw [Option.eq_none_iff_forall_ne_some]
      intro rest hrest
      obtain ⟨v, hv, hsplit⟩ := Form.after?_eq_some_iff.1 hrest
      obtain ⟨-, hnil, -⟩ := h form [] v rest hv hsplit
      cases hnil
    rw [List.cons_append, Form.atoms_cons_of_none hnone, ih h.tail]
    rfl

/-- Where the page breaks of its form are replaced, just this one is. -/
theorem replaceForm_eq (parts : List Marker.Part) (hw : form.Spells w)
    (h : OnlyBreak form a w b) :
    replaceForm parts (a ++ (w ++ b)) form = a ++ (Marker.fill parts w ++ b) := by
  rw [replaceForm, h.atoms_eq hw, Atom.fill_append, Atom.fill_chars, Atom.fill_item,
    Atom.fill_chars]

/-- Where the page breaks of another form are replaced, none is. -/
theorem replaceForm_other (parts : List Marker.Part) (h : OnlyBreak form a w b) {form' : Form}
    (hform : form' ≠ form) : replaceForm parts (a ++ (w ++ b)) form' = a ++ (w ++ b) := by
  refine replaceForm_of_none parts fun v hv hin => ?_
  obtain ⟨x, y, hsplit⟩ := hin
  exact hform (h form' x v y hv (by rw [← hsplit, List.append_assoc])).1

theorem normalise_styled (parts : List Marker.Part) (hw : Form.Spells .styled w)
    (h : OnlyBreak .styled a w b) :
    normalise parts (a ++ (w ++ b)) = a ++ (Marker.fill parts w ++ b) := by
  show replaceForm parts (replaceForm parts (replaceForm parts _ .comment) .classed) .styled = _
  rw [h.replaceForm_other parts (by decide), h.replaceForm_other parts (by decide),
    h.replaceForm_eq parts hw]

/-- Of a text with one page break, this one is replaced and nothing else. -/
theorem normalise_eq {parts : List Marker.Part} (hw : form.Spells w) (h : OnlyBreak form a w b)
    (hclean : ¬ Broken (a ++ (Marker.fill parts w ++ b))) :
    normalise parts (a ++ (w ++ b)) = a ++ (Marker.fill parts w ++ b) := by
  have hrest (form' : Form) : replaceForm parts (a ++ (Marker.fill parts w ++ b)) form' =
      a ++ (Marker.fill parts w ++ b) :=
    replaceForm_of_none parts fun v hv hin => hclean ⟨form', v, hv, hin⟩
  show replaceForm parts (replaceForm parts (replaceForm parts _ .comment) .classed) .styled = _
  cases form with
  | comment => rw [h.replaceForm_eq parts hw, hrest, hrest]
  | classed => rw [h.replaceForm_other parts (by decide), h.replaceForm_eq parts hw, hrest]
  | styled => exact h.normalise_styled parts hw

end OnlyBreak

/-- A page break splits a text like a marker that is written for it as it stands. -/
theorem split_of_onlyBreak {parts : List Marker.Part} (h : marker ≠ [])
    (hread : Marker.read marker = .ok parts) (hfill : Marker.fill parts w = marker)
    (hw : form.Spells w) (honly : OnlyBreak form a w b) (hclean : ¬ Broken (a ++ (marker ++ b))) :
    split marker (a ++ (w ++ b)) = split marker (a ++ (marker ++ b)) := by
  rw [split_of_not_broken h hclean hread, split_of_read h hread,
    honly.normalise_eq hw (by rwa [hfill]), hfill]

/-! ### Any page break -/

/-- Between any two texts a page break splits as the marker does, if it is the only one there and the
marker in its place makes none. -/
def ReplacesBreaks (marker : Text) : Prop :=
  ∀ form a w b, Form.Spells form w → OnlyBreak form a w b → ¬ Broken (a ++ (marker ++ b)) →
    split marker (a ++ (w ++ b)) = split marker (a ++ (marker ++ b))

/-- A page break that stands in a text between two characters that are no angle brackets stands
between them. -/
theorem Form.Spells.between {c : Char} {s x v y : Text} (hv : form.Spells v) (hopen : c ≠ '<')
    (hclose : c ≠ '>') (hsplit : x ++ (v ++ y) = c :: (s ++ [c])) :
    ∃ x' y', x = c :: x' ∧ y = y' ++ [c] ∧ x' ++ (v ++ y') = s := by
  obtain ⟨hfirst, hlast⟩ := hv.brackets
  cases x with
  | nil =>
    obtain ⟨u, rfl⟩ := List.head?_eq_some_iff.1 hfirst
    exact absurd (List.cons.inj hsplit).1.symm hopen
  | cons d x =>
    rw [List.cons_append] at hsplit
    obtain ⟨rfl, hrest⟩ := List.cons.inj hsplit
    rcases List.eq_nil_or_concat y with rfl | ⟨y, e, rfl⟩
    · have hend := congrArg List.getLast? hrest
      rw [List.append_nil, List.getLast?_append, hlast, List.getLast?_concat] at hend
      exact absurd (Option.some.inj hend).symm hclose
    · rw [List.concat_eq_append, ← List.append_assoc v, ← List.append_assoc x] at hrest
      obtain ⟨hs, he⟩ := List.append_inj' hrest rfl
      cases he
      exact ⟨x, y, rfl, List.concat_eq_append, hs⟩

theorem onlyBreak_between {c : Char} (hopen : c ≠ '<') (hclose : c ≠ '>')
    (h : OnlyBreak form [] w []) : OnlyBreak form [c] w [c] := by
  intro form' x v y hv hsplit
  obtain ⟨x', y', rfl, -, hs⟩ := hv.between hopen hclose hsplit
  obtain ⟨hform, rfl, hvw⟩ := h form' x' v y' hv (by rw [hs, List.nil_append, List.append_nil])
  exact ⟨hform, rfl, hvw⟩

theorem not_broken_between {c : Char} (hopen : c ≠ '<') (hclose : c ≠ '>') {s : Text}
    (h : ¬ Broken s) : ¬ Broken ([c] ++ (s ++ [c])) := by
  rintro ⟨form, v, hv, x, y, hsplit⟩
  obtain ⟨x', y', -, -, hs⟩ := hv.between hopen hclose (by rw [← List.append_assoc]; exact hsplit)
  exact h ⟨form, v, hv, x', y', by rw [List.append_assoc, hs]⟩

theorem bare_of_head {c : Char} (h : marker ≠ []) (hc : marker.head? ≠ some c) :
    Bare marker [c] := by
  obtain ⟨k, p, rfl⟩ := List.exists_cons_of_ne_nil h
  refine Bare.of_not_mem fun hmem => hc ?_
  rw [List.mem_singleton.1 hmem, List.head?_cons]

/-- A text between two visible characters, with which the marker does not start, is split like the
marker only if the marker stands at its start. -/
theorem prefix_of_visible {c : Char} {s : Text} (h : marker ≠ []) (hc : marker.head? ≠ some c)
    (hvisible : isBlank c = false)
    (hsplit : visible (splitOn marker h ([c] ++ (s ++ [c]))) =
      visible (splitOn marker h ([c] ++ (marker ++ [c])))) : marker <+: s := by
  have hbare := bare_of_head h hc
  have hshown (x : Text) (rest : List Text) :
      visible (([c] ++ x) :: rest) = ([c] ++ x) :: visible rest :=
    visible_cons_of_mem List.mem_cons_self hvisible rest
  have hmarker : visible (splitOn marker h ([c] ++ (marker ++ [c]))) = [[c], [c]] := by
    rw [splitOn_of_some h (cut_append_of_bare h hbare [c]), splitOn_of_none h (cut_of_bare h hbare)]
    exact (hshown [] [[c]]).trans (congrArg _ (hshown [] []))
  rw [hmarker] at hsplit
  have hcut := cut_bare_append hbare (s ++ [c])
  cases hs : cut marker (s ++ [c]) with
  | none =>
    -- the text would be one section
    rw [hs] at hcut
    rw [splitOn_of_none h hcut, hshown] at hsplit
    cases (List.cons.inj hsplit).2
  | some found =>
    obtain ⟨x, y⟩ := found
    rw [hs] at hcut
    rw [splitOn_of_some h hcut, hshown] at hsplit
    obtain ⟨hx, hy⟩ := List.cons.inj hsplit
    obtain rfl : x = [] := (List.cons.inj hx).2
    have heq := cut_eq hs
    rcases List.eq_nil_or_concat y with rfl | ⟨y, e, rfl⟩
    · -- nothing would follow the marker
      have hnil : cut marker [] = none := cut_of_bare h .nil
      rw [splitOn_of_none h hnil] at hy
      cases hy
    · rw [List.nil_append, List.concat_eq_append, ← List.append_assoc] at heq
      exact ⟨y, (List.append_inj' heq rfl).1.symm⟩

theorem Form.spells_of_after? (h : form.after? w = some []) : form.Spells w := by
  obtain ⟨v, hv, hsplit⟩ := after?_eq_some_iff.1 h
  rw [List.append_nil] at hsplit
  exact hsplit ▸ hv

/-- A page break without a backslash. -/
def plainBreak : Text := lit "<div style=\"page-break-after:always\"></div>"

theorem plainBreak_spells : Form.Spells .styled plainBreak ∧ OnlyBreak .styled [] plainBreak [] ∧
    '\\' ∉ plainBreak :=
  ⟨Form.spells_of_after? (by decide +kernel), by decide +kernel, by decide +kernel⟩

/-- A page break splits every text as the marker does exactly if the marker is written for it as it
stands, or if it cannot be read; apart from markers that are a page break themselves. -/
theorem replacesBreaks_iff (h : marker ≠ []) : ReplacesBreaks marker ↔
    Broken marker ∨ ∀ parts, Marker.read marker = .ok parts → parts = marker.map .char := by
  constructor
  · intro hlaw
    by_cases hbroken : Broken marker
    · exact .inl hbroken
    refine .inr fun parts hread => ?_
    obtain ⟨hw, honly, hplain⟩ := plainBreak_spells
    -- a visible character with which the marker does not start
    obtain ⟨c, hc, hvisible, hopen, hclose⟩ : ∃ c : Char, marker.head? ≠ some c ∧
        isBlank c = false ∧ c ≠ '<' ∧ c ≠ '>' := by
      by_cases ha : marker.head? = some 'a'
      · exact ⟨'b', by rw [ha]; decide, by decide, by decide, by decide⟩
      · exact ⟨'a', ha, by decide, by decide, by decide⟩
    have hclean := not_broken_between hopen hclose hbroken
    have honly' := onlyBreak_between hopen hclose honly
    have hsplit := hlaw .styled [c] plainBreak [c] hw honly' hclean
    rw [split_of_not_broken h hclean hread, split_of_read h hread, honly'.normalise_styled parts hw] at hsplit
    exact Marker.eq_chars_of_prefix hread hplain
      (prefix_of_visible h hc hvisible (Except.ok.inj hsplit))
  · rintro (hbroken | hchars) form a w b hw honly hclean
    · obtain ⟨form', v, hv, hin⟩ := hbroken
      exact absurd ⟨form', v, hv, hin.trans ⟨a, b, List.append_assoc ..⟩⟩ hclean
    · cases hread : Marker.read marker with
      | error fault =>
        rw [split, split, hread]
        rfl
      | ok parts =>
        refine split_of_onlyBreak h hread ?_ hw honly hclean
        rw [hchars parts hread, Marker.fill_literal]

/-- A marker with a backslash that stands for itself, and texts that end and start like it. -/
theorem replacesBreaks_backslash :
    lit "\\=" ≠ [] ∧ ReplacesBreaks (lit "\\=") ∧
      split (lit "\\=") (lit "x\\" ++ (lit "<DIV CLASS=\"page-break\"> </div>" ++ lit "= y")) =
        .ok [lit "x\\", lit "= y"] := by
  have hne : lit "\\=" ≠ [] := by decide +kernel
  have hread : (Marker.read (lit "\\=")).toOption = some ((lit "\\=").map .char) := by
    decide +kernel
  have hlaw : ReplacesBreaks (lit "\\=") := by
    refine (replacesBreaks_iff hne).2 (.inr fun parts hparts => ?_)
    rw [hparts] at hread
    exact Option.some.inj hread
  have hw : Form.Spells .classed (lit "<DIV CLASS=\"page-break\"> </div>") :=
    Form.spells_of_after? (by decide +kernel)
  refine ⟨hne, hlaw, ?_⟩
  rw [hlaw .classed (lit "x\\") _ (lit "= y") hw (by decide +kernel) (by decide +kernel)]
  exact ok_of_toOption (by decide +kernel)

/-- A marker that spells a line break is not found again where it was written. -/
theorem split_lineBreakMarker :
    lit "\\n" ≠ [] ∧ Form.Spells .comment (lit "<!--PAGEBREAK-->") ∧
      OnlyBreak .comment ['a'] (lit "<!--PAGEBREAK-->") ['b'] ∧
      ¬ Broken (['a'] ++ (lit "\\n" ++ ['b'])) ∧
      split (lit "\\n") (['a'] ++ (lit "<!--PAGEBREAK-->" ++ ['b'])) = .ok [lit "a\nb"] ∧
      split (lit "\\n") (['a'] ++ (lit "\\n" ++ ['b'])) = .ok [['a'], ['b']] :=
  ⟨by decide +kernel, Form.spells_of_after? (by decide +kernel), by decide +kernel,
    by decide +kernel, ok_of_toOption (by decide +kernel), ok_of_toOption (by decide +kernel)⟩

end PageBreak

end Tender
