/-
How tokens and their markers stand in a text.

A token is a name between two braces on each side, and a marker is a name in a frame of its own.
Because no brace is part of a name, two of them never overlap:

* `token_prefix_unique`, `marker_prefix_unique` — at most one starts at a place;
* `token_not_inside` — none starts inside another;
* `bare_token`, `bare_marker_token` — none starts in a mustache that is not made up of one;
* `whole_of_end` — a text that ends as a token ends is `Whole`;
* `atoms_spelling` — a scan for some of the tokens takes a token as an item or as its characters.
-/
import Tender.Binding.Basic
import Tender.Guard
import Tender.Proofs.Text.Scan

namespace Tender

namespace Text

/-- A name holds only characters that may stand in a name. -/
theorem isNameRest_of_mem {n : Text} {c : Char} (hn : isName n = true) (hc : c ∈ n) :
    isNameRest c = true := by
  cases n with
  | nil => simp at hc
  | cons d n =>
    rw [isName, Bool.and_eq_true] at hn
    rcases List.mem_cons.1 hc with rfl | hc
    · have hd := hn.1
      simp only [isNameStart, isNameRest, Char.isAlphanum, Bool.or_eq_true] at hd ⊢
      rcases hd with hd | hd
      · exact .inl (.inl hd)
      · exact .inr hd
    · exact List.all_eq_true.1 hn.2 c hc

theorem not_mem_name {n : Text} {c : Char} (hn : isName n = true)
    (hc : isNameRest c = false) : c ∉ n := by
  intro hmem
  rw [isNameRest_of_mem hn hmem] at hc
  exact absurd hc (by simp)

/-- What stands before the first `d` is known from any place where a `d` stands. -/
theorem prefix_of_append_cons_eq {d : Char} {a x y z : Text} (ha : d ∉ a)
    (h : x ++ d :: y = a ++ d :: z) : a <+: x := by
  rcases List.append_eq_append_iff.1 h with ⟨k, hk, hrest⟩ | ⟨k, hk, -⟩
  · cases k with
    | nil => exact ⟨[], by rw [hk, List.append_nil, List.append_nil]⟩
    | cons e k =>
      obtain ⟨rfl, -⟩ := List.cons.inj hrest
      exact absurd (by rw [hk]; simp) ha
  · exact ⟨k, hk.symm⟩

theorem eq_of_append_cons_eq {d : Char} {a b y z : Text} (ha : d ∉ a) (hb : d ∉ b)
    (h : a ++ d :: y = b ++ d :: z) : a = b := by
  have hab := prefix_of_append_cons_eq ha h.symm
  have hba := prefix_of_append_cons_eq hb h
  exact hab.eq_of_length (Nat.le_antisymm hab.length_le hba.length_le)

/-- A suffix that is not the text itself is a suffix of the rest. -/
theorem suffix_of_ne_cons {c : Char} {v s : Text} (h : v <:+ c :: s) (hne : v ≠ c :: s) :
    v <:+ s :=
  (List.suffix_cons_iff.1 h).resolve_left hne

end Text

namespace Guard

open Text

variable {m n v w rest : Text}

theorem token_ne_nil (n : Text) : token n ≠ [] := by simp [token]

/-- Two braces on each side of a text without closing braces are read as these. -/
theorem token_inj (hm : '}' ∉ m) (hn : '}' ∉ n) (h : token m <+: token n ++ rest) : m = n := by
  obtain ⟨tail, htail⟩ := h
  have heq : m ++ '}' :: ('}' :: tail) = n ++ '}' :: ('}' :: rest) := by
    simpa [token] using htail
  exact eq_of_append_cons_eq hm hn heq

theorem token_prefix_unique (hm : isName m = true) (hn : isName n = true)
    (h : token m <+: token n ++ rest) : m = n :=
  token_inj (not_mem_name hm (by decide)) (not_mem_name hn (by decide)) h

theorem token_not_inside (hn : '{' ∉ n) (hv : v <:+ token n) (hne : v ≠ token n)
    (hnil : v ≠ []) : ¬ token m <+: v ++ rest := by
  rintro ⟨tail, htail⟩
  have hbrace : '{' ∉ n ++ ['}', '}'] := by simp [hn]
  obtain ⟨c, v, rfl⟩ := List.exists_cons_of_ne_nil hnil
  have hv' : c :: v <:+ '{' :: (n ++ ['}', '}']) := suffix_of_ne_cons hv hne
  simp only [token, List.cons_append, List.cons.injEq] at htail
  obtain ⟨rfl, htail⟩ := htail
  by_cases hwhole : '{' :: v = '{' :: (n ++ ['}', '}'])
  · -- only one brace is left in front of the name
    obtain ⟨-, rfl⟩ := List.cons.inj hwhole
    cases n with
    | nil => simp at htail
    | cons d n =>
      have hd : '{' = d := (List.cons.inj htail).1
      exact hbrace (by rw [hd]; simp)
  · exact hbrace ((suffix_of_ne_cons hv' hwhole).subset List.mem_cons_self)

/-- No token starts between two braces on each side, if what stands there is not its name. -/
theorem bare_token (hm : '}' ∉ m) (hn : '{' ∉ n ∧ '}' ∉ n) (hne : m ≠ n) :
    Bare (token m) (token n) := by
  intro v hv hnil rest hpre
  by_cases hwhole : v = token n
  · rw [hwhole] at hpre
    exact hne (token_inj hm hn.2 hpre)
  · exact token_not_inside hn.1 hv hwhole hnil hpre

/-- A token that starts in a text ending in two closing braces ends there. -/
theorem token_prefix_of_append (hm : isName m = true) (hw : ['}', '}'] <:+ w) (hv : v <:+ w)
    (hnil : v ≠ []) (h : token m <+: v ++ rest) : token m <+: v := by
  rcases List.prefix_or_prefix_of_prefix h (List.prefix_append v rest) with h | hpre
  · exact h
  · rcases List.suffix_or_suffix_of_suffix hv hw with hshort | ⟨x, rfl⟩
    · -- the text would be one of the two closing braces
      obtain ⟨c, v, rfl⟩ := List.exists_cons_of_ne_nil hnil
      have hc : c = '}' := by simpa using hshort.subset List.mem_cons_self
      obtain ⟨tail, htail⟩ := hpre
      simp only [token, List.cons_append, List.cons.injEq] at htail
      rw [hc] at htail
      exact absurd htail.1 (by decide)
    · obtain ⟨tail, htail⟩ := hpre
      have hbrace : '}' ∉ '{' :: '{' :: m := by
        simp [not_mem_name hm (c := '}') (by decide)]
      have heq : x ++ '}' :: ('}' :: tail) = '{' :: '{' :: m ++ '}' :: ['}'] := by
        simpa [token] using htail
      obtain ⟨k, rfl⟩ := prefix_of_append_cons_eq hbrace heq
      exact ⟨k ++ tail, by
        have hlen := congrArg List.length heq
        simp only [List.length_append, List.length_cons, List.length_nil] at hlen
        have hk : k = [] := List.length_eq_zero_iff.1 (by omega)
        have ht : tail = [] := List.length_eq_zero_iff.1 (by omega)
        simp [hk, ht, token]⟩

/-- The start of every marker, after its brace. -/
def markerHead : Text := lit "~protected:"

theorem marker_eq (n : Text) : marker n = '{' :: (markerHead ++ n ++ ['~', '}']) := by
  have h : lit "\x7b~protected:" = '{' :: markerHead := by decide +kernel
  rw [marker, h, List.cons_append, List.cons_append]

/-- Behind the brace of a marker stands a tilde. -/
theorem marker_cons (n : Text) : ∃ s, marker n = '{' :: '~' :: s := by
  rw [marker_eq, markerHead, lit_ofList]
  exact ⟨_, rfl⟩

theorem marker_ne_nil (n : Text) : marker n ≠ [] := by simp [marker_eq]

theorem brace_not_mem_markerHead : '{' ∉ markerHead ∧ '}' ∉ markerHead := by decide +kernel

theorem marker_prefix_unique (hm : isName m = true) (hn : isName n = true)
    (h : marker m <+: marker n ++ rest) : m = n := by
  obtain ⟨tail, htail⟩ := h
  have heq : m ++ '~' :: ('}' :: tail) = n ++ '~' :: ('}' :: rest) := by
    simpa [marker_eq] using htail
  exact eq_of_append_cons_eq (not_mem_name hm (by decide)) (not_mem_name hn (by decide)) heq

/-- No marker starts between two braces on each side, if what stands there is not what a marker has
between its own. -/
theorem bare_marker_token (hm : '}' ∉ m) (hn : '{' ∉ n ∧ '}' ∉ n)
    (hne : n ≠ markerHead ++ m ++ ['~']) : Bare (marker m) (token n) := by
  intro v hv hnil rest hpre
  obtain ⟨c, v, rfl⟩ := List.exists_cons_of_ne_nil hnil
  have hbrace : '{' ∉ n ++ ['}', '}'] := by simp [hn.1]
  -- the marker starts with the first brace, with the second brace, or behind them
  rcases List.suffix_cons_iff.1 hv with hwhole | hv
  · obtain ⟨s, hs⟩ := marker_cons m
    obtain ⟨rfl, rfl⟩ := List.cons.inj hwhole
    rw [hs, List.cons_append, List.cons_prefix_cons] at hpre
    exact absurd (List.cons_prefix_cons.1 hpre.2).1 (by decide)
  rcases List.suffix_cons_iff.1 hv with hsecond | hv
  · obtain ⟨rfl, rfl⟩ := List.cons.inj hsecond
    obtain ⟨tail, htail⟩ := hpre
    have heq : n ++ '}' :: ('}' :: rest) = markerHead ++ m ++ ['~'] ++ '}' :: tail := by
      simpa [marker_eq] using htail.symm
    refine hne (eq_of_append_cons_eq hn.2 ?_ heq)
    simp [hm, brace_not_mem_markerHead.2]
  · rw [marker_eq] at hpre
    obtain ⟨rfl, -⟩ := List.cons_prefix_cons.1 hpre
    exact hbrace (hv.subset List.mem_cons_self)

/-- A marker that starts in a text ending in a closing brace ends there. -/
theorem marker_prefix_of_append (hm : isName m = true) (hw : ['}'] <:+ w) (hv : v <:+ w)
    (hnil : v ≠ []) (h : marker m <+: v ++ rest) : marker m <+: v := by
  rcases List.prefix_or_prefix_of_prefix h (List.prefix_append v rest) with h | hpre
  · exact h
  · have hend : ['}'] <:+ v := by
      rcases List.suffix_or_suffix_of_suffix hw hv with h | h
      · exact h
      · rw [List.suffix_cons_iff] at h
        rcases h with rfl | h
        · exact List.suffix_refl _
        · exact absurd (List.suffix_nil.1 h) hnil
    obtain ⟨x, rfl⟩ := hend
    obtain ⟨tail, htail⟩ := hpre
    have hbrace : '}' ∉ '{' :: (markerHead ++ m ++ ['~']) := by
      simp [not_mem_name hm (c := '}') (by decide), brace_not_mem_markerHead.2]
    have heq : x ++ '}' :: tail = '{' :: (markerHead ++ m ++ ['~']) ++ '}' :: [] := by
      simpa [marker_eq] using htail
    obtain ⟨k, rfl⟩ := prefix_of_append_cons_eq hbrace heq
    have hlen := congrArg List.length heq
    simp only [List.length_append, List.length_cons, List.length_nil] at hlen
    have hk : k = [] := List.length_eq_zero_iff.1 (by omega)
    exact ⟨[], by simp [hk, marker_eq]⟩

end Guard

theorem Token.brace_not_mem_name (t : Token) : '{' ∉ t.name ∧ '}' ∉ t.name :=
  ⟨Text.not_mem_name t.isName_name (by decide), Text.not_mem_name t.isName_name (by decide)⟩

namespace Binding

open Text Guard

variable {family : List Token} {s : Text}

theorem spelling_ne_nil (t : Token) : spelling t ≠ [] := token_ne_nil t.name

theorem spelling_unique {t u : Token} {rest : Text} (h : spelling u <+: spelling t ++ rest) :
    u = t :=
  Token.name_injective (token_prefix_unique u.isName_name t.isName_name h)

/-- No token starts at a place that is no opening brace. -/
theorem spelling_not_prefix {t : Token} {c : Char} (hc : c ≠ '{') (s : Text) :
    ¬ spelling t <+: c :: s := by
  rintro ⟨tail, htail⟩
  exact hc (List.cons.inj htail).1.symm

theorem atoms_cons_of_ne_brace {c : Char} (hc : c ≠ '{') (s : Text) :
    atoms family (c :: s) = .char c :: atoms family s :=
  atoms_cons_of_none fun _ _ => spelling_not_prefix hc s

theorem atoms_spelling_append {t : Token} (ht : t ∈ family) (rest : Text) :
    atoms family (spelling t ++ rest) = .item t :: atoms family rest :=
  atoms_item (spelling_ne_nil t) ht fun _ _ h => spelling_unique h

theorem bare_of_no_brace (hs : '{' ∉ s) (t : Token) : Bare (spelling t) s :=
  Bare.of_not_mem hs

theorem whole_of_no_brace (hs : '{' ∉ s) : Whole (spelled spelling family) s :=
  whole_of_bare fun t _ => bare_of_no_brace hs t

/-- A text without an opening brace is read as its characters. -/
theorem atoms_of_no_brace (hs : '{' ∉ s) : atoms family s = s.map .char :=
  atoms_of_bare fun t _ => bare_of_no_brace hs t

/-- A text that ends in two closing braces is whole. -/
theorem whole_of_end (hs : ['}', '}'] <:+ s) : Whole (spelled spelling family) s := by
  refine whole_of_prefix (fun t _ => spelling_ne_nil t) (fun v hv hnil rest t _ hpre =>
    token_prefix_of_append t.isName_name hs hv hnil hpre) (fun v t _ u _ ht hu => ?_)
  obtain ⟨rest, rfl⟩ := hu
  exact spelling_unique ht

theorem whole_spelling (t : Token) : Whole (spelled spelling family) (spelling t) :=
  whole_of_end ⟨'{' :: '{' :: t.name, rfl⟩

/-- No token starts in another one. -/
theorem bare_spelling {t u : Token} (h : u ≠ t) : Bare (spelling u) (spelling t) :=
  bare_token u.brace_not_mem_name.2 t.brace_not_mem_name fun heq => h (Token.name_injective heq)

/-- A scan for some of the tokens takes a token as an item or as its characters. -/
theorem atoms_spelling (t : Token) :
    atoms family (spelling t) = if t ∈ family then [.item t] else (spelling t).map .char := by
  split
  · rename_i ht
    simpa [atoms] using atoms_spelling_append ht []
  · rename_i ht
    exact atoms_of_bare fun u hu => bare_spelling fun heq => ht (heq ▸ hu)

end Binding

end Tender
