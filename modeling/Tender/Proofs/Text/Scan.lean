/-
Reading a text as plain characters and items with fixed spellings.

A scan with `spelled spelling items` looks at every place for an item and does not care what stands
before it, so it can be followed from the left:

* `atoms_cons`, `atoms_induction` — at each place the scan takes a character or an item;
* `fill_atoms`, `atoms_of_clean` — putting the spellings back gives the text again, and the text of a
  row without items at its characters is read as that row;
* `atoms_append` — two texts are scanned one after the other if no item stands across the place
  where they meet; after a `Whole` text the scan starts afresh, whatever follows;
* `atoms_fill` — a row of characters and whole texts is scanned part by part, if no item starts at
  one of the characters.
-/
import Mathlib.Data.List.Infix
import Tender.Text.Scan

namespace Tender.Text

variable {α β : Type} {find : Option Char → Text → Option (α × Nat)}
variable {spelling : α → Text} {items : List α}

theorem startsWith_iff {start s : Text} : startsWith start s = true ↔ start <+: s := by
  induction start generalizing s with
  | nil => simp [startsWith, after?]
  | cons c start ih =>
    cases s with
    | nil => simp [startsWith, after?]
    | cons d s =>
      by_cases h : c = d
      · subst h
        simpa [startsWith, after?] using ih
      · simp [startsWith, after?, h]

theorem after?_append (start rest : Text) : after? start (start ++ rest) = some rest := by
  induction start with
  | nil => simp [after?]
  | cons c start ih => simpa [after?] using ih

/-- The characters of an item that has been found are passed over. -/
theorem atomsFrom_skip (u s : Text) (before : Option Char) :
    atomsFrom find [] before u.length (u ++ s) = atomsFrom find [] (u.getLast?.or before) 0 s := by
  induction u generalizing before with
  | nil => simp
  | cons c u ih =>
    rw [List.length_cons, List.cons_append, atomsFrom, ih, List.getLast?_cons]
    cases u.getLast? <;> rfl

theorem atomsFrom_none {before : Option Char} {c : Char} {s : Text}
    (h : find before (c :: s) = none) :
    atomsFrom find [] before 0 (c :: s) = .char c :: atomsFrom find [] (some c) 0 s := by
  rw [atomsFrom, h]
  exact atomsFrom_eq find [.char c] (some c) 0 s

theorem atomsFrom_some {before : Option Char} {a : α} {c : Char} {u s : Text}
    (h : find before (c :: u ++ s) = some (a, u.length)) :
    atomsFrom find [] before 0 (c :: u ++ s) =
      .item a :: atomsFrom find [] (some (u.getLastD c)) 0 s := by
  rw [List.cons_append] at h ⊢
  rw [atomsFrom, h]
  simp only
  rw [atomsFrom_eq find [.item a], atomsFrom_skip]
  cases hu : u.getLast? with
  | none => simp [List.getLast?_eq_none_iff.1 hu]
  | some d => simp [List.getLastD_eq_getLast?, hu]

@[simp] theorem atoms_nil : atoms find [] = [] := rfl

/-! ### Fixed spellings -/

theorem spelled_eq_none_iff {before : Option Char} {s : Text} :
    spelled spelling items before s = none ↔ ∀ a ∈ items, ¬ spelling a <+: s := by
  simp only [spelled, List.findSome?_eq_none_iff]
  refine forall₂_congr fun a _ => ?_
  rw [← startsWith_iff]
  cases startsWith (spelling a) s <;> simp

theorem spelled_eq_some {before : Option Char} {s : Text} {a : α} {n : Nat}
    (h : spelled spelling items before s = some (a, n)) :
    a ∈ items ∧ spelling a <+: s ∧ n = (spelling a).length - 1 := by
  obtain ⟨b, hb, hs⟩ := List.exists_of_findSome?_eq_some h
  split at hs
  · rename_i hstart
    obtain ⟨rfl, rfl⟩ := Prod.mk.inj (Option.some.inj hs)
    exact ⟨hb, startsWith_iff.1 hstart, rfl⟩
  · simp at hs

theorem atomsFrom_before (before : Option Char) (s : Text) :
    atomsFrom (spelled spelling items) [] before 0 s = atoms (spelled spelling items) s := by
  cases s with
  | nil => rfl
  | cons c s => rfl

theorem atoms_cons_of_none {c : Char} {s : Text} (h : ∀ a ∈ items, ¬ spelling a <+: c :: s) :
    atoms (spelled spelling items) (c :: s) = .char c :: atoms (spelled spelling items) s := by
  rw [atoms, atomsFrom_none (spelled_eq_none_iff.2 h), atomsFrom_before]

theorem atoms_item {a : α} {s : Text} (hne : spelling a ≠ []) (ha : a ∈ items)
    (h : ∀ b ∈ items, spelling b <+: spelling a ++ s → b = a) :
    atoms (spelled spelling items) (spelling a ++ s) =
      .item a :: atoms (spelled spelling items) s := by
  cases hf : spelled spelling items none (spelling a ++ s) with
  | none => exact absurd (List.prefix_append _ _) (spelled_eq_none_iff.1 hf a ha)
  | some found =>
    obtain ⟨b, n⟩ := found
    obtain ⟨hb, hpre, rfl⟩ := spelled_eq_some hf
    obtain rfl := h b hb hpre
    obtain ⟨c, u, hu⟩ := List.exists_cons_of_ne_nil hne
    rw [hu, List.length_cons, Nat.add_sub_cancel] at hf
    rw [hu, atoms, atomsFrom_some hf, atomsFrom_before]

/-- At each place the scan takes a character at which no item starts, or else an item. -/
theorem atoms_cons (hne : ∀ a ∈ items, spelling a ≠ []) (c : Char) (s : Text) :
    ((∀ a ∈ items, ¬ spelling a <+: c :: s) ∧
      atoms (spelled spelling items) (c :: s) = .char c :: atoms (spelled spelling items) s) ∨
    ∃ a ∈ items, ∃ rest, c :: s = spelling a ++ rest ∧
      atoms (spelled spelling items) (c :: s) =
        .item a :: atoms (spelled spelling items) rest := by
  cases hf : spelled spelling items none (c :: s) with
  | none => exact .inl ⟨spelled_eq_none_iff.1 hf, atoms_cons_of_none (spelled_eq_none_iff.1 hf)⟩
  | some found =>
    obtain ⟨a, n⟩ := found
    obtain ⟨ha, ⟨rest, hrest⟩, rfl⟩ := spelled_eq_some hf
    obtain ⟨d, u, hu⟩ := List.exists_cons_of_ne_nil (hne a ha)
    refine .inr ⟨a, ha, rest, hrest.symm, ?_⟩
    rw [← hrest, hu, List.length_cons, Nat.add_sub_cancel] at hf
    rw [← hrest, hu, atoms, atomsFrom_some hf, atomsFrom_before]

@[simp] theorem Atom.fill_nil (f : α → Text) : Atom.fill f [] = [] := rfl

@[simp] theorem Atom.fill_char (f : α → Text) (c : Char) (as : List (Atom α)) :
    Atom.fill f (.char c :: as) = c :: Atom.fill f as := rfl

@[simp] theorem Atom.fill_item (f : α → Text) (a : α) (as : List (Atom α)) :
    Atom.fill f (.item a :: as) = f a ++ Atom.fill f as := rfl

@[simp] theorem Atom.fill_append (f : α → Text) (as bs : List (Atom α)) :
    Atom.fill f (as ++ bs) = Atom.fill f as ++ Atom.fill f bs :=
  List.flatMap_append

@[simp] theorem Atom.fill_chars (f : α → Text) (s : Text) : Atom.fill f (s.map .char) = s := by
  induction s with
  | nil => rfl
  | cons c s ih => rw [List.map_cons, Atom.fill_char, ih]

/-- Where every item is written with the same first character, what is read without it is read from
plain characters. -/
theorem chars_of_prefix {d : Char} {p : Text} (hp : d ∉ p) {w : α → Text}
    (hw : ∀ a, ∃ s, w a = d :: s) {as : List (Atom α)} (h : p <+: Atom.fill w as) :
    ∃ bs, as = p.map .char ++ bs := by
  induction p generalizing as with
  | nil => exact ⟨as, rfl⟩
  | cons c p ih =>
    have hc : c ≠ d := fun hc => hp (by simp [hc])
    cases as with
    | nil => exact absurd (List.prefix_nil.1 h) (by simp)
    | cons a as =>
      cases a with
      | char e =>
        obtain ⟨rfl, hrest⟩ := List.cons_prefix_cons.1 h
        obtain ⟨bs, rfl⟩ := ih (fun hmem => hp (List.mem_cons_of_mem c hmem)) hrest
        exact ⟨bs, rfl⟩
      | item a =>
        obtain ⟨s, hs⟩ := hw a
        rw [Atom.fill_item, hs, List.cons_append] at h
        exact absurd (List.cons_prefix_cons.1 h).1 hc

theorem head?_fill {d : Char} {w w' : α → Text} (hw : ∀ a, ∃ s, w a = d :: s)
    (hw' : ∀ a, ∃ s, w' a = d :: s) (as : List (Atom α)) :
    (Atom.fill w as).head? = (Atom.fill w' as).head? := by
  cases as with
  | nil => rfl
  | cons a as =>
    cases a with
    | char c => rfl
    | item a =>
      obtain ⟨s, hs⟩ := hw a
      obtain ⟨s', hs'⟩ := hw' a
      rw [Atom.fill_item, Atom.fill_item, hs, hs']
      rfl

/-- What a scan reads is built from the end of the text on, by characters at which no item starts and
by items. -/
theorem atoms_induction (hne : ∀ a ∈ items, spelling a ≠ [])
    {motive : Text → List (Atom α) → Prop} (nil : motive [] [])
    (char : ∀ c s as, (∀ a ∈ items, ¬ spelling a <+: c :: s) → motive s as →
      motive (c :: s) (.char c :: as))
    (item : ∀ a ∈ items, ∀ s as, motive s as → motive (spelling a ++ s) (.item a :: as))
    (s : Text) : motive s (atoms (spelled spelling items) s) := by
  induction hn : s.length using Nat.strongRecOn generalizing s with
  | _ n ih =>
    cases s with
    | nil => exact nil
    | cons c s =>
      rw [List.length_cons] at hn
      rcases atoms_cons hne c s with ⟨hnone, heq⟩ | ⟨a, ha, rest, hs, heq⟩
      · rw [heq]
        exact char c s _ hnone (ih s.length (by omega) s rfl)
      · have hlen := congrArg List.length hs
        have := List.length_pos_iff.2 (hne a ha)
        rw [List.length_cons, List.length_append] at hlen
        rw [heq, hs]
        exact item a ha rest _ (ih rest.length (by omega) rest rfl)

/-- A scan loses nothing. -/
theorem fill_atoms (hne : ∀ a ∈ items, spelling a ≠ []) (s : Text) :
    Atom.fill spelling (atoms (spelled spelling items) s) = s := by
  induction s using atoms_induction hne with
  | nil => rfl
  | char c s as _ ih => rw [Atom.fill_char, ih]
  | item a _ s as ih => rw [Atom.fill_item, ih]

theorem mem_of_item_atoms (hne : ∀ a ∈ items, spelling a ≠ []) {a : α} {s : Text}
    (h : .item a ∈ atoms (spelled spelling items) s) : a ∈ items := by
  induction s using atoms_induction hne with
  | nil => cases h
  | char c s as _ ih => exact ih ((List.mem_cons.1 h).resolve_left (by simp))
  | item b hb s as ih =>
    rcases List.mem_cons.1 h with heq | hmem
    · cases heq
      exact hb
    · exact ih hmem

theorem mem_of_char_atoms (hne : ∀ a ∈ items, spelling a ≠ []) {c : Char} {s : Text}
    (h : .char c ∈ atoms (spelled spelling items) s) : c ∈ s := by
  induction s using atoms_induction hne with
  | nil => cases h
  | char d s as _ ih =>
    rcases List.mem_cons.1 h with heq | hmem
    · cases heq
      exact List.mem_cons_self
    · exact List.mem_cons_of_mem d (ih hmem)
  | item a _ s as ih =>
    exact List.mem_append_right _ (ih ((List.mem_cons.1 h).resolve_left (by simp)))

/-! ### Texts that are taken apart on their own -/

variable {pattern v w : Text}

/-- A text in which a pattern does not start, whatever follows the text. -/
def Bare (pattern w : Text) : Prop :=
  ∀ v, v <:+ w → v ≠ [] → ∀ rest, ¬ pattern <+: v ++ rest

theorem Bare.nil : Bare pattern [] := fun _ hv hnil => absurd (List.suffix_nil.1 hv) hnil

theorem Bare.append (hv : Bare pattern v) (hw : Bare pattern w) : Bare pattern (v ++ w) := by
  intro u hu hnil rest
  rcases List.suffix_or_suffix_of_suffix hu (List.suffix_append v w) with h | ⟨x, rfl⟩
  · exact hw u h hnil rest
  · obtain ⟨y, hy⟩ := hu
    rw [← List.append_assoc] at hy
    have hx : x <:+ v := ⟨y, List.append_cancel_right hy⟩
    by_cases hempty : x = []
    · subst hempty
      exact hw w (List.suffix_refl w) hnil rest
    · rw [List.append_assoc]
      exact hv x hx hempty _

/-- Where a pattern does not start, nothing starts that goes on from it. -/
theorem Bare.extend {p : Text} (hp : p <+: pattern) (h : Bare p w) : Bare pattern w :=
  fun v hv hnil rest hpre => h v hv hnil rest (hp.trans hpre)

/-- A pattern does not start in a text without its first character. -/
theorem Bare.of_not_mem {c : Char} {p : Text} (h : c ∉ w) : Bare (c :: p) w := by
  intro v hv hnil rest hpre
  obtain ⟨d, v, rfl⟩ := List.exists_cons_of_ne_nil hnil
  rw [List.cons_append] at hpre
  obtain ⟨rfl, -⟩ := List.cons_prefix_cons.1 hpre
  exact h (hv.subset List.mem_cons_self)

/-- A scan takes a whole text apart in the same way whatever follows it. -/
def Whole (find : Option Char → Text → Option (α × Nat)) (w : Text) : Prop :=
  ∀ rest, atoms find (w ++ rest) = atoms find w ++ atoms find rest

theorem Whole.append {v w : Text} (hv : Whole find v) (hw : Whole find w) :
    Whole find (v ++ w) := by
  intro rest
  rw [List.append_assoc, hv, hw, hv w, List.append_assoc]

/-- A text at none of whose places an item starts is read as its characters. -/
theorem atoms_append_of_bare (h : ∀ a ∈ items, Bare (spelling a) w) (rest : Text) :
    atoms (spelled spelling items) (w ++ rest) =
      w.map .char ++ atoms (spelled spelling items) rest := by
  induction w with
  | nil => rfl
  | cons c w ih =>
    have hnone : ∀ a ∈ items, ¬ spelling a <+: c :: (w ++ rest) := fun a ha =>
      h a ha (c :: w) (List.suffix_refl _) (by simp) rest
    rw [List.cons_append, atoms_cons_of_none hnone]
    rw [ih fun a ha v hv => h a ha v (hv.trans (List.suffix_cons c w))]
    rfl

theorem atoms_of_bare (h : ∀ a ∈ items, Bare (spelling a) w) :
    atoms (spelled spelling items) w = w.map .char := by
  simpa using atoms_append_of_bare h []

theorem whole_of_bare (h : ∀ a ∈ items, Bare (spelling a) w) :
    Whole (spelled spelling items) w := by
  intro rest
  rw [atoms_append_of_bare h, atoms_of_bare h]

/-- If an item that starts in a text also ends in it, the scan starts afresh behind the text. -/
theorem atoms_append_of_prefix (hne : ∀ a ∈ items, spelling a ≠ []) {w rest : Text}
    (h : ∀ v, v <:+ w → v ≠ [] → ∀ a ∈ items, spelling a <+: v ++ rest → spelling a <+: v)
    (hone : ∀ v, ∀ a ∈ items, ∀ b ∈ items, spelling a <+: v → spelling b <+: v → a = b) :
    atoms (spelled spelling items) (w ++ rest) =
      atoms (spelled spelling items) w ++ atoms (spelled spelling items) rest := by
  induction hn : w.length using Nat.strongRecOn generalizing w with
  | _ n ih =>
    cases w with
    | nil => rfl
    | cons c w =>
      rcases atoms_cons hne c w with ⟨hnone, heq⟩ | ⟨a, ha, tail, htail, heq⟩
      · have hnone' : ∀ a ∈ items, ¬ spelling a <+: c :: (w ++ rest) := fun a ha hpre =>
          hnone a ha (h (c :: w) (List.suffix_refl _) (by simp) a ha hpre)
        rw [List.cons_append, heq, atoms_cons_of_none hnone', List.cons_append]
        rw [ih w.length (by simp at hn; omega)
          (fun v hv => h v (hv.trans (List.suffix_cons c w))) rfl]
      · have hlen := congrArg List.length htail
        have := List.length_pos_iff.2 (hne a ha)
        simp only [List.length_cons, List.length_append] at hlen hn
        rw [heq, htail, List.append_assoc, atoms_item (hne a ha) ha
          (fun b hb hpre => hone _ b hb a ha hpre (List.prefix_append _ _)), List.cons_append]
        rw [ih tail.length (by omega)
          (fun v hv => h v (htail ▸ hv.trans (List.suffix_append _ _))) rfl]

/-- If an item that starts in a text also ends in it whatever follows, the text is whole. -/
theorem whole_of_prefix (hne : ∀ a ∈ items, spelling a ≠ []) {w : Text}
    (h : ∀ v, v <:+ w → v ≠ [] → ∀ rest, ∀ a ∈ items, spelling a <+: v ++ rest →
      spelling a <+: v)
    (hone : ∀ v, ∀ a ∈ items, ∀ b ∈ items, spelling a <+: v → spelling b <+: v → a = b) :
    Whole (spelled spelling items) w := fun rest =>
  atoms_append_of_prefix hne (fun v hv hnil a ha hpre => h v hv hnil rest a ha hpre) hone

/-- A pattern stands across the place where two texts meet, its first `k` characters before it. -/
def Straddles (pattern v w : Text) : Prop :=
  ∃ k < pattern.length, 0 < k ∧ pattern.take k <:+ v ∧ pattern.drop k <+: w

instance (pattern v w : Text) : Decidable (Straddles pattern v w) :=
  inferInstanceAs (Decidable (∃ k < pattern.length, _))

theorem Straddles.mono {u v w pattern : Text} (h : Straddles pattern v w) :
    Straddles pattern (u ++ v) w := by
  obtain ⟨k, hk, hpos, hend, hstart⟩ := h
  exact ⟨k, hk, hpos, hend.trans (List.suffix_append u v), hstart⟩

theorem straddles_of_append {x y v w : Text} (hx : x <:+ v) (hy : y <+: w) (hx' : x ≠ [])
    (hy' : y ≠ []) : Straddles (x ++ y) v w := by
  have hlength := List.length_pos_iff.2 hy'
  refine ⟨x.length, by rw [List.length_append]; omega, List.length_pos_iff.2 hx', ?_, ?_⟩
  · rwa [List.take_left]
  · rwa [List.drop_left]

/-- Two texts across whose meeting place no item stands are scanned one after the other. -/
theorem atoms_append (hne : ∀ a ∈ items, spelling a ≠ []) {v w : Text}
    (h : ∀ a ∈ items, ¬ Straddles (spelling a) v w)
    (hone : ∀ v, ∀ a ∈ items, ∀ b ∈ items, spelling a <+: v → spelling b <+: v → a = b) :
    atoms (spelled spelling items) (v ++ w) =
      atoms (spelled spelling items) v ++ atoms (spelled spelling items) w := by
  refine atoms_append_of_prefix hne (fun x hx hnil a ha hpre => ?_) hone
  rcases List.prefix_or_prefix_of_prefix hpre (List.prefix_append x w) with hstands | ⟨y, hy⟩
  · exact hstands
  · by_cases hy' : y = []
    · rw [← hy, hy', List.append_nil]
    -- the rest of the item would stand at the start of the second text
    · rw [← hy, List.prefix_append_right_inj] at hpre
      exact absurd (hy ▸ straddles_of_append hx hpre hnil hy') (h a ha)

/-- No item starts at one of the plain characters of a row that is written out by `w`. -/
def Atom.Clean (spelling : α → Text) (items : List α) (w : β → Text) : List (Atom β) → Prop
  | [] => True
  | .char c :: as =>
    (∀ a ∈ items, ¬ spelling a <+: c :: Atom.fill w as) ∧ Atom.Clean spelling items w as
  | .item _ :: as => Atom.Clean spelling items w as

/-- A row with each item replaced by a row. -/
def Atom.expand (part : β → List (Atom α)) : List (Atom β) → List (Atom α) :=
  List.flatMap fun
    | .char c => [.char c]
    | .item b => part b

@[simp] theorem Atom.expand_nil (part : β → List (Atom α)) : Atom.expand part [] = [] := rfl

@[simp] theorem Atom.expand_char (part : β → List (Atom α)) (c : Char) (as : List (Atom β)) :
    Atom.expand part (.char c :: as) = .char c :: Atom.expand part as := rfl

@[simp] theorem Atom.expand_item (part : β → List (Atom α)) (b : β) (as : List (Atom β)) :
    Atom.expand part (.item b :: as) = part b ++ Atom.expand part as := rfl

theorem atoms_fill {w : β → Text} {as : List (Atom β)} (hc : Atom.Clean spelling items w as)
    (hw : ∀ b, .item b ∈ as → Whole (spelled spelling items) (w b)) :
    atoms (spelled spelling items) (Atom.fill w as) =
      Atom.expand (fun b => atoms (spelled spelling items) (w b)) as := by
  induction as with
  | nil => rfl
  | cons a as ih =>
    have hrest := fun b hb => hw b (List.mem_cons_of_mem a hb)
    cases a with
    | char c =>
      obtain ⟨hnone, hc⟩ := hc
      rw [Atom.fill_char, atoms_cons_of_none hnone, ih hc hrest, Atom.expand_char]
    | item b => rw [Atom.fill_item, hw b List.mem_cons_self, ih hc hrest, Atom.expand_item]

/-- A clean row of texts in which no item starts is read as plain characters. -/
theorem atoms_fill_of_bare {w : β → Text} {as : List (Atom β)}
    (hc : Atom.Clean spelling items w as)
    (hw : ∀ b, .item b ∈ as → ∀ a ∈ items, Bare (spelling a) (w b)) :
    atoms (spelled spelling items) (Atom.fill w as) = (Atom.fill w as).map .char := by
  induction as with
  | nil => rfl
  | cons a as ih =>
    have hrest := fun b hb => hw b (List.mem_cons_of_mem a hb)
    cases a with
    | char c =>
      rw [Atom.fill_char, atoms_cons_of_none hc.1, ih hc.2 hrest]
      rfl
    | item b =>
      rw [Atom.fill_item, atoms_append_of_bare (hw b List.mem_cons_self), ih hc hrest,
        List.map_append]

/-- What a scan reads is clean. -/
theorem clean_atoms (hne : ∀ a ∈ items, spelling a ≠ []) (s : Text) :
    Atom.Clean spelling items spelling (atoms (spelled spelling items) s) := by
  have hboth : Atom.fill spelling (atoms (spelled spelling items) s) = s ∧
      Atom.Clean spelling items spelling (atoms (spelled spelling items) s) := by
    induction s using atoms_induction hne with
    | nil => exact ⟨rfl, True.intro⟩
    | char c s as hnone ih =>
      obtain ⟨hfill, hclean⟩ := ih
      refine ⟨by rw [Atom.fill_char, hfill], fun a ha => ?_, hclean⟩
      rw [hfill]
      exact hnone a ha
    | item a _ s as ih => exact ⟨by rw [Atom.fill_item, ih.1], ih.2⟩
  exact hboth.2

/-- A row in whose text no item stands is clean. -/
theorem clean_of_not_infix {w : β → Text} {as : List (Atom β)}
    (h : ∀ a ∈ items, ¬ spelling a <:+: Atom.fill w as) : Atom.Clean spelling items w as := by
  induction as with
  | nil => exact True.intro
  | cons a as ih =>
    cases a with
    | char c =>
      exact ⟨fun a ha hpre => h a ha hpre.isInfix,
        ih fun a ha hin => h a ha (hin.trans (List.suffix_cons c _).isInfix)⟩
    | item b => exact ih fun a ha hin => h a ha (hin.trans (List.suffix_append (w b) _).isInfix)

/-- A clean row of items is read again from its text. -/
theorem atoms_of_clean (hne : ∀ a ∈ items, spelling a ≠ [])
    (hone : ∀ v, ∀ a ∈ items, ∀ b ∈ items, spelling a <+: v → spelling b <+: v → a = b)
    {as : List (Atom α)} (hitems : ∀ a, .item a ∈ as → a ∈ items)
    (hclean : Atom.Clean spelling items spelling as) :
    atoms (spelled spelling items) (Atom.fill spelling as) = as := by
  induction as with
  | nil => rfl
  | cons a as ih =>
    have ih := ih fun a ha => hitems a (List.mem_cons_of_mem _ ha)
    cases a with
    | char c => rw [Atom.fill_char, atoms_cons_of_none hclean.1, ih hclean.2]
    | item a =>
      have ha := hitems a List.mem_cons_self
      rw [Atom.fill_item, atoms_item (hne a ha) ha
        (fun b hb hpre => hone _ b hb a ha hpre (List.prefix_append _ _)), ih hclean]

/-- No item stands in a text that is read as its characters. -/
theorem not_infix_of_atoms (hne : ∀ a ∈ items, spelling a ≠ []) {s : Text}
    (h : atoms (spelled spelling items) s = s.map .char) :
    ∀ a ∈ items, ¬ spelling a <:+: s := by
  have hclean := clean_atoms hne s
  rw [h] at hclean
  clear h
  induction s with
  | nil => exact fun a ha hin => hne a ha (List.infix_nil.1 hin)
  | cons c s ih =>
    obtain ⟨hnone, hclean⟩ := hclean
    rw [Atom.fill_chars] at hnone
    intro a ha hin
    rcases List.infix_cons_iff.1 hin with hpre | hin
    · exact hnone a ha hpre
    · exact ih hclean a ha hin

theorem Atom.Clean.mono {more : List α} {w : β → Text} {as : List (Atom β)}
    (h : Atom.Clean spelling more w as) (hsub : items ⊆ more) :
    Atom.Clean spelling items w as := by
  induction as with
  | nil => exact h
  | cons a as ih =>
    cases a with
    | char c => exact ⟨fun a ha => h.1 a (hsub ha), ih h.2⟩
    | item b => exact ih h

end Tender.Text
