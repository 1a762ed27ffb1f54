/-
The guard on whole pages.

A page is a row of characters, tokens and mustaches (`Slot`).

* `findToken_token`, `findToken_eq_none_iff` — a guard finds the tokens of its names that stand
  `Free`, and nothing else;
* `escape_row` — the tokens of a row become markers, and its mustaches are left alone;
* `restore_append`, `restore_marker` — markers become tokens again, part by part.
-/
import Tender.Guard
import Tender.Proofs.Token
import Tender.Template.Piece

namespace Tender

open Text Binding

/-- What a row holds beside characters. -/
inductive Slot where
  | token (t : Token)
  /-- A mustache with what stands between its braces. -/
  | path (body : Text)

namespace Slot

/-- A mustache with its braces. -/
def mustache (body : Text) : Text :=
  Piece.opening ++ body ++ Piece.closing

/-- A slot as it stands in a template. -/
def source : Slot → Text
  | .token t => spelling t
  | .path body => mustache body

/-- A slot as the compiler sees it. -/
def hidden : Slot → Text
  | .token t => Guard.marker t.name
  | .path body => mustache body

/-- A mustache in which no token starts. -/
def IsFree (body : Text) : Prop :=
  ∀ n ∈ Token.names, Bare (Guard.token n) (mustache body)

/-- A row whose characters are no braces and in whose mustaches no token starts. -/
structure IsRow (row : List (Atom Slot)) : Prop where
  plain : ∀ c, .char c ∈ row → c ≠ '{' ∧ c ≠ '}'
  free : ∀ body, .item (.path body) ∈ row → IsFree body

theorem IsRow.tail {a : Atom Slot} {row : List (Atom Slot)} (h : IsRow (a :: row)) : IsRow row :=
  ⟨fun c hc => h.plain c (List.mem_cons_of_mem a hc),
    fun body hbody => h.free body (List.mem_cons_of_mem a hbody)⟩

/-- What follows a slot does not start with a closing brace. -/
theorem head_source_ne {row : List (Atom Slot)} (h : IsRow row) :
    (Atom.fill source row).head? ≠ some '}' := by
  cases row with
  | nil => simp
  | cons a row =>
    cases a with
    | char c =>
      intro hc
      exact (h.plain c List.mem_cons_self).2 (Option.some.inj hc)
    | item slot => cases slot <;> simp [source, spelling, mustache, Piece.opening]

end Slot

namespace Guard

theorem isName_of_mem {n : Text} (h : n ∈ Token.names) : isName n = true := by
  obtain ⟨t, -, rfl⟩ := List.mem_map.1 h
  exact t.isName_name

theorem name_mem_names (t : Token) : t.name ∈ Token.names :=
  List.mem_map_of_mem t.mem_all

/-! ### Hiding tokens -/

/-- A guard that has names, all of which can be token names. -/
structure Proper (g : Guard) : Prop where
  ne_nil : g.names ≠ []
  isName : ∀ n ∈ g.names, Text.isName n = true

theorem proper_standard : standard.Proper :=
  ⟨List.ne_nil_of_mem (name_mem_names (.custom .text)), fun _ hn => isName_of_mem hn⟩

variable {g : Guard} {before : Option Char} {n s : Text}

theorem Proper.sought_eq (hg : g.Proper) : g.sought = g.names :=
  if_neg (by simpa using hg.ne_nil)

/-- A token of a name stands free: no third brace is before it or after it. -/
structure Free (g : Guard) (before : Option Char) (n rest : Text) : Prop where
  name : n ∈ g.names
  before : before ≠ some '{'
  after : rest.head? ≠ some '}'

/-- What is found is a token that stands free. -/
theorem free_of_findToken (hg : g.Proper) {k : Nat} (h : g.findToken before s = some (n, k)) :
    k = (token n).length - 1 ∧ ∃ rest, g.Free before n rest ∧ s = token n ++ rest := by
  rw [findToken] at h
  split at h
  · cases h
  · rename_i hbefore
    obtain ⟨m, hm, hfound⟩ := List.exists_of_findSome?_eq_some h
    rw [hg.sought_eq] at hm
    split at hfound
    · cases hfound
    · rename_i rest hrest hafter
      cases hfound
      refine ⟨rfl, rest, ⟨hm, hbefore, fun hhead => ?_⟩, eq_of_after? hafter⟩
      obtain ⟨tail, rfl⟩ := List.head?_eq_some_iff.1 hhead
      exact hrest tail rfl
    · cases hfound

theorem findToken_token (hg : g.Proper) {rest : Text} (h : g.Free before n rest) :
    g.findToken before (token n ++ rest) = some (n, (token n).length - 1) := by
  cases hfind : g.findToken before (token n ++ rest) with
  | none =>
    rw [findToken, if_neg h.before, hg.sought_eq] at hfind
    have hnone := List.findSome?_eq_none_iff.1 hfind n h.name
    rw [after?_append] at hnone
    split at hnone
    · rename_i heq
      cases heq
      exact absurd rfl h.after
    · cases hnone
    · rename_i heq
      cases heq
  | some found =>
    obtain ⟨hlength, tail, hfree, hs⟩ := free_of_findToken hg hfind
    have hname : n = found.1 := token_prefix_unique (hg.isName n h.name)
      (hg.isName _ hfree.name) (hs ▸ List.prefix_append _ _)
    rw [hname, ← hlength]

/-- Nothing is found where no token stands free. -/
theorem findToken_eq_none_iff (hg : g.Proper) :
    g.findToken before s = none ↔ ∀ n rest, s = token n ++ rest → ¬ g.Free before n rest := by
  constructor
  · rintro hnone n rest rfl hfree
    rw [findToken_token hg hfree] at hnone
    cases hnone
  · intro h
    cases hfind : g.findToken before s with
    | none => rfl
    | some found =>
      obtain ⟨-, rest, hfree, hs⟩ := free_of_findToken hg hfind
      exact absurd hfree (h found.1 rest hs)

theorem findToken_eq_none (hg : g.Proper) (h : ∀ n ∈ g.names, ¬ token n <+: s) :
    g.findToken before s = none :=
  (findToken_eq_none_iff hg).2 fun n rest hs hfree => h n hfree.name ⟨rest, hs.symm⟩

/-- Behind a token the scan goes on after a closing brace. -/
theorem atomsFrom_token (hg : g.Proper) {rest : Text} (h : g.Free before n rest) :
    atomsFrom g.findToken [] before 0 (token n ++ rest) =
      .item n :: atomsFrom g.findToken [] (some '}') 0 rest := by
  have hfind : g.findToken before ('{' :: ('{' :: n ++ ['}', '}']) ++ rest) =
      some (n, ('{' :: n ++ ['}', '}']).length) := findToken_token hg h
  have hlast : ('{' :: n ++ ['}', '}']).getLastD '{' = '}' := by
    rw [List.append_cons, List.getLastD_eq_getLast?, List.getLast?_concat]
    rfl
  rw [token, List.cons_append, atomsFrom_some hfind, hlast]

/-- Text in which no token starts, whatever follows it, is read as its characters. -/
theorem atomsFrom_bare (hg : g.Proper) {w : Text} (hw : ∀ n ∈ g.names, Bare (token n) w)
    (before : Option Char) (rest : Text) :
    atomsFrom g.findToken [] before 0 (w ++ rest) =
      w.map .char ++ atomsFrom g.findToken [] (w.getLast?.or before) 0 rest := by
  induction w generalizing before with
  | nil => rfl
  | cons c w ih =>
    have hnone : g.findToken before (c :: (w ++ rest)) = none :=
      findToken_eq_none hg fun n hn => hw n hn (c :: w) (List.suffix_refl _) (by simp) rest
    rw [List.cons_append, atomsFrom_none hnone,
      ih (fun n hn v hv => hw n hn v (hv.trans (List.suffix_cons c w))), List.getLast?_cons]
    cases w.getLast? <;> rfl

theorem escape_row {row : List (Atom Slot)} (h : Slot.IsRow row) :
    standard.escape (Atom.fill Slot.source row) = Atom.fill Slot.hidden row := by
  have hfrom : ∀ before, before ≠ some '{' →
      Atom.fill marker (atomsFrom standard.findToken [] before 0 (Atom.fill Slot.source row)) =
        Atom.fill Slot.hidden row := by
    -- the character before must be general: it decides whether a brace starts a token
    induction row with
    | nil => exact fun _ _ => rfl
    | cons a row ih =>
      intro before hbefore
      cases a with
      | char c =>
        have hc := (h.plain c List.mem_cons_self).1
        have hnone : standard.findToken before (c :: Atom.fill Slot.source row) = none := by
          refine findToken_eq_none proper_standard fun n _ hpre => ?_
          obtain ⟨tail, htail⟩ := hpre
          exact hc (List.cons.inj htail).1.symm
        rw [Atom.fill_char, atomsFrom_none hnone, Atom.fill_char,
          ih h.tail (some c) (by simpa using hc)]
        rfl
      | item slot =>
        rw [Atom.fill_item, Atom.fill_item]
        cases slot with
        | token t =>
          have hfree : standard.Free before t.name (Atom.fill Slot.source row) :=
            ⟨name_mem_names t, hbefore, Slot.head_source_ne h.tail⟩
          rw [Slot.source, show spelling t = token t.name from rfl,
            atomsFrom_token proper_standard hfree, Atom.fill_item, ih h.tail (some '}') (by decide)]
          rfl
        -- a mustache holds no token, and it ends in a brace that is no opening one
        | path body =>
          have hlast : (Slot.mustache body).getLast?.or before = some '}' := by
            simp [Slot.mustache, Piece.closing]
          rw [Slot.source, atomsFrom_bare proper_standard (h.free body List.mem_cons_self), hlast,
            Atom.fill_append, Atom.fill_chars, ih h.tail (some '}') (by decide)]
          rfl
  exact hfrom none (by simp)

/-! ### Bringing tokens back -/

/-- A text that the scan for markers reads on its own. -/
def Sealed (s : Text) : Prop := Whole (spelled marker Token.names) s

theorem bare_marker_of_no_brace {s : Text} (hs : '{' ∉ s) (n : Text) : Bare (marker n) s := by
  rw [marker_eq]
  exact Bare.of_not_mem hs

theorem sealed_of_no_brace {s : Text} (hs : '{' ∉ s) : Sealed s :=
  whole_of_bare fun n _ => bare_marker_of_no_brace hs n

theorem sealed_of_end {s : Text} (hs : ['}'] <:+ s) : Sealed s := by
  refine whole_of_prefix (fun n _ => marker_ne_nil n) (fun v hv hnil rest n hn hpre =>
    marker_prefix_of_append (isName_of_mem hn) hs hv hnil hpre) (fun v m hm n hn hpre hpre' => ?_)
  obtain ⟨rest, rfl⟩ := hpre'
  exact marker_prefix_unique (isName_of_mem hm) (isName_of_mem hn) hpre

theorem restore_eq (s : Text) :
    standard.restore s = Atom.fill token (atoms (spelled marker Token.names) s) := rfl

theorem restore_append {s : Text} (hs : Sealed s) (rest : Text) :
    standard.restore (s ++ rest) = standard.restore s ++ standard.restore rest := by
  rw [restore_eq, hs, Atom.fill_append]
  rfl

theorem restore_of_no_brace {s : Text} (hs : '{' ∉ s) : standard.restore s = s := by
  rw [restore_eq, atoms_of_bare fun n _ => bare_marker_of_no_brace hs n, Atom.fill_chars]

theorem restore_marker (t : Token) : standard.restore (marker t.name) = spelling t := by
  have hatoms := atoms_item (s := []) (marker_ne_nil t.name) (name_mem_names t) fun n hn hpre =>
    marker_prefix_unique (isName_of_mem hn) t.isName_name hpre
  rw [List.append_nil] at hatoms
  rw [restore_eq, hatoms, atoms_nil, Atom.fill_item, Atom.fill_nil, List.append_nil]
  rfl

/-- No tag starts in a marker: its one opening brace is followed by a tilde. -/
theorem bare_marker_opening (hn : isName n = true) : Bare Piece.opening (marker n) := by
  intro v hv hnil rest hpre
  obtain ⟨c, v, rfl⟩ := List.exists_cons_of_ne_nil hnil
  obtain ⟨rfl, hsecond⟩ := List.cons_prefix_cons.1 hpre
  by_cases hwhole : '{' :: v = marker n
  · obtain ⟨s, hs⟩ := marker_cons n
    rw [hs] at hwhole
    obtain ⟨-, rfl⟩ := List.cons.inj hwhole
    exact absurd (List.cons_prefix_cons.1 hsecond).1 (by decide)
  · rw [marker_eq] at hv hwhole
    have hmem := (suffix_of_ne_cons hv hwhole).subset List.mem_cons_self
    simp only [List.mem_append, List.mem_cons, List.not_mem_nil, or_false] at hmem
    rcases hmem with (hmem | hmem) | hmem
    · exact brace_not_mem_markerHead.1 hmem
    · exact not_mem_name hn (by decide) hmem
    · exact absurd hmem (by decide)

end Guard
end Tender
