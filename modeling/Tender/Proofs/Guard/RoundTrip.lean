/-
Hiding tokens and bringing them back, for any guard that can be made.

A row of characters and names stands for three texts at once: its names written as tokens, or as
markers, or left to be found again.  No name holds a brace, so writing the names in another way makes
nothing of the characters beside them.

* `proper_of_new` — a guard that is made for some names looks for exactly these names;
* `reads_atoms`, `Reads.between_iff` — a guard finds every token that stands free, and no other;
* `escape_escape`, `restore_restore`, `restore_escape` — the laws of the two directions;
* `round_trip` — all of them for one guard and one text.
-/
import Tender.Proofs.Guard

namespace Tender

namespace Text.Atom

variable {α : Type}

/-- An item of a row that is written out by `w`, between the text before it and the text after it. -/
def Between (w : α → Text) (row : List (Atom α)) (u : Text) (a : α) (v : Text) : Prop :=
  ∃ before after, row = before ++ .item a :: after ∧ fill w before = u ∧ fill w after = v

theorem Between.char {w : α → Text} {row : List (Atom α)} {u v : Text} {a : α}
    (h : Between w row u a v) (c : Char) : Between w (.char c :: row) (c :: u) a v := by
  obtain ⟨before, after, rfl, rfl, rfl⟩ := h
  exact ⟨.char c :: before, after, rfl, rfl, rfl⟩

theorem Between.item {w : α → Text} {row : List (Atom α)} {u v : Text} {a : α}
    (h : Between w row u a v) (b : α) : Between w (.item b :: row) (w b ++ u) a v := by
  obtain ⟨before, after, rfl, rfl, rfl⟩ := h
  exact ⟨.item b :: before, after, rfl, rfl, rfl⟩

theorem Between.fill_eq {w : α → Text} {row : List (Atom α)} {u v : Text} {a : α}
    (h : Between w row u a v) : fill w row = u ++ w a ++ v := by
  obtain ⟨before, after, rfl, rfl, rfl⟩ := h
  rw [fill_append, fill_item, List.append_assoc]

end Text.Atom

namespace Guard

open Text

variable {g : Guard} {names : List Text} {before : Option Char} {m n : Text}
  {row : List (Atom Text)}

/-! ### Guards that are made -/

theorem mem_distinct {n : Text} : n ∈ distinct names ↔ n ∈ names := by
  have hfold : ∀ acc : List Text,
      n ∈ names.foldl (fun acc n => if n ∈ acc then acc else acc ++ [n]) acc ↔
        n ∈ acc ∨ n ∈ names := by
    induction names with
    | nil => simp
    | cons m names ih =>
      intro acc
      rw [List.foldl_cons, ih]
      by_cases hm : m ∈ acc
      · rw [if_pos hm, List.mem_cons]
        constructor
        · exact Or.imp_right .inr
        · rintro (h | rfl | h)
          · exact .inl h
          · exact .inl hm
          · exact .inr h
      · rw [if_neg hm, List.mem_append, List.mem_singleton, List.mem_cons, or_assoc]
  simpa [distinct] using hfold []

theorem mem_names_of_new (hnew : Guard.new names = .ok g) : n ∈ g.names ↔ n ∈ names := by
  rw [Guard.new] at hnew
  split at hnew
  · cases hnew
  · cases hnew
    exact mem_distinct

theorem proper_of_new (hne : names ≠ []) (hnew : Guard.new names = .ok g) : g.Proper := by
  constructor
  · obtain ⟨n, hn⟩ := List.exists_mem_of_ne_nil names hne
    exact List.ne_nil_of_mem ((mem_names_of_new hnew).2 hn)
  · intro n hn
    rw [Guard.new] at hnew
    split at hnew
    · cases hnew
    · rename_i hall
      cases hnew
      simpa using List.find?_eq_none.1 hall n hn

/-! ### What a guard finds -/

/-- The row is what a guard finds in its text after the character `before`: a name stands for a token
that stands free, and no token that starts at a character stands free. -/
def Reads (g : Guard) : Option Char → List (Atom Text) → Prop
  | _, [] => True
  | before, .char c :: row =>
    (∀ n rest, c :: Atom.fill token row = token n ++ rest → ¬ g.Free before n rest) ∧
      Reads g (some c) row
  | before, .item n :: row => g.Free before n (Atom.fill token row) ∧ Reads g (some '}') row

theorem reads_atomsFrom (hg : g.Proper) (before : Option Char) (s : Text) :
    Atom.fill token (atomsFrom g.findToken [] before 0 s) = s ∧
      g.Reads before (atomsFrom g.findToken [] before 0 s) := by
  -- by the length of the text, since a token is passed over as a whole
  induction hlength : s.length using Nat.strongRecOn generalizing s before with
  | _ k ih =>
    cases s with
    | nil => exact ⟨rfl, True.intro⟩
    | cons c s =>
      cases hfind : g.findToken before (c :: s) with
      | none =>
        have hshort : s.length < k := by rw [← hlength, List.length_cons]; omega
        obtain ⟨hfill, hreads⟩ := ih s.length hshort (some c) s rfl
        rw [atomsFrom_none hfind, Atom.fill_char, hfill]
        refine ⟨rfl, ?_, hreads⟩
        rw [hfill]
        exact (findToken_eq_none_iff hg).1 hfind
      | some found =>
        obtain ⟨n, k⟩ := found
        obtain ⟨-, rest, hfree, hs⟩ := free_of_findToken hg hfind
        have hshort : rest.length < (c :: s).length := by
          rw [hs, List.length_append]
          exact Nat.lt_add_of_pos_left (List.length_pos_iff.2 (token_ne_nil n))
        obtain ⟨hfill, hreads⟩ := ih rest.length (hlength ▸ hshort) (some '}') rest rfl
        rw [hs, atomsFrom_token hg hfree, Atom.fill_item, hfill]
        exact ⟨rfl, by rwa [hfill], hreads⟩

/-- What a guard finds in a whole text. -/
theorem reads_atoms (hg : g.Proper) (t : Text) :
    Atom.fill token (atoms g.findToken t) = t ∧ g.Reads none (atoms g.findToken t) :=
  reads_atomsFrom hg none t

theorem Reads.mem_names (h : g.Reads before row) : ∀ n, .item n ∈ row → n ∈ g.names := by
  induction row generalizing before with
  | nil => exact fun n hn => by cases hn
  | cons a row ih =>
    intro n hn
    cases a with
    | char c => exact ih h.2 n ((List.mem_cons.1 hn).resolve_left (by simp))
    | item m =>
      rcases List.mem_cons.1 hn with heq | hn
      · cases heq
        exact h.1.name
      · exact ih h.2 n hn

theorem getLast?_token (n : Text) : (token n).getLast? = some '}' := by
  rw [token, List.append_cons, List.getLast?_concat]

theorem getLast?_marker (n : Text) : (marker n).getLast? = some '}' := by
  rw [marker, List.append_cons, List.getLast?_concat]

theorem getLast?_or_append (u v : Text) (before : Option Char) :
    (u ++ v).getLast?.or before = v.getLast?.or (u.getLast?.or before) := by
  rw [List.getLast?_append, Option.or_assoc]

theorem Reads.free_of_between (h : g.Reads before row) {u v : Text}
    (hbetween : Atom.Between token row u n v) : g.Free (u.getLast?.or before) n v := by
  obtain ⟨as, bs, rfl, rfl, rfl⟩ := hbetween
  induction as generalizing before with
  | nil => exact h.1
  | cons a as ih =>
    cases a with
    | char c =>
      rw [Atom.fill_char, ← List.singleton_append, getLast?_or_append]
      exact ih h.2
    | item m =>
      rw [Atom.fill_item, getLast?_or_append, getLast?_token]
      exact ih h.2

/-- In a text that starts with a token, another one stands where the first starts or behind it, but
not inside it. -/
theorem token_at_or_behind (hm : isName m = true) (hn : isName n = true) {u v s : Text}
    (h : u ++ token n ++ v = token m ++ s) :
    (u = [] ∧ m = n ∧ v = s) ∨ ∃ u', u = token m ++ u' ∧ u' ++ token n ++ v = s := by
  rw [List.append_assoc] at h
  rcases List.append_eq_append_iff.1 h with ⟨w, hw, hrest⟩ | ⟨u', rfl, hs⟩
  · by_cases hnil : w = []
    · subst hnil
      refine .inr ⟨[], by rw [hw, List.append_nil, List.append_nil], ?_⟩
      rwa [List.nil_append]
    · by_cases hu : u = []
      · subst hu
        obtain rfl := token_prefix_unique hn hm ⟨v, h⟩
        exact .inl ⟨rfl, rfl, List.append_cancel_left h⟩
      · have hshort : w ≠ token m := fun hwhole => hu (by simpa [hwhole] using hw)
        exact absurd ⟨v, hrest⟩ (token_not_inside (not_mem_name hm (by decide)) ⟨u, hw.symm⟩ hshort hnil)
  · exact .inr ⟨u', rfl, by rw [List.append_assoc, hs]⟩

theorem Reads.between_of_free (hg : g.Proper) (h : g.Reads before row) {u v : Text}
    (hfree : g.Free (u.getLast?.or before) n v)
    (heq : u ++ token n ++ v = Atom.fill token row) : Atom.Between token row u n v := by
  induction row generalizing before u with
  | nil => simp [token] at heq
  | cons a row ih =>
    cases a with
    | char c =>
      cases u with
      | nil => exact absurd hfree (h.1 n v heq.symm)
      | cons d u =>
        obtain ⟨rfl, htail⟩ := List.cons.inj heq
        rw [← List.singleton_append, getLast?_or_append] at hfree
        exact (ih h.2 hfree htail).char d
    | item m =>
      rw [Atom.fill_item] at heq
      rcases token_at_or_behind (hg.isName m h.1.name) (hg.isName n hfree.name) heq with
        ⟨rfl, rfl, rfl⟩ | ⟨u', rfl, htail⟩
      · exact ⟨[], row, rfl, rfl, rfl⟩
      · rw [getLast?_or_append, getLast?_token] at hfree
        exact (ih h.2 hfree htail).item m

/-- The tokens that a guard finds in a text are those that stand free in it. -/
theorem Reads.between_iff (hg : g.Proper) (h : g.Reads before row) {u v : Text} :
    Atom.Between token row u n v ↔
      g.Free (u.getLast?.or before) n v ∧ u ++ token n ++ v = Atom.fill token row :=
  ⟨fun hbetween => ⟨h.free_of_between hbetween, hbetween.fill_eq.symm⟩,
    fun ⟨hfree, heq⟩ => h.between_of_free hg hfree heq⟩

/-! ### The two directions -/

theorem token_head (n : Text) : ∃ s, token n = '{' :: s := ⟨_, rfl⟩

theorem marker_head (n : Text) : ∃ s, marker n = '{' :: s := ⟨_, marker_eq n⟩

/-- A name does not start with a tilde. -/
theorem no_tilde_start (hn : isName n = true) {s rest : Text} :
    ¬ '~' :: s <+: n ++ ['}', '}'] ++ rest := by
  intro hpre
  cases n with
  | nil => cases hn
  | cons d n =>
    have hd : '~' = d := (List.cons_prefix_cons.1 hpre).1
    exact not_mem_name hn (c := '~') (by decide) (hd ▸ List.mem_cons_self)

theorem Proper.restore_eq (hg : g.Proper) (s : Text) :
    g.restore s = Atom.fill token (atoms (spelled marker g.names) s) := by
  rw [restore, findMarker, hg.sought_eq]

theorem Proper.marker_unique (hg : g.Proper) (s : Text) :
    ∀ m ∈ g.names, ∀ n ∈ g.names, marker m <+: s → marker n <+: s → m = n := by
  rintro m hm n hn hpre ⟨rest, rfl⟩
  exact marker_prefix_unique (hg.isName m hm) (hg.isName n hn) hpre

/-- A token that stands in a row with markers stands there as plain characters. -/
theorem chars_of_token_prefix (hn : isName n = true)
    (hrow : ∀ m, .item m ∈ row → isName m = true) (h : token n <+: Atom.fill marker row) :
    ∃ rest, row = (token n).map .char ++ rest := by
  have hbraces : Piece.opening <+: token n := ⟨n ++ ['}', '}'], rfl⟩
  cases row with
  | nil => exact absurd (List.prefix_nil.1 h) (token_ne_nil n)
  | cons a row =>
    cases a with
    | item m =>
      -- the token would start with the one brace of a marker
      have hm := hrow m List.mem_cons_self
      exact absurd (hbraces.trans h)
        (bare_marker_opening hm _ (List.suffix_refl _) (marker_ne_nil m) _)
    | char c =>
      rw [show token n = '{' :: '{' :: (n ++ ['}', '}']) from rfl, Atom.fill_char] at h
      obtain ⟨rfl, hsecond⟩ := List.cons_prefix_cons.1 h
      cases row with
      | nil => exact absurd (List.prefix_nil.1 hsecond) (by simp)
      | cons a row =>
        cases a with
        | item m =>
          -- its second brace would be that of a marker, and its name would start with a tilde
          obtain ⟨s, hs⟩ := marker_cons m
          rw [Atom.fill_item, hs] at hsecond
          obtain ⟨-, rest, hname⟩ := List.cons_prefix_cons.1 hsecond
          exact absurd ⟨_, hname.symm⟩ (no_tilde_start hn)
        | char d =>
          obtain ⟨rfl, hname⟩ := List.cons_prefix_cons.1 hsecond
          have hbrace : '{' ∉ n ++ ['}', '}'] := by
            simp [not_mem_name hn (c := '{') (by decide)]
          obtain ⟨bs, rfl⟩ := chars_of_prefix hbrace marker_head hname
          exact ⟨bs, rfl⟩

/-- Whether a marker starts at a character of a row does not depend on how its names are written. -/
theorem clean_marker {w w' : Text → Text} (hw' : ∀ n, ∃ s, w' n = '{' :: s) (hg : g.Proper)
    (h : Atom.Clean marker g.names w row) : Atom.Clean marker g.names w' row := by
  induction row with
  | nil => exact h
  | cons a row ih =>
    cases a with
    | item n => exact ih h
    | char c =>
      refine ⟨fun n hn hpre => h.1 n hn ?_, ih h.2⟩
      have hbrace : '{' ∉ markerHead ++ n ++ ['~', '}'] := by
        simp [brace_not_mem_markerHead.1, not_mem_name (hg.isName n hn) (c := '{') (by decide)]
      rw [marker_eq] at hpre ⊢
      obtain ⟨rfl, hrest⟩ := List.cons_prefix_cons.1 hpre
      obtain ⟨bs, rfl⟩ := chars_of_prefix hbrace hw' hrest
      rw [Atom.fill_append, Atom.fill_chars, List.cons_prefix_cons]
      exact ⟨rfl, List.prefix_append _ _⟩

/-- No token arises at a character when the tokens behind it are hidden. -/
theorem Reads.findToken_hidden (hg : g.Proper) {c : Char} (h : g.Reads before (.char c :: row)) :
    g.findToken before (c :: Atom.fill marker row) = none := by
  refine (findToken_eq_none_iff hg).2 fun n rest hs hfree => ?_
  have hnames : ∀ m, .item m ∈ Atom.char c :: row → isName m = true := fun m hm =>
    hg.isName m (h.mem_names m hm)
  have hpre : token n <+: Atom.fill marker (.char c :: row) := ⟨rest, hs.symm⟩
  obtain ⟨bs, hbs⟩ := chars_of_token_prefix (hg.isName n hfree.name) hnames hpre
  -- the token would stand in the page before it was hidden, too, and stand free there
  have hshown := congrArg (Atom.fill token) hbs
  have hhidden := congrArg (Atom.fill marker) hbs
  rw [Atom.fill_char, Atom.fill_append, Atom.fill_chars] at hshown hhidden
  have hrest : rest = Atom.fill marker bs := List.append_cancel_left (hs.symm.trans hhidden)
  refine h.1 n _ hshown ⟨hfree.name, hfree.before, ?_⟩
  rw [head?_fill token_head marker_head, ← hrest]
  exact hfree.after

/-- A page with its tokens hidden is read as plain characters: its markers hold no token, and no
token arises beside them. -/
theorem Reads.atomsFrom_hidden (hg : g.Proper) (h : g.Reads before row) :
    atomsFrom g.findToken [] before 0 (Atom.fill marker row) =
      (Atom.fill marker row).map .char := by
  induction row generalizing before with
  | nil => rfl
  | cons a row ih =>
    cases a with
    | char c =>
      rw [Atom.fill_char, atomsFrom_none (h.findToken_hidden hg), ih h.2]
      rfl
    | item n =>
      have hbare : ∀ m ∈ g.names, Bare (token m) (marker n) := fun m _ =>
        (bare_marker_opening (hg.isName n h.1.name)).extend ⟨m ++ ['}', '}'], rfl⟩
      rw [Atom.fill_item, atomsFrom_bare hg hbare, getLast?_marker, Option.some_or, ih h.2,
        List.map_append]

theorem escape_escape (hg : g.Proper) (t : Text) : g.escape (g.escape t) = g.escape t := by
  have hhidden : atoms g.findToken (g.escape t) = (g.escape t).map .char :=
    (reads_atoms hg t).2.atomsFrom_hidden hg
  rw [escape_eq_fill g (g.escape t), hhidden, Atom.fill_chars]

theorem restore_restore (hg : g.Proper) (t : Text) : g.restore (g.restore t) = g.restore t := by
  have hne : ∀ n ∈ g.names, marker n ≠ [] := fun n _ => marker_ne_nil n
  have hclean := clean_marker token_head hg (clean_atoms hne t)
  have hchars := atoms_fill_of_bare hclean fun n hn m hm => by
    have hname := hg.isName n (mem_of_item_atoms hne hn)
    refine bare_marker_token (not_mem_name (hg.isName m hm) (by decide))
      ⟨not_mem_name hname (by decide), not_mem_name hname (by decide)⟩ fun heq => ?_
    -- a name holds no tilde
    exact not_mem_name hname (c := '~') (by decide) (heq ▸ by simp)
  rw [hg.restore_eq t, hg.restore_eq, hchars, Atom.fill_chars]

/-- Where no marker stands, what is hidden is brought back. -/
theorem restore_escape (hg : g.Proper) {t : Text} (h : ∀ n ∈ g.names, ¬ marker n <:+: t) :
    g.restore (g.escape t) = t := by
  obtain ⟨hfill, hreads⟩ := reads_atoms hg t
  have hshown : Atom.Clean marker g.names token (atoms g.findToken t) := by
    refine clean_of_not_infix fun n hn => ?_
    rw [hfill]
    exact h n hn
  have hread := atoms_of_clean (fun n _ => marker_ne_nil n) hg.marker_unique hreads.mem_names
    (clean_marker marker_head hg hshown)
  rw [hg.restore_eq, escape_eq_fill, hread, hfill]

/-- For every non-empty list of names that a guard is made for and every text: hiding tokens and
bringing them back are each done in one go, and bringing back undoes hiding where the text holds no
marker.  The text is a row of characters and names, of which the names alone are written in another
way in the hidden text, and they stand where a token is neither behind an opening brace nor in front
of a closing one. -/
theorem round_trip (hne : names ≠ []) (hnew : Guard.new names = .ok g) (t : Text) :
    g.escape (g.escape t) = g.escape t ∧
    g.restore (g.restore t) = g.restore t ∧
    ((∀ n ∈ names, ¬ marker n <:+: t) → g.restore (g.escape t) = t) ∧
    ∃ row : List (Atom Text), Atom.fill token row = t ∧ Atom.fill marker row = g.escape t ∧
      ∀ u n v, Atom.Between token row u n v ↔
        n ∈ names ∧ u.getLast? ≠ some '{' ∧ v.head? ≠ some '}' ∧ u ++ token n ++ v = t := by
  have hg := proper_of_new hne hnew
  obtain ⟨hfill, hreads⟩ := reads_atoms hg t
  refine ⟨escape_escape hg t, restore_restore hg t, fun h => ?_, _, hfill, rfl, fun u n v => ?_⟩
  · exact restore_escape hg fun n hn => h n ((mem_names_of_new hnew).1 hn)
  · rw [hreads.between_iff hg, hfill, Option.or_none]
    constructor
    · rintro ⟨hfree, heq⟩
      exact ⟨(mem_names_of_new hnew).1 hfree.name, hfree.before, hfree.after, heq⟩
    · rintro ⟨hn, hbefore, hafter, heq⟩
      exact ⟨⟨(mem_names_of_new hnew).2 hn, hbefore, hafter⟩, heq⟩

/-- Tokens within runs of braces, for names of which one goes on from the other, and a marker of a
name that is not guarded. -/
def braceRuns : Text :=
  lit "\x7b\x7b\x7ba\x7d\x7d\x7b\x7bab\x7d\x7d\x7b\x7ba\x7d\x7d\x7d \x7b~protected:b~\x7d"

theorem round_trip_braceRuns :
    ∃ g, Guard.new [['a'], ['a', 'b']] = .ok g ∧
      g.escape (g.escape braceRuns) = g.escape braceRuns ∧
      g.restore (g.restore braceRuns) = g.restore braceRuns ∧
      g.restore (g.escape braceRuns) = braceRuns ∧
      g.escape braceRuns =
        lit "\x7b\x7b\x7ba\x7d\x7d\x7b~protected:ab~\x7d\x7b\x7ba\x7d\x7d\x7d \x7b~protected:b~\x7d" := by
  have hnew : Guard.new [['a'], ['a', 'b']] = .ok ⟨[['a'], ['a', 'b']]⟩ := by rfl
  have hmarkers : ∀ n ∈ [['a'], ['a', 'b']], ¬ marker n <:+: braceRuns := by decide +kernel
  obtain ⟨hescape, hrestore, hback, -⟩ := round_trip (by simp) hnew braceRuns
  exact ⟨_, hnew, hescape, hrestore, hback hmarkers, by decide +kernel⟩

end Guard
end Tender
