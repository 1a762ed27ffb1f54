/-
Segments in brackets behind steps outward.

* `Expr.readWord_outward` — such a word is read as its segments and its steps, but that the name of
  the scope itself is dropped behind a step, though it stands in brackets;
* `Value.steps_nest_iff` — keys lead to the innermost of nested maps exactly if they are the keys of
  the maps;
* `Expr.ofText_outward` — so a segment in brackets names its key, from the scope that the steps lead
  to, exactly if no name of the scope itself is dropped and all characters are narrow.
-/
import Tender.Proofs.Template.Spelling

namespace Tender

open Text Lexeme

/-! ### Reading -/

namespace Path

variable {segments : List Text}

/-- A path of segments in brackets behind steps outward. -/
def outward (n : Nat) (segments : List Text) : Text := ups n ++ bracketed segments

/-- The first segment is the name of the scope itself, and there is a step outward before it. -/
def Drops (n : Nat) (segments : List Text) : Prop := 0 < n ∧ segments.head? = some thisWord

instance (n : Nat) (segments : List Text) : Decidable (Drops n segments) :=
  inferInstanceAs (Decidable (_ ∧ _))

theorem isWordChar_of_mem_ups {n : Nat} {x : Char} (hx : x ∈ ups n) : isWordChar x = true := by
  obtain ⟨step, hstep, hmem⟩ := List.mem_flatten.1 hx
  rw [List.eq_of_mem_replicate hstep] at hmem
  simp only [List.mem_cons, List.not_mem_nil, or_false] at hmem
  rcases hmem with rfl | rfl | rfl <;> decide

/-- The first character is a point or an opening bracket. -/
theorem outward_head (hne : segments ≠ []) (n : Nat) :
    ∃ c t, outward n segments = c :: t ∧ (c = '[' ↔ n = 0) ∧ c ∈ ['.', '['] := by
  cases n with
  | zero =>
    obtain ⟨t, ht⟩ := bracketed_head hne
    exact ⟨'[', t, ht, by simp, by simp⟩
  | succ n => exact ⟨'.', _, rfl, by simp, by simp⟩

/-- Characters of a word are read up to what follows them. -/
theorem readWord_chars {w : Text} (hw : ∀ x ∈ w, isWordChar x = true) (seen rest : Text) :
    readWord false seen (w ++ rest) = readWord false (w.reverse ++ seen) rest := by
  induction w generalizing seen with
  | nil => rfl
  | cons c w ih =>
    have hc := hw c List.mem_cons_self
    have hbracket : c ≠ '[' := by
      rintro rfl
      cases hc
    rw [List.cons_append, readWord, if_neg hbracket, if_pos hc,
      ih fun x hx => hw x (List.mem_cons_of_mem c hx), List.reverse_cons, List.append_assoc]
    rfl

/-- The path is one word. -/
theorem lexesAs_outward (n : Nat) (hne : segments ≠ []) (hclosing : ∀ s ∈ segments, ']' ∉ s) :
    LexesAs (outward n segments) [.word (outward n segments)] := fun done rest hrest => by
  obtain ⟨c, t, ht, -, hc⟩ := outward_head hne n
  have hfirst : isNameRest c = false ∧ isBlank c = false ∧ c ∉ ['(', ')', '"', '\''] ∧
      c ≠ '=' := by
    simp only [List.mem_cons, List.not_mem_nil, or_false] at hc
    rcases hc with rfl | rfl <;> decide
  have hword : readWord false [] (outward n segments ++ rest) = (outward n segments, rest) := by
    rw [outward, List.append_assoc, readWord_chars fun x hx => isWordChar_of_mem_ups hx,
      readWord_bracketed hne hclosing hrest, List.append_nil, List.reverse_reverse]
  have hkey : readKey? (outward n segments ++ rest) = none := by
    rw [ht, List.cons_append, readKey?]
    simp only [List.dropWhile_cons, hfirst.1]
    split
    · rename_i heq
      exact absurd (List.cons.inj heq).1 hfirst.2.2.2
    · rfl
  have hread := readBare?_word hkey hword (by rw [ht]; simp)
  rw [ht, List.cons_append, ← read?_bare hfirst.2.2.1, ← List.cons_append, ← ht] at hread
  refine readAll_step ?_ hread
  rw [ht, List.cons_append]
  exact trimStart_append hfirst.2.1 [] (t ++ rest)

/-- What such a path is read as. -/
theorem read_outward (n : Nat) (hne : segments ≠ []) (hclosing : ∀ s ∈ segments, ']' ∉ s) :
    read (outward n segments) =
      .ok (if Drops n segments then .scope n true segments.tail else .scope n false segments) := by
  obtain ⟨t, ht⟩ := bracketed_head hne
  obtain ⟨c, u, hword, hfirst, hc⟩ := outward_head hne n
  have hsettled : Settled (bracketed segments) := fun s hs => by
    rw [ht] at hs
    exact absurd (List.cons.inj hs).1 (by decide)
  have hups : takeUps 0 (outward n segments) = (n, bracketed segments) := by
    rw [outward, takeUps_ups n 0 hsettled, Nat.zero_add]
  have hsegments : readSegments (bracketed segments) = .ok segments := by
    rw [readSegments, if_neg (by rw [ht]; simp), segments?_bracketed hne hclosing]
    rfl
  have hexplicit : ¬ (bracketed segments = thisWord ∨ bracketed segments = ['.']) := by
    rw [ht]
    simp [thisWord]
  have hdotted : ∀ s, bracketed segments = '.' :: '/' :: s → False := fun s hs => by
    rw [ht] at hs
    exact absurd (List.cons.inj hs).1 (by decide)
  have hdrops : (segments.head? = some thisWord ∧ (outward n segments).head? ≠ some '[') ↔
      Drops n segments := by
    rw [hword, List.head?_cons, Drops, and_comm, Nat.pos_iff_ne_zero, ne_eq, Option.some_inj,
      hfirst]
  rw [read]
  · simp only [hups, hexplicit, if_false, hsegments, Bool.false_eq_true]
    by_cases h : Drops n segments
    · have hnamed := hdrops.2 h
      simp [h, hnamed]
    · have hnamed := mt hdrops.1 h
      simp [h, hnamed]
  · rintro s hs
    rw [hword] at hs
    obtain ⟨rfl, -⟩ := List.cons.inj hs
    exact absurd hc (by decide)

end Path

namespace Expr

open Tender.Path

variable {segments : List Text} {isHelper : Text → Bool} {t : Text} {e : Expr}

theorem readWord_outward (n : Nat) (hne : segments ≠ []) (hclosing : ∀ s ∈ segments, ']' ∉ s) :
    readWord (outward n segments) =
      .ok (.path (if Drops n segments then .scope n true segments.tail
        else .scope n false segments)) := by
  obtain ⟨u, hu⟩ := bracketed_head hne
  obtain ⟨c, v, hword, -, hc⟩ := outward_head hne n
  have hbracket : '[' ∈ outward n segments :=
    List.mem_append_right _ (hu ▸ List.mem_cons_self)
  have hfirst : isDecimal c = false ∧ c ≠ '-' := by
    simp only [List.mem_cons, List.not_mem_nil, or_false] at hc
    rcases hc with rfl | rfl <;> decide +kernel
  have hnumeral : numeral? (outward n segments) = none := by
    rw [hword, numeral?]
    · simp [hfirst.1]
    · rintro s heq
      exact hfirst.2 (List.cons.inj heq).1
  rw [readWord, keyword?_of_mem hbracket (by decide)]
  simp only [hnumeral, read_outward n hne hclosing]
  rfl

/-- A term without integers that stands alone is read as such. -/
theorem IsTerm.ofText_eq (he : IsTerm isHelper t e) (hsolid : EndsSolid t)
    (hintegers : e.integers = []) : ofText isHelper t = .ok ([e], []) := by
  have hrow : IsRow isHelper ([' '] ++ (t ++ [])) [e] [] :=
    .arg isGap_space he .nil fun _ hx => by cases hx
  have hend : EndsSolid ([' '] ++ (t ++ [])) := by
    rw [List.append_nil]
    exact hsolid.append [' ']
  have hnone : integersOf [e] ++ integersUnder [] = [] := by
    rw [integersOf, integersOf, integersUnder, hintegers]
    rfl
  rcases hrow.ofText_eq (.inr hend) with ⟨-, hread⟩ | ⟨⟨i, hi, -⟩, -⟩
  · rwa [List.append_nil, List.singleton_append, ofText_space] at hread
  · rw [hnone] at hi
    cases hi

theorem ofText_bracketed (isHelper : Text → Bool) (n : Nat) (hne : segments ≠ [])
    (hclosing : ∀ s ∈ segments, ']' ∉ s) :
    ofText isHelper (outward n segments) =
      .ok ([.path (if Drops n segments then .scope n true segments.tail
        else .scope n false segments)], []) :=
  IsTerm.ofText_eq
    (.plainWord (lexesAs_outward n hne hclosing) rfl (readWord_outward n hne hclosing))
    ((Path.endsSolid_bracketed hne).append (ups n)) rfl

end Expr

/-! ### Looking up -/

namespace Value

/-- Maps in each other, each with one key, around a value. -/
def nest (keys : List Text) (v : Value) : Value := keys.foldr (fun k v => .map [(k, v)]) v

/-- What is found under keys that are taken as they are. -/
def steps (v : Value) (keys : List Text) : Except Fault Value := keys.foldlM step v

/-- A path looks up its segments as they are spelled inside a tag. -/
theorem walk_eq_steps (v : Value) (segments : List Text) :
    v.walk segments = v.steps (segments.map Text.split) := by
  rw [steps, List.foldlM_map]
  rfl

theorem steps_cons (v : Value) (k : Text) (keys : List Text) :
    v.steps (k :: keys) = v.step k >>= fun v => v.steps keys := List.foldlM_cons

theorem steps_null (keys : List Text) : null.steps keys = .ok null := by
  induction keys with
  | nil => rfl
  | cons k keys ih => rwa [steps_cons]

theorem steps_text_ne {s : Text} {k : Text} {keys : List Text} :
    (text s).steps (k :: keys) ≠ .ok (.text s) := by
  have hint : ∀ (n : Int) keys, (int n).steps keys ≠ .ok (.text s) := by
    intro n keys h
    cases keys with
    | nil => cases h
    | cons k keys =>
      rw [steps_cons] at h
      change null.steps keys = _ at h
      rw [steps_null] at h
      cases h
  rw [steps_cons]
  by_cases hk : k = lengthKey
  · have hstep : (text s).step k = .ok (.int s.length) := congrArg Except.ok (if_pos hk)
    rw [hstep]
    exact hint _ keys
  · have hstep : (text s).step k = .ok .null := congrArg Except.ok (if_neg hk)
    rw [hstep]
    show null.steps keys ≠ _
    rw [steps_null]
    exact fun h => by cases h

/-- Keys lead to the text inside nested maps exactly if they are the keys of the maps. -/
theorem steps_nest_iff {segments keys : List Text} {s : Text} :
    (nest segments (.text s)).steps keys = .ok (.text s) ↔ keys = segments := by
  induction segments generalizing keys with
  | nil =>
    cases keys with
    | nil => exact iff_of_true rfl rfl
    | cons k keys => exact iff_of_false steps_text_ne (List.cons_ne_nil k keys)
  | cons segment segments ih =>
    cases keys with
    | nil => exact iff_of_false (fun h => by cases h) (List.cons_ne_nil _ _).symm
    | cons k keys =>
      rw [steps_cons]
      show (match (Entries.get? k [(segment, nest segments (.text s))]).getD .null with
        | v => v.steps keys) = _ ↔ _
      by_cases hk : segment = k
      · rw [Entries.get?, if_pos hk, hk, List.cons_inj_right]
        exact ih
      · rw [Entries.get?, if_neg hk]
        refine iff_of_false (fun h => ?_) fun h => hk (List.cons.inj h).1.symm
        change null.steps keys = _ at h
        rw [steps_null] at h
        cases h

end Value

/-- Surroundings in which all paths start from one value. -/
def Surroundings.plain (v : Value) : Surroundings := ⟨[], v, [⟨v, none⟩]⟩

theorem Surroundings.scopeAt_plain (v : Value) (n : Nat) : (plain v).scopeAt n = v := by
  cases n with
  | zero => rfl
  | succ n => rfl

namespace Expr

open Tender.Path

/-- A path names its keys: against any data, each of them is looked up as it is written, the first
one in the scope that is `n` steps outward. -/
def NamesKeys (p : Path) (n : Nat) (keys : List Text) : Prop :=
  ∀ env : Surroundings, evalPath env p = (env.scopeAt n).steps keys

theorem namesKeys_iff {n : Nat} {explicit : Bool} {segments keys : List Text} :
    NamesKeys (.scope n explicit segments) n keys ↔ segments.map Text.split = keys := by
  have heval : ∀ env : Surroundings, evalPath env (.scope n explicit segments) =
      (env.scopeAt n).steps (segments.map Text.split) :=
    fun env => (env.scopeAt n).walk_eq_steps segments
  constructor
  · intro h
    have hplain := (heval (.plain (.nest keys (.text [])))).symm.trans (h _)
    rw [Surroundings.scopeAt_plain, Value.steps_nest_iff.2 rfl] at hplain
    exact Value.steps_nest_iff.1 hplain
  · rintro rfl env
    exact heval env

/-- A segment in brackets names its key: behind any number of steps outward, segments in brackets are
read as a path of just these segments and steps, unless the first one is the name of the scope itself
and stands behind a step; and the path looks up each segment as it is written, the first one in the
scope that the steps lead to, exactly if moreover no segment holds a wide character. -/
theorem ofText_outward (isHelper : Text → Bool) (n : Nat) {segments : List Text}
    (hne : segments ≠ []) (hclosing : ∀ s ∈ segments, ']' ∉ s) :
    ∃ p, ofText isHelper (outward n segments) = .ok ([.path p], []) ∧
      (p = .scope n false segments ↔ ¬ Drops n segments) ∧
      (NamesKeys p n segments ↔
        ¬ Drops n segments ∧ ∀ s ∈ segments, ∀ c ∈ s, c.toNat < 0x10000) := by
  refine ⟨_, ofText_bracketed isHelper n hne hclosing, ?_⟩
  by_cases hdrops : Drops n segments
  · rw [if_pos hdrops]
    refine ⟨iff_of_false (fun h => by cases h) (not_not_intro hdrops),
      iff_of_false (fun h => ?_) fun h => h.1 hdrops⟩
    -- the path has one segment less than the word
    have hlength := congrArg List.length (namesKeys_iff.1 h)
    rw [List.length_map, List.length_tail] at hlength
    have := List.length_pos_iff.2 hne
    omega
  · rw [if_neg hdrops, namesKeys_iff]
    refine ⟨iff_of_true rfl hdrops, ?_⟩
    have hself : segments.map Text.split = segments ↔ ∀ s ∈ segments, Text.split s = s := by
      simpa using List.map_inj_left (f := Text.split) (g := id) (l := segments)
    simp only [hself, hdrops, not_false_eq_true, true_and, split_eq_self_iff]

end Expr

/-- Two steps outward, and segments that a word could not hold without brackets. -/
def Path.netSegments : List Text := [lit "net (=) ./", thisWord, []]

theorem Expr.ofText_outward_netSegments :
    Path.outward 2 Path.netSegments = lit "../../[net (=) ./].[this].[]" ∧
      ofText (Compiler.standard {}).isHelper (Path.outward 2 Path.netSegments) =
        .ok ([.path (.scope 2 false Path.netSegments)], []) ∧
      NamesKeys (.scope 2 false Path.netSegments) 2 Path.netSegments := by
  have hdrops : ¬ Path.Drops 2 Path.netSegments := by decide +kernel
  have hnarrow : ∀ s ∈ Path.netSegments, Text.split s = s := by decide +kernel
  obtain ⟨p, hread, hpath, hnames⟩ := ofText_outward (Compiler.standard {}).isHelper 2
    (show Path.netSegments ≠ [] by decide +kernel) (by decide +kernel)
  obtain rfl := hpath.2 hdrops
  refine ⟨by decide +kernel, hread, hnames.2 ⟨hdrops, fun s hs => ?_⟩⟩
  exact split_eq_self_iff.1 (hnarrow s hs)

/-- Behind a step outward, the name of the scope itself is dropped though it stands in brackets: the
page shows the outer scope, and not its entry. -/
theorem Compiler.compile_outwardThis :
    Path.outward 1 [Path.thisWord] = lit "../[this]" ∧
      Expr.ofText (standard {}).isHelper (Path.outward 1 [Path.thisWord]) ≠
        .ok ([.path (.scope 1 false [Path.thisWord])], []) ∧
      (standard {}).compile
          (lit "\x7b\x7b#with a\x7d\x7d\x7b\x7b../[this]\x7d\x7d\x7b\x7b/with\x7d\x7d")
          (.map [(lit "a", .map [(lit "b", .int 1)]), (lit "this", .text ['T'])]) =
        .ok (lit "[object Object]") := by
  refine ⟨by decide +kernel, ?_, ok_of_toOption (by decide +kernel)⟩
  have hdrops : Path.Drops 1 [Path.thisWord] := by decide
  rw [Expr.ofText_bracketed _ 1 (by decide) (by decide), if_pos hdrops]
  exact fun hread => by cases hread

end Tender
