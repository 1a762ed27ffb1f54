/-
Expressions and the texts that spell them.

A nested call stands in parentheses, its options behind its arguments, and white space in front of
each of them.

* `Spells`, `SpellsRow` — how an expression, and a row of arguments and options, can be written;
* `LexesAs` — a text is the same lexemes wherever it stands, so texts are taken apart one by one;
* `Comes` — lexemes are read to a state of the machine, unless an integer in them is too long;
* `Spells.isTerm`, `SpellsRow.isRow` — so what is spelled is read, by induction on how it is spelled;
* `ofText_spells` — a text that spells an expression, and nothing else, is read as the expression
  exactly if every integer in the expression is short enough to be read.
-/
import Tender.Proofs.PageBreak.Split
import Tender.Proofs.Template.Name
import Tender.Proofs.Value.Entries

namespace Tender

open Text Lexeme

/-- A text is spelled inside a tag as it is exactly if all its characters are narrow. -/
theorem Text.split_eq_self_iff {s : Text} : split s = s ↔ ∀ c ∈ s, c.toNat < 0x10000 := by
  refine ⟨fun h => ?_, split_narrow⟩
  have hspell : ∀ c, 1 ≤ (spell c).length := fun c => by
    rw [spell]
    split <;> simp
  have hlong : ∀ t : Text, t.length ≤ (split t).length := by
    intro t
    induction t with
    | nil => exact Nat.le_refl 0
    | cons c t ih =>
      have := hspell c
      simp only [split, List.flatMap_cons, List.length_cons, List.length_append] at ih ⊢
      omega
  induction s with
  | nil => simp
  | cons c s ih =>
    have hsplit : split (c :: s) = spell c ++ split s := rfl
    -- a wide character would be spelled as two
    have hc : c.toNat < 0x10000 := by
      by_contra hwide
      have hspelled : (spell c).length = 2 := by
        rw [spell, if_neg hwide]
        rfl
      have hlength := congrArg List.length h
      have := hlong s
      rw [hsplit, List.length_append, hspelled, List.length_cons] at hlength
      omega
    have hone : spell c = [c] := if_pos hc
    rw [hsplit, hone, List.singleton_append] at h
    exact List.forall_mem_cons.2 ⟨hc, ih (List.cons.inj h).2⟩

/-- White space. -/
def Text.IsSpace (w : Text) : Prop := ∀ x ∈ w, isBlank x = true

/-- White space, and at least one character of it. -/
def Text.IsGap (w : Text) : Prop := w ≠ [] ∧ IsSpace w

/-- A path of segments in brackets, with points between them. -/
def Path.bracketed (segments : List Text) : Text :=
  joinWith ['.'] (segments.map fun s => '[' :: (s ++ [']']))

/-- An integer whose numeral is short enough to be read. -/
def Integer.IsShort (n : Int) : Prop := n.natAbs < 10 ^ maxDigits

instance (n : Int) : Decidable (Integer.IsShort n) := Nat.decLt _ _

namespace Expr

mutual
/-- A text spells an expression: a text in quotes, an integer, a truth value, null, a path of
segments in brackets, or a call of a helper in parentheses. -/
inductive Spells (isHelper : Text → Bool) : Expr → Text → Prop
  | text {s : Text} (hquote : '"' ∉ s) (hescape : '\\' ∉ s) :
      Spells isHelper (.literal (.text s)) ('"' :: (s ++ ['"']))
  | int (n : Int) : Spells isHelper (.literal (.int n)) (ofInt n)
  | yes : Spells isHelper (.literal (.bool true)) (lit "true")
  | no : Spells isHelper (.literal (.bool false)) (lit "false")
  | null : Spells isHelper (.literal .null) (lit "null")
  | path {segments : List Text} (hne : segments ≠ []) (hclosing : ∀ s ∈ segments, ']' ∉ s) :
      Spells isHelper (.path (.scope 0 false segments)) (Path.bracketed segments)
  | call {name lead t trail : Text} {args : List Expr} {options : Entries Expr}
      (hname : isName name = true) (hhelper : isHelper name = true) (hlead : IsSpace lead)
      (hrow : SpellsRow isHelper args options t) (htrail : IsSpace trail) :
      Spells isHelper (.call name options args) ('(' :: (lead ++ (name ++ (t ++ (trail ++ [')'])))))

/-- A text spells arguments and the options behind them, with white space in front of each. -/
inductive SpellsRow (isHelper : Text → Bool) : List Expr → Entries Expr → Text → Prop
  | nil : SpellsRow isHelper [] [] []
  | arg {gap s t : Text} {e : Expr} {args : List Expr} {options : Entries Expr} (hgap : IsGap gap)
      (he : Spells isHelper e s) (hrow : SpellsRow isHelper args options t) :
      SpellsRow isHelper (e :: args) options (gap ++ (s ++ t))
  | option {gap key space s t : Text} {e : Expr} {options : Entries Expr} (hgap : IsGap gap)
      (hkey : isName key = true) (hnew : key ∉ Entries.keys options) (hspace : IsSpace space)
      (he : Spells isHelper e s) (hrow : SpellsRow isHelper [] options t) :
      SpellsRow isHelper [] ((key, e) :: options) (gap ++ (key ++ '=' :: (space ++ (s ++ t))))
end

mutual
/-- The integers in an expression. -/
def integers : Expr → List Int
  | .literal (.int n) => [n]
  | .literal _ => []
  | .path _ => []
  | .call _ options args => integersOf args ++ integersUnder options

/-- The integers in some expressions. -/
def integersOf : List Expr → List Int
  | [] => []
  | e :: es => e.integers ++ integersOf es

/-- The integers in the values of options. -/
def integersUnder : List (Text × Expr) → List Int
  | [] => []
  | (_, e) :: es => e.integers ++ integersUnder es
end

end Expr

/-! ### Lexemes -/

namespace Lexeme

variable {s t w : Text} {ls ms : List Lexeme}

/-- A text that is these lexemes wherever it stands in front of what ends a word. -/
def LexesAs (t : Text) (ls : List Lexeme) : Prop :=
  ∀ done rest, EndsWord rest → readAll done (t ++ rest) = readAll (ls.reverse ++ done) rest

theorem EndsWord.append {rest : Text} (ht : EndsWord t) (hrest : EndsWord rest) :
    EndsWord (t ++ rest) := by
  cases t with
  | nil => exact hrest
  | cons c t => exact ht

theorem endsWord_gap (hw : IsGap w) (s : Text) : EndsWord (w ++ s) := by
  obtain ⟨c, w, rfl⟩ := List.exists_cons_of_ne_nil hw.1
  intro x hx
  cases hx
  exact .inl (hw.2 c List.mem_cons_self)

theorem LexesAs.nil : LexesAs [] [] := fun _ _ _ => rfl

theorem LexesAs.word (hw : IsBareWord w) : LexesAs w [.word w] :=
  fun _ _ hrest => readAll_word hw hrest

theorem LexesAs.quoted {quote : Char} (hquote : quote = '"' ∨ quote = '\'')
    (hs : IsQuotable quote s) : LexesAs (quote :: (s ++ [quote])) [.quoted s] :=
  fun done rest _ => by
    rw [List.cons_append, List.append_assoc]
    exact readAll_quoted hquote hs rest

theorem LexesAs.space (hw : IsSpace w) (ht : LexesAs t ls) : LexesAs (w ++ t) ls :=
  fun done rest hrest => by rw [List.append_assoc, readAll_blank hw, ht done rest hrest]

theorem LexesAs.key {k : Text} (hk : isName k = true) (ht : LexesAs t ls) :
    LexesAs (k ++ '=' :: t) (.key k :: ls) := fun done rest hrest => by
  rw [List.append_assoc, List.cons_append, readAll_key hk, ht _ rest hrest, List.reverse_cons,
    List.append_assoc]
  rfl

/-- What stands behind a text is read behind its lexemes, if it ends the last word of the text. -/
theorem LexesAs.append (hs : LexesAs s ls) (ht : LexesAs t ms) (hend : EndsWord t) :
    LexesAs (s ++ t) (ls ++ ms) := fun done rest hrest => by
  rw [List.append_assoc, hs done _ (hend.append hrest), ht _ rest hrest, List.reverse_append,
    List.append_assoc]

theorem LexesAs.call {name lead trail : Text} (hname : isName name = true) (hlead : IsSpace lead)
    (ht : LexesAs t ls) (hend : EndsWord t) (htrail : IsSpace trail) :
    LexesAs ('(' :: (lead ++ (name ++ (t ++ (trail ++ [')'])))))
      (.opened :: .word name :: (ls ++ [.closed])) := by
  have hclosed : LexesAs [')'] [.closed] := fun done rest _ => readAll_closed rest
  have hclose : EndsWord (trail ++ [')']) := EndsWord.blank_append htrail (endsWord_closed [])
  have hbody : LexesAs (name ++ (t ++ (trail ++ [')']))) ([.word name] ++ (ls ++ [.closed])) :=
    (LexesAs.word (isBareWord_name hname)).append
      (ht.append (hclosed.space htrail) hclose) (hend.append hclose)
  intro done rest hrest
  rw [List.cons_append, readAll_opened, (hbody.space hlead) _ rest hrest]
  simp

end Lexeme

/-! ### Words -/

namespace Path

variable {segments : List Text}

theorem bracketed_singleton (s : Text) : bracketed [s] = '[' :: (s ++ [']']) :=
  joinWith_singleton _ _

theorem bracketed_cons_cons (s s' : Text) (segments : List Text) :
    bracketed (s :: s' :: segments) = '[' :: (s ++ ']' :: '.' :: bracketed (s' :: segments)) := by
  rw [bracketed, List.map_cons, List.map_cons, joinWith_cons_cons]
  simp [bracketed]

theorem bracketed_head (hne : segments ≠ []) : ∃ t, bracketed segments = '[' :: t := by
  match segments, hne with
  | [s], _ => exact ⟨_, bracketed_singleton s⟩
  | s :: s' :: segments, _ => exact ⟨_, bracketed_cons_cons s s' segments⟩

/-- A path of segments in brackets is one word. -/
theorem readWord_bracketed (hne : segments ≠ []) (hclosing : ∀ s ∈ segments, ']' ∉ s) {rest : Text}
    (hrest : EndsWord rest) (seen : Text) :
    readWord false seen (bracketed segments ++ rest) =
      (seen.reverse ++ bracketed segments, rest) := by
  induction segments generalizing seen with
  | nil => exact absurd rfl hne
  | cons s segments ih =>
    have hs := hclosing s List.mem_cons_self
    cases segments with
    | nil =>
      rw [bracketed_singleton, List.cons_append, List.append_assoc, List.singleton_append,
        Lexeme.readWord_bracketed hs, readWord_end hrest, List.reverse_append, List.reverse_reverse]
    | cons s' segments =>
      rw [bracketed_cons_cons]
      simp only [List.cons_append, List.append_assoc]
      rw [Lexeme.readWord_bracketed hs, readWord, if_neg (by decide), if_pos (by decide),
        ih (by simp) fun u hu => hclosing u (List.mem_cons_of_mem s hu)]
      simp

theorem lexesAs_bracketed (hne : segments ≠ []) (hclosing : ∀ s ∈ segments, ']' ∉ s) :
    LexesAs (bracketed segments) [.word (bracketed segments)] := fun done rest hrest => by
  obtain ⟨t, ht⟩ := bracketed_head hne
  have hword := readWord_bracketed hne hclosing hrest []
  have hkey : readKey? (bracketed segments ++ rest) = none := by
    rw [ht]
    rfl
  have hread := readBare?_word hkey hword (by rw [ht]; simp)
  rw [ht, List.cons_append, ← read?_bare (by decide), ← List.cons_append, ← ht] at hread
  refine readAll_step ?_ hread
  rw [ht]
  rfl

theorem segments?_bracketed (hne : segments ≠ []) (hclosing : ∀ s ∈ segments, ']' ∉ s)
    (done : List Text) : segments? done (bracketed segments) = some (done.reverse ++ segments) := by
  induction segments generalizing done with
  | nil => exact absurd rfl hne
  | cons s segments ih =>
    have hs := hclosing s List.mem_cons_self
    cases segments with
    | nil =>
      have hsegment : segment? (bracketed [s]) = some (s, []) := by
        rw [bracketed_singleton]
        exact segment?_bracketed hs
      rw [segments?_of_last hsegment, List.reverse_cons]
    | cons s' segments =>
      have hsegment : segment? (bracketed (s :: s' :: segments)) =
          some (s, '.' :: bracketed (s' :: segments)) := by
        rw [bracketed_cons_cons]
        exact segment?_bracketed hs
      obtain ⟨t, ht⟩ := bracketed_head (List.cons_ne_nil s' segments)
      rw [segments?_of_more hsegment (by rw [ht]; simp),
        ih (by simp) fun u hu => hclosing u (List.mem_cons_of_mem s hu), List.reverse_cons,
        List.append_assoc]
      rfl

/-- A path of segments in brackets is read as its segments, also where the first one is the name of
the scope itself. -/
theorem read_bracketed (hne : segments ≠ []) (hclosing : ∀ s ∈ segments, ']' ∉ s) :
    read (bracketed segments) = .ok (.scope 0 false segments) := by
  obtain ⟨t, ht⟩ := bracketed_head hne
  have hsegments : readSegments (bracketed segments) = .ok segments := by
    rw [readSegments, if_neg (by rw [ht]; simp), segments?_bracketed hne hclosing]
    rfl
  have hthis : bracketed segments ≠ thisWord := by
    rw [ht]
    intro h
    exact absurd (List.cons.inj h).1 (by decide)
  rw [ht] at hsegments hthis ⊢
  exact read_segments (by simp) (by simp) hthis hsegments (.inr rfl)

end Path

namespace Expr

theorem readWord_bracketed {segments : List Text} (hne : segments ≠ [])
    (hclosing : ∀ s ∈ segments, ']' ∉ s) :
    readWord (Path.bracketed segments) = .ok (.path (.scope 0 false segments)) := by
  have hread := Path.read_bracketed hne hclosing
  obtain ⟨t, ht⟩ := Path.bracketed_head hne
  have hkeyword : keyword? ('[' :: t) = none := keyword?_of_mem List.mem_cons_self (by decide)
  have hnumeral : numeral? ('[' :: t) = none := by
    have hdigit : isDecimal '[' = false := by decide +kernel
    simp [numeral?, hdigit]
  rw [readWord, ht, hkeyword]
  simp only [hnumeral]
  rw [← ht, hread]
  rfl

/-- The numeral of an integer is read as the integer, unless it has too many digits. -/
theorem readWord_ofInt (n : Int) :
    Integer.IsShort n ∧ readWord (ofInt n) = .ok (.literal (.int n)) ∨
      ¬ Integer.IsShort n ∧ ∃ f, readWord (ofInt n) = .error (.fault f) := by
  have hdecimal : ∀ c ∈ ofNat n.natAbs, isDecimal c = true :=
    fun c hc => isDecimal_of_isDigit (isDigit_of_mem_ofNat hc)
  have hsplit : ofInt n = (if decide (n < 0) then ['-'] else []) ++ ofNat n.natAbs := by
    rw [ofInt]
    by_cases hn : n < 0
    · simp [hn]
    · simp [hn]
  have hnumeral : numeral? (ofInt n) = some (decide (n < 0), ofNat n.natAbs, none) := by
    rw [hsplit]
    exact numeral?_digits _ hdecimal (ofNat_ne_nil _)
  have hkeyword : keyword? (ofInt n) = none := by
    obtain ⟨c, hc⟩ := List.exists_mem_of_ne_nil _ (ofNat_ne_nil n.natAbs)
    have hdigit : c.isAlpha = false := by
      simpa using of_mem_ofNat (P := fun c => !c.isAlpha) (by decide) hc
    exact keyword?_of_mem (hsplit ▸ List.mem_append_right _ hc) hdigit
  have hread : readWord (ofInt n) = readNumeral (ofInt n) (decide (n < 0), ofNat n.natAbs, none) := by
    rw [readWord, hkeyword]
    simp only [hnumeral]
  rw [hread, readNumeral]
  by_cases hshort : Integer.IsShort n
  · refine .inl ⟨hshort, ?_⟩
    have hvalue : (if decide (n < 0) then -(n.natAbs : Int) else n.natAbs) = n := by
      by_cases hn : n < 0
      · rw [decide_eq_true hn, if_pos rfl]
        omega
      · rw [decide_eq_false hn, if_neg Bool.false_ne_true]
        omega
    rw [Integer.ofDigits_ofNat hshort]
    simp only [hvalue]
  · refine .inr ⟨hshort, .tooManyDigits (ofNat n.natAbs).length, ?_⟩
    rw [Integer.ofDigits_ofNat_of_le (Nat.le_of_not_lt hshort)]

/-! ### Terms -/

/-- A reading that comes to a state of the machine, unless one of the integers read on the way is too
long: then it ends with a fault. -/
def Comes (ns : List Int) (m : Machine) (x : Reading Machine) : Prop :=
  (∀ n ∈ ns, Integer.IsShort n) ∧ x = .ok m ∨
    (∃ n ∈ ns, ¬ Integer.IsShort n) ∧ ∃ f, x = .error (.fault f)

section

variable {isHelper : Text → Bool} {ns ns' : List Int} {m m' : Machine} {x : Reading Machine}

theorem Comes.ok (m : Machine) : Comes [] m (.ok m) :=
  .inl ⟨fun _ hn => absurd hn List.not_mem_nil, rfl⟩

/-- What is read behind adds its own integers. -/
theorem Comes.bind {g : Machine → Reading Machine} (hx : Comes ns m x) (hg : Comes ns' m' (g m)) :
    Comes (ns ++ ns') m' (x >>= g) := by
  rcases hx with ⟨hns, rfl⟩ | ⟨⟨n, hn, hlong⟩, f, rfl⟩
  · rcases hg with ⟨hns', hg⟩ | ⟨⟨n, hn, hlong⟩, hg⟩
    · exact .inl ⟨List.forall_mem_append.2 ⟨hns, hns'⟩, hg⟩
    · exact .inr ⟨⟨n, List.mem_append_right ns hn, hlong⟩, hg⟩
  · exact .inr ⟨⟨n, List.mem_append_left ns' hn, hlong⟩, f, rfl⟩

theorem Comes.append {m₀ : Machine} {ls ms : List Lexeme}
    (hls : Comes ns m (ls.foldlM (Machine.step isHelper) m₀))
    (hms : Comes ns' m' (ms.foldlM (Machine.step isHelper) m)) :
    Comes (ns ++ ns') m' ((ls ++ ms).foldlM (Machine.step isHelper) m₀) := by
  rw [List.foldlM_append]
  exact hls.bind hms

/-- A text that is read as an expression wherever a term may come next. -/
def IsTerm (isHelper : Text → Bool) (t : Text) (e : Expr) : Prop :=
  ∃ ls, LexesAs t ls ∧ ∀ top outer, top.checkTerm = .ok () →
    Comes e.integers ⟨top.add e, outer, false⟩
      (ls.foldlM (Machine.step isHelper) ⟨top, outer, false⟩)

/-- A text that is read as arguments and options, where arguments do not come behind options and the
names of the options are new. -/
def IsRow (isHelper : Text → Bool) (t : Text) (args : List Expr) (options : Entries Expr) : Prop :=
  ∃ ls, LexesAs t ls ∧ ∀ head outer done earlier, (args = [] ∨ earlier = []) →
    (∀ k ∈ Entries.keys options, k ∉ Entries.keys earlier) →
    Comes (integersOf args ++ integersUnder options)
      ⟨⟨head, args.reverse ++ done, earlier ++ options, none⟩, outer, false⟩
      (ls.foldlM (Machine.step isHelper) ⟨⟨head, done, earlier, none⟩, outer, false⟩)

theorem IsTerm.word {w : Text} {e : Expr} (hlexes : LexesAs w [.word w])
    (hread : (∀ n ∈ e.integers, Integer.IsShort n) ∧ readWord w = .ok e ∨
      (∃ n ∈ e.integers, ¬ Integer.IsShort n) ∧ ∃ f, readWord w = .error (.fault f)) :
    IsTerm isHelper w e := by
  refine ⟨_, hlexes, fun top outer hcheck => ?_⟩
  have hstep : [Lexeme.word w].foldlM (Machine.step isHelper) ⟨top, outer, false⟩ =
      (readWord w).map fun e => ⟨top.add e, outer, false⟩ := by
    rw [List.foldlM_cons]
    show (Machine.addTerm ⟨top, outer, false⟩ (readWord w) >>= pure) = _
    rw [bind_pure, Machine.addTerm, hcheck]
    rfl
  rw [hstep]
  rcases hread with ⟨hshort, hread⟩ | ⟨hlong, f, hread⟩
  · rw [hread]
    exact .inl ⟨hshort, rfl⟩
  · rw [hread]
    exact .inr ⟨hlong, f, rfl⟩

/-- A word without integers is read as it stands. -/
theorem IsTerm.plainWord {w : Text} {e : Expr} (hlexes : LexesAs w [.word w])
    (hintegers : e.integers = []) (hread : readWord w = .ok e) : IsTerm isHelper w e :=
  .word hlexes (.inl ⟨by simp [hintegers], hread⟩)

theorem unquote_eq {s : Text} (hescape : '\\' ∉ s) : unquote s = s := by
  have hreplace (c : Char) (new : Text) : replace ['\\', c] new s = s := by
    have hcut : cut ['\\', c] s = none := cut_of_bare (by simp) (Bare.of_not_mem hescape)
    rw [replace, dif_neg (by simp), splitOn_of_none _ hcut, joinWith_singleton]
  rw [unquote, hreplace, hreplace]

theorem IsTerm.quoted {s : Text} (hquote : '"' ∉ s) (hescape : '\\' ∉ s) :
    IsTerm isHelper ('"' :: (s ++ ['"'])) (.literal (.text s)) := by
  refine ⟨_, LexesAs.quoted (.inl rfl) (.of_not_mem hquote hescape), fun top outer hcheck => ?_⟩
  have hstep : [Lexeme.quoted s].foldlM (Machine.step isHelper) ⟨top, outer, false⟩ =
      .ok ⟨top.add (.literal (.text s)), outer, false⟩ := by
    rw [List.foldlM_cons]
    show (Machine.addTerm ⟨top, outer, false⟩ (.ok (.literal (.text (unquote s)))) >>= pure) = _
    rw [bind_pure, Machine.addTerm, hcheck, unquote_eq hescape]
    rfl
  rw [hstep]
  exact Comes.ok _

theorem IsTerm.call {name lead t trail : Text} {args : List Expr} {options : Entries Expr}
    (hname : isName name = true) (hhelper : isHelper name = true) (hlead : IsSpace lead)
    (hrow : IsRow isHelper t args options) (hend : EndsWord t) (htrail : IsSpace trail) :
    IsTerm isHelper ('(' :: (lead ++ (name ++ (t ++ (trail ++ [')'])))))
      (.call name options args) := by
  obtain ⟨ls, hlexes, hread⟩ := hrow
  refine ⟨_, hlexes.call hname hlead hend htrail, fun top outer hcheck => ?_⟩
  -- the call gets a frame of its own, in which its row is read, and leaves it as one term
  have hopened : Machine.step isHelper ⟨top, outer, false⟩ .opened = .ok ⟨top, outer, true⟩ := by
    show top.checkTerm.map _ = _
    rw [hcheck]
    rfl
  have hnaming : Machine.step isHelper ⟨top, outer, true⟩ (.word name) =
      .ok ⟨Frame.start (some name), top :: outer, false⟩ := if_pos hhelper
  have hclosed : Machine.step isHelper
      ⟨⟨some name, args.reverse ++ [], [] ++ options, none⟩, top :: outer, false⟩ .closed =
        .ok ⟨top.add (.call name options args), outer, false⟩ := by
    rw [List.append_nil, List.nil_append]
    show Except.ok (Machine.mk (top.add (.call name options args.reverse.reverse)) outer false) = _
    rw [List.reverse_reverse]
  have hbody := hread (some name) (top :: outer) [] [] (.inr rfl) fun _ _ hk => by cases hk
  have hdone : Comes [] ⟨top.add (.call name options args), outer, false⟩
      ([Lexeme.closed].foldlM (Machine.step isHelper)
        ⟨⟨some name, args.reverse ++ [], [] ++ options, none⟩, top :: outer, false⟩) := by
    rw [List.foldlM_cons, hclosed]
    exact Comes.ok _
  have hcall := hbody.append hdone
  rw [List.append_nil] at hcall
  rw [List.foldlM_cons, hopened]
  show Comes _ _ (List.foldlM _ _ (.word name :: (ls ++ [.closed])))
  rw [List.foldlM_cons, hnaming, integers]
  exact hcall

theorem IsRow.nil : IsRow isHelper [] [] [] := by
  refine ⟨[], LexesAs.nil, fun head outer done earlier _ _ => ?_⟩
  rw [List.append_nil]
  exact Comes.ok _

theorem IsRow.arg {gap s t : Text} {e : Expr} {args : List Expr} {options : Entries Expr}
    (hgap : IsGap gap) (he : IsTerm isHelper s e) (hrow : IsRow isHelper t args options)
    (hend : EndsWord t) : IsRow isHelper (gap ++ (s ++ t)) (e :: args) options := by
  obtain ⟨ls, hls, hterm⟩ := he
  obtain ⟨ms, hms, hrest⟩ := hrow
  refine ⟨ls ++ ms, (hls.append hms hend).space hgap.2, fun head outer done earlier harg hnew => ?_⟩
  -- behind an option, an argument would be refused
  obtain rfl : earlier = [] := harg.resolve_left (List.cons_ne_nil e args)
  have hcheck : Frame.checkTerm ⟨head, done, [], none⟩ = .ok () := if_neg (by simp)
  have hfirst : Comes e.integers ⟨⟨head, e :: done, [], none⟩, outer, false⟩
      (ls.foldlM (Machine.step isHelper) ⟨⟨head, done, [], none⟩, outer, false⟩) :=
    hterm ⟨head, done, [], none⟩ outer hcheck
  rw [integersOf, List.append_assoc, List.reverse_cons, List.append_assoc]
  exact hfirst.append (hrest head outer (e :: done) [] (.inr rfl) hnew)

theorem IsRow.option {gap key space s t : Text} {e : Expr} {options : Entries Expr}
    (hgap : IsGap gap) (hkey : isName key = true) (hnew : key ∉ Entries.keys options)
    (hspace : IsSpace space) (he : IsTerm isHelper s e) (hrow : IsRow isHelper t [] options)
    (hend : EndsWord t) :
    IsRow isHelper (gap ++ (key ++ '=' :: (space ++ (s ++ t)))) [] ((key, e) :: options) := by
  obtain ⟨ls, hls, hterm⟩ := he
  obtain ⟨ms, hms, hrest⟩ := hrow
  refine ⟨.key key :: (ls ++ ms), (((hls.append hms hend).space hspace).key hkey).space hgap.2,
    fun head outer done earlier _ hearlier => ?_⟩
  have hput : Entries.put key e earlier = earlier ++ [(key, e)] :=
    Entries.put_of_not_mem (hearlier key List.mem_cons_self)
  have hname : Machine.step isHelper ⟨⟨head, done, earlier, none⟩, outer, false⟩ (.key key) =
      .ok ⟨⟨head, done, earlier, some key⟩, outer, false⟩ := rfl
  have hcheck : Frame.checkTerm ⟨head, done, earlier, some key⟩ = .ok () := if_neg (by simp)
  have hvalue : Comes e.integers ⟨⟨head, done, earlier ++ [(key, e)], none⟩, outer, false⟩
      (ls.foldlM (Machine.step isHelper) ⟨⟨head, done, earlier, some key⟩, outer, false⟩) := by
    rw [← hput]
    exact hterm ⟨head, done, earlier, some key⟩ outer hcheck
  -- the names behind are new beside this one, too
  have hbehind : ∀ k ∈ Entries.keys options, k ∉ Entries.keys (earlier ++ [(key, e)]) := by
    intro k hk hmem
    rw [Entries.keys, List.map_append, List.mem_append] at hmem
    rcases hmem with hmem | hmem
    · exact hearlier k (List.mem_cons_of_mem key hk) hmem
    · obtain rfl : k = key := List.mem_singleton.1 hmem
      exact hnew hk
  have hboth := hvalue.append (hrest head outer done (earlier ++ [(key, e)]) (.inl rfl) hbehind)
  rw [List.append_assoc] at hboth
  rw [List.foldlM_cons, hname]
  exact hboth

/-! ### What is spelled is read -/

variable {e : Expr} {args : List Expr} {options : Entries Expr} {t : Text}

theorem SpellsRow.endsWord (h : SpellsRow isHelper args options t) : EndsWord t := by
  cases h with
  | nil => exact fun _ hx => by cases hx
  | arg hgap => exact endsWord_gap hgap _
  | option hgap => exact endsWord_gap hgap _

theorem isBareWord_ofInt (n : Int) : IsBareWord (ofInt n) := by
  have hdigits : ∀ x ∈ ofNat n.natAbs, isWordChar x = true := fun x hx => of_mem_ofNat (by decide) hx
  rw [ofInt]
  split
  · exact ⟨List.cons_ne_nil _ _, List.forall_mem_cons.2 ⟨by decide, hdigits⟩⟩
  · exact ⟨ofNat_ne_nil _, hdigits⟩

theorem keyword?_words : keyword? (lit "true") = some (.bool true) ∧
    keyword? (lit "false") = some (.bool false) ∧ keyword? (lit "null") = some .null := by
  refine ⟨if_pos rfl, ?_, ?_⟩
  · rw [keyword?, if_neg (by decide +kernel), if_pos rfl]
  · rw [keyword?, if_neg (by decide +kernel), if_neg (by decide +kernel), if_pos (.inl rfl)]

/-- A word that stands for a value is read as the value. -/
theorem IsTerm.keyword {s : String} {v : Value} (hv : (Expr.literal v).integers = [])
    (hword : lit s ≠ [] ∧ (lit s).all isWordChar = true) (hkeyword : keyword? (lit s) = some v) :
    IsTerm isHelper (lit s) (.literal v) := by
  have hbare : IsBareWord (lit s) := ⟨hword.1, List.all_eq_true.1 hword.2⟩
  refine .plainWord (.word hbare) hv ?_
  rw [readWord, hkeyword]

mutual
/-- What is spelled is read as a term, by induction on how it is spelled. -/
theorem Spells.isTerm : ∀ {e t}, Spells isHelper e t → IsTerm isHelper t e
  | _, _, .text hquote hescape => .quoted hquote hescape
  | _, _, .int n => .word (.word (isBareWord_ofInt n)) (by simpa [integers] using readWord_ofInt n)
  | _, _, .yes => .keyword rfl (by decide +kernel) keyword?_words.1
  | _, _, .no => .keyword rfl (by decide +kernel) keyword?_words.2.1
  | _, _, .null => .keyword rfl (by decide +kernel) keyword?_words.2.2
  | _, _, .path hne hclosing =>
    .plainWord (Path.lexesAs_bracketed hne hclosing) rfl (readWord_bracketed hne hclosing)
  | _, _, .call hname hhelper hlead hrow htrail =>
    .call hname hhelper hlead hrow.isRow hrow.endsWord htrail

theorem SpellsRow.isRow : ∀ {args options t}, SpellsRow isHelper args options t →
    IsRow isHelper t args options
  | _, _, _, .nil => .nil
  | _, _, _, .arg hgap he hrow => .arg hgap he.isTerm hrow.isRow hrow.endsWord
  | _, _, _, .option hgap hkey hnew hspace he hrow =>
    .option hgap hkey hnew hspace he.isTerm hrow.isRow hrow.endsWord
end

/-- A text that ends in no white space. -/
def EndsSolid (t : Text) : Prop := ∃ s c, t = s ++ [c] ∧ isBlank c = false

theorem EndsSolid.append (h : EndsSolid t) (s : Text) : EndsSolid (s ++ t) := by
  obtain ⟨u, c, rfl, hc⟩ := h
  exact ⟨s ++ u, c, (List.append_assoc _ _ _).symm, hc⟩

theorem EndsSolid.of_word {w : Text} (hw : IsBareWord w) : EndsSolid w := by
  obtain ⟨s, c, rfl⟩ := List.eq_nil_or_concat' w |>.resolve_left hw.ne_nil
  exact ⟨s, c, rfl, hw.not_blank (by simp)⟩

theorem Path.endsSolid_bracketed {segments : List Text} (hne : segments ≠ []) :
    EndsSolid (Path.bracketed segments) := by
  induction segments with
  | nil => exact absurd rfl hne
  | cons s segments ih =>
    cases segments with
    | nil =>
      rw [Path.bracketed_singleton]
      exact ⟨'[' :: s, ']', rfl, by decide⟩
    | cons s' segments =>
      rw [Path.bracketed_cons_cons, List.append_cons s ']', ← List.cons_append]
      exact (EndsSolid.append (ih (by simp)) ['.']).append ('[' :: (s ++ [']']))

theorem Spells.endsSolid (h : Spells isHelper e t) : EndsSolid t := by
  cases h with
  | text => exact ⟨_, '"', (List.cons_append).symm, by decide⟩
  | int n => exact .of_word (isBareWord_ofInt n)
  | yes => exact ⟨lit "tru", 'e', by decide +kernel, by decide⟩
  | no => exact ⟨lit "fals", 'e', by decide +kernel, by decide⟩
  | null => exact ⟨lit "nul", 'l', by decide +kernel, by decide⟩
  | path hne => exact Path.endsSolid_bracketed hne
  | @call name lead t trail =>
    have hclosed : EndsSolid [')'] := ⟨[], ')', rfl, by decide⟩
    have h := ((((hclosed.append trail).append t).append name).append lead).append ['(']
    exact h

theorem EndsSolid.append_row {s : Text} (hs : EndsSolid s) (ht : t = [] ∨ EndsSolid t) :
    EndsSolid (s ++ t) := by
  rcases ht with rfl | ht
  · rwa [List.append_nil]
  · exact ht.append s

theorem SpellsRow.endsSolid : ∀ {args options t}, SpellsRow isHelper args options t →
    t = [] ∨ EndsSolid t
  | _, _, _, .nil => .inl rfl
  | _, _, _, .arg _ he hrow => .inr ((he.endsSolid.append_row hrow.endsSolid).append _)
  | _, _, _, .option _ _ _ _ he hrow => by
    refine .inr (EndsSolid.append ?_ _)
    rw [List.append_cons]
    exact ((he.endsSolid.append_row hrow.endsSolid).append _).append _

/-- What ends in no white space loses only the white space at its start. -/
theorem EndsSolid.trim_eq (h : EndsSolid t) : trim t = trimStart t := by
  obtain ⟨s, c, rfl, hc⟩ := h
  rw [trim, trimStart_append hc, trimEnd_append hc]
  rfl

theorem readAll_trimStart (t : Text) : readAll [] (trimStart t) = readAll [] t := by
  have hblank : ∀ x ∈ t.takeWhile isBlank, isBlank x = true :=
    List.all_eq_true.1 List.all_takeWhile
  have h : readAll [] (t.takeWhile isBlank ++ trimStart t) = readAll [] (trimStart t) :=
    readAll_blank hblank _
  rwa [trimStart, List.takeWhile_append_dropWhile, eq_comm] at h

/-- A row is read as its arguments and options, unless an integer in it is too long. -/
theorem IsRow.ofText_eq (h : IsRow isHelper t args options) (hend : t = [] ∨ EndsSolid t) :
    (∀ n ∈ integersOf args ++ integersUnder options, Integer.IsShort n) ∧
        ofText isHelper t = .ok (args, options) ∨
      (∃ n ∈ integersOf args ++ integersUnder options, ¬ Integer.IsShort n) ∧
        ∃ f, ofText isHelper t = .error (.fault f) := by
  obtain ⟨ls, hlexes, hread⟩ := h
  have hlexemes : ofText? (trim t) = some ls := by
    have htrim : trim t = trimStart t := by
      rcases hend with rfl | hsolid
      · rfl
      · exact hsolid.trim_eq
    have hall := hlexes [] [] fun x hx => by cases hx
    rw [List.append_nil, readAll_nil] at hall
    rw [htrim, Lexeme.ofText?, readAll_trimStart, hall]
    simp
  have hstart := hread none [] [] [] (.inr rfl) fun _ _ hk => by cases hk
  rw [ofText, hlexemes]
  simp only [readTerms]
  rcases hstart with ⟨hshort, hread⟩ | ⟨hlong, f, hread⟩
  · refine .inl ⟨hshort, ?_⟩
    rw [Frame.start, hread]
    show Except.ok ((args.reverse ++ []).reverse, [] ++ options) = _
    rw [List.append_nil, List.reverse_reverse, List.nil_append]
  · refine .inr ⟨hlong, f, ?_⟩
    rw [Frame.start, hread]
    rfl

theorem SpellsRow.ofText_iff (h : SpellsRow isHelper args options t) :
    ofText isHelper t = .ok (args, options) ↔
      ∀ n ∈ integersOf args ++ integersUnder options, Integer.IsShort n := by
  rcases h.isRow.ofText_eq h.endsSolid with ⟨hshort, hread⟩ | ⟨⟨n, hn, hlong⟩, f, hread⟩
  · exact ⟨fun _ => hshort, fun _ => hread⟩
  · rw [hread]
    exact ⟨fun h => (by cases h), fun h => absurd (h n hn) hlong⟩

theorem isGap_space : IsGap [' '] :=
  ⟨by simp, List.forall_mem_singleton.2 (by decide)⟩

/-- White space in front of a text of terms does not matter. -/
theorem ofText_space (isHelper : Text → Bool) (t : Text) :
    ofText isHelper (' ' :: t) = ofText isHelper t := rfl

/-- An expression is a row of its own. -/
theorem Spells.ofText_iff (h : Spells isHelper e t) :
    ofText isHelper t = .ok ([e], []) ↔ ∀ n ∈ e.integers, Integer.IsShort n := by
  have hrow : SpellsRow isHelper [e] [] ([' '] ++ (t ++ [])) := .arg isGap_space h .nil
  have hread := hrow.ofText_iff
  rwa [List.append_nil, List.singleton_append, ofText_space, integersOf, integersOf, integersUnder,
    List.append_nil, List.append_nil] at hread

/-- The outermost call of a tag stands without parentheses: the tag shows what the call comes to, if
the name of the helper stands for nothing else. -/
theorem SpellsRow.readShown_iff (h : SpellsRow isHelper args options t) {name : Text}
    (hname : isName name = true) (hhelper : isHelper name = true) (hkeyword : keyword? name = none)
    (hthis : name ≠ Path.thisWord) :
    readShown isHelper (name ++ t) = .ok (.call name options args) ↔
      ∀ n ∈ integersOf args ++ integersUnder options, Integer.IsShort n := by
  have hterm : IsTerm isHelper name (.path (.scope 0 false [name])) :=
    .plainWord (.word (isBareWord_name hname)) rfl
      (readWord_name (Path.isName_of_name hname hthis hkeyword))
  have hrow := IsRow.arg isGap_space hterm h.isRow h.endsWord
  have hend := (EndsSolid.of_word (isBareWord_name hname)).append_row h.endsSolid
  rw [readShown, ← ofText_space]
  rcases hrow.ofText_eq (.inr (hend.append [' '])) with ⟨hshort, hread⟩ | ⟨⟨n, hn, hlong⟩, f, hread⟩
  · rw [List.singleton_append] at hread
    rw [hread]
    have hsimple : (Path.scope 0 false [name]).simpleName? = some name := rfl
    simp only [bind, Except.bind, hsimple, Option.filter_some, if_pos hhelper]
    exact iff_of_true rfl hshort
  · rw [List.singleton_append] at hread
    rw [hread]
    exact ⟨fun h => (by cases h), fun h => absurd (h n hn) hlong⟩

end

end Expr

/-- What is spelled is read: a text that spells an expression is read as the expression, however deep
its calls are nested and whatever white space stands between its terms, and so is a row of arguments
and options, also behind the name of the helper that a tag calls.  It is refused exactly if it holds
an integer that is too long. -/
theorem Expr.ofText_spells (isHelper : Text → Bool) :
    (∀ e t, Spells isHelper e t →
      (ofText isHelper t = .ok ([e], []) ↔ ∀ n ∈ e.integers, Integer.IsShort n)) ∧
    (∀ args options t, SpellsRow isHelper args options t →
      (ofText isHelper t = .ok (args, options) ↔
        ∀ n ∈ integersOf args ++ integersUnder options, Integer.IsShort n)) ∧
    ∀ name args options t, isName name = true → isHelper name = true → keyword? name = none →
      name ≠ Path.thisWord → SpellsRow isHelper args options t →
      (readShown isHelper (name ++ t) = .ok (.call name options args) ↔
        ∀ n ∈ integersOf args ++ integersUnder options, Integer.IsShort n) :=
  ⟨fun _ _ h => h.ofText_iff, fun _ _ _ h => h.ofText_iff,
    fun _ _ _ _ hname hhelper hkeyword hthis h => h.readShown_iff hname hhelper hkeyword hthis⟩

/-- A call of a helper with a call for its argument. -/
def Expr.netTotal : Expr :=
  .call (lit "formatCurrency") [(lit "symbol", .literal (.text (lit "it's (=)")))]
    [.call (lit "or") []
      [.path (.scope 0 false [lit "grand total", lit "(net)"]), .literal (.int (-12))]]

/-- The call with blanks, parentheses and quotes where they end nothing. -/
def Expr.netTotalText : Text :=
  lit "(formatCurrency (or [grand total].[(net)]\n-12) symbol= \"it's (=)\" )"

theorem Expr.spells_netTotal :
    Spells (Compiler.standard {}).isHelper netTotal netTotalText := by
  have hgap : IsGap ['\n'] := ⟨by simp, List.forall_mem_singleton.2 (by decide)⟩
  have hempty : IsSpace [] := fun _ hx => by cases hx
  have hpath := @Spells.path (Compiler.standard {}).isHelper [lit "grand total", lit "(net)"]
    (by simp) (by decide +kernel)
  have hsymbol := @Spells.text (Compiler.standard {}).isHelper (lit "it's (=)")
    (by decide +kernel) (by decide +kernel)
  have hor := @Spells.call (Compiler.standard {}).isHelper (lit "or") [] _ [] _ _ (by decide +kernel)
    (by decide +kernel) hempty (.arg isGap_space hpath (.arg hgap (.int (-12)) .nil)) hempty
  have hcall := @Spells.call (Compiler.standard {}).isHelper (lit "formatCurrency") [] _ [' '] _ _
    (by decide +kernel) (by decide +kernel) hempty
    (.arg isGap_space hor (@SpellsRow.option _ _ (lit "symbol") [' '] _ _ _ _ isGap_space
      (by decide +kernel) (by decide +kernel) isGap_space.2 hsymbol .nil)) isGap_space.2
  refine Eq.mp (congrArg (Spells (Compiler.standard {}).isHelper netTotal) ?_) hcall
  decide +kernel

theorem Expr.ofText_spells_netTotal :
    Expr.ofText (Compiler.standard {}).isHelper netTotalText = .ok ([netTotal], []) := by
  obtain ⟨hread, -⟩ := ofText_spells (Compiler.standard {}).isHelper
  exact (hread netTotal netTotalText spells_netTotal).2 (by decide +kernel)

/-- An integer that is too long is spelled like any other, but it is not read. -/
theorem Expr.ofText_long (isHelper : Text → Bool) {n : Int} (h : ¬ Integer.IsShort n) :
    Spells isHelper (.literal (.int n)) (ofInt n) ∧
      ofText isHelper (ofInt n) ≠ .ok ([.literal (.int n)], []) := by
  have hspells : Spells isHelper (.literal (.int n)) (ofInt n) := .int n
  exact ⟨hspells, fun hread => h (hspells.ofText_iff.1 hread n List.mem_cons_self)⟩

/-- The least integer that has too many digits. -/
theorem Expr.ofText_tenPower :
    Spells (Compiler.standard {}).isHelper (.literal (.int (10 ^ Integer.maxDigits)))
        (ofInt (10 ^ Integer.maxDigits)) ∧
      ofText (Compiler.standard {}).isHelper (ofInt (10 ^ Integer.maxDigits)) ≠
        .ok ([.literal (.int (10 ^ Integer.maxDigits))], []) := by
  refine ofText_long _ ?_
  have hten : (10 : Int).natAbs = 10 := rfl
  rw [Integer.IsShort, Int.natAbs_pow, hten]
  exact Nat.lt_irrefl _

end Tender
