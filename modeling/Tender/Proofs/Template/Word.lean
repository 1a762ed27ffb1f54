/-
Words that end the reading of a whole template.

* `Path.read_fault_iff` — of all paths only the empty data path is refused with a fault; it names the
  scope itself after an at sign, as `@./this` or `@[this]`;
* `readWord_fault_iff` — beside it only numerals that are too long are.
-/
import Tender.Template.Term

namespace Tender

namespace Path

/-- So many steps outward. -/
def ups (n : Nat) : Text :=
  (List.replicate n ['.', '.', '/']).flatten

/-- A path of loop variables or from the whole context from whose segments the name of the scope
itself is dropped, so that none is left. -/
def IsEmptyData (word : Text) : Prop :=
  ∃ n body, word = '@' :: (ups n ++ body) ∧
    (body = ['.', '/'] ++ thisWord ∨ body = '[' :: thisWord ++ [']'] ∨
      body = ['.', '/'] ++ '[' :: thisWord ++ [']'])

/-- A text without a step outward at its start. -/
def Settled (body : Text) : Prop := ∀ s, body ≠ '.' :: '.' :: '/' :: s

theorem takeUps_ups (n k : Nat) {body : Text} (hbody : Settled body) :
    takeUps k (ups n ++ body) = (k + n, body) := by
  induction n generalizing k with
  | zero =>
    show takeUps k body = (k, body)
    unfold takeUps
    split
    · rename_i s
      exact absurd rfl (hbody s)
    · rfl
  | succ n ih =>
    show takeUps (k + 1) (ups n ++ body) = _
    rw [ih, Nat.add_right_comm]
    rfl

theorem takeUps_spec (k : Nat) (s : Text) :
    ∃ n body, takeUps k s = (k + n, body) ∧ s = ups n ++ body ∧ Settled body := by
  fun_induction takeUps k s with
  | case1 k s ih =>
    obtain ⟨n, body, htake, rfl, hbody⟩ := ih
    refine ⟨n + 1, body, ?_, rfl, hbody⟩
    rw [htake, Nat.add_right_comm]
    rfl
  | case2 k s hs => exact ⟨0, s, rfl, rfl, fun t ht => hs t ht⟩

/-- What `segments?` reads after `done`. -/
theorem segments_eq_some {done segments : List Text} {s : Text}
    (h : segments? done s = some segments) :
    ∃ name rest, segments = done.reverse ++ name :: rest ∧
      (rest = [] → segment? s = some (name, [])) := by
  fun_induction segments? done s with
  | case1 => cases h
  | case2 done s name hs =>
    cases h
    exact ⟨name, [], by simp, fun _ => hs⟩
  | case3 done s name c rest hs hc ih =>
    obtain ⟨name', rest', hsegments, -⟩ := ih h
    refine ⟨name, name' :: rest', ?_, fun hnil => by cases hnil⟩
    rw [hsegments, List.reverse_cons, List.append_assoc]
    rfl
  | case4 => cases h

theorem segment_eq_this {s : Text} :
    segment? s = some (thisWord, []) ↔ s = thisWord ∨ s = '[' :: thisWord ++ [']'] := by
  constructor
  · intro h
    unfold segment? at h
    split at h
    · rename_i s
      have hs := List.takeWhile_append_dropWhile (p := (· != ']')) (l := s)
      split at h
      · rename_i c rest hdrop
        obtain ⟨hname, rfl⟩ := Prod.mk.inj (Option.some.inj h)
        have hc := List.head?_dropWhile_not (· != ']') s
        rw [hdrop] at hc hs
        simp only [List.head?_cons, bne_eq_false_iff_eq] at hc
        rw [← hs, hname, hc]
        exact .inr rfl
      · cases h
    · have hs := List.takeWhile_append_dropWhile (p := isSegmentChar) (l := s)
      split at h
      · cases h
      -- the whole of `s` is made of segment characters, since nothing is left over
      · rename_i c name htake
        obtain ⟨hname, hrest⟩ := Prod.mk.inj (Option.some.inj h)
        rw [htake, hname, hrest, List.append_nil] at hs
        exact .inl hs.symm
  · rintro (rfl | rfl)
    · rfl
    · rfl

theorem readData_fault_iff (segments : List Text) :
    (∃ f, readData segments = .error (.fault f)) ↔ segments = [] := by
  constructor
  · rintro ⟨f, h⟩
    cases segments with
    | nil => rfl
    | cons name rest =>
      rw [readData] at h
      split at h
      · cases h
      · split at h
        · cases h
        · split at h <;> cases h
  · rintro rfl
    exact ⟨_, rfl⟩

/-- The segments of a path from which the name of the scope itself is dropped. -/
theorem drop_this_eq_nil {segments : List Text} (hne : segments ≠ []) :
    (if segments.head? = some thisWord then segments.drop 1 else segments) = [] ↔
      segments = [thisWord] := by
  obtain ⟨name, rest, rfl⟩ := List.exists_cons_of_ne_nil hne
  by_cases hname : name = thisWord
  · rw [if_pos (by rw [hname]; rfl), hname]
    simp
  · rw [if_neg (by simpa using hname)]
    simp [hname]

theorem readSegments_ok {s : Text} {segments : List Text}
    (h : readSegments s = .ok segments) : segments? [] s = some segments ∧ segments ≠ [] := by
  rw [readSegments] at h
  split at h
  · cases h
  · split at h
    · rename_i segments' hs
      cases h
      obtain ⟨name, rest, hsegments, -⟩ := segments_eq_some hs
      exact ⟨hs, by rw [hsegments]; simp⟩
    · cases h

theorem readSegments_error {s : Text} {e : Refusal} (h : readSegments s = .error e) :
    ∃ cause, e = .problem cause := by
  rw [readSegments] at h
  split at h
  · cases h
    exact ⟨_, rfl⟩
  · split at h
    · cases h
    · cases h
      exact ⟨_, rfl⟩

theorem readSegments_this {s : Text} :
    readSegments s = .ok [thisWord] ↔ s = thisWord ∨ s = '[' :: thisWord ++ [']'] := by
  constructor
  · intro h
    obtain ⟨name, rest, hsegments, hlast⟩ := segments_eq_some (readSegments_ok h).1
    obtain ⟨rfl, rfl⟩ := List.cons.inj hsegments
    exact segment_eq_this.1 (hlast rfl)
  · intro h
    have hsegment := segment_eq_this.2 h
    have hs : s ≠ [] := by rintro rfl; cases hsegment
    have hsegments : segments? [] s = some [thisWord] := by
      unfold segments?
      split
      · rename_i hnone
        rw [hsegment] at hnone
        cases hnone
      · rename_i name hname
        rw [hsegment] at hname
        cases hname
        rfl
      · rename_i name c rest hname
        rw [hsegment] at hname
        cases hname
    rw [readSegments, if_neg hs, hsegments]

/-- Reading a data path that goes on with segments. -/
theorem read_data (n : Nat) {body rest : Text} (hbody : Settled body) (hthis : body ≠ thisWord)
    (hpoint : body ≠ ['.'])
    (hrest : body = '.' :: '/' :: rest ∨ body = rest ∧ ∀ s, body ≠ '.' :: '/' :: s) :
    read ('@' :: (ups n ++ body)) =
      match readSegments rest with
      | .error e => .error e
      | .ok segments =>
        readData (if segments.head? = some thisWord then segments.drop 1 else segments) := by
  rw [read]
  simp only [takeUps_ups n 0 hbody, Nat.zero_add, hthis, hpoint, or_self, if_false]
  have hat : ∀ s : Text, ('@' :: s).head? ≠ some '[' := fun s h => by cases h
  rcases hrest with rfl | ⟨rfl, hdot⟩
  · rcases hsegments : readSegments rest with e | segments
    · simp only [hsegments]
    · simp only [hsegments, ne_eq, hat, not_false_eq_true, and_true, if_true]
  · rcases hsegments : readSegments body with e | segments
    · simp only [hsegments]
    · simp only [hsegments, ne_eq, hat, not_false_eq_true, and_true, if_true]

/-- A path that does not start with an at sign is never refused with a fault. -/
theorem read_plain {word : Text} (hword : ∀ s, word ≠ '@' :: s) (f : Fault) :
    read word ≠ .error (.fault f) := by
  intro h
  rw [read] at h
  · simp only at h
    split at h
    · cases h
    · split at h
      · rename_i e he
        obtain ⟨cause, rfl⟩ := readSegments_error he
        cases h
      · cases h
  · exact hword

/-- The segments after the steps outward of a data path make the reading fail. -/
theorem readRest_fault_iff (rest : Text) :
    (∃ f, (match readSegments rest with
      | .error e => .error e
      | .ok segments =>
        readData (if segments.head? = some thisWord then segments.drop 1 else segments)) =
      (.error (.fault f) : Reading Path)) ↔
      rest = thisWord ∨ rest = '[' :: thisWord ++ [']'] := by
  rw [← readSegments_this]
  cases hsegments : readSegments rest with
  | error e =>
    obtain ⟨cause, rfl⟩ := readSegments_error hsegments
    simp
  | ok segments =>
    simp only [Except.ok.injEq]
    rw [readData_fault_iff, drop_this_eq_nil (readSegments_ok hsegments).2]

theorem read_data_fault_iff (n : Nat) {body : Text} (hbody : Settled body) :
    (∃ f, read ('@' :: (ups n ++ body)) = .error (.fault f)) ↔
      body = ['.', '/'] ++ thisWord ∨ body = '[' :: thisWord ++ [']'] ∨
        body = ['.', '/'] ++ '[' :: thisWord ++ [']'] := by
  -- `this` and `.` alone name a scope and not data, and so they are read
  by_cases hexplicit : body = thisWord ∨ body = ['.']
  · have hread : read ('@' :: (ups n ++ body)) = .ok (.scope n true []) := by
      rw [read]
      simp only [takeUps_ups n 0 hbody, Nat.zero_add, hexplicit, if_true]
    rw [hread]
    rcases hexplicit with rfl | rfl
    · simp [thisWord]
    · simp
  · rw [not_or] at hexplicit
    by_cases hdot : ∃ rest, body = '.' :: '/' :: rest
    · obtain ⟨rest, rfl⟩ := hdot
      rw [read_data n hbody hexplicit.1 hexplicit.2 (.inl rfl), readRest_fault_iff]
      simp [thisWord]
    · rw [read_data n hbody hexplicit.1 hexplicit.2 (.inr ⟨rfl, fun s hs => hdot ⟨s, hs⟩⟩),
        readRest_fault_iff]
      constructor
      · rintro (h | h)
        · exact absurd h hexplicit.1
        · exact .inr (.inl h)
      · rintro (h | h | h)
        · exact absurd ⟨_, h⟩ hdot
        · exact .inr h
        · exact absurd ⟨_, h⟩ hdot

theorem read_fault_iff (word : Text) :
    (∃ f, read word = .error (.fault f)) ↔ IsEmptyData word := by
  constructor
  · rintro ⟨f, hf⟩
    by_cases hword : ∃ s, word = '@' :: s
    · obtain ⟨s, rfl⟩ := hword
      obtain ⟨n, body, -, rfl, hbody⟩ := takeUps_spec 0 s
      exact ⟨n, body, rfl, (read_data_fault_iff n hbody).1 ⟨f, hf⟩⟩
    · exact absurd hf (read_plain (fun s hs => hword ⟨s, hs⟩) f)
  · rintro ⟨n, body, rfl, h⟩
    have hbody : Settled body := by
      intro s hs
      rcases h with rfl | rfl | rfl <;> simp at hs
    exact (read_data_fault_iff n hbody).2 h

end Path

namespace Expr

/-- A numeral with more digits than an integer may have. -/
def IsLongNumeral (word : Text) : Prop :=
  ∃ negative whole, numeral? word = some (negative, whole, none) ∧
    Integer.maxDigits < whole.length

/-- A word whose reading ends with a fault. -/
def Breaks (word : Text) : Prop := Path.IsEmptyData word ∨ IsLongNumeral word

theorem takeWhile_takeWhile (p : Char → Bool) (s : Text) :
    (s.takeWhile p).takeWhile p = s.takeWhile p := by
  have hall : ∀ c ∈ s.takeWhile p, p c = true := List.all_eq_true.1 List.all_takeWhile
  simpa using @List.takeWhile_append_of_pos _ p (s.takeWhile p) [] hall

/-- The digits of a numeral without a fraction are decimal digits. -/
theorem numeral_decimal {word whole : Text} {negative : Bool}
    (h : numeral? word = some (negative, whole, none)) : whole.takeWhile Text.isDecimal = whole := by
  unfold numeral? at h
  simp only at h
  split at h
  · cases h
  · cases h
    exact takeWhile_takeWhile Text.isDecimal _
  · split at h <;> cases h
  · cases h

theorem readNumeral_fault_iff (word : Text) {n : Bool × Text × Option Text}
    (hn : numeral? word = some n) :
    (∃ f, readNumeral word n = .error (.fault f)) ↔ IsLongNumeral word := by
  obtain ⟨negative, whole, fraction⟩ := n
  cases fraction with
  | none =>
    have hlong : IsLongNumeral word ↔ Integer.maxDigits < whole.length := by
      constructor
      · rintro ⟨negative', whole', hn', hlen⟩
        rw [hn] at hn'
        cases hn'
        exact hlen
      · exact fun hlen => ⟨negative, whole, hn, hlen⟩
    rw [hlong, readNumeral, Integer.ofDigits, numeral_decimal hn]
    by_cases hlen : Integer.maxDigits < whole.length
    · simp [hlen]
    · simp [hlen]
  | some fraction =>
    constructor
    · rintro ⟨f, h⟩
      rw [readNumeral] at h
      split at h <;> cases h
    · rintro ⟨negative', whole', hn', -⟩
      rw [hn] at hn'
      cases hn'

/-- The words that stand for a value consist of letters. -/
theorem keyword?_of_mem {word : Text} {c : Char} (hc : c ∈ word) (hletter : c.isAlpha = false) :
    keyword? word = none := by
  have hne (s : String) (hs : (lit s).all Char.isAlpha = true) : word ≠ lit s := by
    rintro rfl
    rw [List.all_eq_true.1 hs c hc] at hletter
    cases hletter
  rw [keyword?, if_neg (hne _ (by decide +kernel)), if_neg (hne _ (by decide +kernel)),
    if_neg (not_or.2 ⟨hne _ (by decide +kernel), hne _ (by decide +kernel)⟩)]

theorem numeral_of_isEmptyData {word : Text} (h : Path.IsEmptyData word) :
    keyword? word = none ∧ numeral? word = none := by
  obtain ⟨n, body, rfl, -⟩ := h
  have hdigit : Text.isDecimal '@' = false := by decide
  refine ⟨keyword?_of_mem List.mem_cons_self (by decide), ?_⟩
  unfold numeral?
  simp [hdigit]

theorem numeral_of_keyword {word : Text} {v : Value} (h : keyword? word = some v) :
    numeral? word = none := by
  have hdigit : Text.isDecimal 't' = false ∧ Text.isDecimal 'f' = false ∧
      Text.isDecimal 'n' = false ∧ Text.isDecimal 'u' = false := by decide
  have hletter : word.head? = some 't' ∨ word.head? = some 'f' ∨ word.head? = some 'n' ∨
      word.head? = some 'u' := by
    unfold keyword? at h
    repeat rw [lit_ofList] at h
    split at h
    · simp_all
    · split at h
      · simp_all
      · split at h
        · rename_i hnull
          rcases hnull with rfl | rfl
          · simp
          · simp
        · cases h
  obtain ⟨c, rest, rfl⟩ : ∃ c rest, word = c :: rest := by
    cases word with
    | nil => simp at hletter
    | cons c rest => exact ⟨c, rest, rfl⟩
  simp only [List.head?_cons, Option.some.injEq] at hletter
  unfold numeral?
  rcases hletter with rfl | rfl | rfl | rfl <;> simp [hdigit]

theorem readWord_fault_iff (word : Text) :
    (∃ f, readWord word = .error (.fault f)) ↔ Breaks word := by
  rw [readWord, Breaks]
  -- keywords, numerals and paths are tried in this order, and no word breaks as two of them
  cases hkeyword : keyword? word with
  | some v =>
    have hnumeral := numeral_of_keyword hkeyword
    simp only [reduceCtorEq, exists_false, false_iff, not_or]
    constructor
    · intro h
      rw [(numeral_of_isEmptyData h).1] at hkeyword
      cases hkeyword
    · rintro ⟨negative, whole, h, -⟩
      rw [hnumeral] at h
      cases h
  | none =>
    cases hnumeral : numeral? word with
    | some n =>
      simp only
      rw [readNumeral_fault_iff word hnumeral]
      constructor
      · exact .inr
      · rintro (h | h)
        · rw [(numeral_of_isEmptyData h).2] at hnumeral
          cases hnumeral
        · exact h
    | none =>
      simp only
      have hlong : ¬ IsLongNumeral word := by
        rintro ⟨negative, whole, h, -⟩
        rw [hnumeral] at h
        cases h
      rw [or_iff_left hlong, ← Path.read_fault_iff]
      cases Path.read word with
      | error e => simp [Except.map]
      | ok p => simp [Except.map]

end Expr
end Tender
