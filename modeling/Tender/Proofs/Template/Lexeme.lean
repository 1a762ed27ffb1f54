/-
The lexemes of a text, one by one.

* `readAll_step` — one lexeme after the other is read off a text;
* `readAll_blank` — blanks in front of a lexeme do not matter;
* `readAll_quoted`, `readAll_key`, `readAll_word` — how far a quoted text, a key and a word go;
* `readWord_bracketed` — between brackets, any character belongs to a word.

A word goes on to what `EndsWord`: a blank, a closing parenthesis or the end of the text.
-/
import Tender.Proofs.Text.Blank
import Tender.Proofs.Token
import Tender.Template.Lexeme

namespace Tender

open Text

namespace Lexeme

variable {c : Char} {s t w rest : Text} {done : List Lexeme}

/-! ### Words -/

/-- A text that is one lexeme if nothing of a word follows it. -/
structure IsBareWord (w : Text) : Prop where
  ne_nil : w ≠ []
  chars : ∀ x ∈ w, isWordChar x = true

/-- Nothing, or a character that ends a word. -/
def EndsWord (rest : Text) : Prop := ∀ x ∈ rest.head?, isBlank x = true ∨ x = ')'

theorem endsWord_closed (rest : Text) : EndsWord (')' :: rest) := fun x hx => by
  cases hx
  exact .inr rfl

/-- White space in front of what ends a word ends it, too. -/
theorem EndsWord.blank_append (hw : ∀ x ∈ w, isBlank x = true) (hrest : EndsWord rest) :
    EndsWord (w ++ rest) := by
  cases w with
  | nil => exact hrest
  | cons c w =>
    intro x hx
    cases hx
    exact .inl (hw c List.mem_cons_self)

theorem not_isWordChar_of_isBlank (hc : isBlank c = true) : isWordChar c = false := by
  simp [isWordChar, hc]

theorem not_isNameRest_of_isBlank (hc : isBlank c = true) : isNameRest c = false := by
  have hall : ∀ n ∈ blanks, isNameRest (Char.ofNat n) = false := by decide
  have h := hall c.toNat (by simpa [isBlank] using hc)
  rwa [Char.ofNat_toNat] at h

/-- What may stand in a name may stand in a word. -/
theorem isWordChar_of_isNameRest (hc : isNameRest c = true) : isWordChar c = true := by
  cases hword : isWordChar c with
  | true => rfl
  | false =>
    simp only [isWordChar, Bool.not_eq_false', Bool.or_eq_true, beq_iff_eq] at hword
    rcases hword with (((((hblank | rfl) | rfl) | rfl) | rfl) | rfl) | rfl
    · rw [not_isNameRest_of_isBlank hblank] at hc
      cases hc
    all_goals exact absurd hc (by decide)

/-- What ends a word is no character of a word and opens no bracket. -/
theorem EndsWord.head (h : EndsWord (c :: rest)) : isWordChar c = false ∧ c ≠ '[' := by
  rcases h c rfl with hc | rfl
  · refine ⟨not_isWordChar_of_isBlank hc, ?_⟩
    rintro rfl
    exact absurd hc (by decide)
  · decide

theorem readWord_end (hrest : EndsWord rest) (seen : Text) :
    readWord false seen rest = (seen.reverse, rest) := by
  cases rest with
  | nil => rfl
  | cons c rest =>
    obtain ⟨hchar, hbracket⟩ := hrest.head
    rw [readWord, if_neg hbracket, if_neg (by simp [hchar])]

theorem readWord_append (hw : ∀ x ∈ w, isWordChar x = true) (hrest : EndsWord rest) (seen : Text) :
    readWord false seen (w ++ rest) = (seen.reverse ++ w, rest) := by
  induction w generalizing seen with
  | nil => rw [List.nil_append, List.append_nil, readWord_end hrest]
  | cons c w ih =>
    have hc := hw c List.mem_cons_self
    have hbracket : c ≠ '[' := by
      rintro rfl
      cases hc
    rw [List.cons_append, readWord, if_neg hbracket, if_pos hc,
      ih fun x hx => hw x (List.mem_cons_of_mem c hx), List.reverse_cons, List.append_assoc]
    rfl

/-- Between brackets, any character but a closing bracket belongs to a word. -/
theorem readWord_inside (hs : ']' ∉ s) (seen : Text) :
    readWord true seen (s ++ ']' :: rest) = readWord false (']' :: (s.reverse ++ seen)) rest := by
  induction s generalizing seen with
  | nil => rfl
  | cons c s ih =>
    obtain ⟨hc, hs⟩ := not_or.1 (mt List.mem_cons.2 hs)
    have hopen : (c != ']') = true := bne_iff_ne.2 (Ne.symm hc)
    rw [List.cons_append, readWord, hopen, ih hs, List.reverse_cons, List.append_assoc]
    rfl

theorem readWord_bracketed (hs : ']' ∉ s) (seen : Text) :
    readWord false seen ('[' :: (s ++ ']' :: rest)) =
      readWord false (('[' :: (s ++ [']'])).reverse ++ seen) rest := by
  have hclosed : (s ++ ']' :: rest).elem ']' = true := by simp
  rw [readWord, if_pos rfl, if_pos hclosed, readWord_inside hs]
  simp

theorem readKey?_append (hw : ∀ x ∈ w, isWordChar x = true) (hrest : EndsWord rest) :
    readKey? (w ++ rest) = none := by
  have hsign : ∀ t, (w ++ rest).dropWhile isNameRest ≠ '=' :: t := by
    intro t ht
    rw [List.dropWhile_append] at ht
    split at ht
    · -- an equals sign does not end a word
      have hmem : '=' ∈ rest.head? := by
        cases rest with
        | nil => cases ht
        | cons x rest =>
          by_cases hx : isNameRest x = true
          · have hend := (EndsWord.head hrest).1
            have hword : isWordChar x = true := isWordChar_of_isNameRest hx
            rw [hword] at hend
            cases hend
          · rw [List.dropWhile_cons_of_neg hx] at ht
            exact congrArg some (List.cons.inj ht).1
      rcases hrest '=' hmem with hblank | heq
      · exact absurd hblank (by decide)
      · exact absurd heq (by decide)
    · rename_i hne
      cases hdrop : w.dropWhile isNameRest with
      | nil =>
        rw [hdrop] at hne
        exact hne rfl
      | cons c t' =>
        rw [hdrop] at ht
        obtain ⟨rfl, -⟩ := List.cons.inj ht
        have hmem : '=' ∈ w :=
          (List.dropWhile_suffix isNameRest).subset (hdrop ▸ List.mem_cons_self)
        cases hw _ hmem
  rw [readKey?]
  split
  · rename_i t ht
    exact absurd ht (hsign t)
  · rfl

theorem readBare?_word {v : Text} (hkey : readKey? s = none) (hword : readWord false [] s = (w, v))
    (hne : w ≠ []) : readBare? s = some (.word w, v) := by
  rw [readBare?, hkey]
  simp only [hword]
  split
  · rename_i heq
    exact absurd (Prod.mk.inj heq).1 hne
  · rename_i heq
    cases heq
    rfl

/-- A lexeme that starts with no parenthesis and no quote is a key or a word. -/
theorem read?_bare (hc : c ∉ ['(', ')', '"', '\'']) : read? (c :: s) = readBare? (c :: s) := by
  simp only [List.mem_cons, List.not_mem_nil, or_false, not_or] at hc
  obtain ⟨hopened, hclosed, hdouble, hsingle⟩ := hc
  unfold read?
  split
  · rename_i heq
    exact absurd (List.cons.inj heq).1 hopened
  · rename_i heq
    exact absurd (List.cons.inj heq).1 hclosed
  · rename_i heq
    exact absurd (List.cons.inj heq).1 hdouble
  · rename_i heq
    exact absurd (List.cons.inj heq).1 hsingle
  · rfl

theorem not_mem_of_isWordChar (hc : isWordChar c = true) : c ∉ ['(', ')', '"', '\''] := by
  intro hmem
  simp only [List.mem_cons, List.not_mem_nil, or_false] at hmem
  rcases hmem with rfl | rfl | rfl | rfl <;> exact absurd hc (by decide)

/-- A word is read as such up to what ends it. -/
theorem IsBareWord.read?_append (h : IsBareWord w) (hrest : EndsWord rest) :
    read? (w ++ rest) = some (.word w, rest) := by
  have hbare := readBare?_word (readKey?_append h.chars hrest) (readWord_append h.chars hrest [])
    h.ne_nil
  obtain ⟨c, v, rfl⟩ := List.exists_cons_of_ne_nil h.ne_nil
  rw [List.cons_append] at hbare ⊢
  rwa [read?_bare (not_mem_of_isWordChar (h.chars c List.mem_cons_self))]

theorem IsBareWord.not_blank (h : IsBareWord w) {x : Char} (hx : x ∈ w) : isBlank x = false := by
  have hword := h.chars x hx
  cases hblank : isBlank x with
  | false => rfl
  | true =>
    rw [isWordChar, hblank] at hword
    cases hword

theorem IsBareWord.trimStart_append (h : IsBareWord w) (s : Text) : trimStart (w ++ s) = w ++ s := by
  obtain ⟨c, v, rfl⟩ := List.exists_cons_of_ne_nil h.ne_nil
  exact List.dropWhile_cons_of_neg (by rw [h.not_blank List.mem_cons_self]; simp)

theorem isBareWord_name {name : Text} (hname : isName name = true) : IsBareWord name := by
  refine ⟨?_, fun x hx => isWordChar_of_isNameRest (isNameRest_of_mem hname hx)⟩
  rintro rfl
  cases hname

/-! ### Keys and quoted texts -/

/-- A key is a name up to its equals sign. -/
theorem read?_key {k : Text} (hk : isName k = true) (rest : Text) :
    read? (k ++ '=' :: rest) = some (.key k, rest) := by
  have hall : ∀ x ∈ k, isNameRest x = true := fun x hx => isNameRest_of_mem hk hx
  have hsign : ¬ isNameRest '=' = true := by decide
  have hkey : readKey? (k ++ '=' :: rest) = some (k, rest) := by
    rw [readKey?, List.takeWhile_append_of_pos hall, List.dropWhile_append_of_pos hall,
      List.takeWhile_cons_of_neg hsign, List.dropWhile_cons_of_neg hsign, List.append_nil]
    exact if_pos hk
  have hne := (isBareWord_name hk).ne_nil
  obtain ⟨c, v, rfl⟩ := List.exists_cons_of_ne_nil hne
  rw [List.cons_append] at hkey ⊢
  rw [read?_bare (not_mem_of_isWordChar (isWordChar_of_isNameRest (hall c List.mem_cons_self))),
    readBare?, hkey]

/-- A text that can stand between quotes: a quote in it has a backslash in front, and a backslash
takes the next character with it, which is not the end of a line. -/
inductive IsQuotable (quote : Char) : Text → Prop
  | nil : IsQuotable quote []
  | char {c : Char} {s : Text} (hquote : c ≠ quote) (hescape : c ≠ '\\') (hs : IsQuotable quote s) :
      IsQuotable quote (c :: s)
  | escape {c : Char} {s : Text} (hline : c ≠ '\n') (hs : IsQuotable quote s) :
      IsQuotable quote ('\\' :: c :: s)

theorem IsQuotable.of_not_mem {quote : Char} (hquote : quote ∉ s) (hescape : '\\' ∉ s) :
    IsQuotable quote s := by
  induction s with
  | nil => exact .nil
  | cons c s ih =>
    obtain ⟨hc, hquote⟩ := not_or.1 (mt List.mem_cons.2 hquote)
    obtain ⟨hc', hescape⟩ := not_or.1 (mt List.mem_cons.2 hescape)
    exact .char (Ne.symm hc) (Ne.symm hc') (ih hquote hescape)

/-- A quoted text goes on to the first quote that no backslash stands in front of. -/
theorem IsQuotable.readQuoted_append {quote : Char} (hs : IsQuotable quote s)
    (hquote : quote ≠ '\\') (seen rest : Text) :
    readQuoted quote seen (s ++ quote :: rest) = some (seen.reverse ++ s, rest) := by
  induction hs generalizing seen with
  | nil =>
    rw [List.nil_append, List.append_nil, readQuoted.eq_def]
    exact if_pos rfl
  | @char c s hc hescape _ ih =>
    have hstep : readQuoted quote seen (c :: (s ++ quote :: rest)) =
        readQuoted quote (c :: seen) (s ++ quote :: rest) := by
      rw [readQuoted.eq_def]
      exact (if_neg hc).trans (if_neg hescape)
    rw [List.cons_append, hstep, ih, List.reverse_cons, List.append_assoc]
    rfl
  | @escape c s hline _ ih =>
    have hstep : readQuoted quote seen ('\\' :: c :: (s ++ quote :: rest)) =
        readQuoted quote (c :: '\\' :: seen) (s ++ quote :: rest) := by
      rw [readQuoted.eq_def]
      exact (if_neg (Ne.symm hquote)).trans ((if_pos rfl).trans (if_neg hline))
    rw [List.cons_append, List.cons_append, hstep, ih]
    simp

/-! ### Lexemes in a row -/

/-- One lexeme after the other is read off a text. -/
theorem readAll_step {l : Lexeme} (htrim : trimStart s = t)
    (hread : read? t = some (l, rest)) : readAll done s = readAll (l :: done) rest := by
  cases t with
  | nil => cases hread
  | cons c t =>
    rw [readAll]
    split
    · rename_i hnil
      rw [htrim] at hnil
      cases hnil
    · rename_i c' t' heq
      rw [htrim] at heq
      cases heq
      split
      · rename_i hnone
        rw [hread] at hnone
        cases hnone
      · rename_i l' rest' hsome
        rw [hread] at hsome
        cases hsome
        rfl

theorem readAll_stop (htrim : trimStart s = c :: t) (hread : read? (c :: t) = none) :
    readAll done s = none := by
  rw [readAll]
  split
  · rename_i hnil
    rw [htrim] at hnil
    cases hnil
  · rename_i heq
    rw [htrim] at heq
    cases heq
    split
    · rfl
    · rename_i hsome
      rw [hread] at hsome
      cases hsome

theorem readAll_end (htrim : trimStart s = []) : readAll done s = some done.reverse := by
  rw [readAll]
  split
  · rfl
  · rename_i heq
    rw [htrim] at heq
    cases heq

theorem readAll_nil : readAll done [] = some done.reverse := readAll_end rfl

/-- White space in front of a lexeme does not matter. -/
theorem readAll_blank (hw : ∀ x ∈ w, isBlank x = true) (s : Text) :
    readAll done (w ++ s) = readAll done s := by
  have htrim := trimStart_append_of_blank hw s
  cases hs : trimStart s with
  | nil => rw [readAll_end (htrim.trans hs), readAll_end hs]
  | cons c t =>
    cases hread : read? (c :: t) with
    | none => rw [readAll_stop (htrim.trans hs) hread, readAll_stop hs hread]
    | some found =>
      obtain ⟨l, rest⟩ := found
      rw [readAll_step (htrim.trans hs) hread, readAll_step hs hread]

theorem readAll_opened (s : Text) : readAll done ('(' :: s) = readAll (.opened :: done) s :=
  readAll_step rfl rfl

theorem readAll_closed (s : Text) : readAll done (')' :: s) = readAll (.closed :: done) s :=
  readAll_step rfl rfl

theorem readAll_word (hw : IsBareWord w) (hrest : EndsWord rest) :
    readAll done (w ++ rest) = readAll (.word w :: done) rest :=
  readAll_step (hw.trimStart_append rest) (hw.read?_append hrest)

theorem readAll_key {k : Text} (hk : isName k = true) (rest : Text) :
    readAll done (k ++ '=' :: rest) = readAll (.key k :: done) rest :=
  readAll_step ((isBareWord_name hk).trimStart_append _) (read?_key hk rest)

theorem readAll_quoted {quote : Char} (hquote : quote = '"' ∨ quote = '\'')
    (hs : IsQuotable quote s) (rest : Text) :
    readAll done (quote :: (s ++ quote :: rest)) = readAll (.quoted s :: done) rest := by
  rcases hquote with rfl | rfl
  · refine readAll_step rfl ?_
    show (readQuoted '"' [] (s ++ '"' :: rest)).map _ = _
    rw [hs.readQuoted_append (by decide)]
    rfl
  · refine readAll_step rfl ?_
    show (readQuoted '\'' [] (s ++ '\'' :: rest)).map _ = _
    rw [hs.readQuoted_append (by decide)]
    rfl

end Lexeme
end Tender
