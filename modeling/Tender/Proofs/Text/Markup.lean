/-
Texts that cannot be taken for markup.

* `hasNoBrace_append` and its companions — where braces can come from;
* `isMark_of_mem_safe` — a text made safe holds none of the characters that mean something in
  markup or in a template.
-/
import Tender.Text.Markup

namespace Tender.Text

/-! ### Numerals -/

/-- A numeral is written with digits and a sign. -/
def isNumeralChar (c : Char) : Bool :=
  c.isDigit || c == '-'

theorem isNumeralChar_of_mem_ofNat {n : Nat} {c : Char} (h : c ∈ ofNat n) :
    isNumeralChar c = true := by
  rw [isNumeralChar, Nat.isDigit_of_mem_toDigits (by omega) (by omega) h]
  rfl

theorem isNumeralChar_of_mem_ofInt {n : Int} {c : Char} (h : c ∈ ofInt n) :
    isNumeralChar c = true := by
  unfold ofInt at h
  split at h
  · rcases List.mem_cons.1 h with rfl | h
    · rfl
    · exact isNumeralChar_of_mem_ofNat h
  · exact isNumeralChar_of_mem_ofNat h

theorem not_mem_ofNat {n : Nat} {c : Char} (hc : isNumeralChar c = false) : c ∉ ofNat n := by
  intro h
  rw [isNumeralChar_of_mem_ofNat h] at hc
  exact absurd hc (by simp)

theorem not_mem_ofInt {n : Int} {c : Char} (hc : isNumeralChar c = false) : c ∉ ofInt n := by
  intro h
  rw [isNumeralChar_of_mem_ofInt h] at hc
  exact absurd hc (by simp)

/-! ### Braces -/

@[simp] theorem hasNoBrace_nil : hasNoBrace [] = true := rfl

@[simp] theorem hasNoBrace_cons (c : Char) (s : Text) :
    hasNoBrace (c :: s) = ((c ≠ '{' && c ≠ '}') && hasNoBrace s) := rfl

@[simp] theorem hasNoBrace_append (s t : Text) :
    hasNoBrace (s ++ t) = (hasNoBrace s && hasNoBrace t) := List.all_append

theorem hasNoBrace_iff {s : Text} : hasNoBrace s = true ↔ '{' ∉ s ∧ '}' ∉ s := by
  constructor
  · intro h
    exact ⟨fun hmem => (ne_brace_of_hasNoBrace h hmem).1 rfl,
      fun hmem => (ne_brace_of_hasNoBrace h hmem).2 rfl⟩
  · rintro ⟨h, h'⟩
    refine List.all_eq_true.2 fun c hc => ?_
    have hopen : c ≠ '{' := fun heq => h (heq ▸ hc)
    have hclose : c ≠ '}' := fun heq => h' (heq ▸ hc)
    simp [hopen, hclose]

@[simp] theorem hasNoBrace_ofNat (n : Nat) : hasNoBrace (ofNat n) = true :=
  hasNoBrace_iff.2 ⟨not_mem_ofNat (by decide), not_mem_ofNat (by decide)⟩

@[simp] theorem hasNoBrace_ofInt (n : Int) : hasNoBrace (ofInt n) = true :=
  hasNoBrace_iff.2 ⟨not_mem_ofInt (by decide), not_mem_ofInt (by decide)⟩

@[simp] theorem hasNoBrace_encodeBraces (s : Text) : hasNoBrace (encodeBraces s) = true :=
  hasNoBrace_iff.2
    ⟨fun h => (no_brace_encodeBraces h).1 rfl, fun h => (no_brace_encodeBraces h).2 rfl⟩

theorem encodeBraces_of_no_brace {s : Text} (h : hasNoBrace s = true) : encodeBraces s = s := by
  induction s with
  | nil => rfl
  | cons c s ih =>
    rw [hasNoBrace_cons, Bool.and_eq_true] at h
    have hc : encodeBrace c = [c] := by
      unfold encodeBrace
      split <;> simp_all
    rw [encodeBraces, List.flatMap_cons, hc, ← encodeBraces, ih h.2]
    rfl

@[simp] theorem hasNoBrace_safe (s : Text) : hasNoBrace (safe s) = true :=
  hasNoBrace_encodeBraces _

/-! ### Marks -/

/-- A character that opens or closes something in markup or in a template. -/
def isMark (c : Char) : Bool :=
  ['<', '>', '"', '\'', '{', '}'].contains c

/-- One character made safe. -/
def safeChar (c : Char) : Text :=
  encodeBraces (escapeChar c)

theorem safe_nil : safe [] = [] := rfl

theorem safe_cons (c : Char) (s : Text) : safe (c :: s) = safeChar c ++ safe s := by
  rw [safe, escape, List.flatMap_cons, encodeBraces_append]
  rfl

/-- How a character is made safe: nothing is done to it, or a reference is written for it. -/
theorem safeChar_cases (c : Char) :
    (c ≠ '&' ∧ isMark c = false ∧ safeChar c = [c]) ∨
    (c = '&' ∧ safeChar c = lit "&amp;") ∨ (c = '<' ∧ safeChar c = lit "&lt;") ∨
    (c = '>' ∧ safeChar c = lit "&gt;") ∨ (c = '"' ∧ safeChar c = lit "&#34;") ∨
    (c = '\'' ∧ safeChar c = lit "&#39;") ∨ (c = '{' ∧ safeChar c = lit "&#123;") ∨
    (c = '}' ∧ safeChar c = lit "&#125;") := by
  by_cases h₁ : c = '&'
  · subst h₁; exact .inr (.inl ⟨rfl, by decide +kernel⟩)
  by_cases h₂ : c = '<'
  · subst h₂; exact .inr (.inr (.inl ⟨rfl, by decide +kernel⟩))
  by_cases h₃ : c = '>'
  · subst h₃; exact .inr (.inr (.inr (.inl ⟨rfl, by decide +kernel⟩)))
  by_cases h₄ : c = '"'
  · subst h₄; exact .inr (.inr (.inr (.inr (.inl ⟨rfl, by decide +kernel⟩))))
  by_cases h₅ : c = '\''
  · subst h₅; exact .inr (.inr (.inr (.inr (.inr (.inl ⟨rfl, by decide +kernel⟩)))))
  by_cases h₆ : c = '{'
  · subst h₆; exact .inr (.inr (.inr (.inr (.inr (.inr (.inl ⟨rfl, by decide +kernel⟩))))))
  by_cases h₇ : c = '}'
  · subst h₇; exact .inr (.inr (.inr (.inr (.inr (.inr (.inr ⟨rfl, by decide +kernel⟩))))))
  refine .inl ⟨h₁, by simp [isMark, h₂, h₃, h₄, h₅, h₆, h₇], ?_⟩
  have hescape : escapeChar c = [c] := by
    unfold escapeChar
    split <;> first | rfl | contradiction
  have hbrace : encodeBrace c = [c] := by
    unfold encodeBrace
    split <;> first | rfl | contradiction
  rw [safeChar, hescape, encodeBraces, List.flatMap_cons, hbrace]
  rfl

theorem isMark_of_mem_lit {s : Text} (hs : (s.all fun d => !isMark d) = true) {d : Char}
    (h : d ∈ lit (String.ofList s)) : isMark d = false := by
  rw [lit_ofList] at h
  simpa using List.all_eq_true.1 hs d h

theorem isMark_of_mem_safeChar {c d : Char} (h : d ∈ safeChar c) : isMark d = false := by
  rcases safeChar_cases c with ⟨-, hc, heq⟩ | ⟨-, heq⟩ | ⟨-, heq⟩ | ⟨-, heq⟩ | ⟨-, heq⟩ | ⟨-, heq⟩ |
    ⟨-, heq⟩ | ⟨-, heq⟩
  · rw [heq, List.mem_singleton] at h
    rw [h, hc]
  all_goals
    rw [heq] at h
    exact isMark_of_mem_lit (by decide) h

theorem isMark_of_mem_safe {s : Text} {d : Char} (h : d ∈ safe s) : isMark d = false := by
  induction s with
  | nil => simp [safe_nil] at h
  | cons c s ih =>
    rw [safe_cons, List.mem_append] at h
    rcases h with h | h
    · exact isMark_of_mem_safeChar h
    · exact ih h

end Tender.Text
