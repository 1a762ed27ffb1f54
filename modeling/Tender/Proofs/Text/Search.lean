/-
Words in any case, and texts up to a character.

* `eq_of_sameLetter` — only letters are written in two ways;
* `afterWord?_eq_some_iff`, `afterWord?_trimStart_iff`, `afterChar?_eq_some_iff` — what the searches
  read is described by how it is written.
-/
import Mathlib.Data.List.Forall2
import Tender.Proofs.Text.Blank
import Tender.Text.Search

namespace Tender.Text

variable {small c : Char} {word w s rest : Text}

theorem isLower_iff : c.isLower = true ↔ c.val ≥ 'a'.val ∧ c.val ≤ 'z'.val := by
  show (decide (c.val ≥ 'a'.val) && decide (c.val ≤ 'z'.val)) = true ↔ _
  rw [Bool.and_eq_true, decide_eq_true_eq, decide_eq_true_eq]

/-- Only letters are written in two ways. -/
theorem eq_of_sameLetter (hsmall : small.isLower = false) (h : sameLetter small c = true) :
    c = small := by
  simp only [sameLetter, Bool.or_eq_true, Bool.and_eq_true, decide_eq_true_eq] at h
  rcases h with (((rfl | rfl) | ⟨rfl, -⟩) | ⟨rfl, -⟩) | ⟨rfl, -⟩
  · rfl
  · unfold Char.toLower at hsmall ⊢
    split at hsmall
    -- a capital letter becomes a small one
    · rename_i hcapital
      rw [← Bool.not_eq_true, isLower_iff] at hsmall
      simp only [UInt32.le_iff_toNat_le, ge_iff_le] at hcapital
      grind
    · split
      · contradiction
      · rfl
  all_goals cases hsmall

theorem isBlank_of_capital (h : c.val ≥ 'A'.val ∧ c.val ≤ 'Z'.val) : isBlank c = false := by
  have hrange : 65 ≤ c.toNat ∧ c.toNat ≤ 90 := by simpa [UInt32.le_iff_toNat_le] using h
  have hall : ∀ n ∈ blanks, n < 65 ∨ 90 < n := by decide
  rw [isBlank, ← Bool.not_eq_true, List.contains_iff_mem]
  intro hmem
  have := hall _ hmem
  omega

theorem isBlank_of_sameLetter (hsmall : isBlank small = false) (h : sameLetter small c = true) :
    isBlank c = false := by
  simp only [sameLetter, Bool.or_eq_true, Bool.and_eq_true, decide_eq_true_eq] at h
  rcases h with (((rfl | rfl) | ⟨-, rfl | rfl⟩) | ⟨-, rfl⟩) | ⟨-, rfl⟩
  · exact hsmall
  · unfold Char.toLower at hsmall
    split at hsmall
    · rename_i hcapital
      exact isBlank_of_capital hcapital
    · exact hsmall
  all_goals decide

/-- A text is a word in any case; the word is given in small letters. -/
def InAnyCase (word w : Text) : Prop :=
  List.Forall₂ (fun small c => sameLetter small c = true) word w

theorem InAnyCase.head? {k : Char} (h : InAnyCase word w) (hk : word.head? = some k)
    (hsmall : k.isLower = false) : w.head? = some k := by
  cases h with
  | nil => cases hk
  | cons hc _ =>
    cases hk
    exact congrArg some (eq_of_sameLetter hsmall hc)

theorem InAnyCase.getLast? {k : Char} (h : InAnyCase word w) (hk : word.getLast? = some k)
    (hsmall : k.isLower = false) : w.getLast? = some k := by
  have hreverse : InAnyCase word.reverse w.reverse := List.rel_reverse h
  rw [← List.head?_reverse] at hk ⊢
  exact hreverse.head? hk hsmall

theorem afterWord?_eq_some_iff :
    afterWord? word s = some rest ↔ ∃ w, InAnyCase word w ∧ w ++ rest = s := by
  constructor
  · intro h
    induction word generalizing s with
    | nil =>
      cases h
      exact ⟨[], .nil, rfl⟩
    | cons small word ih =>
      cases s with
      | nil => cases h
      | cons c s =>
        rw [afterWord?] at h
        split at h
        · rename_i hc
          obtain ⟨w, hw, rfl⟩ := ih h
          exact ⟨c :: w, .cons hc hw, rfl⟩
        · cases h
  · rintro ⟨w, hw, rfl⟩
    induction hw with
    | nil => rfl
    | cons hc _ ih => rw [List.cons_append, afterWord?, if_pos hc, ih]

/-- A word that starts with no blank, behind blanks. -/
theorem afterWord?_trimStart_iff (word : Text)
    (hword : word.head?.any (fun k => !isBlank k) = true) (s rest : Text) :
    afterWord? word (trimStart s) = some rest ↔
      ∃ x w, allBlank x = true ∧ InAnyCase word w ∧ x ++ (w ++ rest) = s := by
  rw [afterWord?_eq_some_iff]
  constructor
  · rintro ⟨w, hw, heq⟩
    refine ⟨s.takeWhile isBlank, w, List.all_takeWhile, hw, ?_⟩
    rw [heq]
    exact List.takeWhile_append_dropWhile
  · rintro ⟨x, w, hx, hw, rfl⟩
    refine ⟨w, hw, ?_⟩
    rw [trimStart_append_of_blank (List.all_eq_true.1 hx)]
    cases hw with
    | nil => cases hword
    | cons hc hw =>
      refine (trimStart_of_head fun d hd => ?_).symm
      cases hd
      exact isBlank_of_sameLetter (by simpa using hword) hc

theorem afterChar?_eq_some_iff : afterChar? c s = some rest ↔ ∃ u, c ∉ u ∧ u ++ c :: rest = s := by
  constructor
  · intro h
    have hsplit := List.takeWhile_append_dropWhile (p := (· != c)) (l := s)
    have hnone : c ∉ s.takeWhile (· != c) := fun hmem => by
      simpa using List.all_eq_true.1 List.all_takeWhile c hmem
    rw [afterChar?] at h
    cases hdrop : s.dropWhile (· != c) with
    | nil =>
      rw [hdrop] at h
      cases h
    | cons d s' =>
      have hd := List.head_dropWhile_not (· != c) (l := s)
        (by rw [hdrop]; exact List.cons_ne_nil _ _)
      simp only [hdrop, List.head_cons, bne_eq_false_iff_eq] at hd
      rw [hdrop] at h hsplit
      cases h
      exact ⟨_, hnone, hd ▸ hsplit⟩
  · rintro ⟨u, hu, rfl⟩
    rw [afterChar?, List.dropWhile_append_of_pos fun d hd => ?_,
      List.dropWhile_cons_of_neg (by simp)]
    exact bne_iff_ne.2 fun heq => hu (heq ▸ hd)

end Tender.Text
