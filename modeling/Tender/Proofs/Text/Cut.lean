/-
Cutting a text at the first occurrence of a pattern.

* `cut_append_of_bare` — a text in which the pattern does not start is cut off whole;
* `cut_bare_append` — such a text in front of another only moves the cut;
* `cut_append`, `cut_of_append` — what follows the pattern does not move the cut;
* `length_le_of_cut` — the cut is at the first occurrence;
* `bare_of_not_infix` — a pattern starts in a text only if it stands in the text or the text ends in
  a part of it;
* `Bare.joinWith` — no pattern arises when texts are joined.
-/
import Mathlib.Data.List.Infix
import Tender.Proofs.Text.Scan

namespace Tender.Text

variable {pattern s v w a b : Text}

theorem after?_eq_none_iff : after? pattern s = none ↔ ¬ pattern <+: s := by
  rw [← startsWith_iff, startsWith]
  cases after? pattern s <;> simp

theorem cutFrom_cons_of_none {c : Char} (seen : Text) (h : ¬ pattern <+: c :: s) :
    cutFrom pattern seen (c :: s) = cutFrom pattern (c :: seen) s := by
  rw [cutFrom, after?_eq_none_iff.2 h]

theorem cutFrom_pattern (seen : Text) (hne : pattern ≠ []) (rest : Text) :
    cutFrom pattern seen (pattern ++ rest) = some (seen.reverse, rest) := by
  obtain ⟨c, p, rfl⟩ := List.exists_cons_of_ne_nil hne
  have hafter := after?_append (c :: p) rest
  rw [List.cons_append] at hafter ⊢
  rw [cutFrom, hafter]

theorem cutFrom_append_of_bare (seen : Text) (h : Bare pattern w) (rest : Text) :
    cutFrom pattern seen (w ++ rest) = cutFrom pattern (w.reverse ++ seen) rest := by
  induction w generalizing seen with
  | nil => rfl
  | cons c w ih =>
    have hnone : ¬ pattern <+: c :: (w ++ rest) := h (c :: w) (List.suffix_refl _) (by simp) rest
    rw [List.cons_append, cutFrom_cons_of_none seen hnone,
      ih (c :: seen) fun v hv => h v (hv.trans (List.suffix_cons c w)), List.reverse_cons,
      List.append_assoc]
    rfl

theorem cut_append_of_bare (hne : pattern ≠ []) (h : Bare pattern w) (rest : Text) :
    cut pattern (w ++ (pattern ++ rest)) = some (w, rest) := by
  rw [cut, cutFrom_append_of_bare [] h, cutFrom_pattern _ hne, List.append_nil,
    List.reverse_reverse]

theorem cut_of_bare (hne : pattern ≠ []) (h : Bare pattern w) : cut pattern w = none := by
  have hcut := cutFrom_append_of_bare [] h []
  rw [List.append_nil] at hcut
  rw [cut, hcut, cutFrom, after?_eq_none_iff.2 (by rwa [List.prefix_nil])]

theorem cutFrom_cons (pattern seen : Text) (c : Char) (s : Text) :
    (∃ rest, c :: s = pattern ++ rest ∧
      cutFrom pattern seen (c :: s) = some (seen.reverse, rest)) ∨
    ¬ pattern <+: c :: s ∧ cutFrom pattern seen (c :: s) = cutFrom pattern (c :: seen) s := by
  cases hafter : after? pattern (c :: s) with
  | none => exact .inr ⟨after?_eq_none_iff.1 hafter, by rw [cutFrom, hafter]⟩
  | some rest => exact .inl ⟨rest, eq_of_after? hafter, by rw [cutFrom, hafter]⟩

theorem cutFrom_seen (seen : Text) :
    cutFrom pattern seen s = (cutFrom pattern [] s).map fun (a, b) => (seen.reverse ++ a, b) := by
  induction s generalizing seen with
  | nil =>
    rw [cutFrom, cutFrom]
    cases after? pattern [] <;> simp
  | cons c s ih =>
    rcases cutFrom_cons pattern [] c s with ⟨rest, hs, heq⟩ | ⟨hnone, heq⟩
    · have hne : pattern <+: c :: s := ⟨rest, hs.symm⟩
      rcases cutFrom_cons pattern seen c s with ⟨rest', hs', heq'⟩ | ⟨hnone, -⟩
      · rw [heq, heq', List.append_cancel_left (hs.symm.trans hs')]
        simp
      · exact absurd hne hnone
    · rw [heq, cutFrom_cons_of_none seen hnone, ih (c :: seen), ih [c], Option.map_map]
      refine congrFun (congrArg Option.map (funext fun ab => ?_)) _
      simp

/-- A text in which the pattern does not start only moves the cut. -/
theorem cut_bare_append (h : Bare pattern w) (s : Text) :
    cut pattern (w ++ s) = (cut pattern s).map fun (a, b) => (w ++ a, b) := by
  rw [cut, cutFrom_append_of_bare [] h, cutFrom_seen, List.append_nil, List.reverse_reverse]
  rfl

theorem not_infix_of_cutFrom {seen : Text} (h : cutFrom pattern seen s = none) :
    ¬ pattern <:+: s := by
  induction s generalizing seen with
  | nil =>
    rw [cutFrom] at h
    intro hstands
    rw [List.infix_nil.1 hstands] at h
    cases h
  | cons c s ih =>
    rcases cutFrom_cons pattern seen c s with ⟨rest, -, heq⟩ | ⟨hnone, heq⟩
    · rw [heq] at h
      cases h
    · rw [heq] at h
      intro hstands
      rcases List.infix_cons_iff.1 hstands with hpre | hstands
      · exact hnone hpre
      · exact ih h hstands

theorem not_infix_of_cut (h : cut pattern s = none) : ¬ pattern <:+: s :=
  not_infix_of_cutFrom h

theorem cut_eq_none (h : ¬ pattern <:+: s) : cut pattern s = none := by
  cases hcut : cut pattern s with
  | none => rfl
  | some found => exact absurd ⟨found.1, found.2, by rw [cut_eq hcut, List.append_assoc]⟩ h

theorem cutFrom_split {seen : Text} (h : cutFrom pattern seen s = some (a, b)) :
    ∃ x, a = seen.reverse ++ x ∧ s = x ++ (pattern ++ b) := by
  induction s generalizing seen with
  | nil =>
    rw [cutFrom] at h
    split at h
    · rename_i rest hrest
      cases h
      have hs : [] = pattern ++ b := eq_of_after? hrest
      exact ⟨[], (List.append_nil _).symm, hs⟩
    · cases h
  | cons c s ih =>
    rcases cutFrom_cons pattern seen c s with ⟨rest, hs, heq⟩ | ⟨-, heq⟩
    · rw [heq] at h
      cases h
      exact ⟨[], (List.append_nil _).symm, hs⟩
    · rw [heq] at h
      obtain ⟨x, rfl, rfl⟩ := ih h
      exact ⟨c :: x, by simp, rfl⟩

theorem cutFrom_append {seen : Text} (hne : pattern ≠ [])
    (h : cutFrom pattern seen s = some (a, b)) (t : Text) :
    cutFrom pattern seen (s ++ t) = some (a, b ++ t) := by
  induction s generalizing seen with
  | nil =>
    obtain ⟨x, -, hs⟩ := cutFrom_split h
    simp [hne] at hs
  | cons c s ih =>
    rcases cutFrom_cons pattern seen c s with ⟨rest, hs, heq⟩ | ⟨hnone, heq⟩
    · rw [heq] at h
      cases h
      rw [hs, List.append_assoc, cutFrom_pattern _ hne]
    · rw [heq] at h
      -- the pattern fits into what is left, so it does not start here either
      have hnone' : ¬ pattern <+: c :: (s ++ t) := by
        intro hpre
        obtain ⟨x, -, hs⟩ := cutFrom_split h
        rcases List.prefix_or_prefix_of_prefix hpre (List.prefix_append (c :: s) t) with hp | hp
        · exact hnone hp
        · have hlen := hp.length_le
          rw [hs] at hlen
          simp only [List.length_cons, List.length_append] at hlen
          omega
      rw [List.cons_append, cutFrom_cons_of_none seen hnone', ih h]

theorem cut_append (hne : pattern ≠ []) (h : cut pattern s = some (a, b)) (t : Text) :
    cut pattern (s ++ t) = some (a, b ++ t) :=
  cutFrom_append hne h t

/-- What follows the pattern does not decide where the cut is. -/
theorem cut_of_append {t : Text} (hne : pattern ≠ []) (h : cut pattern (s ++ t) = some (a, b ++ t)) :
    cut pattern s = some (a, b) := by
  have hs : s = a ++ (pattern ++ b) := by
    have hsplit := cut_eq h
    rw [← List.append_assoc, ← List.append_assoc] at hsplit
    rw [List.append_cancel_right hsplit, List.append_assoc]
  cases hcut : cut pattern s with
  | none => exact absurd ⟨a, b, by rw [hs, List.append_assoc]⟩ (not_infix_of_cut hcut)
  | some found =>
    obtain ⟨a', b'⟩ := found
    have hlonger := cut_append hne hcut t
    rw [h] at hlonger
    obtain ⟨rfl, hb⟩ := Prod.mk.inj (Option.some.inj hlonger)
    rw [List.append_cancel_right hb]

/-- What follows a cut behind a fixed start does not decide where the cut is. -/
theorem cut_of_append_behind {q t : Text} (hne : pattern ≠ []) (hs : s ++ t = q ++ v)
    (h : cut pattern v = some (a, b ++ t)) : ∃ w, s = q ++ w ∧ cut pattern w = some (a, b) := by
  have hv : v = (a ++ (pattern ++ b)) ++ t := by
    rw [cut_eq h]
    simp only [List.append_assoc]
  rw [hv] at h
  rw [hv, ← List.append_assoc] at hs
  exact ⟨_, List.append_cancel_right hs, cut_of_append hne h⟩

/-- No occurrence of the pattern starts before the cut. -/
theorem length_le_of_cutFrom {seen x y : Text} (h : cutFrom pattern seen s = some (a, b))
    (hs : s = x ++ (pattern ++ y)) : a.length ≤ seen.length + x.length := by
  induction s generalizing seen x with
  | nil =>
    obtain ⟨z, rfl, hz⟩ := cutFrom_split h
    have hnil : z = [] := (List.append_eq_nil_iff.1 hz.symm).1
    rw [hnil, List.append_nil, List.length_reverse]
    omega
  | cons c s ih =>
    rcases cutFrom_cons pattern seen c s with ⟨rest, -, heq⟩ | ⟨hnone, heq⟩
    · rw [heq] at h
      cases h
      rw [List.length_reverse]
      omega
    · rw [heq] at h
      cases x with
      | nil => exact absurd ⟨y, hs.symm⟩ hnone
      | cons d x =>
        have hlen := ih h (List.cons.inj hs).2
        rw [List.length_cons] at hlen ⊢
        omega

theorem length_le_of_cut {x y : Text} (h : cut pattern s = some (a, b))
    (hs : s = x ++ (pattern ++ y)) : a.length ≤ x.length := by
  simpa using length_le_of_cutFrom h hs

/-! ### Texts that end inside a pattern -/

/-- A text ends in the start of a pattern, but not in the whole of it. -/
def EndsInside (pattern s : Text) : Prop :=
  ∃ v ∈ s.tails, v ≠ [] ∧ v ≠ pattern ∧ v <+: pattern

instance (pattern s : Text) : Decidable (EndsInside pattern s) :=
  inferInstanceAs (Decidable (∃ v ∈ s.tails, _))

theorem bare_of_not_infix (hstands : ¬ pattern <:+: s) (hend : ¬ EndsInside pattern s) :
    Bare pattern s := by
  intro v hv hnil rest hpre
  rcases List.prefix_or_prefix_of_prefix hpre (List.prefix_append v rest) with h | h
  · exact hstands (h.isInfix.trans hv.isInfix)
  · by_cases heq : v = pattern
    · exact hstands (heq ▸ hv.isInfix)
    · exact hend ⟨v, (List.mem_tails _ _).2 hv, hnil, heq, h⟩

theorem not_infix_of_bare (hne : pattern ≠ []) (h : Bare pattern s) : ¬ pattern <:+: s := by
  rintro ⟨a, b, rfl⟩
  exact h (pattern ++ b) ⟨a, (List.append_assoc a pattern b).symm⟩ (by simp [hne]) []
    (by rw [List.append_nil]; exact List.prefix_append pattern b)

/-! ### Joined texts -/

theorem joinWith_cons_cons (separator s t : Text) (rest : List Text) :
    joinWith separator (s :: t :: rest) = s ++ separator ++ joinWith separator (t :: rest) := by
  simp [joinWith, List.intercalate]

theorem joinWith_singleton (separator s : Text) : joinWith separator [s] = s := by
  simp [joinWith, List.intercalate]

theorem Bare.joinWith {separator : Text} (hsep : Bare pattern separator) {parts : List Text}
    (h : ∀ s ∈ parts, Bare pattern s) : Bare pattern (joinWith separator parts) := by
  induction parts with
  | nil => exact Bare.nil
  | cons s rest ih =>
    have hs := h s List.mem_cons_self
    cases rest with
    | nil => rwa [joinWith_singleton]
    | cons t rest =>
      rw [joinWith_cons_cons]
      exact (hs.append hsep).append (ih fun u hu => h u (List.mem_cons_of_mem s hu))

end Tender.Text
