/-
Patterns that start with a tilde.

A tilde comes to a page out of texts alone: numerals hold none, and quoting a text or writing it as
markup brings none in.

* `Tilded.flatMap` — such a pattern does not arise when characters are written in another way;
* `Tilded.quoted`, `Tilded.split`, `Tilded.encodeBraces`, `Tilded.safe` — the ways there are;
* `tilde_not_mem_ofNat` and its companions — numerals.
-/
import Tender.Proofs.Text.Cut
import Tender.Proofs.Text.Markup
import Tender.Text.Quoted

namespace Tender.Text

/-! ### Numerals -/

theorem tilde_not_mem_hex (width n : Nat) : '~' ∉ hex width n := by
  have hdigits : '~' ∉ Nat.toDigits 16 n := by
    induction n using Nat.strongRecOn with
    | _ n ih =>
      rw [Nat.toDigits_eq_if (by decide)]
      split
      · simp
      · rw [List.mem_append, not_or]
        exact ⟨ih (n / 16) (by omega), by simp⟩
  rw [hex, List.mem_append, not_or]
  exact ⟨fun h => absurd (List.eq_of_mem_replicate h) (by decide), hdigits⟩

@[simp] theorem tilde_not_mem_ofNat (n : Nat) : '~' ∉ ofNat n := not_mem_ofNat (by decide)

@[simp] theorem tilde_not_mem_ofInt (n : Int) : '~' ∉ ofInt n := not_mem_ofInt (by decide)

@[simp] theorem tilde_not_mem_padded (width n : Nat) : '~' ∉ padded width n := by
  simp [padded]

/-! ### Characters written in another way -/

/-- A pattern of a tilde at its start and of characters that are written as they are in quotes and
in markup. -/
structure Tilded (p : Text) : Prop where
  head : ['~'] <+: p
  plain : ∀ c ∈ p, c = '~' ∨ c = ':' ∨ c.isLower = true

variable {p s : Text}

/-- A character is written as it is, or else without a tilde and with a start that is not in the
pattern. -/
def Respects (p w : Text) (c : Char) : Prop :=
  w = [c] ∨ '~' ∉ w ∧ ∃ d u, w = d :: u ∧ d ∉ p

namespace Tilded

theorem of_not_mem (hp : Tilded p) (h : '~' ∉ s) : Bare p s :=
  (Bare.of_not_mem h).extend hp.head

theorem ne_nil (hp : Tilded p) : p ≠ [] := by
  rintro rfl
  exact absurd hp.head (by simp)

theorem not_mem (hp : Tilded p) {c : Char} (htilde : c ≠ '~') (hcolon : c ≠ ':')
    (hlower : c.isLower = false) : c ∉ p := by
  intro hc
  rcases hp.plain c hc with h | h | h
  · exact htilde h
  · exact hcolon h
  · rw [hlower] at h
    cases h

/-- What starts in a text that is written in another way stands in it, or goes on behind it. -/
theorem prefix_of_flatMap {f : Char → Text} {q : Text} (hq : q ⊆ p)
    (hf : ∀ c ∈ s, Respects p (f c) c) {rest : Text} (h : q <+: s.flatMap f ++ rest) :
    q <+: s ∨ ∃ q', q = s ++ q' ∧ q' <+: rest := by
  induction s generalizing q with
  | nil => exact .inr ⟨q, rfl, h⟩
  | cons c s ih =>
    cases q with
    | nil => exact .inl List.nil_prefix
    | cons e q =>
      rw [List.flatMap_cons, List.append_assoc] at h
      rcases hf c List.mem_cons_self with heq | ⟨-, d, u, heq, hd⟩
      · rw [heq] at h
        obtain ⟨rfl, htail⟩ := List.cons_prefix_cons.1 h
        rcases ih (fun _ hc => hq (List.mem_cons_of_mem _ hc))
          (fun c' hc' => hf c' (List.mem_cons_of_mem _ hc')) htail with hstart | ⟨q', rfl, hrest⟩
        · exact .inl (List.cons_prefix_cons.2 ⟨rfl, hstart⟩)
        · exact .inr ⟨q', rfl, hrest⟩
      · rw [heq] at h
        obtain ⟨rfl, -⟩ := List.cons_prefix_cons.1 h
        exact absurd (hq List.mem_cons_self) hd

/-- A pattern that starts among characters written in another way starts at one of them. -/
theorem suffix_of_prefix_flatMap (hp : Tilded p) {f : Char → Text}
    (hf : ∀ c ∈ s, Respects p (f c) c) {v : Text} (hv : v <:+ s.flatMap f) (hnil : v ≠ [])
    {rest : Text} (h : p <+: v ++ rest) :
    ∃ w, w <:+ s ∧ w ≠ [] ∧ v = w.flatMap f := by
  induction s with
  | nil => exact absurd (List.suffix_nil.1 hv) hnil
  | cons c s ih =>
    have hlater (hv : v <:+ s.flatMap f) : ∃ w, w <:+ c :: s ∧ w ≠ [] ∧ v = w.flatMap f := by
      obtain ⟨w, hw, hne, heq⟩ := ih (fun c' hc' => hf c' (List.mem_cons_of_mem _ hc')) hv
      exact ⟨w, hw.trans (List.suffix_cons c s), hne, heq⟩
    rw [List.flatMap_cons] at hv
    rcases hf c List.mem_cons_self with heq | ⟨htilde, -⟩
    · rw [heq] at hv
      rcases List.suffix_cons_iff.1 hv with rfl | hv
      · exact ⟨c :: s, List.suffix_refl _, by simp, by rw [List.flatMap_cons, heq]; rfl⟩
      · exact hlater hv
    · rcases List.suffix_or_suffix_of_suffix hv (List.suffix_append (f c) (s.flatMap f)) with
        hv | ⟨x, rfl⟩
      · exact hlater hv
      · by_cases hx : x = []
        · subst hx
          exact hlater (List.suffix_refl _)
        · -- the pattern would start with a character that is no tilde
          obtain ⟨y, hy⟩ := hv
          rw [← List.append_assoc] at hy
          have hinside : x <:+ f c := ⟨y, List.append_cancel_right hy⟩
          rw [List.append_assoc] at h
          exact absurd h (hp.of_not_mem htilde x hinside hx _)

/-- No pattern arises when characters are written in another way. -/
theorem flatMap (hp : Tilded p) {f : Char → Text} (hf : ∀ c ∈ s, Respects p (f c) c)
    (h : Bare p s) : Bare p (s.flatMap f) := by
  intro v hv hnil rest hpre
  obtain ⟨w, hw, hne, rfl⟩ := hp.suffix_of_prefix_flatMap hf hv hnil hpre
  have hchars : ∀ c ∈ w, Respects p (f c) c := fun c hc => hf c (hw.subset hc)
  rcases prefix_of_flatMap (List.Subset.refl p) hchars hpre with hstart | ⟨q', heq, -⟩
  · exact h w hw hne [] (by rwa [List.append_nil])
  · exact h w hw hne q' (heq ▸ List.prefix_refl p)

/-- A text without the pattern may end in the start of it if another character follows. -/
theorem flatMap_concat (hp : Tilded p) {f : Char → Text} (hf : ∀ c ∈ s, Respects p (f c) c)
    (h : ¬ p <:+: s) {d : Char} (hd : d ∉ p) : Bare p (s.flatMap f ++ [d]) := by
  have hnone : ∀ w, w <:+ s → ∀ rest, ¬ p <+: w.flatMap f ++ d :: rest := by
    intro w hw rest hpre
    have hchars : ∀ c ∈ w, Respects p (f c) c := fun c hc => hf c (hw.subset hc)
    rcases prefix_of_flatMap (List.Subset.refl p) hchars hpre with hstart | ⟨q', heq, hq'⟩
    · exact h (hstart.isInfix.trans hw.isInfix)
    · cases q' with
      | nil => exact h (heq ▸ by rw [List.append_nil]; exact hw.isInfix)
      | cons e q' =>
        obtain ⟨rfl, -⟩ := List.cons_prefix_cons.1 hq'
        exact hd (heq ▸ by simp)
  intro v hv hnil rest hpre
  rcases List.suffix_concat_iff.1 hv with rfl | ⟨x, rfl, hx⟩
  · exact hnil rfl
  · rw [List.append_assoc, List.singleton_append] at hpre
    by_cases hempty : x = []
    · subst hempty
      exact hnone [] (List.nil_suffix) rest hpre
    · obtain ⟨w, hw, -, rfl⟩ := hp.suffix_of_prefix_flatMap hf hx hempty hpre
      exact hnone w hw rest hpre

theorem quoted (hp : Tilded p) (h : Bare p s) : Bare p (quoted s) := by
  have hquote : quoteFor s = '"' ∨ quoteFor s = '\'' := by
    unfold quoteFor
    split
    · exact .inl rfl
    · exact .inr rfl
  have hne : '~' ≠ quoteFor s := by
    rcases hquote with h | h <;> rw [h] <;> decide
  have hbackslash : '\\' ∉ p := hp.not_mem (by decide) (by decide) (by decide)
  have hchar : ∀ c ∈ s, Respects p (quoteChar (quoteFor s) c) c := by
    intro c _
    have hescaped {w : Text} (hw : '~' ∉ w) : Respects p ('\\' :: w) c :=
      .inr ⟨by simpa using hw, '\\', w, rfl, hbackslash⟩
    unfold quoteChar
    split
    · rename_i hc
      refine hescaped ?_
      rcases hc with rfl | rfl
      · simpa using hne
      · decide
    · split
      · exact hescaped (by decide)
      split
      · exact hescaped (by decide)
      split
      · exact hescaped (by decide)
      split
      · exact .inl rfl
      split
      · exact hescaped (by simpa using tilde_not_mem_hex 2 _)
      split
      · exact hescaped (by simpa using tilde_not_mem_hex 4 _)
      · exact hescaped (by simpa using tilde_not_mem_hex 8 _)
  have hmark : Bare p [quoteFor s] := hp.of_not_mem (by simpa using hne)
  exact hmark.append ((hp.flatMap hchar h).append hmark)

theorem tilde : Tilded ['~'] :=
  ⟨List.prefix_refl _, fun _ hc => .inl (List.mem_singleton.1 hc)⟩

theorem bare_tilde_iff : Bare ['~'] s ↔ '~' ∉ s := by
  constructor
  · intro h hmem
    exact not_infix_of_bare (by simp) h ((List.singleton_infix_iff _ _).2 hmem)
  · exact tilde.of_not_mem

/-- No pattern holds a half of a wide character. -/
theorem half_not_mem (hp : Tilded p) {code : Nat} (hlow : 0xD800 ≤ code) (hhigh : code < 0xE000) :
    half code ∉ p := by
  have hcode := codePoint_half hlow hhigh
  refine hp.not_mem (fun h => ?_) (fun h => ?_) ?_
  · rw [h, show codePoint '~' = 126 from rfl] at hcode
    omega
  · rw [h, show codePoint ':' = 58 from rfl] at hcode
    omega
  · by_contra hlower
    rw [Bool.not_eq_false] at hlower
    have hnarrow : (half code).toNat ≤ 122 := by
      have hrange := (Bool.and_eq_true _ _).mp hlower
      exact of_decide_eq_true hrange.2
    unfold codePoint at hcode
    split at hcode <;> omega

theorem split (hp : Tilded p) (h : Bare p s) : Bare p (split s) := by
  refine hp.flatMap (fun c _ => ?_) h
  unfold spell
  split
  · exact .inl rfl
  · have hc : c.toNat < 0x110000 := by
      rcases c.valid with h | h
      · exact Nat.lt_trans h (by decide)
      · exact h.2
    have hfirst : half (0xD800 + (c.toNat - 0x10000) / 0x400) ∉ ['~'] :=
      tilde.half_not_mem (by omega) (by omega)
    have hsecond : half (0xDC00 + (c.toNat - 0x10000) % 0x400) ∉ ['~'] :=
      tilde.half_not_mem (by omega) (by omega)
    refine .inr ⟨?_, _, _, rfl, hp.half_not_mem (by omega) (by omega)⟩
    simpa [eq_comm] using And.intro hfirst hsecond

theorem encodeBraces (hp : Tilded p) (h : Bare p s) : Bare p (encodeBraces s) := by
  refine hp.flatMap (fun c _ => ?_) h
  unfold encodeBrace
  have hamp : '&' ∉ p := hp.not_mem (by decide) (by decide) (by decide)
  split
  · rw [lit_ofList]
    exact .inr ⟨by decide, _, _, rfl, hamp⟩
  · rw [lit_ofList]
    exact .inr ⟨by decide, _, _, rfl, hamp⟩
  · exact .inl rfl

theorem respects_safeChar (hp : Tilded p) (c : Char) : Respects p (safeChar c) c := by
  have hamp : '&' ∉ p := hp.not_mem (by decide) (by decide) (by decide)
  rcases safeChar_cases c with ⟨-, -, heq⟩ | ⟨-, heq⟩ | ⟨-, heq⟩ | ⟨-, heq⟩ | ⟨-, heq⟩ | ⟨-, heq⟩ |
    ⟨-, heq⟩ | ⟨-, heq⟩ <;> rw [heq]
  · exact .inl rfl
  all_goals
    rw [lit_ofList]
    exact .inr ⟨by decide, _, _, rfl, hamp⟩

theorem safe_eq (s : Text) : safe s = s.flatMap safeChar := by
  induction s with
  | nil => rfl
  | cons c s ih => rw [safe_cons, List.flatMap_cons, ih]

theorem safe (hp : Tilded p) (h : Bare p s) : Bare p (safe s) := by
  rw [safe_eq]
  exact hp.flatMap (fun c _ => hp.respects_safeChar c) h

theorem safe_concat (hp : Tilded p) (h : ¬ p <:+: s) {d : Char} (hd : d ∉ p) :
    Bare p (Text.safe s ++ [d]) := by
  rw [safe_eq]
  exact hp.flatMap_concat (fun c _ => hp.respects_safeChar c) h hd

end Tilded

end Tender.Text
