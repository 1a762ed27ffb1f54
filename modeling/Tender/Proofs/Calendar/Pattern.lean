/-
Date patterns without a tilde.

* `tilde_not_mem_write` — what is written by a pattern without a tilde has none.
-/
import Tender.Proofs.Value.Print

namespace Tender.Pattern

open Text

/-- No letter becomes a tilde in the other case. -/
theorem tilde_not_mem_map_toUpper {s : Text} (h : '~' ∉ s) : '~' ∉ s.map Char.toUpper := by
  intro hmem
  obtain ⟨c, hc, heq⟩ := List.mem_map.1 hmem
  unfold Char.toUpper at heq
  split at heq
  · have hval := congrArg Char.val heq
    grind
  · exact h (heq ▸ hc)

theorem tilde_not_mem_map_toLower {s : Text} (h : '~' ∉ s) : '~' ∉ s.map Char.toLower := by
  intro hmem
  obtain ⟨c, hc, heq⟩ := List.mem_map.1 hmem
  unfold Char.toLower at heq
  split at heq
  · have hval := congrArg Char.val heq
    grind
  · exact h (heq ▸ hc)

/-! ### The pieces of a pattern -/

/-- A piece that is spelled without a tilde. -/
def Piece.Plain : Piece → Prop
  | .plain c => '~' ≠ c
  | .directive d => '~' ∉ d.spelled

theorem tilde_not_mem_readLetter {s : Text} (h : '~' ∉ s) : '~' ∉ (readLetter s).2.2 := by
  unfold readLetter
  split <;> simp_all

theorem readDirective_plain {s : Text} (h : '~' ∉ s) :
    '~' ∉ (readDirective s).1.spelled ∧ '~' ∉ (readDirective s).2 := by
  have hdrop {s : Text} (q : Char → Bool) (h : '~' ∉ s) : '~' ∉ s.dropWhile q :=
    fun hmem => h ((List.dropWhile_sublist q).subset hmem)
  constructor
  · simp only [readDirective, List.mem_cons, not_or]
    exact ⟨by decide, tilde_not_mem_take h _⟩
  · exact tilde_not_mem_readLetter (hdrop _ (hdrop _ h))

theorem piecesFrom_plain {done : List Piece} {s : Text} (hdone : ∀ q ∈ done, q.Plain)
    (h : '~' ∉ s) : ∀ q ∈ piecesFrom done s, q.Plain := by
  fun_induction piecesFrom done s with
  | case1 done => exact fun q hq => hdone q (List.mem_reverse.1 hq)
  | case2 done s hlength ih =>
    have hs : '~' ∉ s := fun hmem => h (List.mem_cons_of_mem _ hmem)
    obtain ⟨hspelled, hrest⟩ := readDirective_plain hs
    exact ih (List.forall_mem_cons.2 ⟨hspelled, hdone⟩) hrest
  | case3 done c s hc ih =>
    rw [List.mem_cons, not_or] at h
    exact ih (List.forall_mem_cons.2 ⟨h.1, hdone⟩) h.2

theorem plain_pieces {s : Text} (h : '~' ∉ s) : ∀ q ∈ pieces s, q.Plain := by
  refine piecesFrom_plain (fun q hq => ?_) h
  cases hq

/-! ### What letters ask for -/

/-- A field that is written without a tilde. -/
def Field.Plain : Field → Prop
  | .name s => '~' ∉ s
  | .half s => '~' ∉ s
  | .char c => '~' ≠ c
  | .whole pattern => '~' ∉ pattern.toList
  | _ => True

theorem tilde_not_mem_nameAt {names : List String} (h : ∀ n ∈ names, '~' ∉ n.toList) (i : Nat) :
    '~' ∉ nameAt names i := by
  rw [nameAt, List.getD_eq_getElem?_getD]
  cases hget : names[i]? with
  | none => simp
  | some n => exact h n (List.mem_of_getElem? hget)

theorem plain_field (o : Occasion) (modifier : Option Char) (letter : Char) :
    ∀ f ∈ field? o modifier letter, f.Plain := by
  have hday (i : Nat) : '~' ∉ nameAt weekdays i := tilde_not_mem_nameAt (by decide) i
  have hmonth (i : Nat) : '~' ∉ nameAt months i := tilde_not_mem_nameAt (by decide) i
  intro f hf
  unfold field? at hf
  generalize o.date.isoWeek = week at hf
  obtain ⟨weekYear, week⟩ := week
  simp only at hf
  -- one goal for each letter, and two for the halves of the day
  split at hf
  all_goals first | (split at hf <;> cases hf) | cases hf
  all_goals first | exact True.intro | rw [Field.Plain]
  all_goals try first | (rw [lit]; decide) | decide
  -- the names of days and months, whole or cut short
  · exact tilde_not_mem_take (hday _) 3
  · exact hday _
  · exact tilde_not_mem_take (hmonth _) 3
  · exact tilde_not_mem_take (hmonth _) 3
  · exact hmonth _

/-! ### Writing -/

theorem tilde_not_mem_fill {s : Text} (h : '~' ∉ s) (d : Directive) (limit : Nat) :
    '~' ∉ fill d limit s := by
  rw [fill, List.mem_append, not_or]
  refine ⟨fun hmem => ?_, h⟩
  have heq := List.eq_of_mem_replicate hmem
  split at heq <;> exact absurd heq (by decide)

theorem tilde_not_mem_fillNumber (d : Directive) (limit digits : Nat) (spaces : Bool) (n : Nat) :
    '~' ∉ fillNumber d limit digits spaces n := by
  unfold fillNumber
  simp only
  generalize
    (if (spaces && d.pad ≠ some '0' && d.pad ≠ some '-') = true then some '_' else d.pad) = pad
  split
  · exact tilde_not_mem_fill (tilde_not_mem_ofNat n) d limit
  · rw [List.mem_append, not_or]
    refine ⟨fun hmem => ?_, tilde_not_mem_ofNat n⟩
    have heq := List.eq_of_mem_replicate hmem
    split at heq <;> exact absurd heq (by decide)

theorem tilde_not_mem_ite {c : Prop} [Decidable c] {s t : Text} (hs : '~' ∉ s) (ht : '~' ∉ t) :
    '~' ∉ if c then s else t := by
  split
  · exact hs
  · exact ht

theorem tilde_not_mem_unknown {d : Directive} (h : '~' ∉ d.spelled) (limit : Nat) :
    '~' ∉ unknown d limit := by
  have hspelled : '~' ∉ if d.letter = some '%' then ['%'] else d.spelled :=
    tilde_not_mem_ite (by decide) h
  exact tilde_not_mem_fill (tilde_not_mem_ite (tilde_not_mem_map_toUpper hspelled) hspelled) d limit

theorem tilde_not_mem_render (o : Occasion) (limit depth : Nat) {ps : List Piece}
    (h : ∀ q ∈ ps, q.Plain) : '~' ∉ render o limit depth ps := by
  induction depth using Nat.strongRecOn generalizing ps with
  | _ depth ih =>
    unfold render
    rw [List.mem_flatMap]
    rintro ⟨q, hq, hmem⟩
    have hplain := h q hq
    cases q with
    | plain c => exact hplain (List.mem_singleton.1 hmem)
    | directive d =>
      have hfield {f : Field} (hf : d.letter.bind (field? o d.modifier) = some f) : f.Plain := by
        obtain ⟨letter, -, hf⟩ := Option.bind_eq_some_iff.1 hf
        exact plain_field o d.modifier letter f hf
      have hfill {s : Text} (hs : '~' ∉ s) : '~' ∉ fill d limit s := tilde_not_mem_fill hs d limit
      simp only at hmem
      split at hmem
      · exact tilde_not_mem_unknown hplain limit hmem
      · rename_i s hs
        have hname : '~' ∉ s := hfield hs
        exact hfill (tilde_not_mem_ite (tilde_not_mem_map_toUpper hname) hname) hmem
      · exact tilde_not_mem_ite (by simp) (hfill (by simp)) hmem
      · rename_i s hs
        have hhalf : '~' ∉ s := hfield hs
        exact hfill (tilde_not_mem_ite (tilde_not_mem_map_toLower hhalf)
          (tilde_not_mem_ite (tilde_not_mem_map_toUpper hhalf) hhalf)) hmem
      · rename_i c hc
        have hchar : '~' ≠ c := hfield hc
        exact hfill (by simpa using hchar) hmem
      · exact tilde_not_mem_fillNumber d limit _ _ _ hmem
      · rename_i pattern hpattern
        split at hmem
        · cases hmem
        · rename_i depth
          have hinner := ih depth (Nat.lt_succ_self depth) (plain_pieces (hfield hpattern))
          exact hfill (tilde_not_mem_ite (tilde_not_mem_map_toUpper hinner) hinner) hmem
      · cases hmem

theorem tilde_not_mem_expandFrom (o : Occasion) {done s : Text} (hdone : '~' ∉ done)
    (hs : '~' ∉ s) : '~' ∉ expandFrom o done s := by
  fun_induction expandFrom o done s with
  | case1 done => simpa using hdone
  | case2 done s => simpa using hdone
  | case3 done c s hc piece ih =>
    simp only [List.mem_cons, not_or] at hs
    have hpiece : '~' ∉ piece := by
      unfold piece
      split
      · cases o.offset <;> simp
      · cases o.offset <;> simp
      · simp
      · simpa using hs.2.1
    refine ih ?_ hs.2.2
    simp [hpiece, hdone]
  | case4 done s hs' => simpa using hdone
  | case5 done c s hs' hc ih =>
    simp only [List.mem_cons, not_or] at hs
    exact ih (by simp [hs.1, hdone]) hs.2

theorem tilde_not_mem_write {pattern : Text} (h : '~' ∉ pattern) (o : Occasion) :
    '~' ∉ write pattern o := by
  have hexpanded : '~' ∉ expandFrom o [] pattern := tilde_not_mem_expandFrom o (by simp) h
  exact tilde_not_mem_ite (tilde_not_mem_render o _ 1 (plain_pieces hexpanded)) (by simp)

end Tender.Pattern
