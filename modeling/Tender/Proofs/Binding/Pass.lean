/-
One binding pass: the tokens of a family are replaced, each with its number.

What stands for a token starts with an opening angle bracket and holds no brace, so no token arises
from it and none is lost beside it.

* `bind_fill` — one pass over a numbered page fills in the tokens of its family where they are;
* `clean_of_bracket` — filling tokens in makes no token of the characters between them;
* `bind_eq`, `bind_bind` — what one pass makes of any page, and what another pass makes of that.
-/
import Tender.Proofs.Binding.Replacement
import Tender.Proofs.Counters
import Tender.Proofs.Token

namespace Tender

namespace Binding

open Text

variable {family : List Token} {c d : Counters}

@[simp] theorem numberFrom_nil (c : Counters) : numberFrom [] c [] = [] := rfl

@[simp] theorem numberFrom_char (c : Counters) (x : Char) (as : List (Atom Token)) :
    numberFrom [] c (.char x :: as) = .char x :: numberFrom [] c as := by
  rw [numberFrom, numberFrom_eq]
  rfl

@[simp] theorem numberFrom_item (c : Counters) (t : Token) (as : List (Atom Token)) :
    numberFrom [] c (.item t :: as) = .item (t, c.number t) :: numberFrom [] (c.next t) as := by
  rw [numberFrom, numberFrom_eq]
  rfl

theorem numberFrom_chars (c : Counters) (s : Text) (as : List (Atom Token)) :
    numberFrom [] c (s.map .char ++ as) = s.map .char ++ numberFrom [] c as := by
  induction s with
  | nil => rfl
  | cons x s ih =>
    rw [List.map_cons, List.cons_append, numberFrom_char, ih]
    rfl

/-- Plain characters stay as they are. -/
theorem numberFrom_plain (c : Counters) (s : Text) :
    numberFrom [] c (s.map .char) = s.map .char := by
  simpa using numberFrom_chars c s []

theorem fill_numberFrom_plain (w : Token × Nat → Text) (c : Counters) (s : Text) :
    Atom.fill w (numberFrom [] c (s.map .char)) = s := by
  rw [numberFrom_plain, Atom.fill_chars]

@[simp] theorem tokens_nil : tokens [] = [] := rfl

@[simp] theorem tokens_char (x : Char) (as : List (Atom Token)) :
    tokens (.char x :: as) = tokens as := rfl

@[simp] theorem tokens_item (t : Token) (as : List (Atom Token)) :
    tokens (.item t :: as) = t :: tokens as := rfl

@[simp] theorem tokens_append (as bs : List (Atom Token)) :
    tokens (as ++ bs) = tokens as ++ tokens bs := List.filterMap_append

@[simp] theorem tokens_chars (s : Text) : tokens (s.map .char) = [] := by
  induction s with
  | nil => rfl
  | cons x s ih => rw [List.map_cons, tokens_char, ih]

theorem numberFrom_append (c : Counters) (as bs : List (Atom Token)) :
    numberFrom [] c (as ++ bs) = numberFrom [] c as ++ numberFrom [] (c.after (tokens as)) bs := by
  induction as generalizing c with
  | nil => rfl
  | cons a as ih =>
    cases a with
    | char x =>
      rw [List.cons_append, numberFrom_char, ih, numberFrom_char, tokens_char]
      rfl
    | item t =>
      rw [List.cons_append, numberFrom_item, ih, numberFrom_item, tokens_item, Counters.after_cons]
      rfl

/-! ### One pass -/

/-- What stands for the tokens once those of a family are filled in. -/
def overlay (family : List Token) (fill : Token → Nat → Text) (w : Token × Nat → Text) :
    Token × Nat → Text :=
  fun b => if b.1 ∈ family then fill b.1 b.2 else w b

/-- What a scan for a family makes of a numbered token that is written out by `w`. -/
def part (family : List Token) (w : Token × Nat → Text) (b : Token × Nat) : List (Atom Token) :=
  if b.1 ∈ family then [.item b.1] else (w b).map .char

/-- A family that shares no counter with other tokens. -/
def Separate (family : List Token) : Prop :=
  ∀ t, t ∉ family → ∀ u ∈ family, u.shares t = false

theorem fill_numberFrom_expand (hsep : Separate family) (fill : Token → Nat → Text)
    (w : Token × Nat → Text) (as : List (Atom Token))
    (hagree : ∀ t ∈ family, c.number t = d.number t) :
    Atom.fill (fun (t, n) => fill t n)
        (numberFrom [] d (Atom.expand (part family w) (numberFrom [] c as))) =
      Atom.fill (overlay family fill w) (numberFrom [] c as) := by
  induction as generalizing c d with
  | nil => rfl
  | cons a as ih =>
    cases a with
    | char x => simp [ih hagree]
    | item t =>
      rw [numberFrom_item, Atom.expand_item, Atom.fill_item]
      by_cases ht : t ∈ family
      -- both counters move on together at a token of the family, only `c` at any other
      · have hnext : ∀ u ∈ family, (c.next t).number u = (d.next t).number u := fun u hu => by
          rw [Counters.number_next, Counters.number_next, hagree u hu]
        rw [part, if_pos ht, List.cons_append, List.nil_append, numberFrom_item, Atom.fill_item,
          ih hnext, overlay, if_pos ht, hagree t ht]
      · have hnext : ∀ u ∈ family, (c.next t).number u = d.number u := fun u hu => by
          rw [Counters.number_next, hsep t ht u hu, hagree u hu]
          simp
        rw [part, if_neg ht, numberFrom_chars, Atom.fill_append, Atom.fill_chars, ih hnext, overlay,
          if_neg ht]

theorem tokens_expand_part (w : Token × Nat → Text) (as : List (Atom Token)) :
    tokens (Atom.expand (part family w) (numberFrom [] c as)) =
      (tokens as).filter (· ∈ family) := by
  induction as generalizing c with
  | nil => rfl
  | cons a as ih =>
    cases a with
    | char x => rw [numberFrom_char, Atom.expand_char, tokens_char, tokens_char, ih]
    | item t =>
      rw [numberFrom_item, Atom.expand_item, tokens_append, tokens_item, ih]
      by_cases ht : t ∈ family
      · simp [part, ht]
      · simp [part, ht]

/-- One pass over a numbered page whose tokens of the family are not filled in yet. -/
theorem bind_fill (hsep : Separate family) (fill : Token → Nat → Text) {w : Token × Nat → Text}
    {as : List (Atom Token)} (hagree : ∀ t ∈ family, c.number t = d.number t)
    (hopen : ∀ t ∈ family, ∀ n, w (t, n) = spelling t)
    (hother : ∀ t, t ∉ family → ∀ n, w (t, n) = spelling t ∨ '{' ∉ w (t, n))
    (hclean : Atom.Clean spelling family w (numberFrom [] c as)) :
    bind family fill d (Atom.fill w (numberFrom [] c as)) =
      (Atom.fill (overlay family fill w) (numberFrom [] c as),
        d.after ((tokens as).filter (· ∈ family))) := by
  have hparts : ∀ b, Whole (spelled spelling family) (w b) ∧
      atoms family (w b) = part family w b := by
    intro ⟨t, n⟩
    by_cases ht : t ∈ family
    · rw [hopen t ht n]
      exact ⟨whole_spelling t, by rw [atoms_spelling, part, if_pos ht, if_pos ht]⟩
    -- a token outside the family is still written out, or its replacement holds no brace
    · rcases hother t ht n with hw | hw
      · rw [hw]
        exact ⟨whole_spelling t, by rw [atoms_spelling, part, if_neg ht, if_neg ht, hw]⟩
      · exact ⟨whole_of_no_brace hw, by rw [atoms_of_no_brace hw, part, if_neg ht]⟩
  have hatoms : atoms family (Atom.fill w (numberFrom [] c as)) =
      Atom.expand (part family w) (numberFrom [] c as) := by
    rw [atoms, atoms_fill hclean fun b _ => (hparts b).1]
    congr 1
    exact funext fun b => (hparts b).2
  rw [bind, hatoms, fill_numberFrom_expand hsep fill w as hagree, tokens_expand_part]

/-- What starts with an angle bracket cannot go on a token that is begun before it. -/
theorem prefix_fill {p : Text} (hp : '<' ∉ p) {w w' : Token × Nat → Text}
    (hw : ∀ b, w' b = w b ∨ ∃ s, w' b = '<' :: s) {as : List (Atom (Token × Nat))}
    (h : p <+: Atom.fill w' as) : p <+: Atom.fill w as := by
  induction as generalizing p with
  | nil => exact h
  | cons a as ih =>
    cases p with
    | nil => exact List.nil_prefix
    | cons x p =>
      have hx : x ≠ '<' := fun hx => hp (by simp [hx])
      cases a with
      | char y =>
        obtain ⟨rfl, hrest⟩ := List.cons_prefix_cons.1 h
        exact List.cons_prefix_cons.2
          ⟨rfl, ih (fun hmem => hp (List.mem_cons_of_mem _ hmem)) hrest⟩
      | item b =>
        rw [Atom.fill_item] at h ⊢
        rcases hw b with hb | ⟨s, hb⟩
        -- either `p` ends in this item, or the rest of it goes on after the item
        · rw [hb] at h
          rcases List.prefix_or_prefix_of_prefix h (List.prefix_append _ _) with hpre | ⟨q, hq⟩
          · exact hpre.trans (List.prefix_append _ _)
          · rw [← hq] at h hp ⊢
            rw [List.prefix_append_right_inj] at h ⊢
            exact ih (fun hmem => hp (List.mem_append_right _ hmem)) h
        · rw [hb, List.cons_append] at h
          exact absurd (List.cons_prefix_cons.1 h).1 hx

theorem clean_of_bracket {w w' : Token × Nat → Text}
    (hw : ∀ b, w' b = w b ∨ ∃ s, w' b = '<' :: s) {as : List (Atom (Token × Nat))}
    (h : Atom.Clean spelling family w as) : Atom.Clean spelling family w' as := by
  induction as with
  | nil => exact h
  | cons a as ih =>
    cases a with
    | char x =>
      refine ⟨fun t ht hpre => h.1 t ht ?_, ih h.2⟩
      have hname : '<' ∉ spelling t := by
        simp [spelling, not_mem_name t.isName_name (c := '<') (by decide)]
      exact @prefix_fill _ hname _ _ hw (.char x :: as) hpre
    | item b => exact ih h

/-! ### One pass after another -/

/-- What stands for the tokens of a page before any pass. -/
def written (b : Token × Nat) : Text := spelling b.1

theorem fill_written (c : Counters) (as : List (Atom Token)) :
    Atom.fill written (numberFrom [] c as) = Atom.fill spelling as := by
  induction as generalizing c with
  | nil => rfl
  | cons a as ih =>
    cases a with
    | char x => rw [numberFrom_char, Atom.fill_char, Atom.fill_char, ih]
    | item t =>
      rw [numberFrom_item, Atom.fill_item, Atom.fill_item, ih]
      rfl

theorem clean_numberFrom {as : List (Atom Token)} (h : Atom.Clean spelling family spelling as)
    (c : Counters) : Atom.Clean spelling family written (numberFrom [] c as) := by
  induction as generalizing c with
  | nil => exact h
  | cons a as ih =>
    cases a with
    | char x =>
      rw [numberFrom_char]
      refine ⟨?_, ih h.2 c⟩
      rw [fill_written]
      exact h.1
    | item t =>
      rw [numberFrom_item]
      exact ih h (c.next t)

/-- What a pass fills in for the tokens of a family can take their place. -/
def Replaces (family : List Token) (fill : Token → Nat → Text) : Prop :=
  ∀ t ∈ family, ∀ n, IsReplacement (fill t n)

theorem clean_written (c : Counters) (html : Text) :
    Atom.Clean spelling family written (numberFrom [] c (atoms Token.all html)) :=
  (clean_numberFrom (clean_atoms (fun t _ => spelling_ne_nil t) html) c).mono fun t _ => t.mem_all

theorem overlay_of_mem {t : Token} (ht : t ∈ family) (fill : Token → Nat → Text)
    (w : Token × Nat → Text) (n : Nat) : overlay family fill w (t, n) = fill t n := if_pos ht

theorem overlay_of_not_mem {t : Token} (ht : t ∉ family) (fill : Token → Nat → Text)
    (w : Token × Nat → Text) (n : Nat) : overlay family fill w (t, n) = w (t, n) := if_neg ht

theorem Replaces.no_brace {fill : Token → Nat → Text} (h : Replaces family fill) {t : Token}
    (ht : t ∈ family) (n : Nat) : '{' ∉ fill t n := fun hmem =>
  (ne_brace_of_hasNoBrace (h t ht n).2 hmem).1 rfl

/-- After a pass no token starts at a character of the page, as before it. -/
theorem Replaces.clean {G : List Token} {fill : Token → Nat → Text} (h : Replaces family fill)
    (c : Counters) (html : Text) :
    Atom.Clean spelling G (overlay family fill written)
      (numberFrom [] c (atoms Token.all html)) := by
  refine clean_of_bracket (fun (t, n) => ?_) (clean_written c html)
  by_cases ht : t ∈ family
  · rw [overlay_of_mem ht]
    exact .inr (h t ht n).1
  · exact .inl (overlay_of_not_mem ht fill written n)

/-- One pass over any page fills in the tokens of its family. -/
theorem bind_eq (hsep : Separate family) (fill : Token → Nat → Text) (c : Counters)
    (html : Text) :
    bind family fill c html =
      (Atom.fill (overlay family fill written) (numberFrom [] c (atoms Token.all html)),
        c.after ((tokens (atoms Token.all html)).filter (· ∈ family))) := by
  have hhtml : Atom.fill written (numberFrom [] c (atoms Token.all html)) = html :=
    (fill_written c _).trans (fill_atoms (fun t _ => spelling_ne_nil t) html)
  have hpass := bind_fill (d := c) hsep fill (fun t _ => rfl) (fun t _ n => rfl)
    (fun t _ n => .inl rfl) (clean_written c html)
  rwa [hhtml] at hpass

/-- A pass after the pass for another family: each token is filled in once, with the number it has
in the page before both passes. -/
theorem bind_bind {F G : List Token} {f : Token → Nat → Text} (hF : Separate F) (hG : Separate G)
    (hdisjoint : ∀ t ∈ F, t ∉ G) (hf : Replaces F f) (g : Token → Nat → Text) (c : Counters)
    (html : Text) :
    bind G g (bind F f c html).2 (bind F f c html).1 =
      (Atom.fill (overlay G g (overlay F f written)) (numberFrom [] c (atoms Token.all html)),
        (c.after ((tokens (atoms Token.all html)).filter (· ∈ F))).after
          ((tokens (atoms Token.all html)).filter (· ∈ G))) := by
  rw [bind_eq hF]
  refine bind_fill hG g ?_ ?_ ?_ (hf.clean c html)
  · -- the first pass has not moved the counters of the second
    intro t ht
    have hnone : ((tokens (atoms Token.all html)).filter (· ∈ F)).countP t.shares = 0 := by
      refine List.countP_eq_zero.2 fun u hu => ?_
      have hu := of_decide_eq_true (List.mem_filter.1 hu).2
      rw [hG u (hdisjoint u hu) t ht]
      exact Bool.false_ne_true
    rw [Counters.number_after, hnone, Nat.add_zero]
  · exact fun t ht n => overlay_of_not_mem (fun h => hdisjoint t h ht) f written n
  · intro t _ n
    by_cases ht : t ∈ F
    · rw [overlay_of_mem ht]
      exact .inr (hf.no_brace ht n)
    · exact .inl (overlay_of_not_mem ht f written n)

end Binding
end Tender
