/-
Equality and order seen from the other side.

* `Value.parts` — all that stands in a value, the value itself among it;
* `Value.exists_same_of_quiet` — without signalling numbers values are compared without a fault;
* `Value.same_comm` — equality does not depend on the side, if no map holds a signalling number;
* `Value.compare_swap` — and the order from the other side is the converse order.
-/
import Mathlib.Data.List.Nodup
import Mathlib.Data.List.Perm.Subperm
import Tender.Proofs.Value.Entries
import Tender.Value.Order

namespace Tender.Value

/-! ### The parts of a value -/

mutual
/-- The value, its items, their items and so on. -/
def parts : Value → List Value
  | .list items => .list items :: partsOf items
  | .map entries => .map entries :: partsUnder entries
  | v => [v]

/-- The parts of some values. -/
def partsOf : List Value → List Value
  | [] => []
  | v :: vs => v.parts ++ partsOf vs

/-- The parts of the values of entries. -/
def partsUnder : List (Text × Value) → List Value
  | [] => []
  | (_, v) :: es => v.parts ++ partsUnder es
end

theorem parts_subset_list {items : List Value} {v : Value} (h : v ∈ items) :
    v.parts ⊆ (Value.list items).parts := by
  rw [parts]
  refine List.subset_cons_of_subset _ ?_
  induction items with
  | nil => cases h
  | cons w items ih =>
    rw [partsOf]
    rcases List.mem_cons.1 h with rfl | h
    · exact List.subset_append_left _ _
    · exact List.subset_append_of_subset_right _ (ih h)

theorem parts_subset_map {entries : Entries Value} {e : Text × Value} (h : e ∈ entries) :
    e.2.parts ⊆ (Value.map entries).parts := by
  rw [parts]
  refine List.subset_cons_of_subset _ ?_
  induction entries with
  | nil => cases h
  | cons f entries ih =>
    obtain ⟨k, w⟩ := f
    rw [partsUnder]
    rcases List.mem_cons.1 h with rfl | h
    · exact List.subset_append_left _ _
    · exact List.subset_append_of_subset_right _ (ih h)

theorem mem_parts_self (v : Value) : v ∈ v.parts := by
  cases v <;> simp [parts]

/-- Neither a list nor a map. -/
def IsPlain (v : Value) : Prop := (∀ items, v ≠ .list items) ∧ ∀ entries, v ≠ .map entries

/-- What is true of plain values, of lists of such and of maps of such is true of all values. -/
theorem induction_parts {P : Value → Prop} (plain : ∀ v, v.IsPlain → P v)
    (list : ∀ items, (∀ v ∈ items, P v) → P (.list items))
    (map : ∀ entries : Entries Value, (∀ e ∈ entries, P e.2) → P (.map entries)) (v : Value) : P v := by
  suffices h : ∀ n v, sizeOf v < n → P v from h _ v (Nat.lt_succ_self _)
  intro n
  induction n with
  | zero => exact fun v hv => absurd hv (Nat.not_lt_zero _)
  | succ n ih =>
    intro v hv
    cases v with
    | list items =>
      refine list items fun w hw => ih w ?_
      have := List.sizeOf_lt_of_mem hw
      simp only [Value.list.sizeOf_spec] at hv
      omega
    | map entries =>
      refine map entries fun e he => ih e.2 ?_
      have := List.sizeOf_lt_of_mem he
      have : sizeOf e = 1 + sizeOf e.1 + sizeOf e.2 := rfl
      simp only [Value.map.sizeOf_spec] at hv
      omega
    | _ => exact plain _ ⟨nofun, nofun⟩

/-- No part is a number that signals when it is used. -/
def IsQuiet (v : Value) : Prop := ∀ w ∈ v.parts, w.isSignalling = false

theorem IsQuiet.items {xs : List Value} (h : (Value.list xs).IsQuiet) : ∀ v ∈ xs, v.IsQuiet :=
  fun _ hv w hw => h w (parts_subset_list hv hw)

theorem IsQuiet.values {es : Entries Value} (h : (Value.map es).IsQuiet) :
    ∀ e ∈ es, e.2.IsQuiet :=
  fun _ he w hw => h w (parts_subset_map he hw)

/-- The keys of each map differ, and no map holds a number that signals when it is used. -/
structure IsOrderly (v : Value) : Prop where
  keys : ∀ entries, Value.map entries ∈ v.parts → (Entries.keys entries).Nodup
  quiet : ∀ entries, Value.map entries ∈ v.parts → (Value.map entries).IsQuiet

namespace IsOrderly

theorem of_subset {v w : Value} (h : v.IsOrderly) (hsub : w.parts ⊆ v.parts) : w.IsOrderly where
  keys entries hmem := h.keys entries (hsub hmem)
  quiet entries hmem := h.quiet entries (hsub hmem)

theorem items {xs : List Value} (h : (Value.list xs).IsOrderly) : ∀ v ∈ xs, v.IsOrderly :=
  fun _ hv => h.of_subset (parts_subset_list hv)

theorem values {es : Entries Value} (h : (Value.map es).IsOrderly) : ∀ e ∈ es, e.2.IsOrderly :=
  fun _ he => h.of_subset (parts_subset_map he)

end IsOrderly

/-! ### Numbers -/

/-- Whether two values are equal as numbers. -/
def sameNumbers (a b : Value) : Except Fault Bool :=
  match a.toReal?, b.toReal? with
  | some x, some y =>
    if a.isSignalling ∨ b.isSignalling then .error .invalidOperation
    else .ok (Real.compare x y == .equal)
  | _, _ => .ok false

theorem sameNumbers_comm (a b : Value) : sameNumbers a b = sameNumbers b a := by
  rw [sameNumbers, sameNumbers]
  cases a.toReal? with
  | none => cases b.toReal? <;> rfl
  | some x =>
    cases b.toReal? with
    | none => rfl
    | some y =>
      have hequal : (Real.compare x y == .equal) = (Real.compare y x == .equal) := by
        rw [Real.compare_swap x y]
        cases Real.compare x y <;> rfl
      simp only [hequal, or_comm]

theorem exists_sameNumbers {a b : Value} (ha : a.IsQuiet) (hb : b.IsQuiet) :
    ∃ r, sameNumbers a b = .ok r := by
  rw [sameNumbers]
  split
  · rw [ha a (mem_parts_self a), hb b (mem_parts_self b)]
    exact ⟨_, rfl⟩
  · exact ⟨_, rfl⟩

theorem compareInts_swap (a b : Int) : compareInts b a = (compareInts a b).swap := by
  rw [compareInts, compareInts]
  rcases Int.lt_trichotomy a b with h | rfl | h
  · rw [if_neg (by omega), if_pos h, if_pos h]
    rfl
  · simp only [if_neg (Int.lt_irrefl _)]
    rfl
  · rw [if_pos h, if_neg (by omega), if_pos h]
    rfl

theorem compareMoments_swap (a b : Moment) : compareMoments b a = (compareMoments a b).swap := by
  have hsides : b.comparable a = a.comparable b := Bool.beq_comm
  rw [compareMoments, compareMoments, hsides]
  split
  · exact compareInts_swap _ _
  · rfl

/-! ### Equality -/

section Same

variable {xs ys : List Value} {es fs : Entries Value}

theorem sameItems_comm (h : ∀ x ∈ xs, ∀ y ∈ ys, same x y = same y x) :
    sameItems xs ys = sameItems ys xs := by
  induction xs generalizing ys with
  | nil => cases ys <;> rfl
  | cons x xs ih =>
    cases ys with
    | nil => rfl
    | cons y ys =>
      have hrest : sameItems xs ys = sameItems ys xs :=
        ih fun x hx y hy => h x (List.mem_cons_of_mem _ hx) y (List.mem_cons_of_mem _ hy)
      rw [sameItems, sameItems, h x List.mem_cons_self y List.mem_cons_self, hrest]

theorem exists_sameItems (h : ∀ x ∈ xs, ∀ y ∈ ys, ∃ r, same x y = .ok r) :
    ∃ r, sameItems xs ys = .ok r := by
  induction xs generalizing ys with
  | nil => exact ⟨true, by rw [sameItems]; nofun⟩
  | cons x xs ih =>
    cases ys with
    | nil => exact ⟨true, by rw [sameItems]; nofun⟩
    | cons y ys =>
      obtain ⟨r, hr⟩ := h x List.mem_cons_self y List.mem_cons_self
      rw [sameItems, hr]
      cases r with
      | false => exact ⟨false, rfl⟩
      | true =>
        exact ih fun x hx y hy => h x (List.mem_cons_of_mem _ hx) y (List.mem_cons_of_mem _ hy)

theorem exists_sameEntries (h : ∀ e ∈ es, ∀ f ∈ fs, ∃ r, same e.2 f.2 = .ok r) :
    ∃ r, sameEntries es fs = .ok r := by
  induction es with
  | nil => exact ⟨true, by rw [sameEntries]⟩
  | cons e es ih =>
    obtain ⟨k, x⟩ := e
    rw [sameEntries]
    cases hget : Entries.get? k fs with
    | none => exact ⟨false, rfl⟩
    | some y =>
      obtain ⟨r, hr⟩ := h _ List.mem_cons_self _ (Entries.mem_of_get? hget)
      simp only at hr
      simp only [hr]
      cases r with
      | false => exact ⟨false, rfl⟩
      | true => exact ih fun e he => h e (List.mem_cons_of_mem _ he)

/-- Maps are found equal if the second has an equal value for each entry of the first. -/
theorem sameEntries_eq_true_iff : sameEntries es fs = .ok true ↔
    ∀ e ∈ es, ∃ y, Entries.get? e.1 fs = some y ∧ same e.2 y = .ok true := by
  induction es with
  | nil => exact iff_of_true (by rw [sameEntries]) fun e he => by cases he
  | cons e es ih =>
    obtain ⟨k, x⟩ := e
    rw [List.forall_mem_cons, ← ih, sameEntries]
    cases Entries.get? k fs with
    | none => simp
    | some y =>
      show (same x y >>= fun r => if r then sameEntries es fs else pure false) = _ ↔ _
      cases hsame : same x y with
      | error f => simp [bind, Except.bind, hsame]
      | ok r => cases r <;> simp [bind, Except.bind, pure, Except.pure, hsame]

/-- Of two maps with as many keys, each has an equal value for each entry of the other if one has. -/
theorem sameEntries_mirror (hlength : es.length = fs.length) (hes : (Entries.keys es).Nodup)
    (hfs : (Entries.keys fs).Nodup) (hcomm : ∀ e ∈ es, ∀ f ∈ fs, same e.2 f.2 = same f.2 e.2)
    (h : sameEntries es fs = .ok true) : sameEntries fs es = .ok true := by
  rw [sameEntries_eq_true_iff] at h ⊢
  have hsub : Entries.keys es ⊆ Entries.keys fs := by
    intro k hk
    obtain ⟨e, he, rfl⟩ := List.mem_map.1 hk
    obtain ⟨y, hget, -⟩ := h e he
    exact List.mem_map.2 ⟨_, Entries.mem_of_get? hget, rfl⟩
  have hperm : (Entries.keys es).Perm (Entries.keys fs) :=
    (hes.subperm hsub).perm_of_length_le (by simp [Entries.keys, hlength])
  intro f hf
  -- the key of the entry is one of the other map's, and it has one value there
  obtain ⟨e, he, hkey⟩ := List.mem_map.1 (hperm.mem_iff.2 (List.mem_map_of_mem hf))
  obtain ⟨y, hget, hsame⟩ := h e he
  have hvalue : y = f.2 := by
    rw [hkey, Entries.get?_of_mem hfs hf] at hget
    exact (Option.some.inj hget).symm
  subst hvalue
  exact ⟨e.2, Entries.get?_of_mem hes (hkey ▸ he), (hcomm e he f hf) ▸ hsame⟩

end Same

/-- Without signalling numbers, values are compared without a fault. -/
theorem exists_same_of_quiet (a b : Value) (ha : a.IsQuiet) (hb : b.IsQuiet) :
    ∃ r, same a b = .ok r := by
  induction a using induction_parts generalizing b with
  | plain a hplain =>
    cases a with
    | list items => exact absurd rfl (hplain.1 items)
    | map entries => exact absurd rfl (hplain.2 entries)
    | _ => cases b <;> first | exact ⟨_, rfl⟩ | exact exists_sameNumbers ha hb
  | list xs ih =>
    cases b with
    | list ys =>
      rw [same]
      split
      · exact exists_sameItems fun x hx y hy => ih x hx y (ha.items x hx) (hb.items y hy)
      · exact ⟨_, rfl⟩
    | _ => exact ⟨false, rfl⟩
  | map es ih =>
    cases b with
    | map fs =>
      rw [same]
      split
      · exact exists_sameEntries fun e he f hf => ih e he f.2 (ha.values e he) (hb.values f hf)
      · exact ⟨_, rfl⟩
    | _ => exact ⟨false, rfl⟩

/-- Equality does not depend on the side. -/
theorem same_comm (a b : Value) (ha : a.IsOrderly) (hb : b.IsOrderly) : same a b = same b a := by
  -- values of two kinds are compared as numbers
  have hnumbers := sameNumbers_comm a b
  induction a using induction_parts generalizing b with
  | plain a hplain =>
    cases a with
    | list items => exact absurd rfl (hplain.1 items)
    | map entries => exact absurd rfl (hplain.2 entries)
    | null =>
      cases b with
      | null => rfl
      | _ => exact hnumbers
    | text s =>
      cases b with
      | text t => exact congrArg Except.ok Bool.beq_comm
      | _ => exact hnumbers
    | date x =>
      cases b with
      | date y => exact congrArg Except.ok Bool.beq_comm
      | _ => exact hnumbers
    | moment x =>
      cases b with
      | moment y =>
        rw [same, same, compareMoments_swap x y]
        cases compareMoments x y <;> rfl
      | _ => exact hnumbers
    | _ => cases b <;> exact hnumbers
  | list xs ih =>
    cases b with
    | list ys =>
      rw [same, same, sameItems_comm fun x hx y hy =>
        ih x hx y (ha.items x hx) (hb.items y hy) (sameNumbers_comm x y)]
      simp only [eq_comm (a := xs.length)]
    | _ => exact hnumbers
  | map es ih =>
    cases b with
    | map fs =>
      rw [same, same]
      by_cases hlength : es.length = fs.length
      · have hcomm : ∀ e ∈ es, ∀ f ∈ fs, same e.2 f.2 = same f.2 e.2 := fun e he f hf =>
          ih e he f.2 (ha.values e he) (hb.values f hf) (sameNumbers_comm _ _)
        have hes := ha.keys es (mem_parts_self _)
        have hfs := hb.keys fs (mem_parts_self _)
        have hesQuiet := (ha.quiet es (mem_parts_self _)).values
        have hfsQuiet := (hb.quiet fs (mem_parts_self _)).values
        -- no fault breaks the search off, so that only the answer matters
        obtain ⟨r, hr⟩ : ∃ r, sameEntries es fs = .ok r := exists_sameEntries fun e he f hf =>
          exists_same_of_quiet _ _ (hesQuiet e he) (hfsQuiet f hf)
        obtain ⟨r', hr'⟩ : ∃ r, sameEntries fs es = .ok r := exists_sameEntries fun f hf e he =>
          exists_same_of_quiet _ _ (hfsQuiet f hf) (hesQuiet e he)
        rw [if_pos hlength, if_pos hlength.symm, hr, hr']
        refine congrArg Except.ok (Bool.eq_iff_iff.2 ⟨fun h => ?_, fun h => ?_⟩)
        · subst h
          have := sameEntries_mirror hlength hes hfs hcomm hr
          rw [hr'] at this
          exact Except.ok.inj this
        · subst h
          have := sameEntries_mirror hlength.symm hfs hes
            (fun f hf e he => (hcomm e he f hf).symm) hr'
          rw [hr] at this
          exact Except.ok.inj this
      · rw [if_neg hlength, if_neg (Ne.symm hlength)]
    | _ => exact hnumbers

/-! ### Order -/

/-- How two values stand as numbers. -/
def compareReals (a b : Value) : Except Fault Relation :=
  match a.toReal?, b.toReal? with
  | some x, some y => compareNumbers a b x y
  | _, _ => .ok .incomparable

theorem compareReals_swap (a b : Value) :
    compareReals b a = (compareReals a b).map Relation.swap := by
  rw [compareReals, compareReals]
  cases a.toReal? with
  | none => cases b.toReal? <;> rfl
  | some x =>
    cases b.toReal? with
    | none => rfl
    | some y =>
      simp only [compareNumbers, or_comm (a := y = .nan), or_comm (a := b.isDecimal = true)]
      split
      · rfl
      · exact congrArg Except.ok (Real.compare_swap x y)

theorem compareItems_swap {xs ys : List Value} (hxs : ∀ x ∈ xs, x.IsOrderly)
    (hys : ∀ y ∈ ys, y.IsOrderly)
    (hswap : ∀ x ∈ xs, ∀ y ∈ ys, compare y x = (compare x y).map Relation.swap) :
    compareItems ys xs = (compareItems xs ys).map Relation.swap := by
  induction xs generalizing ys with
  | nil => cases ys <;> rfl
  | cons x xs ih =>
    cases ys with
    | nil => rfl
    | cons y ys =>
      obtain ⟨hx, hxs⟩ := List.forall_mem_cons.1 hxs
      obtain ⟨hy, hys⟩ := List.forall_mem_cons.1 hys
      rw [compareItems, compareItems, same_comm x y hx hy]
      rcases same y x with f | r
      · rfl
      · cases r with
        | false => exact hswap _ List.mem_cons_self _ List.mem_cons_self
        | true =>
          exact ih hxs hys fun x hx y hy =>
            hswap x (List.mem_cons_of_mem _ hx) y (List.mem_cons_of_mem _ hy)

/-- The order from the other side is the converse order. -/
theorem compare_swap (a b : Value) (ha : a.IsOrderly) (hb : b.IsOrderly) :
    compare b a = (compare a b).map Relation.swap := by
  -- values of two kinds are compared as numbers
  have hreals := compareReals_swap a b
  induction a using induction_parts generalizing b with
  | plain a hplain =>
    cases a with
    | list items => exact absurd rfl (hplain.1 items)
    | text s =>
      cases b with
      | text t => exact congrArg Except.ok (compareCodes_swap s t)
      | _ => exact hreals
    | date x =>
      cases b with
      | date y => exact congrArg Except.ok (compareInts_swap _ _)
      | _ => exact hreals
    | moment x =>
      cases b with
      | moment y => exact congrArg Except.ok (compareMoments_swap x y)
      | _ => exact hreals
    | _ => cases b <;> exact hreals
  | list xs ih =>
    cases b with
    | list ys =>
      exact compareItems_swap ha.items hb.items fun x hx y hy =>
        ih x hx y (ha.items x hx) (hb.items y hy) (compareReals_swap x y)
    | _ => exact hreals
  | map es ih => cases b <;> exact hreals

end Tender.Value
