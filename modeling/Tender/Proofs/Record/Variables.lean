/-
The values of custom variables: what a map of them can be made of.

* `Value.exists_same` — values that can be keys are compared without a fault;
* `Estimate.addPairs_cases` — a list breaks the making of a map off at its first item that is no
  pair, if that has no parts or a first part that cannot be a key;
* `Estimate.judges_variables` — so reading variables breaks off on such lists, and on what has no
  items at all.
-/
import Tender.Proofs.Record.Survey
import Tender.Record.Estimate

namespace Tender

namespace Estimate

/-! ### Pairs -/

/-- An item of two parts the first of which can be a key. -/
def IsPair (v : Value) : Prop :=
  ∃ key value, parts? v = some [key, value] ∧ isKey key = true

/-- An item without parts, or of two parts the first of which cannot be a key. -/
def Spoils (v : Value) : Prop :=
  parts? v = none ∨ ∃ key value, parts? v = some [key, value] ∧ isKey key = false

/-- A list whose first item that is no pair spoils the making of a map. -/
def Spoiled : List Value → Prop
  | [] => False
  | v :: vs => Spoils v ∨ IsPair v ∧ Spoiled vs

theorem isSignalling_of_isKey {v : Value} (h : isKey v = true) : v.isSignalling = false := by
  cases v with
  | decimal d => exact Bool.not_eq_true' _ ▸ h
  | _ => rfl

/-- Values that can be keys are compared without a fault. -/
theorem exists_same {a b : Value} (ha : isKey a = true) (hb : isKey b = true) :
    ∃ same, Value.same a b = .ok same := by
  fun_cases Value.same a b with
  | case3 => cases ha
  | case5 => cases ha
  | case9 =>
    rename_i hsignal
    rw [isSignalling_of_isKey ha, isSignalling_of_isKey hb] at hsignal
    exact absurd hsignal (by decide)
  | _ => exact ⟨_, rfl⟩

/-- A value that can be a key is put into a map without a fault. -/
theorem exists_putKey {key : Value} (hkey : isKey key = true) (value : Value)
    {acc : List (Value × Value)} (hacc : ∀ p ∈ acc, isKey p.1 = true) :
    ∃ acc', putKey key value acc = .ok acc' ∧ ∀ p ∈ acc', isKey p.1 = true := by
  induction acc with
  | nil => exact ⟨_, rfl, List.forall_mem_singleton.2 hkey⟩
  | cons p acc ih =>
    obtain ⟨hp, hrest⟩ := List.forall_mem_cons.1 hacc
    obtain ⟨same, hsame⟩ := exists_same hp hkey
    obtain ⟨acc', hput, hacc'⟩ := ih hrest
    rw [putKey, hsame]
    cases same with
    | true => exact ⟨_, rfl, List.forall_mem_cons.2 ⟨hp, hrest⟩⟩
    | false =>
      refine ⟨p :: acc', ?_, List.forall_mem_cons.2 ⟨hp, hacc'⟩⟩
      show (putKey key value acc >>= fun rest => pure (p :: rest)) = _
      rw [hput]
      rfl

/-- The making of a map breaks off exactly on a list that spoils it. -/
theorem addPairs_cases (vs : List Value) (i : Nat) {acc : List (Value × Value)}
    (hacc : ∀ p ∈ acc, isKey p.1 = true) :
    (Spoiled vs ∧ ∃ f : Fault, f.IsInternal ∧ addPairs i acc vs = .error f) ∨
    (¬ Spoiled vs ∧ ∃ pairs, addPairs i acc vs = .ok pairs) := by
  -- pairs only fill the map; the first item that is no pair decides, so the map is kept general
  induction vs generalizing i acc with
  | nil => exact .inr ⟨fun h => h, some acc, rfl⟩
  | cons v vs ih =>
    rw [Spoiled, Spoils, IsPair, addPairs]
    cases hparts : parts? v with
    | none => exact .inl ⟨.inl (.inl rfl), .notPair i, nofun, rfl⟩
    | some parts =>
      rcases parts with _ | ⟨key, _ | ⟨value, _ | ⟨third, rest⟩⟩⟩
      · exact .inr ⟨by simp, none, rfl⟩
      · exact .inr ⟨by simp, none, rfl⟩
      · cases hkey : isKey key with
        | false =>
          exact .inl ⟨.inl (.inr ⟨key, value, rfl, hkey⟩), .unhashable key.kind, nofun,
            by simp [hkey]⟩
        | true =>
          obtain ⟨acc', hput, hacc'⟩ := exists_putKey hkey value hacc
          simp only [hput, hkey, if_true]
          show (_ ∧ ∃ f : Fault, f.IsInternal ∧ addPairs (i + 1) acc' vs = .error f) ∨
            (_ ∧ ∃ pairs, addPairs (i + 1) acc' vs = .ok pairs)
          refine (ih (i + 1) hacc').imp (And.imp_left fun h => .inr ⟨⟨key, value, rfl, hkey⟩, h⟩)
            (And.imp_left fun h => ?_)
          rintro ((h' | ⟨key', value', heq, hkey'⟩) | ⟨-, h'⟩)
          · cases h'
          · cases heq
            rw [hkey] at hkey'
            cases hkey'
          · exact h h'
      · exact .inr ⟨by simp, none, rfl⟩

/-! ### Variables -/

/-- A value that is there and that no map can be made of: it has no items, or its first item that is
no pair spoils it. -/
def Unmappable (v : Value) : Prop :=
  v.isPresent = true ∧ match v with
    | .map _ => False
    | .text _ => False
    | .list vs => Spoiled vs
    | _ => True

/-- A text has characters for items, none of which is a pair. -/
theorem not_spoiled_characters (s : Text) : ¬ Spoiled (s.map fun c => .text [c]) := by
  cases s with
  | nil => exact fun h => h
  | cons c s => simp [Spoiled, Spoils, IsPair, parts?]

theorem pairs?_cases {v : Value} (hv : v.isPresent = true) :
    (Unmappable v ∧ ∃ f : Fault, f.IsInternal ∧ pairs? v = .error f) ∨
    (¬ Unmappable v ∧ ∃ pairs, pairs? v = .ok pairs) := by
  have hnone : ∀ p ∈ ([] : List (Value × Value)), isKey p.1 = true := fun p hp =>
    absurd hp List.not_mem_nil
  cases v with
  | map es => exact .inr ⟨And.right, _, rfl⟩
  | text s =>
    refine (addPairs_cases _ 0 hnone).imp (fun h => absurd h.1 (not_spoiled_characters s))
      (And.imp_left fun _ => And.right)
  | list vs =>
    exact (addPairs_cases vs 0 hnone).imp (And.imp_left fun h => ⟨hv, h⟩)
      (And.imp_left fun h hun => h hun.2)
  | null => cases hv
  | _ => exact .inl ⟨⟨hv, trivial⟩, .notIterable _, nofun, rfl⟩

/-- A value that is there, and whose pairs are none or cannot be written. -/
def Unwritable (v : Value) : Prop :=
  v.isPresent = true ∧ ∀ pairs, pairs? v = .ok (some pairs) → areWritable pairs = false

/-- Reading variables breaks off on what no map can be made of, and refuses what cannot be
written. -/
theorem judges_variables : Survey.Judges readVariables Unmappable Unwritable := by
  intro v
  by_cases hv : v.isPresent = true
  · obtain ⟨hun, f, hf, hpairs⟩ | ⟨hmappable, pairs, hpairs⟩ := pairs?_cases hv
    · have hread : readVariables v = Survey.fail f := by
        rw [readVariables, hv, hpairs]
        rfl
      rw [hread]
      exact (Survey.reads_fail hf).congr (iff_of_true trivial hun) Iff.rfl
    · by_cases hwritable : ∃ ps, pairs = some ps ∧ areWritable ps = true
      · obtain ⟨ps, rfl, hps⟩ := hwritable
        have hread : readVariables v = pure (variablesOf ps) := by
          simp [readVariables, hv, hpairs, hps]
        rw [hread]
        exact (Survey.reads_pure _).congr (iff_of_false nofun hmappable)
          (iff_of_false nofun fun h => by rw [h.2 ps hpairs] at hps; cases hps)
      · have hread : readVariables v = do Survey.complain .badValue v; return [] := by
          cases pairs with
          | none => simp [readVariables, hv, hpairs]
          | some ps =>
            have hps : areWritable ps = false := Bool.eq_false_iff.2 fun h => hwritable ⟨ps, rfl, h⟩
            simp [readVariables, hv, hpairs, hps]
        rw [hread]
        refine (Survey.Reads.refuse (Survey.passes_self _ v) _).congr
          (iff_of_false nofun hmappable) (iff_of_true trivial ⟨hv, fun ps hps => ?_⟩)
        rw [hpairs] at hps
        exact Bool.eq_false_iff.2 fun h => hwritable ⟨ps, Except.ok.inj hps, h⟩
  · have hread : readVariables v = pure [] := by
      simp [readVariables, hv]
    rw [hread]
    exact (Survey.reads_pure _).congr (iff_of_false nofun fun h => hv h.1)
      (iff_of_false nofun fun h => hv h.1)

end Estimate
end Tender
