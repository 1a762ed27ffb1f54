/-
The texts that a value holds, and its own text.

What a pattern that starts with a tilde finds in the text of a value it finds in the texts that the
value holds, since numbers, dates and the wording around them have no tilde.

* `IsBare.walk`, `IsBare.entries` — the parts of a value hold texts of the value;
* `bare_listed`, `bare_toText`, `bare_display` — the text of a value, in all three forms.
-/
import Tender.Proofs.Text.Tilde
import Tender.Proofs.Template.Written

namespace Tender

open Text

/-! ### Numbers and dates -/

theorem tilde_not_mem_take {s : Text} (h : '~' ∉ s) (n : Nat) : '~' ∉ s.take n :=
  fun hmem => h (List.mem_of_mem_take hmem)

theorem tilde_not_mem_drop {s : Text} (h : '~' ∉ s) (n : Nat) : '~' ∉ s.drop n :=
  fun hmem => h (List.mem_of_mem_drop hmem)

theorem tilde_ne_sign (negative : Prop) [Decidable negative] :
    '~' ≠ if negative then '-' else '+' := by
  split <;> decide

@[simp] theorem Binary64.tilde_not_mem_plain (rank : Nat) : '~' ∉ plain rank := by
  have hdigits : '~' ∉ ofNat (shortest rank).digits := tilde_not_mem_ofNat _
  unfold plain
  simp only
  split
  · split
    · rw [lit]
      simp
    · split
      · simp [tilde_not_mem_take hdigits, tilde_not_mem_drop hdigits]
      · simp
  · generalize ofNat (shortest rank).digits = digits at hdigits
    -- one digit, or a point behind the first
    split
    · simp_all [tilde_ne_sign]
    · simp_all [tilde_ne_sign]
    · simp [tilde_ne_sign]

@[simp] theorem Binary64.tilde_not_mem_toText (x : Binary64) : '~' ∉ x.toText := by
  unfold toText
  split
  · rw [lit]; simp
  · rw [lit]; simp
  · rw [lit]; simp
  · simp
  · simp

@[simp] theorem Value.tilde_not_mem_floatText (x : Binary64) : '~' ∉ floatText x := by
  unfold floatText
  split <;> simp

@[simp] theorem Decimal.tilde_not_mem_plain (c : Nat) (e : Int) : '~' ∉ plain c e := by
  have hdigits : '~' ∉ ofNat c := tilde_not_mem_ofNat _
  have hbody (point : Int) : '~' ∉
      if point ≤ 0 then '0' :: '.' :: List.replicate (-point).toNat '0' ++ ofNat c
      else if ((ofNat c).length : Int) ≤ point then
        ofNat c ++ List.replicate (point - ((ofNat c).length : Int)).toNat '0'
      else (ofNat c).take point.toNat ++ '.' :: (ofNat c).drop point.toNat := by
    split
    · simp
    · split
      · simp
      · simp [tilde_not_mem_take hdigits, tilde_not_mem_drop hdigits]
  unfold plain
  simp only
  generalize (if e ≤ 0 ∧ -6 < e + ((ofNat c).length : Int) then e + ((ofNat c).length : Int)
    else 1) = point
  split
  · exact hbody point
  · rw [List.mem_append, not_or]
    exact ⟨hbody point, by simp [tilde_ne_sign]⟩

@[simp] theorem Date.tilde_not_mem_toText (d : Date) : '~' ∉ d.toText := by
  simp [toText]

@[simp] theorem Offset.tilde_not_mem_toText {separator : Text} (h : '~' ∉ separator) (o : Offset) :
    '~' ∉ o.toText separator := by
  unfold toText
  simp only
  split
  · simp [tilde_ne_sign, h]
  · split <;> simp [tilde_ne_sign, h]

@[simp] theorem Offset.tilde_not_mem_name (o : Offset) : '~' ∉ o.name := by
  unfold name
  rw [lit]
  split <;> simp

theorem Moment.tilde_not_mem_toText {separator : Char} (h : '~' ≠ separator) (m : Moment) :
    '~' ∉ m.toText separator := by
  unfold toText
  split <;> split <;> simp [h]

theorem Value.tilde_not_mem_commaList {parts : List Text} (h : ∀ s ∈ parts, '~' ∉ s) :
    '~' ∉ commaList parts := by
  have hsep : '~' ∉ lit ", " := by
    rw [lit]
    simp
  exact Tilded.bare_tilde_iff.1
    (.joinWith (Tilded.bare_tilde_iff.2 hsep) fun s hs => Tilded.bare_tilde_iff.2 (h s hs))

@[simp] theorem Value.tilde_not_mem_spanText (n : Int) : '~' ∉ spanText n := by
  have hpart (name : String) (hname : '~' ∉ name.toList) (k : Int) :
      ∀ s ∈ (if k = 0 then [] else [name.toList ++ '=' :: ofInt k]), '~' ∉ s := by
    split
    · simp
    · simp [hname]
  have hshown {parts : List Text} (h : ∀ s ∈ parts, '~' ∉ s) :
      '~' ∉ if parts = [] then ['0'] else commaList parts := by
    split
    · simp
    · exact tilde_not_mem_commaList h
  unfold spanText
  rw [lit]
  simp only [List.mem_append, not_or]
  refine ⟨⟨by simp, hshown (List.forall_mem_append.2 ⟨List.forall_mem_append.2
    ⟨hpart "days" ?_ _, hpart "seconds" ?_ _⟩, hpart "microseconds" ?_ _⟩)⟩, by simp⟩ <;> decide

@[simp] theorem Value.tilde_not_mem_listedOffset (o : Offset) : '~' ∉ listedOffset o := by
  unfold listedOffset
  rw [lit, lit]
  split <;> simp

theorem Value.tilde_not_mem_listedMoment (m : Moment) : '~' ∉ listedMoment m := by
  have hparts {numbers : List Nat} {zone : List Text} (hzone : ∀ s ∈ zone, '~' ∉ s) :
      '~' ∉ commaList (numbers.map ofNat ++ zone) := by
    refine tilde_not_mem_commaList (List.forall_mem_append.2 ⟨fun s hs => ?_, hzone⟩)
    obtain ⟨n, -, rfl⟩ := List.mem_map.1 hs
    exact tilde_not_mem_ofNat n
  unfold listedMoment
  simp only [List.mem_append, not_or]
  refine ⟨⟨by rw [lit]; simp, hparts ?_⟩, by simp⟩
  split
  · rw [lit]
    simp
  · simp

/-! ### The texts that a value holds -/

namespace Value

mutual
/-- The texts that a value holds, the keys of maps among them. -/
def texts : Value → List Text
  | .text s => [s]
  | .decimal (.nan _ _ digits) => [digits]
  | .list items => textsOf items
  | .map entries => textsUnder entries
  | _ => []

/-- The texts that some values hold. -/
def textsOf : List Value → List Text
  | [] => []
  | v :: vs => v.texts ++ textsOf vs

/-- The texts that entries hold, with their keys. -/
def textsUnder : List (Text × Value) → List Text
  | [] => []
  | (k, v) :: es => k :: (v.texts ++ textsUnder es)
end

/-- A pattern starts in none of the texts that a value holds. -/
def IsBare (p : Text) (v : Value) : Prop := ∀ s ∈ v.texts, Bare p s

variable {p : Text} {v : Value}

theorem isBare_text {s : Text} : (Value.text s).IsBare p ↔ Bare p s := by
  simp [IsBare, texts]

theorem isBare_list {items : List Value} :
    (Value.list items).IsBare p ↔ ∀ v ∈ items, v.IsBare p := by
  simp only [IsBare, texts]
  induction items with
  | nil => simp [textsOf]
  | cons v vs ih => rw [textsOf, List.forall_mem_append, List.forall_mem_cons, ih]

theorem isBare_map {entries : List (Text × Value)} :
    (Value.map entries).IsBare p ↔ ∀ e ∈ entries, Bare p e.1 ∧ e.2.IsBare p := by
  simp only [IsBare, texts]
  induction entries with
  | nil => simp [textsUnder]
  | cons e es ih =>
    obtain ⟨k, v⟩ := e
    rw [textsUnder, List.forall_mem_cons, List.forall_mem_append, List.forall_mem_cons, ih,
      and_assoc]

/-- A value that holds no texts. -/
theorem IsBare.of_texts (h : v.texts = []) : v.IsBare p := by
  rw [IsBare, h]
  exact fun s hs => by cases hs

theorem IsBare.getD {o : Option Value} (h : ∀ v ∈ o, v.IsBare p) : (o.getD .null).IsBare p := by
  cases o with
  | none => exact .of_texts rfl
  | some v => exact h v rfl

/-! ### Parts of values -/

theorem IsBare.get? {entries : List (Text × Value)} (h : (Value.map entries).IsBare p)
    {key : Text} : ∀ v ∈ Entries.get? key entries, v.IsBare p := by
  induction entries with
  | nil => exact fun v hv => by cases hv
  | cons e es ih =>
    obtain ⟨k, w⟩ := e
    obtain ⟨hfirst, hrest⟩ := List.forall_mem_cons.1 (isBare_map.1 h)
    intro v hv
    rw [Entries.get?] at hv
    split at hv
    · cases hv
      exact hfirst.2
    · exact ih (isBare_map.2 hrest) v hv

theorem IsBare.step (h : v.IsBare p) {segment : Text} {w : Value} (hstep : v.step segment = .ok w) :
    w.IsBare p := by
  unfold Value.step at hstep
  split at hstep
  · cases hstep
    exact .getD h.get?
  · split at hstep
    · cases hstep
      exact .of_texts rfl
    · split at hstep
      · obtain ⟨i, -, rfl⟩ := ok_of_map hstep
        exact .getD fun v hv => isBare_list.1 h v (List.mem_of_getElem? hv)
      · cases hstep
        exact .of_texts rfl
  · cases hstep
    split <;> exact .of_texts rfl
  · cases hstep
    exact .of_texts rfl

theorem IsBare.walk (h : v.IsBare p) {segments : List Text} {w : Value}
    (hwalk : v.walk segments = .ok w) : w.IsBare p := by
  unfold Value.walk at hwalk
  induction segments generalizing v with
  | nil =>
    cases hwalk
    exact h
  | cons s segments ih =>
    rw [List.foldlM_cons] at hwalk
    obtain ⟨u, hu, hrest⟩ := ok_of_bind hwalk
    exact ih (h.step hu) hrest

theorem IsBare.entries (h : v.IsBare p) :
    ∀ e ∈ v.entries, e.1.IsBare p ∧ e.2.IsBare p := by
  unfold Value.entries
  split
  · intro e he
    obtain ⟨⟨k, w⟩, hmem, rfl⟩ := List.mem_map.1 he
    exact (isBare_map.1 h _ hmem).imp_left isBare_text.2
  · intro e he
    obtain ⟨i, hi, rfl⟩ := List.mem_mapIdx.1 he
    exact ⟨.of_texts rfl, isBare_list.1 h _ (List.getElem_mem hi)⟩
  · exact fun e he => by cases he

/-! ### The text of a value -/

theorem bare_commaList (hp : Tilded p) {parts : List Text} (h : ∀ s ∈ parts, Bare p s) :
    Bare p (commaList parts) := by
  have hsep : '~' ∉ lit ", " := by
    rw [lit]
    simp
  exact .joinWith (hp.of_not_mem hsep) h

theorem bare_decimal (hp : Tilded p) {d : Decimal} (h : (Value.decimal d).IsBare p) :
    Bare p d.toText := by
  have hsign (negative : Bool) : '~' ∉ if negative then ['-'] else [] := by
    cases negative <;> decide
  cases d with
  | finite negative c e => exact hp.of_not_mem (by simp [Decimal.toText, hsign])
  | infinite negative =>
    refine hp.of_not_mem ?_
    rw [Decimal.toText, lit]
    simp [hsign]
  | nan negative signalling digits =>
    have hname : '~' ∉ if signalling then lit "sNaN" else lit "NaN" := by
      rw [lit, lit]
      cases signalling <;> decide
    rw [Decimal.toText]
    refine ((hp.of_not_mem (hsign negative)).append (hp.of_not_mem hname)).append ?_
    exact h digits (by rw [texts]; exact List.mem_cons_self)

mutual
theorem bare_listed (hp : Tilded p) : (v : Value) → v.IsBare p → Bare p v.listed
  | .null, _ => hp.of_not_mem (by rw [listed, lit]; simp)
  | .bool true, _ => hp.of_not_mem (by rw [listed, lit]; simp)
  | .bool false, _ => hp.of_not_mem (by rw [listed, lit]; simp)
  | .int n, _ => hp.of_not_mem (by rw [listed]; simp)
  | .float x, _ => hp.of_not_mem (by rw [listed]; simp)
  | .decimal d, h => by
    rw [listed, lit, lit]
    exact ((hp.of_not_mem (by simp)).append (bare_decimal hp h)).append (hp.of_not_mem (by simp))
  | .text s, h => by
    rw [listed]
    exact hp.quoted (isBare_text.1 h)
  | .list items, h => by
    rw [listed]
    have hitems := bare_commaList hp (bare_listedItems hp items (isBare_list.1 h))
    exact ((hp.of_not_mem (s := ['[']) (by decide)).append hitems).append
      (hp.of_not_mem (by decide))
  | .map entries, h => by
    rw [listed]
    have hentries := bare_commaList hp (bare_listedEntries hp entries (isBare_map.1 h))
    exact ((hp.of_not_mem (s := ['{']) (by decide)).append hentries).append
      (hp.of_not_mem (by decide))
  | .date d, _ => by
    refine hp.of_not_mem ?_
    rw [listed, lit]
    simp only [List.mem_append, not_or]
    refine ⟨⟨by simp, tilde_not_mem_commaList fun s hs => ?_⟩, by simp⟩
    obtain ⟨n, -, rfl⟩ := List.mem_map.1 hs
    exact tilde_not_mem_ofNat n
  | .moment m, _ => hp.of_not_mem (by rw [listed]; exact tilde_not_mem_listedMoment m)

theorem bare_listedItems (hp : Tilded p) : (items : List Value) → (∀ v ∈ items, v.IsBare p) →
    ∀ s ∈ listedItems items, Bare p s
  | [], _ => fun s hs => by
    rw [listedItems] at hs
    cases hs
  | v :: vs, h => by
    rw [listedItems, List.forall_mem_cons]
    obtain ⟨hv, hvs⟩ := List.forall_mem_cons.1 h
    exact ⟨bare_listed hp v hv, bare_listedItems hp vs hvs⟩

theorem bare_listedEntries (hp : Tilded p) : (entries : List (Text × Value)) →
    (∀ e ∈ entries, Bare p e.1 ∧ e.2.IsBare p) → ∀ s ∈ listedEntries entries, Bare p s
  | [], _ => fun s hs => by
    rw [listedEntries] at hs
    cases hs
  | (k, v) :: es, h => by
    rw [listedEntries, List.forall_mem_cons]
    obtain ⟨⟨hk, hv⟩, hes⟩ := List.forall_mem_cons.1 h
    refine ⟨?_, bare_listedEntries hp es hes⟩
    rw [lit]
    exact ((hp.quoted hk).append (hp.of_not_mem (by simp))).append (bare_listed hp v hv)
end

theorem bare_toText (hp : Tilded p) (h : v.IsBare p) : Bare p v.toText := by
  unfold toText
  split
  · exact isBare_text.1 h
  · exact bare_decimal hp h
  · exact hp.of_not_mem (Date.tilde_not_mem_toText _)
  · exact hp.of_not_mem (Moment.tilde_not_mem_toText (by decide) _)
  · exact bare_listed hp v h

mutual
theorem bare_display (hp : Tilded p) : (v : Value) → v.IsBare p → Bare p v.display
  | .null, _ => hp.of_not_mem (by rw [display, lit]; simp)
  | .bool true, _ => hp.of_not_mem (by rw [display, lit]; simp)
  | .bool false, _ => hp.of_not_mem (by rw [display, lit]; simp)
  | .int n, _ => hp.of_not_mem (by rw [display]; simp)
  | .float x, _ => hp.of_not_mem (by rw [display]; simp)
  | .decimal d, h => by
    rw [display]
    exact bare_decimal hp h
  | .text s, h => by
    rw [display]
    exact isBare_text.1 h
  | .list items, h => by
    rw [display]
    exact .joinWith (hp.of_not_mem (by decide)) (bare_displayItems hp items (isBare_list.1 h))
  | .map entries, _ => hp.of_not_mem (by rw [display, lit]; simp)
  | .date d, _ => hp.of_not_mem (by rw [display]; exact Date.tilde_not_mem_toText d)
  | .moment m, _ => hp.of_not_mem (by
    rw [display]
    exact Moment.tilde_not_mem_toText (by decide) m)

theorem bare_displayItems (hp : Tilded p) : (items : List Value) → (∀ v ∈ items, v.IsBare p) →
    ∀ s ∈ displayItems items, Bare p s
  | [], _ => fun s hs => by
    rw [displayItems] at hs
    cases hs
  | v :: vs, h => by
    rw [displayItems, List.forall_mem_cons]
    obtain ⟨hv, hvs⟩ := List.forall_mem_cons.1 h
    refine ⟨?_, bare_displayItems hp vs hvs⟩
    split
    · exact Bare.nil
    · exact bare_display hp v hv
end

end Value

end Tender
