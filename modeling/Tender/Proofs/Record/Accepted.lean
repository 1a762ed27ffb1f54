/-
What accepted records come to, and how they are read back out of the entries that show them.

* `Survey.Comes` — a reading without a complaint, and what it comes to;
* `Survey.Gives` — what is known of all that a reading may come to without a complaint, through
  readings after one another, of lists, of records and of fields;
* `Field.Fresh` — extras under none of the keys of the declared fields;
* `Field.Fresh.get?`, `Field.Fresh.extras_shown`, `Field.Fresh.putAll_ofPairs` — in the entries that
  show a record each declared field is found, what is left are the extras, and these show it again.
-/
import Tender.Proofs.Record.Shape
import Tender.Proofs.Value.Entries

namespace Tender

/-! ### Readings without a complaint -/

namespace Survey

variable {α β γ : Type} {P : α → Prop} {Q : β → Prop}

/-- The reading notes nothing and comes to the value. -/
def Comes (s : Survey α) (a : α) : Prop :=
  ∀ noted, s noted = .ok (a, noted)

namespace Comes

theorem pure (a : α) : (pure a : Survey α).Comes a :=
  fun _ => rfl

theorem bind {x : Survey α} {f : α → Survey β} {a : α} {b : β} (hx : x.Comes a)
    (hf : (f a).Comes b) : (x >>= f).Comes b := by
  intro noted
  show (x noted >>= fun p => f p.1 p.2) = _
  rw [hx noted]
  exact hf noted

theorem under {s : Survey α} {a : α} (h : s.Comes a) (step : Text) : (under step s).Comes a := by
  intro noted
  rw [Survey.under, h []]
  exact congrArg (fun cs => Except.ok (a, cs)) (List.append_nil noted)

theorem finish {s : Survey α} {a : α} (h : s.Comes a) : s.finish = .ok a :=
  finish_ok_iff.2 (h [])

theorem items {read : Value → Survey α} {shown : γ → Value} {f : γ → α} {as : List γ}
    (h : ∀ a ∈ as, (read (shown a)).Comes (f a)) (i : Nat) :
    (items read i (as.map shown)).Comes (as.map f) := by
  induction as generalizing i with
  | nil => exact Comes.pure []
  | cons a as ih =>
    obtain ⟨hfirst, hrest⟩ := List.forall_mem_cons.1 h
    rw [List.map_cons, Survey.items, List.map_cons]
    exact (hfirst.under _).bind ((ih hrest (i + 1)).bind (Comes.pure _))

theorem list {read : Value → Survey α} {shown : γ → Value} {f : γ → α} {as : List γ}
    (h : ∀ a ∈ as, (read (shown a)).Comes (f a)) :
    (Survey.list read (.list (as.map shown))).Comes (as.map f) :=
  items h 0

end Comes

/-- Without a complaint, the reading comes to something with the property; and it takes no complaint
back. -/
def Gives (s : Survey α) (P : α → Prop) : Prop :=
  ∀ noted a all, s noted = .ok (a, all) → ∃ cs, all = noted ++ cs ∧ (cs = [] → P a)

theorem Follows.gives {s : Survey α} (h : s.Follows s) (hP : ∀ a, s.Comes a → P a) : s.Gives P := by
  intro noted a all hs
  obtain ⟨cs, hall, hcomes⟩ := h noted a all hs
  exact ⟨cs, hall, fun hcs => hP a (hcomes hcs)⟩

theorem gives_pure {a : α} (h : P a) : (pure a : Survey α).Gives P :=
  (follows_pure a).gives fun b hb => by
    cases hb []
    exact h

/-- Nothing has to be shown about a reading that complains. -/
theorem gives_refuse {kind : Complaint.Kind} {v : Value} {a : α} :
    (do complain kind v; return a : Survey α).Gives P := by
  intro noted b all hs
  cases hs
  exact ⟨_, rfl, fun hcs => absurd hcs (List.cons_ne_nil _ _)⟩

theorem gives_fail {f : Fault} : (fail f : Survey α).Gives P := by
  intro noted a all hs
  cases hs

namespace Gives

/-- Readings after one another: what the first gives may be used once the second is known. -/
theorem bind {x : Survey α} {f : α → Survey β} (hx : x.Gives P)
    (hf : ∀ a, (f a).Gives fun b => P a → Q b) : (x >>= f).Gives Q := by
  intro noted b all hs
  change (x noted >>= fun p => f p.1 p.2) = _ at hs
  cases hfirst : x noted with
  | error fault =>
    rw [hfirst] at hs
    cases hs
  | ok p =>
    obtain ⟨a, mid⟩ := p
    rw [hfirst] at hs
    obtain ⟨cs, rfl, hP⟩ := hx noted a mid hfirst
    obtain ⟨cs', rfl, hQ⟩ := hf a _ b all hs
    -- if there is no complaint at the end there was none before
    refine ⟨cs ++ cs', List.append_assoc _ _ _, fun hnil => ?_⟩
    obtain ⟨hcs, hcs'⟩ := List.append_eq_nil_iff.1 hnil
    exact hQ hcs' (hP hcs)

theorem under {s : Survey α} (h : s.Gives P) (step : Text) : (Survey.under step s).Gives P := by
  intro noted a all hs
  rw [Survey.under] at hs
  cases hinner : s [] with
  | error f =>
    rw [hinner] at hs
    cases hs
  | ok p =>
    obtain ⟨b, inner⟩ := p
    rw [hinner] at hs
    cases hs
    obtain ⟨cs, hcs, hP⟩ := h [] a inner hinner
    refine ⟨_, rfl, fun hnil => hP ?_⟩
    rw [← List.nil_append cs, ← hcs]
    exact List.map_eq_nil_iff.1 hnil

theorem items {read : Value → Survey α} (h : ∀ v, (read v).Gives P) (vs : List Value) (i : Nat) :
    (Survey.items read i vs).Gives fun as => ∀ a ∈ as, P a := by
  induction vs generalizing i with
  | nil => exact gives_pure fun _ ha => absurd ha List.not_mem_nil
  | cons v vs ih =>
    rw [Survey.items]
    exact ((h v).under _).bind fun a => (ih (i + 1)).bind fun as =>
      gives_pure fun hrest hfirst => List.forall_mem_cons.2 ⟨hfirst, hrest⟩

theorem list {read : Value → Survey α} (h : ∀ v, (read v).Gives P) (v : Value) :
    (Survey.list read v).Gives fun as => ∀ a ∈ as, P a := by
  cases v with
  | null => exact gives_pure fun _ ha => absurd ha List.not_mem_nil
  | list vs => exact items h vs 0
  | _ => exact gives_refuse

theorem record [Inhabited α] {read : Entries Value → Survey α} (h : ∀ es, (read es).Gives P)
    (kind : Complaint.Kind) (v : Value) : (Survey.record kind read v).Gives P := by
  cases v with
  | map es => exact h es
  | _ => exact gives_refuse

theorem of_comes {s : Survey α} {a : α} (h : s.Gives P) (hs : s.Comes a) : P a := by
  obtain ⟨cs, hcs, hP⟩ := h [] a [] (hs [])
  exact hP hcs.symm

/-- What a reading without a complaint comes to has the property. -/
theorem finish {s : Survey α} {a : α} (h : s.Gives P) (hs : s.finish = .ok a) : P a := by
  obtain ⟨cs, hcs, hP⟩ := h [] a [] (finish_ok_iff.1 hs)
  exact hP hcs.symm

end Gives
end Survey

/-! ### Fields -/

namespace Field

variable {α : Type} {P : α → Prop} {read : Value → Survey α} {f : Field} {es : Entries Value}

theorem gives_read {missing : α} (h : ∀ v, f.Holds es v → (read v).Gives P)
    (hmissing : (∀ v, ¬ f.Holds es v) → P missing) : (f.read es missing read).Gives P := by
  rw [Field.read]
  cases hfind : f.find? es with
  | none => exact Survey.gives_pure (hmissing (not_holds hfind))
  | some found =>
    obtain ⟨key, v⟩ := found
    exact (h v ⟨key, hfind⟩).under key

theorem comes_read {missing a : α} {v : Value} (hv : Entries.get? f.key es = some v)
    (h : (read v).Comes a) : (f.read es missing read).Comes a := by
  rw [Field.read, find?_key hv]
  exact h.under f.key

/-- What is read of a field is read of the value that it has. -/
theorem comes_of_holds (h : ∀ v, (read v).Follows (read v)) {missing a : α}
    (hread : (f.read es missing read).Comes a) {v : Value} (hv : f.Holds es v) :
    (read v).Comes a := by
  have hgives : (f.read es missing read).Gives fun a => ∀ v, f.Holds es v → (read v).Comes a :=
    gives_read (fun v hv => (h v).gives fun a ha w hw => by
      obtain ⟨key, hkey⟩ := hv
      rwa [(holds_iff hkey w).1 hw]) fun hnone v hv => absurd hv (hnone v)
  exact hgives.of_comes hread v hv

theorem mem_of_holds {v : Value} (h : f.Holds es v) : ∃ key, (key, v) ∈ es := by
  obtain ⟨key, hkey⟩ := h
  exact ⟨key, Entries.mem_of_get? (get?_of_find? hkey)⟩

/-! ### Records shown as entries -/

/-- No extra has the key of a declared field. -/
def Fresh (fields : List Field) (extras : Entries Value) : Prop :=
  ∀ f ∈ fields, f.key ∉ Entries.keys extras

theorem extras_eq (fields : List Field) (es : Entries Value) :
    extras fields es = es.filter fun e => !fields.any fun f => f.uses es e.1 := rfl

/-- What is left of the entries of a record. -/
theorem fresh_extras (fields : List Field) (es : Entries Value) :
    Fresh fields (extras fields es) := by
  intro f hf hmem
  obtain ⟨⟨k, v⟩, he, rfl⟩ := List.mem_map.1 hmem
  obtain ⟨-, hfree⟩ := List.mem_filter.1 he
  rw [Bool.not_eq_true'] at hfree
  exact List.any_eq_false.1 hfree f hf (by simp [uses])

/-- The declared fields under their keys. -/
def entries (declared : List (Field × Value)) : Entries Value :=
  declared.map fun (f, v) => (f.key, v)

theorem keys_entries (declared : List (Field × Value)) :
    Entries.keys (entries declared) = (declared.map Prod.fst).map key := by
  rw [entries, Entries.keys, List.map_map, List.map_map]
  rfl

namespace Fresh

variable {fields : List Field} {declared : List (Field × Value)} {extras : Entries Value}

theorem not_mem (h : Fresh (declared.map Prod.fst) extras) {k : Text}
    (hk : k ∈ Entries.keys extras) : k ∉ Entries.keys (entries declared) := by
  rw [keys_entries]
  intro hmem
  obtain ⟨f, hf, rfl⟩ := List.mem_map.1 hmem
  exact h f hf hk

/-- The declared fields come first, and then the extras. -/
theorem putAll_entries (h : Fresh (declared.map Prod.fst) extras) :
    Entries.putAll extras (entries declared) = entries declared ++ Entries.ofPairs extras := by
  have happend : Entries.putAll extras (entries declared ++ []) =
      entries declared ++ Entries.ofPairs extras := Entries.putAll_append fun k hk => h.not_mem hk
  rwa [List.append_nil] at happend

theorem ofPairs (h : Fresh fields extras) : Fresh fields (Entries.ofPairs extras) :=
  fun f hf hmem => h f hf (Entries.mem_keys_of_ofPairs hmem)

/-- Extras of one key are one, so that they show the record again. -/
theorem putAll_ofPairs (h : Fresh (declared.map Prod.fst) extras) :
    Entries.putAll (Entries.ofPairs extras) (entries declared) =
      Entries.putAll extras (entries declared) := by
  rw [h.ofPairs.putAll_entries, h.putAll_entries,
    Entries.ofPairs_of_nodup (Entries.nodup_ofPairs extras)]

/-- A declared field is found under its key. -/
theorem get? (h : Fresh (declared.map Prod.fst) extras)
    (hkeys : ((declared.map Prod.fst).map key).Nodup) {f : Field} {v : Value}
    (hmem : (f, v) ∈ declared) :
    Entries.get? f.key (Entries.putAll extras (entries declared)) = some v := by
  have hentry : (f.key, v) ∈ entries declared := List.mem_map_of_mem hmem
  rw [Entries.get?_putAll_of_not_mem fun hk =>
    h f (List.mem_map_of_mem (f := Prod.fst) hmem) hk]
  exact Entries.get?_of_mem (by rwa [keys_entries]) hentry

/-- What is left of the entries that show a record are its extras: since each declared field is there
under its key, no second name counts. -/
theorem extras_shown (h : Fresh (declared.map Prod.fst) extras)
    (hkeys : ((declared.map Prod.fst).map key).Nodup) :
    Field.extras (declared.map Prod.fst) (Entries.putAll extras (entries declared)) =
      Entries.ofPairs extras := by
  have huses : ∀ f ∈ declared.map Prod.fst, ∀ k,
      f.uses (Entries.putAll extras (entries declared)) k = decide (k = f.key) := by
    intro f hf k
    obtain ⟨⟨f, v⟩, hmem, rfl⟩ := List.mem_map.1 hf
    rw [uses, h.get? hkeys hmem]
    simp
  -- of the declared fields that come first nothing is left, and all of the extras behind them
  rw [extras_eq, h.putAll_entries, List.filter_append, ← h.putAll_entries]
  have hdeclared : (entries declared).filter (fun e => !(declared.map Prod.fst).any fun f =>
      f.uses (Entries.putAll extras (entries declared)) e.1) = [] := by
    refine List.filter_eq_nil_iff.2 fun e he => ?_
    obtain ⟨⟨f, v⟩, hmem, rfl⟩ := List.mem_map.1 he
    have hf : f ∈ declared.map Prod.fst := List.mem_map_of_mem (f := Prod.fst) hmem
    rw [Bool.not_eq_true', Bool.not_eq_false, List.any_eq_true]
    exact ⟨f, hf, by rw [huses f hf]; simp⟩
  have hextras : (Entries.ofPairs extras).filter (fun e => !(declared.map Prod.fst).any fun f =>
      f.uses (Entries.putAll extras (entries declared)) e.1) = Entries.ofPairs extras := by
    refine List.filter_eq_self.2 fun e he => ?_
    rw [Bool.not_eq_true', List.any_eq_false]
    intro f hf huse
    rw [huses f hf, decide_eq_true_iff] at huse
    exact h.ofPairs f hf (huse ▸ List.mem_map_of_mem (f := Prod.fst) he)
  rw [hdeclared, hextras, List.nil_append]

end Fresh
end Field
end Tender
