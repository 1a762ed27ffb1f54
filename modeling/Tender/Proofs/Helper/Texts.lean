/-
What helpers bring to a page.

A helper answers with texts that it is given and with numbers, dates and wording of its own, so a
pattern that starts with a tilde does not arise in an answer, nor in the wording of a fault.  The
date helper alone writes by a pattern of its own, of which a directive may leave nothing: what it is
given must have no tilde at all.

* `Signature.bind_answers` — the parameters of a call;
* `Amount.keeps`, `Group.keeps`, `Logic.judges_binary`, … — one statement for each helper.
-/
import Tender.Helper.Table
import Tender.Proofs.Calendar.Pattern
import Tender.Proofs.Value.Entries
import Tender.Proofs.Value.Print

namespace Tender

open Text

variable {p : Text}

/-- A pattern starts in no text of an outcome; a diagnostic counts as a text. -/
def Outcome.IsBare (p : Text) (o : Outcome) : Prop := o.toValue.IsBare p

/-- What a call is given has a property, and a pattern starts in no name of an option. -/
structure Arguments.Bring (p : Text) (R : Outcome → Prop) (a : Arguments) : Prop where
  positional : ∀ o ∈ a.positional, R o
  options : ∀ e ∈ a.options, Bare p e.1 ∧ R e.2

/-- What is answered has a property, and a pattern starts in no wording of a fault. -/
def Answers {α : Type} (p : Text) (P : α → Prop) : Except Fault α → Prop
  | .ok a => P a
  | .error f => Bare p f.message

/-- A helper that brings no pattern in. -/
def Helper.Keeps (p : Text) (h : Helper) : Prop :=
  ∀ a : Arguments, a.Bring p (Outcome.IsBare p) → Answers p (Outcome.IsBare p) (h a)

/-- A helper that lets nothing through of the values that it is given. -/
def Helper.Judges (p : Text) (h : Helper) : Prop :=
  ∀ a : Arguments, a.Bring p (fun _ => True) → Answers p (Outcome.IsBare p) (h a)

namespace Answers

variable {α β : Type} {P : α → Prop} {Q : β → Prop} {x : Except Fault α}

theorem bind (hx : Answers p P x) {f : α → Except Fault β} (hf : ∀ a, P a → Answers p Q (f a)) :
    Answers p Q (x >>= f) := by
  cases x with
  | ok a => exact hf a hx
  | error f => exact hx

theorem map (hx : Answers p P x) {f : α → β} (hf : ∀ a, P a → Q (f a)) :
    Answers p Q (x.map f) := by
  cases x with
  | ok a => exact hf a hx
  | error f => exact hx

theorem error {f : Fault} (h : Bare p f.message) : Answers p P (.error f) := h

end Answers

/-! ### Calls that do not fit -/

theorem CallFault.tilde_not_mem_listNames {names : List Text} (h : ∀ n ∈ names, '~' ∉ n) :
    '~' ∉ listNames names := by
  have hquoted : ∀ s ∈ names.map fun n => '\'' :: (n ++ ['\'']), '~' ∉ s := by
    intro s hs
    obtain ⟨n, hn, rfl⟩ := List.mem_map.1 hs
    simpa using h n hn
  unfold listNames
  generalize (names.map fun n => '\'' :: (n ++ ['\''])) = quoted at hquoted
  split
  · simp
  · exact hquoted _ List.mem_cons_self
  · rw [lit]
    simp only [List.mem_append, not_or]
    exact ⟨⟨hquoted _ List.mem_cons_self, by simp⟩,
      hquoted _ (List.mem_cons_of_mem _ List.mem_cons_self)⟩
  · have hfirst : '~' ∉ joinWith (lit ", ") (quoted.take (quoted.length - 1)) :=
      Value.tilde_not_mem_commaList fun s hs => hquoted s (List.mem_of_mem_take hs)
    have hlast : '~' ∉ quoted.getLastD [] := by
      rw [List.getLastD_eq_getLast?]
      cases hlast : quoted.getLast? with
      | none => simp
      | some s => exact hquoted s (List.mem_of_getLast? hlast)
    rw [List.mem_append, List.mem_append, not_or, not_or]
    refine ⟨⟨hfirst, ?_⟩, hlast⟩
    rw [lit]
    simp

/-- The names in the wording of a call that does not fit are those of options, or of parameters. -/
theorem CallFault.bare_message (hp : Tilded p) {f : CallFault} (h : match f with
    | .repeated k => Bare p k
    | .unexpected k => Bare p k
    | .tooMany _ _ _ => True
    | .missing names => ∀ n ∈ names, '~' ∉ n) : Bare p f.message := by
  cases f with
  | repeated k =>
    rw [message, lit]
    exact ((hp.of_not_mem (by simp)).append h).append (hp.of_not_mem (by simp))
  | unexpected k =>
    rw [message, lit]
    exact ((hp.of_not_mem (by simp)).append h).append (hp.of_not_mem (by simp))
  | tooMany least most given =>
    refine hp.of_not_mem ?_
    unfold message
    simp only [lit]
    split <;> split <;> split <;> simp
  | missing names =>
    refine hp.of_not_mem ?_
    unfold message
    simp only [lit]
    split <;> simp [tilde_not_mem_listNames h]

/-! ### The parameters of a call -/

namespace Signature

/-- A signature whose names have no tilde. -/
structure Plain (s : Signature) : Prop where
  name : '~' ∉ s.name
  required : ∀ n ∈ s.required, '~' ∉ n

variable {s : Signature}

theorem bare_fault (hp : Tilded p) (hs : s.Plain) {f : CallFault} (h : Bare p f.message) :
    Bare p (Fault.call s.name f).message := by
  rw [Fault.message, lit]
  exact ((hp.of_not_mem hs.name).append (hp.of_not_mem (by simp))).append h

variable {R : Outcome → Prop}

theorem fill_answers (hp : Tilded p) {options filled : Entries Outcome}
    (hoptions : ∀ e ∈ options, Bare p e.1 ∧ R e.2) (hfilled : ∀ e ∈ filled, R e.2) :
    match s.fill filled options with
    | .ok filled => ∀ e ∈ filled, R e.2
    | .error f => Bare p f.message := by
  induction options generalizing filled with
  | nil => exact hfilled
  | cons e options ih =>
    obtain ⟨k, o⟩ := e
    obtain ⟨⟨hk, ho⟩, hrest⟩ := List.forall_mem_cons.1 hoptions
    have hstep : s.fill filled ((k, o) :: options) =
        if k ∈ s.parameters then
          if (Entries.get? k filled).isSome then .error (.repeated k)
          else s.fill (filled ++ [(k, o)]) options
        else .error (.unexpected k) := rfl
    rw [hstep]
    by_cases hmem : k ∈ s.parameters
    · rw [if_pos hmem]
      by_cases hsome : (Entries.get? k filled).isSome = true
      · rw [if_pos hsome]
        exact CallFault.bare_message hp hk
      · rw [if_neg hsome]
        refine ih hrest (List.forall_mem_append.2 ⟨hfilled, ?_⟩)
        exact fun e he => List.mem_singleton.1 he ▸ ho
    · rw [if_neg hmem]
      exact CallFault.bare_message hp hk

/-- The parameters of a call have a property that all it is given has. -/
theorem bind_answers (hp : Tilded p) (hs : s.Plain) {a : Arguments} (ha : a.Bring p R) :
    Answers p (fun values => ∀ v ∈ values, ∀ o ∈ v, R o) (s.bind a) := by
  have hzip : ∀ e ∈ s.parameters.zip a.positional, R e.2 := fun e he =>
    ha.positional e.2 (List.of_mem_zip he).2
  have hfill := fill_answers (s := s) hp ha.options hzip
  rw [bind, bindEntries]
  cases hfilled : s.fill (s.parameters.zip a.positional) a.options with
  | error f =>
    rw [hfilled] at hfill
    exact bare_fault hp hs hfill
  | ok filled =>
    rw [hfilled] at hfill
    show Answers p _ (match (do
      if s.parameters.length < a.positional.length then throw (CallFault.tooMany _ _ _)
      if (s.required.filter fun n => (Entries.get? n filled).isNone) ≠ [] then
        throw (CallFault.missing _)
      return filled : Except CallFault (Entries Outcome)) with
      | .ok filled => _
      | .error f => _)
    by_cases hmany : s.parameters.length < a.positional.length
    · rw [if_pos hmany]
      exact bare_fault hp hs (CallFault.bare_message hp True.intro)
    · rw [if_neg hmany]
      by_cases hmissing : (s.required.filter fun n => (Entries.get? n filled).isNone) ≠ []
      · rw [if_pos hmissing]
        refine bare_fault hp hs (CallFault.bare_message hp fun n hn => ?_)
        exact hs.required n (List.mem_of_mem_filter hn)
      · rw [if_neg hmissing]
        intro v hv o ho
        obtain ⟨key, -, rfl⟩ := List.mem_map.1 hv
        exact hfill _ (Entries.mem_of_get? ho)

theorem bindAll_answers (hp : Tilded p) {name : Text} (hname : '~' ∉ name) {a : Arguments}
    (ha : a.Bring p R) : Answers p (fun values => ∀ o ∈ values, R o) (bindAll name a) := by
  unfold bindAll
  split
  · exact ha.positional
  · rename_i k o more hoptions
    have hk : Bare p k := (ha.options (k, o) (by rw [hoptions]; exact List.mem_cons_self)).1
    exact bare_fault (s := ⟨name, [], []⟩) hp ⟨hname, by simp⟩ (CallFault.bare_message hp hk)

end Signature

/-! ### Comparing values -/

namespace Value

theorem bare_invalidOperation (hp : Tilded p) : Bare p Fault.invalidOperation.message :=
  hp.of_not_mem (by rw [Fault.message, lit]; simp)

mutual
theorem same_answers (hp : Tilded p) : (a b : Value) → Answers p (fun _ => True) (same a b) := by
  intro a b
  unfold same
  split
  · exact True.intro
  · exact True.intro
  · rename_i xs ys
    split
    · exact sameItems_answers hp xs ys
    · exact True.intro
  · rename_i xs ys
    split
    · exact sameEntries_answers hp xs ys
    · exact True.intro
  · exact True.intro
  · exact True.intro
  · split
    · split
      · exact .error (bare_invalidOperation hp)
      · exact True.intro
    · exact True.intro
termination_by a => sizeOf a

theorem sameItems_answers (hp : Tilded p) :
    (xs ys : List Value) → Answers p (fun _ => True) (sameItems xs ys) := by
  intro xs ys
  unfold sameItems
  split
  · rename_i x xs y ys
    refine (same_answers hp x y).bind fun equal _ => ?_
    split
    · exact sameItems_answers hp xs ys
    · exact True.intro
  · exact True.intro
termination_by xs => sizeOf xs

theorem sameEntries_answers (hp : Tilded p) :
    (xs ys : List (Text × Value)) → Answers p (fun _ => True) (sameEntries xs ys) := by
  intro xs ys
  unfold sameEntries
  split
  · exact True.intro
  · rename_i k x xs
    split
    · exact True.intro
    · rename_i y hy
      refine (same_answers hp x y).bind fun equal _ => ?_
      split
      · exact sameEntries_answers hp xs ys
      · exact True.intro
termination_by xs => sizeOf xs
end

mutual
theorem compare_answers (hp : Tilded p) :
    (a b : Value) → Answers p (fun _ => True) (compare a b) := by
  intro a b
  unfold compare
  split
  · exact True.intro
  · rename_i xs ys
    exact compareItems_answers hp xs ys
  · exact True.intro
  · exact True.intro
  · split
    · unfold compareNumbers
      split
      · exact .error (bare_invalidOperation hp)
      · exact True.intro
    · exact True.intro
termination_by a => sizeOf a

theorem compareItems_answers (hp : Tilded p) :
    (xs ys : List Value) → Answers p (fun _ => True) (compareItems xs ys) := by
  intro xs ys
  unfold compareItems
  split
  · exact True.intro
  · exact True.intro
  · exact True.intro
  · rename_i x xs y ys
    refine (same_answers hp x y).bind fun equal _ => ?_
    split
    · exact compareItems_answers hp xs ys
    · exact compare_answers hp x y
termination_by xs => sizeOf xs
end

end Value

/-! ### Helpers -/

theorem Helper.Keeps.preset {h : Helper} (hh : h.Keeps p) {options : Entries Outcome}
    (hoptions : ∀ e ∈ options, Bare p e.1 ∧ e.2.IsBare p) : (Helper.preset options h).Keeps p := by
  intro a ha
  refine hh _ ⟨ha.positional, fun e he => ?_⟩
  rcases Entries.mem_of_mem_putAll he with he | he
  · exact ha.options e he
  · exact hoptions e he

namespace Amount

@[simp] theorem tilde_not_mem_grouped (n : Nat) : '~' ∉ grouped n := by
  induction n using Nat.strongRecOn with
  | _ n ih =>
    unfold grouped
    split
    · simp
    · simp [ih (n / 1000) (by omega)]

theorem bare_write (hp : Tilded p) {symbol : Text} (h : Bare p symbol) (negative : Bool)
    (cents : Nat) : Bare p (write symbol negative cents) := by
  have hsign : '~' ∉ if negative && cents ≠ 0 then ['-'] else [] := by
    split <;> decide
  have hcents : '~' ∉ '.' :: padded 2 (cents % 100) := by simp
  rw [write]
  exact (((hp.of_not_mem hsign).append h).append (hp.of_not_mem (tilde_not_mem_grouped _))).append
    (hp.of_not_mem hcents)

theorem parse_answers (hp : Tilded p) (v : Value) : Answers p (fun _ => True) (parse v) := by
  fun_cases parse v
  · exact True.intro
  · exact .error (hp.of_not_mem (by rw [Fault.message, lit]; simp))
  · exact True.intro
  · exact True.intro
  · exact .error (hp.of_not_mem (by rw [Fault.message, lit]; simp))
  · exact True.intro
  · exact True.intro

theorem writeNumber_answers (hp : Tilded p) {symbol : Text} (h : Bare p symbol) (negative : Bool)
    (rank : Nat) : Answers p (Bare p) (writeNumber symbol negative rank) := by
  unfold writeNumber
  simp only
  split
  · exact bare_write hp h _ _
  · exact .error (Value.bare_invalidOperation hp)

theorem format_answers (hp : Tilded p) {value : Outcome} (hvalue : value.IsBare p) {symbol : Text}
    (hsymbol : Bare p symbol) : Answers p (Outcome.IsBare p) (format value symbol) := by
  unfold format
  split
  · exact Value.isBare_text.2 Bare.nil
  · refine (parse_answers hp _).bind fun x _ => ?_
    split
    · exact (writeNumber_answers hp hsymbol _ _).bind fun s hs => Value.isBare_text.2 hs
    · exact hvalue

theorem plain_signature : signature.Plain := by
  constructor
  · rw [signature, lit]
    decide
  · rw [signature, lit, lit]
    decide

theorem keeps (hp : Tilded p) : helper.Keeps p := by
  intro a ha
  refine (Signature.bind_answers hp plain_signature ha).bind fun values hvalues => ?_
  split
  · rename_i value symbol
    refine format_answers hp (hvalues _ List.mem_cons_self value rfl) ?_
    cases symbol with
    | none => exact hp.of_not_mem (by decide)
    | some o => exact Value.bare_toText hp (hvalues _ (by simp) o rfl)
  · exact Value.IsBare.of_texts rfl

end Amount

namespace Group

theorem isBare_lookup {v : Value} (h : v.IsBare p) (path : List Text) :
    (lookup v path).IsBare p := by
  fun_induction lookup v path with
  | case1 => exact h
  | case2 es key rest v hget hnull => exact .of_texts rfl
  | case3 es key rest v hget hnull ih => exact ih (h.get? v hget)
  | case4 => exact .of_texts rfl
  | case5 => exact .of_texts rfl

theorem bare_key (hp : Tilded p) {v : Value} (h : v.IsBare p) : Bare p (key v) := by
  unfold key
  split
  · exact hp.of_not_mem (by rw [lit]; simp)
  · exact hp.of_not_mem (by rw [lit]; simp)
  · exact hp.of_not_mem (by rw [lit]; simp)
  · exact hp.of_not_mem (Value.tilde_not_mem_floatText _)
  · exact Value.bare_toText hp h

/-- Groups whose keys and items are bare. -/
def AllBare (p : Text) (groups : Entries (List Value)) : Prop :=
  ∀ e ∈ groups, Bare p e.1 ∧ ∀ v ∈ e.2, v.IsBare p

theorem AllBare.add {gs : Entries (List Value)} (h : AllBare p gs) {k : Text} (hk : Bare p k)
    {item : Value} (hitem : item.IsBare p) : AllBare p (add gs k item) := by
  intro e he
  rcases Entries.mem_of_mem_put he with rfl | he
  · refine ⟨hk, List.forall_mem_append.2 ⟨?_, fun v hv => List.mem_singleton.1 hv ▸ hitem⟩⟩
    cases hget : Entries.get? k gs with
    | none => exact fun v hv => by cases hv
    | some vs => exact (h _ (Entries.mem_of_get? hget)).2
  · exact h e he

theorem AllBare.groups (hp : Tilded p) (path : List Text) {items : List Value}
    (h : ∀ v ∈ items, v.IsBare p) : AllBare p (groups path items) := by
  have hfold : ∀ acc, AllBare p acc →
      AllBare p
        (items.foldl (fun acc item => Group.add acc (key (lookup item path)) item) acc) := by
    induction items with
    | nil => exact fun acc hacc => hacc
    | cons item items ih =>
      obtain ⟨hitem, hitems⟩ := List.forall_mem_cons.1 h
      exact fun acc hacc => ih hitems _ (hacc.add (bare_key hp (isBare_lookup hitem path)) hitem)
  exact hfold [] fun e he => by cases he

theorem isBare_format (hp : Tilded p) {collection property : Value} (h : collection.IsBare p) :
    (format collection property).IsBare p := by
  unfold format
  split
  · refine Value.isBare_map.2 fun e he => ?_
    obtain ⟨⟨k, vs⟩, hmem, rfl⟩ := List.mem_map.1 he
    obtain ⟨hk, hvs⟩ := AllBare.groups hp (path _) (Value.isBare_list.1 h) _ hmem
    exact ⟨hk, Value.isBare_list.2 hvs⟩
  · exact .of_texts rfl

theorem keeps (hp : Tilded p) : helper.Keeps p := by
  have hsignature : signature.Plain := by
    constructor
    · rw [signature, lit]
      decide
    · rw [signature, lit, lit, lit]
      decide
  intro a ha
  refine (Signature.bind_answers hp hsignature ha).bind fun values hvalues => ?_
  split
  · exact isBare_format hp (hvalues _ List.mem_cons_self _ rfl)
  · exact Value.IsBare.of_texts rfl

end Group

namespace Logic

theorem equal_answers (hp : Tilded p) (a b : Value) : Answers p (fun _ => True) (equal a b) := by
  unfold equal
  split
  · exact True.intro
  · split
    · exact True.intro
    · exact Value.same_answers hp a b

theorem notEqual_answers (hp : Tilded p) (a b : Value) :
    Answers p (fun _ => True) (notEqual a b) :=
  (equal_answers hp a b).map fun _ _ => True.intro

theorem ordered_answers (hp : Tilded p) (accepts : Relation → Bool) (a b : Value) :
    Answers p (fun _ => True) (ordered accepts a b) := by
  refine (Value.compare_answers hp a b).bind fun r _ => ?_
  split
  · refine (Amount.parse_answers hp a).bind fun x _ => ?_
    refine (Amount.parse_answers hp b).bind fun y _ => ?_
    split
    · split <;> exact True.intro
    · exact True.intro
  · exact True.intro

theorem judges_binary (hp : Tilded p) {name : String} (hname : '~' ∉ lit name)
    {f : Value → Value → Except Fault Bool} (hf : ∀ a b, Answers p (fun _ => True) (f a b)) :
    (binary name f).Judges p := by
  have hsignature : (Signature.mk (lit name) [lit "a", lit "b"] []).Plain := by
    refine ⟨hname, ?_⟩
    show ∀ n ∈ [lit "a", lit "b"], '~' ∉ n
    rw [lit, lit]
    decide
  intro a ha
  refine (Signature.bind_answers hp hsignature ha).bind fun values _ => ?_
  split
  · exact (hf _ _).bind fun b _ => Value.IsBare.of_texts rfl
  · exact Value.IsBare.of_texts rfl

theorem judges_joining (hp : Tilded p) {name : String} (hname : '~' ∉ lit name)
    (f : List Value → Bool) : (joining name f).Judges p := fun _ ha =>
  (Signature.bindAll_answers hp hname ha).bind fun _ _ => Value.IsBare.of_texts rfl

theorem judges_negation (hp : Tilded p) : negation.Judges p := by
  have hsignature : (Signature.mk (lit "not_") [lit "value"] []).Plain := by
    constructor
    · rw [lit]
      decide
    · rw [lit, lit]
      decide
  intro a ha
  refine (Signature.bind_answers hp hsignature ha).bind fun values _ => ?_
  split <;> exact Value.IsBare.of_texts rfl

end Logic

/-! ### The date helper -/

theorem Value.tilde_not_mem_kind (v : Value) : '~' ∉ v.kind := by
  cases v <;> rw [kind, lit] <;> simp

/-- A text that cannot be spelled is quoted in part. -/
theorem Fault.checkSpelling_answers {s : Text} (h : '~' ∉ s) :
    Answers ['~'] (fun _ => True) (checkSpelling s) := by
  unfold checkSpelling
  split
  · rename_i position run hhalves
    have hrun : '~' ∉ run := by
      unfold halves? at hhalves
      simp only at hhalves
      split at hhalves
      · cases hhalves
      · cases hhalves
        exact fun hmem => h ((List.dropWhile_sublist _).subset
          ((List.takeWhile_sublist _).subset hmem))
    have hquoted : '~' ∉ quoted run :=
      Tilded.bare_tilde_iff.1 (Tilded.tilde.quoted (Tilded.bare_tilde_iff.2 hrun))
    refine .error (Tilded.bare_tilde_iff.2 ?_)
    rw [Fault.message]
    simp only [lit]
    split <;> simp [hquoted]
  · exact True.intro

namespace DateText

theorem write_answers {pattern : Outcome} (h : pattern.IsBare ['~']) (o : Pattern.Occasion) :
    Answers ['~'] (fun s => Bare ['~'] s) (write pattern o) := by
  have hkind {k : Text} (hk : '~' ∉ k) :
      Answers ['~'] (fun s : Text => Bare ['~'] s) (.error (.patternKind k)) := by
    refine .error (Tilded.bare_tilde_iff.2 ?_)
    rw [Fault.message, lit]
    simpa using hk
  unfold write
  split
  · rename_i s hs
    have hplain : '~' ∉ s := by
      rw [Outcome.IsBare, hs] at h
      exact Tilded.bare_tilde_iff.1 (Value.isBare_text.1 h)
    exact (Fault.checkSpelling_answers hplain).map fun _ _ =>
      Tilded.bare_tilde_iff.2 (Pattern.tilde_not_mem_write hplain o)
  · exact hkind (by rw [lit]; simp)
  · exact hkind (Value.tilde_not_mem_kind _)

theorem writeRead_answers {value pattern : Outcome} (hvalue : value.IsBare ['~'])
    (hpattern : pattern.IsBare ['~']) (moment : Option Moment) :
    Answers ['~'] (Outcome.IsBare ['~']) (writeRead value moment pattern) := by
  unfold writeRead
  split
  · exact hvalue
  · rename_i m
    have hwrite := write_answers hpattern (.ofMoment m)
    split
    · rename_i s hs
      rw [hs] at hwrite
      exact Value.isBare_text.2 hwrite
    · exact hvalue
    · rename_i f hf
      rw [hf] at hwrite
      exact hwrite

theorem format_answers {value chosen standard : Outcome} (hvalue : value.IsBare ['~'])
    (hchosen : chosen.IsBare ['~']) (hstandard : standard.IsBare ['~']) :
    Answers ['~'] (Outcome.IsBare ['~']) (format value chosen standard) := by
  have hpattern : (if isPattern chosen then chosen else standard).IsBare ['~'] := by
    split
    · exact hchosen
    · exact hstandard
  have hwrite (o : Pattern.Occasion) : Answers ['~'] (Outcome.IsBare ['~'])
      ((write (if isPattern chosen then chosen else standard) o).map fun s => .value (.text s)) :=
    (write_answers hpattern o).map fun s hs => Value.isBare_text.2 hs
  have hread (m : Option Moment) := writeRead_answers hvalue hpattern m
  unfold format
  simp only
  split
  · exact Value.isBare_text.2 Bare.nil
  · exact Value.isBare_text.2 Bare.nil
  · exact hwrite _
  · exact hwrite _
  · exact hread _
  · exact hread _
  · exact hread _
  · exact hvalue

theorem keeps : helper.Keeps ['~'] := by
  have hsignature : signature.Plain := by
    constructor
    · rw [signature, lit]
      decide
    · rw [signature, lit, lit]
      decide
  intro a ha
  refine (Signature.bind_answers Tilded.tilde hsignature ha).bind fun values hvalues => ?_
  split
  · rename_i value chosen standard
    have hgiven {o : Option Outcome} (ho : o ∈ [some value, chosen, standard]) {other : Outcome}
        (hother : other.IsBare ['~']) : (o.getD other).IsBare ['~'] := by
      cases o with
      | none => exact hother
      | some o => exact hvalues _ ho o rfl
    refine format_answers (hvalues _ List.mem_cons_self value rfl)
      (hgiven (by simp) (.of_texts rfl)) (hgiven (by simp) (Value.isBare_text.2 ?_))
    rw [standardPattern, lit]
    exact Tilded.bare_tilde_iff.2 (by decide)
  · exact Value.IsBare.of_texts rfl

end DateText

end Tender
