/-
Harvesting a page of plain text and controls.

* `controls_row` — the controls are found in the order of the page, whatever text is between them;
* `items_numberFrom` — a token is numbered by the tokens before it that share its counter;
* `variableKey_inj` — so different tokens of a page have different keys.
-/
import Tender.Proofs.Binding.Control
import Tender.Proofs.Binding.Page

namespace Tender

open Text Binding

/-- The items of a row in order. -/
def Text.Atom.items {α : Type} : List (Atom α) → List α :=
  List.filterMap fun
    | .char _ => none
    | .item a => some a

namespace Text.Atom

variable {α : Type}

@[simp] theorem items_nil : items ([] : List (Atom α)) = [] := rfl

@[simp] theorem items_char (c : Char) (as : List (Atom α)) : items (.char c :: as) = items as := rfl

@[simp] theorem items_item (a : α) (as : List (Atom α)) :
    items (.item a :: as) = a :: items as := rfl

theorem items_chars_append (s : Text) (as : List (Atom α)) :
    items (s.map .char ++ as) = items as := by
  induction s with
  | nil => rfl
  | cons c s ih => exact ih

theorem mem_items {a : α} {as : List (Atom α)} : a ∈ items as ↔ .item a ∈ as := by
  induction as with
  | nil => simp
  | cons b as ih =>
    cases b with
    | char c => simp [ih]
    | item b => simp [ih]

end Text.Atom

/-! ### Controls between texts -/

namespace Harvest

open Html

theorem controlsAmong_append (ms ns : List Html.Node) :
    controlsAmong (ms ++ ns) = controlsAmong ms ++ controlsAmong ns := by
  induction ms with
  | nil => rfl
  | cons m ms ih => rw [List.cons_append, controlsAmong, ih, controlsAmong, List.append_assoc]

/-- A builder outside of all elements that has built parts with these controls. -/
structure Found (b : Html.Builder) (xs : List Control) : Prop where
  opened : b.opened = []
  closed : b.closed = []
  found : controlsAmong b.nodes.reverse = xs

/-- The events build an element with one control, the one that belongs to `b`. -/
def Builds {β : Type} (x : β → Control) (b : β) (es : List Event) : Prop :=
  ∃ n, Html.Builder.Element es n ∧ controls n = [x b]

namespace Found

variable {b : Html.Builder} {xs : List Control}

theorem calm (h : Found b xs) : b.Calm :=
  ⟨h.closed, fun e he => by rw [h.opened] at he; cases he⟩

theorem add (h : Found b xs) (n : Html.Node) : Found (b.add n) (xs ++ controls n) := by
  rw [Html.Builder.add]
  split
  · refine ⟨h.opened, h.closed, ?_⟩
    rw [List.reverse_cons, controlsAmong_append, h.found, controlsAmong, controlsAmong,
      List.append_nil]
  · rename_i hopened
    rw [h.opened] at hopened
    cases hopened

theorem flush (h : Found b xs) : Found b.flush xs := by
  rcases Html.Builder.flush_eq h.calm with ⟨-, heq⟩ | heq
  · rw [heq]
    exact h
  · have hadd := h.add (.text (Html.Builder.collapse b.pending.reverse.flatten))
    rw [controls, List.append_nil] at hadd
    rw [heq]
    exact ⟨hadd.opened, hadd.closed, hadd.found⟩

theorem takeAll {β : Type} {x : β → Control} {row : List (Atom β)} {es : List Event}
    (hes : Interleaved (Builds x) row es) (h : Found b xs) :
    Found (es.foldl Html.Builder.take b) (xs ++ (Atom.items row).map x) := by
  induction hes generalizing b xs with
  | nil => simpa using h
  | text _ ih =>
    rw [Atom.items_chars_append, List.foldl_cons]
    exact ih ⟨h.opened, h.closed, h.found⟩
  | item hitem _ ih =>
    obtain ⟨n, helement, hn⟩ := hitem
    have hadd := h.flush.add n
    rw [hn] at hadd
    rw [List.foldl_append, helement _ h.calm, Atom.items_item, List.map_cons,
      ← List.singleton_append, ← List.append_assoc]
    exact ih hadd

end Found

/-- The controls of a row that is read as plain text and elements of one control each. -/
theorem controls_row {β : Type} {w : β → Text} {x : β → Control} {row : List (Atom β)}
    (hchars : ∀ c, .char c ∈ row → isTextChar c = true)
    (hitems : ∀ b, .item b ∈ row → ∃ n, Shows (w b) n ∧ controls n = [x b]) :
    Harvest.read (Atom.fill w row) = .ok (values ((Atom.items row).map x)) := by
  have hbuilds : ∀ b, .item b ∈ row →
      (w b).head? = some '<' ∧ ∃ es, Reads (w b) es ∧ Builds x b es := by
    intro b hb
    obtain ⟨n, ⟨hhead, es, hreads, helement⟩, hn⟩ := hitems b hb
    exact ⟨hhead, es, hreads, n, helement, hn⟩
  obtain ⟨es, hes, hevents⟩ := events_row hchars hbuilds
  have hempty : Found Html.Builder.empty [] := ⟨rfl, rfl, rfl⟩
  have hfound := hempty.takeAll hes
  have hfinish : (es.foldl Html.Builder.take Html.Builder.empty).finish =
      (es.foldl Html.Builder.take Html.Builder.empty).flush.nodes.reverse := by
    rw [Html.Builder.finish, hfound.opened]
    rfl
  rw [Harvest.read, Html.read, hevents]
  show Except.ok (values (controlsAmong (es.foldl Html.Builder.take Html.Builder.empty).finish)) = _
  rw [hfinish, hfound.flush.found, List.nil_append]

end Harvest

/-! ### Numbers and keys -/

namespace Binding

/-- Tokens with their numbers: how many tokens before each of them share its counter. -/
def numbered (ts : List Token) : List (Token × Nat) :=
  ts.mapIdx fun i t => (t, (ts.take i).countP t.shares)

theorem items_numberFrom_from (c : Counters) (as : List (Atom Token)) :
    Atom.items (numberFrom [] c as) =
      (tokens as).mapIdx fun i t => (t, c.number t + ((tokens as).take i).countP t.shares) := by
  induction as generalizing c with
  | nil => rfl
  | cons a as ih =>
    cases a with
    | char x =>
      rw [numberFrom_char, Atom.items_char, ih]
      rfl
    | item t =>
      rw [numberFrom_item, Atom.items_item, ih, tokens_item, List.mapIdx_cons]
      congr 1
      refine congrArg (fun f => List.mapIdx f (tokens as)) ?_
      funext i u
      rw [List.take_succ_cons, List.countP_cons, Counters.number_next]
      congr 1
      omega

/-- The numbers of the tokens of a document. -/
theorem items_numberFrom (as : List (Atom Token)) :
    Atom.items (numberFrom [] Counters.start as) = numbered (tokens as) := by
  have hzero : ∀ t, Counters.start.number t = 0 := fun t => by cases t <;> rfl
  rw [items_numberFrom_from, numbered]
  refine congrArg (fun f => List.mapIdx f (tokens as)) ?_
  funext i t
  rw [hzero, Nat.zero_add]

theorem ofNat_inj {m n : Nat} (h : Text.ofNat m = Text.ofNat n) : m = n := by
  rw [Text.ofNat, Text.ofNat] at h
  rw [← Nat.ofDigitChars_ten_toDigits (n := m), h, Nat.ofDigitChars_ten_toDigits]

/-- What the keys of the tokens of one counter begin with. -/
def counterName : Token → Text
  | .custom k => k.name
  | .item _ => lit "lineItem"

theorem shares_of_counterName {t u : Token} (h : counterName t = counterName u) :
    t.shares u = true := by
  have hall : ∀ t ∈ Token.all, ∀ u ∈ Token.all, counterName t = counterName u →
      t.shares u = true := by decide +kernel
  exact hall t t.mem_all u u.mem_all h

theorem not_mem_counterName (t : Token) : '_' ∉ counterName t := by
  have hall : ∀ t ∈ Token.all, '_' ∉ counterName t := by decide +kernel
  exact hall t t.mem_all

/-- Tokens with one key are counted by one counter and have one number. -/
theorem variableKey_inj {t u : Token} {m n : Nat} (h : t.variableKey m = u.variableKey n) :
    t.shares u = true ∧ m = n := by
  have hkey : ∀ (t : Token) n, t.variableKey n = counterName t ++ '_' :: Text.ofNat n :=
    fun t n => by cases t <;> rfl
  rw [hkey, hkey] at h
  have hname := eq_of_append_cons_eq (not_mem_counterName t) (not_mem_counterName u) h
  rw [hname] at h
  exact ⟨shares_of_counterName hname, ofNat_inj (List.cons.inj (List.append_cancel_left h)).2⟩

theorem le_of_mem_numberFrom {c : Counters} {as : List (Atom Token)} {t : Token} {n : Nat}
    (h : (t, n) ∈ Atom.items (numberFrom [] c as)) : c.number t ≤ n := by
  rw [items_numberFrom_from] at h
  obtain ⟨i, hi, heq⟩ := List.mem_mapIdx.1 h
  cases heq
  exact Nat.le_add_right _ _

/-- The tokens of a page have different keys. -/
theorem nodup_keys (c : Counters) (as : List (Atom Token)) :
    ((Atom.items (numberFrom [] c as)).map fun b => b.1.variableKey b.2).Nodup := by
  induction as generalizing c with
  | nil => exact List.nodup_nil
  | cons a as ih =>
    cases a with
    | char x =>
      rw [numberFrom_char, Atom.items_char]
      exact ih c
    | item t =>
      rw [numberFrom_item, Atom.items_item, List.map_cons, List.nodup_cons]
      refine ⟨fun hmem => ?_, ih _⟩
      obtain ⟨⟨u, n⟩, hu, heq⟩ := List.mem_map.1 hmem
      obtain ⟨hshares, rfl⟩ := variableKey_inj heq
      have hle := le_of_mem_numberFrom hu
      rw [Counters.number_next, hshares, Counters.number_eq_of_shares hshares] at hle
      exact absurd hle (Nat.not_succ_le_self _)

end Binding

end Tender
