/-
Pages whose parts stand in running text.

A tag is read as a tag where the reader is in running text, and not within a comment, a tag, raw
text or anything else that has begun before it.

* `pass_eq` — what has been read does not change how the rest is read;
* `Settles` — a text is read in the same way before any tag, and the reader is back in running text
  where the tag starts;
* `Running.openings` — if all texts between the items of a row are such texts, then the elements of
  the items are read, each in its place.
-/
import Tender.Proofs.Harvest
import Tender.Proofs.Html.Order

namespace Tender.Html

open Text Binding

/-- What has been read before does not change how the rest is read. -/
theorem pass_eq (isLast : Bool) (done : List Event) (raw : Option Text) (s : Text) :
    pass isLast done raw s =
      (pass isLast [] raw s).map fun (more, r) => (more ++ done, r) := by
  -- a step takes any number of characters, so the induction is on the length
  induction hn : s.length using Nat.strongRecOn generalizing done raw s with
  | _ n ih =>
    cases s with
    | nil =>
      rw [pass, pass]
      rfl
    | cons c s =>
      rw [pass]
      conv => rhs; rw [pass]
      split
      · rfl
      · simp [Except.map]
      · rename_i events next hstep
        have hlt := length_step hstep
        rw [ih _ (hn ▸ hlt) (events.reverse ++ done) next.raw next.rest rfl,
          ih _ (hn ▸ hlt) (events.reverse ++ []) next.raw next.rest rfl]
        cases pass isLast [] next.raw next.rest with
        | error f => rfl
        | ok p => simp [Except.map]

/-- Events that are read in running text come before those of the rest of a page. -/
theorem events_of_pass {es fs : List Event} {page s : Text}
    (h : ∀ done, pass false done none page = pass false (es.reverse ++ done) none s)
    (hs : events s = .ok fs) : events page = .ok (es ++ fs) := by
  rw [events] at hs ⊢
  rw [h, pass_eq]
  cases hfirst : pass false [] none s with
  | error f =>
    rw [hfirst] at hs
    cases hs
  | ok first =>
    obtain ⟨done, r⟩ := first
    rw [hfirst] at hs
    change (do let (done, last) ← pass true done r.raw r.rest; _) = _ at hs
    show (do let (done, last) ← pass true (done ++ (es.reverse ++ [])) r.raw r.rest; _) = _
    rw [pass_eq] at hs ⊢
    cases hlast : pass true [] r.raw r.rest with
    | error f =>
      rw [hlast] at hs
      cases hs
    | ok last =>
      obtain ⟨more, r'⟩ := last
      rw [hlast] at hs
      cases hs
      show Except.ok ((more ++ (done ++ (es.reverse ++ []))).reverse ++ leftOver r') = _
      simp

/-- Before any tag, a text is read as events, and then the reader is in running text. -/
def Settles (s : Text) (es : List Event) : Prop :=
  ∀ rest, rest.head? = some '<' → ∀ done,
    pass false done none (s ++ rest) = pass false (es.reverse ++ done) none rest

namespace Settles

variable {s t : Text} {es fs : List Event}

theorem nil : Settles [] [] := fun _ _ _ => rfl

/-- Running text settles. -/
theorem text (hne : s ≠ []) (hs : ∀ c ∈ s, isTextChar c = true) : Settles s [.text s] := by
  intro rest hrest done
  refine pass_text hne hs (fun c hc => ?_) done
  rw [hrest] at hc
  cases hc
  rfl

/-- What is read whatever follows may stand before a text that settles. -/
theorem after (hs : Reads s es) (ht : Settles t fs) : Settles (s ++ t) (es ++ fs) := by
  intro rest hrest done
  rw [List.append_assoc, hs, ht rest hrest, List.reverse_append, List.append_assoc]

end Settles

theorem events_nil : events [] = .ok [] := by
  rw [events, pass]
  show (do let (done, last) ← pass true [] none []; _) = _
  rw [pass]
  rfl

/-- A row whose items stand in running text, between texts with events that fulfil `P`. -/
inductive Running {β : Type} (P : List Event → Prop) : List (Atom β) → Prop
  | last {s : Text} {es : List Event} (hread : events s = .ok es) (hes : P es) :
    Running P (s.map .char)
  | item {s : Text} {es : List Event} {b : β} {row : List (Atom β)} (hsettles : Settles s es)
    (hes : P es) (hrow : Running P row) : Running P (s.map .char ++ .item b :: row)

namespace Running

variable {β γ : Type} {f : Opening → Option γ} {w : β → Text} {g : β → γ} {row : List (Atom β)}

/-- The elements of the items are read in their order, and among them there are no others. -/
theorem openings (h : Running (fun es => (openingsOf es).filterMap f = []) row)
    (hitems : ∀ b, .item b ∈ row → (w b).head? = some '<' ∧
      ∃ es, Reads (w b) es ∧ (openingsOf es).filterMap f = [g b]) :
    ∃ es, events (Atom.fill w row) = .ok es ∧
      (openingsOf es).filterMap f = (Atom.items row).map g := by
  induction h with
  | @last s es hread hes =>
    refine ⟨es, by rw [Atom.fill_chars, hread], ?_⟩
    have hnone : Atom.items (s.map .char ++ ([] : List (Atom β))) = [] :=
      Atom.items_chars_append s []
    rw [List.append_nil] at hnone
    rw [hes, hnone]
    rfl
  | @item s es b row hsettles hes _ ih =>
    have hb : .item b ∈ s.map .char ++ .item b :: row :=
      List.mem_append_right _ List.mem_cons_self
    obtain ⟨hhead, fs, hreads, hfs⟩ := hitems b hb
    obtain ⟨rest, hrest, hplaces⟩ := ih fun c hc =>
      hitems c (List.mem_append_right _ (List.mem_cons_of_mem _ hc))
    refine ⟨es ++ fs ++ rest, ?_, ?_⟩
    · rw [Atom.fill_append, Atom.fill_chars, Atom.fill_item]
      refine events_of_pass (fun done => ?_) hrest
      rw [hsettles _ (by rw [List.head?_append, hhead]; rfl), hreads, List.reverse_append,
        List.append_assoc]
    · rw [Atom.items_chars_append, Atom.items_item, List.map_cons, openingsOf,
        List.filterMap_append, List.filterMap_append, List.filterMap_append, List.filterMap_append]
      rw [openingsOf] at hes hfs hplaces
      rw [hes, hfs, hplaces]
      rfl

end Running

end Tender.Html
