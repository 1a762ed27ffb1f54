/-
Words, and calls of a helper with words as its parameters.

* `Lexeme.ofText?_call` — what the lexemes of a call are;
* `Expr.readParameter_word`, `Expr.readParameter_call` — so a word, and a call of words, is read as
  the parameter of a block;
* `Compiler.parsable_word`, `Compiler.parsable_call` — and it can stand in the tags of a block.
-/
import Tender.Proofs.Template.Lexeme
import Tender.Proofs.Template.Link

namespace Tender

open Text

namespace Lexeme

variable {w : Text} {words : List Text} {done : List Lexeme}

/-- A word that can stand in any tag: it is one lexeme, and it neither ends the tag nor names
items. -/
structure IsWord (w : Text) : Prop where
  ne_nil : w ≠ []
  chars : ∀ x ∈ w, isWordChar x = true ∧ x ≠ '|' ∧ x ≠ '}' ∧ x ≠ '~'

instance (w : Text) : Decidable (IsWord w) :=
  decidable_of_iff
    (w ≠ [] ∧ w.all (fun x => isWordChar x && x ≠ '|' && x ≠ '}' && x ≠ '~') = true)
    ⟨fun h => ⟨h.1, by simpa [and_assoc] using h.2⟩,
      fun h => ⟨h.ne_nil, by simpa [and_assoc] using h.chars⟩⟩

theorem IsWord.bare (h : IsWord w) : IsBareWord w :=
  ⟨h.ne_nil, fun x hx => (h.chars x hx).1⟩

/-- The words of a call behind its name, and its end. -/
def callRest (words : List Text) : Text := words.flatMap (' ' :: ·) ++ [')']

/-- A call of a helper with words as its parameters. -/
def call (name : Text) (words : List Text) : Text := '(' :: (name ++ callRest words)

theorem callRest_cons (w : Text) (words : List Text) :
    callRest (w :: words) = ' ' :: (w ++ callRest words) := by
  rw [callRest, List.flatMap_cons, List.append_assoc]
  rfl

theorem endsWord_callRest (words : List Text) : EndsWord (callRest words) := by
  cases words with
  | nil =>
    intro x hx
    cases hx
    exact .inr rfl
  | cons w words =>
    rw [callRest_cons]
    intro x hx
    cases hx
    exact .inl (by decide)

theorem readAll_callRest (hwords : ∀ w ∈ words, IsWord w) :
    readAll done (callRest words) = some (done.reverse ++ (words.map .word ++ [.closed])) := by
  induction words generalizing done with
  | nil =>
    have hend : trimStart (callRest []) = [')'] := rfl
    have hclosed : read? [')'] = some (.closed, []) := rfl
    rw [readAll_step hend hclosed, readAll_nil, List.reverse_cons]
    rfl
  | cons w words ih =>
    have hw := (hwords w List.mem_cons_self).bare
    have htrim : trimStart (callRest (w :: words)) = w ++ callRest words := by
      rw [callRest_cons]
      show trimStart (w ++ callRest words) = _
      exact hw.trimStart_append _
    rw [readAll_step htrim (hw.read?_append (endsWord_callRest words)),
      ih fun v hv => hwords v (List.mem_cons_of_mem w hv), List.reverse_cons, List.append_assoc]
    rfl

theorem trim_call (name : Text) (words : List Text) : trim (call name words) = call name words := by
  have hend := trimEnd_append (c := ')') (by decide) (name ++ words.flatMap (' ' :: ·)) []
  rw [List.append_assoc] at hend
  rw [call, trim_cons (by decide)]
  exact congrArg _ (hend.trans (List.append_assoc _ _ _))

/-- The lexemes of a call. -/
theorem ofText?_call {name : Text} (hname : IsWord name) (hwords : ∀ w ∈ words, IsWord w) :
    ofText? (trim (call name words)) =
      some (.opened :: .word name :: (words.map .word ++ [.closed])) := by
  have hopened : trimStart (call name words) = '(' :: (name ++ callRest words) := rfl
  rw [trim_call, ofText?, readAll_step hopened (l := .opened) rfl,
    readAll_step (hname.bare.trimStart_append _)
      (hname.bare.read?_append (endsWord_callRest words)),
    readAll_callRest hwords]
  rfl

theorem IsBareWord.ofText?_eq (hw : IsBareWord w) : ofText? (trim w) = some [.word w] := by
  have htrim : trim w = w := by
    have hstart := hw.trimStart_append []
    rw [List.append_nil] at hstart
    rw [trim, hstart, trimEnd, List.dropWhile_eq_self_iff.2, List.reverse_reverse]
    intro hlength
    rw [hw.not_blank (List.mem_reverse.1 (List.getElem_mem hlength))]
    simp
  have hend : EndsWord [] := fun x hx => by cases hx
  have hread := hw.read?_append hend
  have hstart := hw.trimStart_append []
  rw [List.append_nil] at hread hstart
  rw [htrim, ofText?, readAll_step hstart hread, readAll_nil]
  rfl

end Lexeme

namespace Expr

open Lexeme

variable {isHelper : Text → Bool} {name w : Text} {words : List Text} {e : Expr} {es : List Expr}

theorem foldlM_words (isHelper : Text → Bool)
    (h : List.Forall₂ (fun w e => readWord w = .ok e) words es)
    (head : Option Text) (args : List Expr) (outer : List Frame) :
    (words.map Lexeme.word).foldlM (Machine.step isHelper) ⟨⟨head, args, [], none⟩, outer, false⟩ =
      .ok ⟨⟨head, es.reverse ++ args, [], none⟩, outer, false⟩ := by
  induction h generalizing args with
  | nil => rfl
  | @cons w e words es hw _ ih =>
    have hstep : Machine.step isHelper ⟨⟨head, args, [], none⟩, outer, false⟩ (.word w) =
        .ok ⟨⟨head, e :: args, [], none⟩, outer, false⟩ := by
      show Machine.addTerm _ (readWord w) = _
      rw [hw]
      rfl
    rw [List.map_cons, List.foldlM_cons, hstep, List.reverse_cons, List.append_assoc]
    exact ih (e :: args)

/-- A word is read as the parameter of a block. -/
theorem readParameter_bare (hw : IsBareWord w) (he : readWord w = .ok e) :
    readParameter isHelper w = .ok e := by
  have hread := foldlM_words isHelper (.cons he .nil) none [] []
  rw [readParameter, ofText, hw.ofText?_eq]
  show (readTerms _ [Lexeme.word w] >>= _) = _
  rw [readTerms]
  show ((List.foldlM _ _ ([w].map Lexeme.word) >>= _) >>= _) = _
  rw [Frame.start, hread]
  rfl

theorem readParameter_word (hw : IsWord w) (he : readWord w = .ok e) :
    readParameter isHelper w = .ok e :=
  readParameter_bare hw.bare he

/-- A call with words as its parameters is read as the parameter of a block. -/
theorem readParameter_call (hname : IsWord name) (hhelper : isHelper name = true)
    (hwords : ∀ w ∈ words, IsWord w) (h : List.Forall₂ (fun w e => readWord w = .ok e) words es) :
    readParameter isHelper (Lexeme.call name words) = .ok (.call name [] es) := by
  have hopened : Machine.step isHelper ⟨Frame.start none, [], false⟩ .opened =
      .ok ⟨Frame.start none, [], true⟩ := rfl
  have hnaming : Machine.step isHelper ⟨Frame.start none, [], true⟩ (.word name) =
      .ok ⟨⟨some name, [], [], none⟩, [Frame.start none], false⟩ := if_pos hhelper
  have hread := foldlM_words isHelper h (some name) [] [Frame.start none]
  have hclosed : Machine.step isHelper
      ⟨⟨some name, es.reverse ++ [], [], none⟩, [Frame.start none], false⟩ .closed =
        .ok ⟨⟨none, [.call name [] es], [], none⟩, [], false⟩ := by
    rw [List.append_nil]
    show Except.ok (Machine.mk ((Frame.start none).add (.call name [] es.reverse.reverse)) [] _) = _
    rw [List.reverse_reverse]
    rfl
  have hterms : (Lexeme.opened :: .word name :: (words.map .word ++ [.closed])).foldlM
      (Machine.step isHelper) ⟨Frame.start none, [], false⟩ =
        .ok ⟨⟨none, [.call name [] es], [], none⟩, [], false⟩ := by
    simp only [List.foldlM_cons, List.foldlM_append, List.foldlM_nil, hopened, hnaming, hread,
      hclosed, Bind.bind, Except.bind, pure, Except.pure]
  rw [readParameter, ofText, ofText?_call hname hwords]
  show (readTerms _ _ >>= _) = _
  rw [readTerms, hterms]
  rfl

end Expr

namespace Compiler

open Lexeme

variable {c : Compiler} {name w param : Text} {words : List Text} {e : Expr} {es : List Expr}

theorem parsable_of_not_mem (hread : Expr.readParameter c.isHelper param = .ok e)
    (hclean : ∀ x ∈ param, x ≠ '|' ∧ x ≠ '}' ∧ x ≠ '~') : c.Parsable param where
  reads := ⟨e, hread⟩
  names hnames := (hclean '|' (hnames.subset (by decide))).1 rfl
  closes := by
    have hbare : Bare Piece.closing param :=
      Bare.of_not_mem fun hmem => (hclean '}' hmem).2.1 rfl
    exact cut_append_of_bare (by decide) hbare []
  tilde hlast := (hclean '~' (List.mem_of_getLast? hlast)).2.2 rfl

theorem parsable_word (hw : IsWord w) (he : Expr.readWord w = .ok e) : c.Parsable w :=
  parsable_of_not_mem (Expr.readParameter_word hw he) fun x hx => (hw.chars x hx).2

theorem clean_call (hname : IsWord name) (hwords : ∀ w ∈ words, IsWord w) :
    ∀ x ∈ Lexeme.call name words, x ≠ '|' ∧ x ≠ '}' ∧ x ≠ '~' := by
  intro x hx
  rw [Lexeme.call, callRest] at hx
  simp only [List.mem_cons, List.mem_append, List.mem_flatMap, List.not_mem_nil, or_false] at hx
  rcases hx with rfl | hx | ⟨w, hw, rfl | hx⟩ | rfl
  · decide
  · exact (hname.chars x hx).2
  · decide
  · exact ((hwords w hw).chars x hx).2
  · decide

theorem parsable_call (hname : IsWord name) (hhelper : c.isHelper name = true)
    (hwords : ∀ w ∈ words, IsWord w)
    (h : List.Forall₂ (fun w e => Expr.readWord w = .ok e) words es) :
    c.Parsable (Lexeme.call name words) :=
  parsable_of_not_mem (Expr.readParameter_call hname hhelper hwords h) (clean_call hname hwords)

end Compiler
end Tender
