/-
Records that are read under two shapes: what is said about a part that is no record does not matter
where nothing is said.

* `Survey.Follows` — a reading comes to what another comes to without a complaint;
* `Survey.Follows.bind`, `Survey.Follows.list`, `Survey.follows_record` — readings after one another,
  of lists and of records;
* `Proposal.survey_of_read`, `Estimate.survey_of_read` — templates and estimates that are accepted in
  files are accepted in forms.
-/
import Tender.Proofs.Refusal

namespace Tender

namespace Survey

variable {α β : Type}

/-- What the second reading comes to without a complaint, the first comes to as well; and the second
takes no complaint back. -/
def Follows (t s : Survey α) : Prop :=
  ∀ noted a all, s noted = .ok (a, all) →
    ∃ cs, all = noted ++ cs ∧ (cs = [] → ∀ others, t others = .ok (a, others))

theorem Reads.follows {s : Survey α} {breaks flawed : Prop} {sort : Complaint → Prop}
    (h : s.Reads breaks flawed sort) : s.Follows s := by
  intro noted a all hs
  by_cases hb : breaks
  · obtain ⟨f, -, heq⟩ := h.fault hb
    rw [heq] at hs
    cases hs
  · obtain ⟨b, cs, -, -, heq⟩ := h.answer hb
    rw [heq] at hs
    cases hs
    exact ⟨cs, rfl, fun hcs others => by rw [heq, hcs, List.append_nil]⟩

theorem follows_pure (a : α) : (pure a : Survey α).Follows (pure a) := by
  have hreads : (pure a : Survey α).Reads False False fun _ => True := reads_pure a
  exact hreads.follows

/-- Nothing has to be shown about a reading that follows a complaint. -/
theorem follows_refuse (t : Survey α) (kind : Complaint.Kind) (v : Value) (a : α) :
    t.Follows (do complain kind v; return a) := by
  intro noted b all hs
  cases hs
  exact ⟨_, rfl, fun hcs => absurd hcs (List.cons_ne_nil _ _)⟩

theorem follows_of_tolerant {read : Value → Survey α} (h : Tolerant read) (v : Value) :
    (read v).Follows (read v) := by
  obtain ⟨_, h⟩ := h
  exact (h v).follows

namespace Follows

theorem bind {t s : Survey α} {g f : α → Survey β} (h : t.Follows s)
    (hf : ∀ a, (g a).Follows (f a)) : (t >>= g).Follows (s >>= f) := by
  intro noted b all hs
  change (s noted >>= fun p => f p.1 p.2) = _ at hs
  cases hfirst : s noted with
  | error fault =>
    rw [hfirst] at hs
    cases hs
  | ok p =>
    obtain ⟨a, mid⟩ := p
    rw [hfirst] at hs
    obtain ⟨cs, rfl, ht⟩ := h noted a mid hfirst
    obtain ⟨cs', rfl, hg⟩ := hf a _ b all hs
    refine ⟨cs ++ cs', List.append_assoc _ _ _, fun hnil others => ?_⟩
    obtain ⟨hcs, hcs'⟩ := List.append_eq_nil_iff.1 hnil
    show (t others >>= fun p => g p.1 p.2) = _
    rw [ht hcs]
    exact hg hcs' others

theorem map {t s : Survey α} (h : t.Follows s) (f : α → β) :
    (t >>= fun a => pure (f a)).Follows (s >>= fun a => pure (f a)) :=
  h.bind fun a => follows_pure (f a)

theorem under {t s : Survey α} (h : t.Follows s) (step : Text) :
    (Survey.under step t).Follows (Survey.under step s) := by
  intro noted a all hs
  rw [Survey.under] at hs
  cases hinner : s [] with
  | error f =>
    rw [hinner] at hs
    cases hs
  | ok p =>
    obtain ⟨b, inner⟩ := p
    rw [hinner] at hs
    cases hs
    obtain ⟨cs, hcs, ht⟩ := h [] a inner hinner
    refine ⟨_, rfl, fun hnil others => ?_⟩
    have hempty : cs = [] := by
      rw [← List.nil_append cs, ← hcs]
      exact List.map_eq_nil_iff.1 hnil
    rw [Survey.under, ht hempty]
    exact congrArg (fun cs => Except.ok (a, cs)) (List.append_nil others)

theorem read {t s : Value → Survey α} (h : ∀ v, (t v).Follows (s v)) (f : Field)
    (es : Entries Value) (missing : α) : (f.read es missing t).Follows (f.read es missing s) := by
  rw [Field.read, Field.read]
  cases f.find? es with
  | none => exact follows_pure missing
  | some found => exact (h found.2).under found.1

theorem items {t s : Value → Survey α} (h : ∀ v, (t v).Follows (s v)) (vs : List Value) (i : Nat) :
    (Survey.items t i vs).Follows (Survey.items s i vs) := by
  induction vs generalizing i with
  | nil => exact follows_pure []
  | cons v vs ih =>
    rw [Survey.items, Survey.items]
    exact ((h v).under _).bind fun a => (ih (i + 1)).map _

theorem list {t s : Value → Survey α} (h : ∀ v, (t v).Follows (s v)) (v : Value) :
    (Survey.list t v).Follows (Survey.list s v) := by
  cases v with
  | null => exact follows_pure []
  | list vs => exact items h vs 0
  | _ => exact follows_refuse _ _ _ _

/-- What is accepted by a reading is accepted by one that follows it. -/
theorem finish {t s : Survey α} (h : t.Follows s) {a : α} (hs : s.finish = .ok a)
    (noted : List Complaint) : t noted = .ok (a, noted) := by
  obtain ⟨cs, hcs, ht⟩ := h [] a [] (finish_ok_iff.1 hs)
  exact ht hcs.symm noted

end Follows

/-- Records are read alike whatever is said about what is no record. -/
theorem follows_record [Inhabited α] {t s : Entries Value → Survey α}
    (h : ∀ es, (t es).Follows (s es)) (kind kind' : Complaint.Kind) (v : Value) :
    (record kind' t v).Follows (record kind s v) := by
  cases v with
  | map es => exact h es
  | _ => exact follows_refuse _ _ _ _

end Survey

open Survey (follows_of_tolerant follows_record)

theorem Proposal.follows_ofEntries (shape shape' : Complaint.Kind) (es : Entries Value) :
    (ofEntries shape' es).Follows (ofEntries shape es) := by
  have hpage (es : Entries Value) :
      (TemplatePage.ofEntries es).Follows (TemplatePage.ofEntries es) := by
    obtain ⟨_, h⟩ := TemplatePage.exists_reads es
    exact h.follows
  exact (Survey.Follows.read (follows_of_tolerant tolerant_readId) _ es _).bind fun _ =>
    (Survey.Follows.read (follows_of_tolerant Survey.tolerant_text) _ es _).bind fun _ =>
    (Survey.Follows.read (follows_of_tolerant Survey.tolerant_integer) _ es _).bind fun _ =>
    (Survey.Follows.read (follows_of_tolerant TemplatePage.tolerant_readContent) _ es _).bind
      fun _ => (Survey.Follows.read (Survey.Follows.list (follows_record hpage shape shape')) _ es
        _).map _

/-- A template that is accepted in a file is accepted in a form. -/
theorem Proposal.survey_of_read {v : Value} {template : Proposal}
    (h : Proposal.read v = .ok template) (shape : Complaint.Kind) (noted : List Complaint) :
    survey shape v noted = .ok (template, noted) :=
  (follows_record (follows_ofEntries _ shape) .recordType shape v).finish h noted

namespace Estimate

theorem follows_readItems (shape shape' : Complaint.Kind) (es : Entries Value)
    (cs : List Category) : (readItems shape' es cs).Follows (readItems shape es cs) := by
  induction cs with
  | nil => exact Survey.follows_pure []
  | cons c cs ih =>
    have hline (es : Entries Value) : (LineItem.ofEntries es).Follows (LineItem.ofEntries es) :=
      (LineItem.reads_ofEntries es).follows
    rw [readItems, readItems]
    exact (Survey.Follows.read (Survey.Follows.list (follows_record hline shape shape')) _ es
      _).bind fun _ => ih.map _

theorem follows_ofEntries (shape shape' : Complaint.Kind) (es : Entries Value) :
    (ofEntries shape' es).Follows (ofEntries shape es) := by
  have htext (f : Field) : (f.read es none Survey.anyText).Follows (f.read es none Survey.anyText) :=
    Survey.Follows.read (fun v => (Survey.judges_anyText v).follows) f es none
  have hamount (f : Field) : (f.read es none Survey.amount).Follows (f.read es none Survey.amount) :=
    Survey.Follows.read (fun v => (Survey.judges_amount v).follows) f es none
  exact (htext _).bind fun _ => (htext _).bind fun _ =>
    (Survey.Follows.read (fun v => (judges_version v).follows) _ es _).bind fun _ =>
    (Survey.Follows.read (fun v => (judges_date v).follows) _ es _).bind fun _ =>
    (htext _).bind fun _ => (htext _).bind fun _ => (htext _).bind fun _ => (htext _).bind fun _ =>
    (htext _).bind fun _ => (htext _).bind fun _ => (htext _).bind fun _ => (htext _).bind fun _ =>
    (hamount _).bind fun _ => (hamount _).bind fun _ =>
    (follows_readItems shape shape' es Category.all).bind fun _ =>
    (Survey.Follows.read (fun v => (judges_variables v).follows) _ es _).map _

/-- An estimate that is accepted in a file is accepted in a form. -/
theorem survey_of_read {v : Value} {e : Estimate} (h : Estimate.read v = .ok e)
    (shape : Complaint.Kind) (noted : List Complaint) : survey shape v noted = .ok (e, noted) :=
  (follows_record (follows_ofEntries _ shape) .recordType shape v).finish h noted

end Estimate
end Tender
