/-
When an estimate has a context.

* `Context.aggregations_eq` — the totals are written one after the other;
* `Context.money_cases` — what a total is written as;
* `Context.build_cases` — there is a context exactly if all totals can be written, and the version too;
* `Context.complete_iff` — and all totals are amounts with the currency symbol exactly if they are finite
  besides.
-/
import Tender.Proofs.Document
import Tender.Proofs.Helper.Money
import Tender.Proofs.Template.Written
import Tender.Proofs.Value.Entries

namespace Tender

namespace Context

open Amount (Fits Marked)

/-- The totals of an estimate as numbers. -/
def amounts (e : Estimate) : Entries Binary64 :=
  (Category.all.map fun c => (totalKey c, categoryTotal (e.items c))) ++
    [(lit "subTotal", e.subTotal.getD Binary64.zero),
      (lit "grandTotal", e.grandTotal.getD Binary64.zero)]

/-- A total with its key as it is shown. -/
def showTotal (symbol : Text) (p : Text × Binary64) : Except Fault (Text × Value) :=
  (money symbol (some p.2)).map fun v => (p.1, v)

theorem categoryTotals_eq (symbol : Text) (e : Estimate) (cs : List Category) :
    categoryTotals symbol e cs =
      (cs.map fun c => (totalKey c, categoryTotal (e.items c))).mapM (showTotal symbol) := by
  induction cs with
  | nil => rfl
  | cons c cs ih =>
    rw [categoryTotals, ih, List.map_cons, List.mapM_cons, showTotal]
    cases money symbol (some (categoryTotal (e.items c))) <;> rfl

/-- The totals are written one after the other. -/
theorem aggregations_eq (symbol : Text) (e : Estimate) :
    aggregations symbol e = (amounts e).mapM (showTotal symbol) := by
  have hmoney (x : Option Binary64) : money symbol x = money symbol (some (x.getD .zero)) := rfl
  rw [aggregations, categoryTotals_eq, amounts, List.mapM_append, hmoney e.subTotal,
    hmoney e.grandTotal]
  simp only [List.mapM_cons, List.mapM_nil, showTotal]
  congr 1
  funext totals
  cases money symbol (some (e.subTotal.getD .zero)) <;>
    cases money symbol (some (e.grandTotal.getD .zero)) <;> rfl

/-- What a number is shown as: a finite one as an amount, and any other as itself. -/
def Shows (symbol : Text) (x : Binary64) (v : Value) : Prop :=
  if x.isFinite then ∃ s, v = .text s ∧ Marked symbol s else v = .float x

/-- A number is shown, or is too long to be. -/
theorem money_cases (symbol : Text) (x : Binary64) :
    (Fits x ∧ ∃ v, money symbol (some x) = .ok v ∧ Shows symbol x v) ∨
      (¬ Fits x ∧ money symbol (some x) = .error .invalidOperation) := by
  rw [money, Option.getD_some]
  cases hx : x.isFinite with
  | false =>
    have hfits : Fits x := fun r hr => by
      cases x with
      | nan => cases hr
      | infinite => cases hr
      | finite => cases hx
    refine .inl ⟨hfits, .float x, ?_, by rw [Shows, hx]; rfl⟩
    rw [Amount.format_of_not_finite hx]
    rfl
  | true =>
    cases x with
    | nan => cases hx
    | infinite => cases hx
    | finite negative rank =>
      refine (Amount.format_finite symbol negative rank).imp (And.imp_right ?_) (And.imp_right ?_)
      · rintro ⟨s, hs, hformat⟩
        rw [hformat]
        exact ⟨.text s, rfl, s, rfl, hs⟩
      · intro hformat
        rw [hformat]
        rfl

/-- The totals that can be written make a map with their keys. -/
theorem aggregations_cases (symbol : Text) (e : Estimate) :
    ((∀ p ∈ amounts e, Fits p.2) ∧ ∃ totals, aggregations symbol e = .ok totals ∧
      List.Forall₂ (fun p q => p.1 = q.1 ∧ Shows symbol p.2 q.2) (amounts e) totals) ∨
    ((∃ p ∈ amounts e, ¬ Fits p.2) ∧ ∀ totals, aggregations symbol e ≠ .ok totals) := by
  rw [aggregations_eq]
  by_cases hfits : ∀ p ∈ amounts e, Fits p.2
  · left
    have hall : ∀ p ∈ amounts e, ∃ q, showTotal symbol p = .ok q := fun p hp => by
      obtain ⟨-, v, hv, -⟩ := (money_cases symbol p.2).resolve_right fun h => h.1 (hfits p hp)
      exact ⟨(p.1, v), by rw [showTotal, hv]; rfl⟩
    obtain ⟨totals, htotals⟩ := exists_mapM_ok_iff.2 hall
    refine ⟨hfits, totals, htotals, (mapM_eq_ok_iff.1 htotals).imp fun p q hq => ?_⟩
    rw [showTotal] at hq
    rcases money_cases symbol p.2 with ⟨-, v, hv, hshows⟩ | ⟨-, herror⟩
    · rw [hv] at hq
      cases hq
      exact ⟨rfl, hshows⟩
    · rw [herror] at hq
      cases hq
  · right
    push Not at hfits
    refine ⟨hfits, fun totals htotals => ?_⟩
    obtain ⟨p, hp, hlong⟩ := hfits
    obtain ⟨q, hq⟩ := exists_mapM_ok_iff.1 ⟨totals, htotals⟩ p hp
    rw [showTotal, ((money_cases symbol p.2).resolve_left fun h => hlong h.1).2] at hq
    cases hq

/-- An estimate whose context can be built: all totals can be written, and the version too. -/
def Buildable (e : Estimate) : Prop :=
  (∀ p ∈ amounts e, Fits p.2) ∧ e.version.isWritable = true

/-- There is a context, with the totals, exactly if the totals and the version can be written. -/
theorem build_cases (e : Estimate) (today : Date) (s : Settings) :
    (Buildable e ∧ ∃ context totals, build e today s = .ok context ∧
      Entries.get? (lit "aggregations") context = some (.map totals) ∧
      List.Forall₂ (fun p q => p.1 = q.1 ∧ Shows s.currencySymbol p.2 q.2) (amounts e) totals) ∨
    (¬ Buildable e ∧ ∀ context, build e today s ≠ .ok context) := by
  rw [build]
  rcases aggregations_cases s.currencySymbol e with
    ⟨hfits, totals, htotals, hshows⟩ | ⟨⟨p, hp, hlong⟩, hnone⟩
  · rw [htotals]
    cases hversion : e.version.isWritable with
    | false =>
      refine .inr ⟨fun h => ?_, fun context hcontext => by cases hcontext⟩
      rw [h.2] at hversion
      cases hversion
    | true =>
      refine .inl ⟨⟨hfits, hversion⟩, _, totals, rfl, ?_, hshows⟩
      refine Entries.get?_putAll_of_mem ?_ (List.mem_cons_of_mem _ List.mem_cons_self)
      show ([lit "lineItems", lit "aggregations", lit "proposalNo", lit "fullProposalId",
        lit "jobAddress", lit "customerName", lit "clientName", lit "projectName",
        lit "projectTitle", lit "contactName", lit "contactPerson", lit "contactPhone",
        lit "contactEmail", lit "today"]).Nodup
      decide +kernel
  · refine .inr ⟨fun h => hlong (h.1 p hp), fun context hcontext => ?_⟩
    cases htotals : aggregations s.currencySymbol e with
    | error f =>
      rw [htotals] at hcontext
      cases hcontext
    | ok totals => exact hnone totals htotals

theorem shows_text_iff {symbol : Text} {x : Binary64} {v : Value} (h : Shows symbol x v) :
    (∃ text, v = .text text ∧ Marked symbol text) ↔ ∃ r, x.toRat? = some r := by
  cases x with
  | finite negative rank => exact iff_of_true h ⟨_, rfl⟩
  | _ =>
    cases show v = _ from h
    exact iff_of_false (fun ⟨_, htext, _⟩ => by cases htext) (fun ⟨_, hr⟩ => by cases hr)

/-- Totals have the keys of their numbers, and are amounts with the currency symbol exactly if the
numbers are finite. -/
theorem totals_shown {symbol : Text} {ps : Entries Binary64} {totals : Entries Value}
    (h : List.Forall₂ (fun p q => p.1 = q.1 ∧ Shows symbol p.2 q.2) ps totals) :
    Entries.keys totals = Entries.keys ps ∧
      ((∀ q ∈ totals, ∃ text, q.2 = .text text ∧ Marked symbol text) ↔
        ∀ p ∈ ps, ∃ r, p.2.toRat? = some r) := by
  induction h with
  | nil => exact ⟨rfl, by simp⟩
  | cons hpq _ ih =>
    refine ⟨?_, ?_⟩
    · show _ :: Entries.keys _ = _ :: Entries.keys _
      rw [hpq.1, ih.1]
    · rw [List.forall_mem_cons, List.forall_mem_cons, ih.2, shows_text_iff hpq.2]

/-- The context of an estimate is complete: it can be built, and all its totals are amounts with the
currency symbol. -/
def IsComplete (e : Estimate) (today : Date) (s : Settings) : Prop :=
  ∃ context totals, build e today s = .ok context ∧
    Entries.get? (lit "aggregations") context = some (.map totals) ∧
    Entries.keys totals = Entries.keys (amounts e) ∧
    ∀ p ∈ totals, ∃ text, p.2 = .text text ∧ Marked s.currencySymbol text

theorem IsComplete.buildable {e : Estimate} {today : Date} {s : Settings}
    (h : IsComplete e today s) : Buildable e ∧ ∀ p ∈ amounts e, ∃ r, p.2.toRat? = some r := by
  obtain ⟨context, totals, hcontext, hget, -, hmarked⟩ := h
  obtain ⟨hbuildable, context', totals', hcontext', hget', hshows⟩ :=
    (build_cases e today s).resolve_right fun h => h.2 context hcontext
  cases hcontext.symm.trans hcontext'
  cases hget.symm.trans hget'
  exact ⟨hbuildable, (totals_shown hshows).2.1 hmarked⟩

/-- An estimate has a context, and a document of it can be started, exactly if every total that is
finite is below `10 ^ 26` and the version is not too long; and its totals are all amounts with the
currency symbol exactly if they are finite besides. -/
theorem complete_iff (e : Estimate) (today : Date) (s : Settings) :
    (IsComplete e today s ↔
      (∀ p ∈ amounts e, ∃ r, p.2.toRat? = some r ∧ |r| < 10 ^ 26) ∧
        e.version.isWritable = true) ∧
    ((∃ context, build e today s = .ok context) ↔
      (∀ p ∈ amounts e, ∀ r, p.2.toRat? = some r → |r| < 10 ^ 26) ∧
        e.version.isWritable = true) ∧
    ∀ (guard : Guard) (compiler : Compiler) (template : Proposal) (mode : Mode)
      (values : Option (Entries Text)),
      (∃ d, Document.start ⟨s, guard, compiler⟩ template e mode values today = .ok d) ↔
        ∃ context, build e today s = .ok context := by
  refine ⟨⟨?_, ?_⟩, ?_, fun guard compiler template mode values => ?_⟩
  · intro hcomplete
    obtain ⟨⟨hfits, hversion⟩, hfinite⟩ := hcomplete.buildable
    refine ⟨fun p hp => ?_, hversion⟩
    obtain ⟨r, hr⟩ := hfinite p hp
    exact ⟨r, hr, hfits p hp r hr⟩
  · rintro ⟨hbelow, hversion⟩
    have hfits : ∀ p ∈ amounts e, Fits p.2 := fun p hp r hr => by
      obtain ⟨r', hr', hless⟩ := hbelow p hp
      cases hr.symm.trans hr'
      exact hless
    obtain ⟨-, context, totals, hcontext, hget, hshows⟩ :=
      (build_cases e today s).resolve_right fun h => h.1 ⟨hfits, hversion⟩
    obtain ⟨hkeys, hmarked⟩ := totals_shown hshows
    exact ⟨context, totals, hcontext, hget, hkeys,
      hmarked.2 fun p hp => (hbelow p hp).imp fun _ h => h.1⟩
  · rcases build_cases e today s with ⟨hbuildable, context, -, hcontext, -⟩ | ⟨hnot, hnone⟩
    · exact iff_of_true ⟨context, hcontext⟩ hbuildable
    · exact iff_of_false (fun ⟨context, hcontext⟩ => hnone context hcontext) hnot
  · simp only [Document.start_ok]
    constructor
    · rintro ⟨_, context, hcontext, -⟩
      exact ⟨context, hcontext⟩
    · rintro ⟨context, hcontext⟩
      exact ⟨_, context, hcontext, rfl⟩

/-- An estimate with a total of `10 ^ 26`. -/
def vastTotal : Value :=
  .map [(lit "grandTotal", .text (lit "100000000000000000000000000"))]

/-- An estimate with an infinite total. -/
def infiniteTotal : Value :=
  .map [(lit "grandTotal", .float (.infinite false))]

/-- An estimate is accepted whose context cannot be built, and one whose totals are no amounts. -/
theorem build_vastTotal :
    (∃ e, Estimate.read vastTotal = .ok e ∧
      ∀ context, build e ⟨2024, 3, 15, by decide⟩ {} ≠ .ok context) ∧
    ∃ e, Estimate.read infiniteTotal = .ok e ∧ ¬ IsComplete e ⟨2024, 3, 15, by decide⟩ {} := by
  have hvast : ((Estimate.read vastTotal).toOption.map fun e =>
      (build e ⟨2024, 3, 15, by decide⟩ {}).toBool) = some false := by decide +kernel
  have hinfinite : ((Estimate.read infiniteTotal).toOption.map Estimate.grandTotal) =
      some (some (.infinite false)) := by decide +kernel
  constructor
  · obtain ⟨e, he, hbuild⟩ := Option.map_eq_some_iff.1 hvast
    refine ⟨e, ok_of_toOption he, fun context hcontext => ?_⟩
    rw [hcontext] at hbuild
    cases hbuild
  · obtain ⟨e, he, htotal⟩ := Option.map_eq_some_iff.1 hinfinite
    refine ⟨e, ok_of_toOption he, fun hcomplete => ?_⟩
    have hmem : (lit "grandTotal", Binary64.infinite false) ∈ amounts e := by
      simp [amounts, htotal]
    obtain ⟨r, hr⟩ := hcomplete.buildable.2 _ hmem
    cases hr

end Context
end Tender
