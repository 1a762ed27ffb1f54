/-
Tokens in loops.

* `Renderer.compilePage_each` — a loop over a list whose body is a row of plain text and tokens is
  compiled to the row, once for each item;
* `Binding.numberFrom_replicate`, `Binding.keys_round` — a row that is repeated is numbered round by
  round, each going on where the one before it stopped;
* `Renderer.each_positions` — so every round of such a loop has positions of its own.
-/
import Tender.Proofs.Binding.Pages
import Tender.Proofs.Guard.RoundTrip
import Tender.Proofs.Plain
import Tender.Proofs.Template.Unroll

namespace Tender

open Text Binding

/-! ### Rows that are repeated -/

namespace Binding

variable {row : List (Atom Token)}

theorem Atom.fill_flatten {β : Type} (f : β → Text) (rows : List (List (Atom β))) :
    Atom.fill f rows.flatten = (rows.map (Atom.fill f)).flatten := by
  induction rows with
  | nil => rfl
  | cons row rows ih => rw [List.flatten_cons, Atom.fill_append, ih, List.map_cons, List.flatten_cons]

theorem Atom.fill_replicate {β : Type} (f : β → Text) (as : List (Atom β)) (n : Nat) :
    Atom.fill f (List.replicate n as).flatten = (List.replicate n (Atom.fill f as)).flatten := by
  rw [Atom.fill_flatten, List.map_replicate]

theorem tokens_flatten (rows : List (List (Atom Token))) :
    tokens rows.flatten = (rows.map tokens).flatten := by
  induction rows with
  | nil => rfl
  | cons row rows ih => rw [List.flatten_cons, tokens_append, ih, List.map_cons, List.flatten_cons]

/-- The counters after a row has been counted a number of times. -/
def countersAt (c : Counters) (row : List (Atom Token)) (rounds : Nat) : Counters :=
  c.after (tokens (List.replicate rounds row).flatten)

/-- After some rounds a counter has moved on by its tokens in the row, so many times. -/
theorem number_countersAt (c : Counters) (row : List (Atom Token)) (rounds : Nat) (t : Token) :
    (countersAt c row rounds).number t =
      c.number t + rounds * (tokens row).countP t.shares := by
  rw [countersAt, Counters.number_after, tokens_flatten, List.map_replicate,
    List.countP_flatten, List.map_replicate, List.sum_replicate_nat]

/-- A row in the round `i` of its repetition, its tokens with their numbers. -/
def round (c : Counters) (row : List (Atom Token)) (i : Nat) : List (Atom (Token × Nat)) :=
  numberFrom [] (countersAt c row i) row

/-- A row that is repeated is numbered round by round. -/
theorem numberFrom_replicate (c : Counters) (row : List (Atom Token)) (n : Nat) :
    numberFrom [] c (List.replicate n row).flatten =
      ((List.range n).map (round c row)).flatten := by
  induction n with
  | zero => rfl
  | succ n ih =>
    rw [List.replicate_succ', List.flatten_concat, numberFrom_append, ih, List.range_succ,
      List.map_append, List.flatten_append, List.map_singleton, List.flatten_singleton]
    rfl

/-- The tokens of one counter get keys that follow one another from round to round. -/
theorem keys_round (c : Counters) (row : List (Atom Token)) (i : Nat) (t : Token) :
    keysOf t (round c row i) = (List.range ((tokens row).countP t.shares)).map fun j =>
      t.variableKey (c.number t + (i * (tokens row).countP t.shares + j)) := by
  rw [round, keys_numberFrom, number_countersAt]
  exact List.map_congr_left fun j _ => congrArg t.variableKey (Nat.add_assoc _ _ _)

end Binding

namespace IsTokenRow

variable {row : List (Atom Token)}

theorem replicate (h : IsTokenRow row) (n : Nat) : IsTokenRow (List.replicate n row).flatten := by
  intro c hc
  obtain ⟨as, has, hmem⟩ := List.mem_flatten.1 hc
  rw [List.eq_of_mem_replicate has] at hmem
  exact h c hmem

/-- The row as the compiler sees it has no tag. -/
theorem cut_hidden (h : IsTokenRow row) :
    cut Piece.opening (Atom.fill Slot.hidden (row.map slot)) = none :=
  cut_of_bare (by decide) (bare_opening h.slots_plain (no_path row))

/-- Its last character is one of the row or the brace behind a token. -/
theorem getLast?_hidden (h : IsTokenRow row) (hback : .char '\\' ∉ row) :
    ∀ x ∈ (Atom.fill Slot.hidden (row.map slot)).getLast?, x ≠ '{' ∧ x ≠ '\\' := by
  rcases List.eq_nil_or_concat row with rfl | ⟨before, a, rfl⟩
  · intro x hx
    cases hx
  · rw [List.concat_eq_append] at h hback ⊢
    rw [List.map_append, Atom.fill_append]
    cases a with
    | char c =>
      have hc : c ≠ '{' ∧ c ≠ '\\' := by
        refine ⟨(h c (List.mem_append_right _ List.mem_cons_self)).1, ?_⟩
        rintro rfl
        exact hback (List.mem_append_right _ List.mem_cons_self)
      intro x hx
      rw [show Atom.fill Slot.hidden ([Atom.char c].map slot) = [c] from rfl,
        List.getLast?_concat] at hx
      cases hx
      exact hc
    | item t =>
      intro x hx
      have hmarker : Atom.fill Slot.hidden ([Atom.item t].map slot) = Guard.marker t.name :=
        List.append_nil _
      rw [hmarker, List.getLast?_append_of_ne_nil _ (Guard.marker_ne_nil _),
        Guard.getLast?_marker] at hx
      cases hx
      decide

theorem hidden_ne_nil (hrow : row ≠ []) : Atom.fill Slot.hidden (row.map slot) ≠ [] := by
  cases row with
  | nil => exact absurd rfl hrow
  | cons a row =>
    cases a with
    | char c => exact List.cons_ne_nil _ _
    | item t =>
      rw [List.map_cons, slot, Atom.fill_item]
      exact fun hnil => Guard.marker_ne_nil t.name (List.append_eq_nil_iff.1 hnil).1

/-- The row as the compiler sees it can stand in any block. -/
theorem balanced_hidden (h : IsTokenRow row) (hback : .char '\\' ∉ row) (hrow : row ≠ [])
    (c : Compiler) : c.Balanced (Atom.fill Slot.hidden (row.map slot)) :=
  Compiler.balanced_of_no_tag h.cut_hidden (hidden_ne_nil hrow)
    (fun hlast => (h.getLast?_hidden hback _ hlast).1 rfl)
    (fun hlast => (h.getLast?_hidden hback _ hlast).2 rfl)

end IsTokenRow

/-! ### Loops over tokens -/

theorem Slot.mustache_eq_tag (body : Text) : Slot.mustache body = Link.tag body :=
  List.append_assoc _ _ _

namespace Compiler

variable {c : Compiler} {p body : Text} {e : Expr} {context : Value} {xs : List Value}

/-- A loop over a list whose body has no tag is compiled to the body, once for each item. -/
theorem compile_each_plain (hparam : c.Parsable p)
    (hread : Expr.readParameter c.isHelper p = .ok e)
    (hlist : e.eval (c.surroundings context) = .ok (.value (.list xs)))
    (hdepth : 0 < c.settings.maxBlockDepth) (htags : 2 ≤ c.settings.maxTemplateTokens)
    (hbody : c.Balanced body) (hcut : cut Piece.opening body = none) (hne : body ≠ []) :
    c.compile (Link.alone ⟨.each, p, body⟩) context =
      .ok (List.replicate xs.length body).flatten := by
  have hmustaches : Piece.mustaches body = 0 := (Piece.Scanned.plain hcut).mustaches_eq
  have hexpr : Link.expr c ⟨.each, p, body⟩ = e := by
    rw [Link.expr, hread]
    rfl
  have hrounds : ∀ indices : List Nat, indices.mapM (fun _ => Except.ok body) =
      (Except.ok (List.replicate indices.length body) : Except Fault (List Text)) := by
    intro indices
    induction indices with
    | nil => rfl
    | cons i indices ih =>
      rw [List.mapM_cons, ih]
      rfl
  rw [compile_alone (l := ⟨.each, p, body⟩) hparam (by rw [hmustaches]; exact htags) hbody hdepth,
    hexpr, Node.render_each hlist]
  have hloop : Node.renderLoop (c.surroundings context) (fun env =>
      Node.renderAll c.settings.maxBlockDepth env
        (c.nodesOf (c.settings.maxBlockDepth - 1) body).reverse) 0
          (Outcome.value (.list xs)).entries =
      ((List.range' 0 (Outcome.value (.list xs)).entries.length).mapM fun _ =>
        Except.ok body).map List.flatten :=
    Node.renderLoop_eq fun i e _ l => renderAll_nodesOf_of_no_tag hcut hne _ _ _
  have hlength : (Outcome.value (.list xs)).entries.length = xs.length := List.length_mapIdx
  rw [hrounds, List.length_range', hlength] at hloop
  exact hloop

end Compiler

namespace Renderer

variable {r : Renderer} {row : List (Atom Token)} {p : Text} {e : Expr} {context : Value}
variable {xs : List Value}

/-- A loop over a list whose body is a row of plain text and tokens is compiled to the row, once for
each item. -/
theorem compilePage_each (hguard : r.guard = Guard.standard) (hrow : IsTokenRow row)
    (hback : .char '\\' ∉ row) (hne : row ≠ []) (hparam : r.compiler.Parsable p)
    (hread : Expr.readParameter r.compiler.isHelper p = .ok e)
    (hlist : e.eval (r.compiler.surroundings context) = .ok (.value (.list xs)))
    (hends : ∀ t, ¬ spelling t <:+ Link.tag ('#' :: (Link.mk .each p []).call))
    (hdepth : 0 < r.compiler.settings.maxBlockDepth)
    (htags : 2 ≤ r.compiler.settings.maxTemplateTokens)
    (hlength : (Link.alone ⟨.each, p, Atom.fill spelling row⟩).length ≤ r.settings.maxPageChars) :
    r.compilePage (Link.alone ⟨.each, p, Atom.fill spelling row⟩) context =
      .ok (Atom.fill spelling (List.replicate xs.length row).flatten) := by
  let slots : List (Atom Slot) := .item (.path ('#' :: (Link.mk .each p []).call)) ::
    (row.map slot ++ [.item (.path ('/' :: BlockKind.each.name))])
  have hslots : Slot.IsRow slots := by
    refine ⟨fun c hc => ?_, fun body hbody => ?_⟩
    · rcases List.mem_cons.1 hc with hc | hc
      · cases hc
      · rcases List.mem_append.1 hc with hc | hc
        · exact hrow.slots_plain c hc
        · cases List.mem_singleton.1 hc
    · rcases List.mem_cons.1 hbody with hbody | hbody
      · cases hbody
        refine Slot.isFree_of_tag (Link.readTag?_call hparam [] (by decide) (by decide) (by decide))
          fun t ht => hends t ?_
        rwa [← Slot.mustache_eq_tag]
      · rcases List.mem_append.1 hbody with hbody | hbody
        · exact absurd hbody (IsTokenRow.no_path row body)
        · cases List.mem_singleton.1 hbody
          exact Slot.isFree_of_tag (by decide) fun t => by cases t with
            | custom k => cases k <;> decide +kernel
            | item c => cases c <;> decide +kernel
  have hfill (f : Slot → Text) (hf : ∀ body, f (.path body) = Slot.mustache body) :
      Atom.fill f slots = Link.alone ⟨.each, p, Atom.fill f (row.map slot)⟩ := by
    show f _ ++ Atom.fill f (row.map slot ++ [_]) = _
    rw [Atom.fill_append, Atom.fill_item, Atom.fill_nil, List.append_nil, hf, hf,
      Slot.mustache_eq_tag, Slot.mustache_eq_tag]
    rfl
  have hescaped : Guard.standard.escape (Link.alone ⟨.each, p, Atom.fill spelling row⟩) =
      Link.alone ⟨.each, p, Atom.fill Slot.hidden (row.map slot)⟩ := by
    rw [← hfill Slot.hidden fun _ => rfl, ← Guard.escape_row hslots, hfill Slot.source fun _ => rfl,
      fill_slots]
    rfl
  rw [compilePage, if_neg (Nat.not_lt.2 hlength), hguard, hescaped,
    Compiler.compile_each_plain hparam hread hlist hdepth htags
      (hrow.balanced_hidden hback hne _) hrow.cut_hidden (IsTokenRow.hidden_ne_nil hne)]
  show Except.ok (Guard.standard.restore _) = _
  rw [fill_slots, ← Atom.fill_replicate]
  exact congrArg Except.ok (hrow.replicate xs.length).restore_hidden

/-- Every round of a loop has positions of its own.  A loop over a list, whose body is a row of plain
text and tokens, is compiled to the row once for each item; and wherever the counters stand, binding
this page fills in one round after the other, moves every counter on by its tokens in the row for
each item, and gives the `j`-th token of a counter in the round `i`, of `k` in each round, the key
`i * k + j` from where the counter stood. -/
theorem each_positions (hguard : r.guard = Guard.standard) (hrow : IsTokenRow row)
    (hback : .char '\\' ∉ row) (hne : row ≠ []) (hparam : r.compiler.Parsable p)
    (hread : Expr.readParameter r.compiler.isHelper p = .ok e)
    (hlist : e.eval (r.compiler.surroundings context) = .ok (.value (.list xs)))
    (hends : ∀ t, ¬ spelling t <:+ Link.tag ('#' :: (Link.mk .each p []).call))
    (hdepth : 0 < r.compiler.settings.maxBlockDepth)
    (htags : 2 ≤ r.compiler.settings.maxTemplateTokens)
    (hlength : (Link.alone ⟨.each, p, Atom.fill spelling row⟩).length ≤ r.settings.maxPageChars) :
    let html := (List.replicate xs.length (Atom.fill spelling row)).flatten
    r.compilePage (Link.alone ⟨.each, p, Atom.fill spelling row⟩) context = .ok html ∧
      ∀ estimate mode values c,
        let bound := r.bindPage estimate mode values c html
        let count (t : Token) := (tokens row).countP t.shares
        bound.1 = ((List.range xs.length).map fun i =>
            Atom.fill (r.replacement estimate mode values) (round c row i)).flatten ∧
          ∀ t, bound.2.number t = c.number t + xs.length * count t ∧
            ∀ i, keysOf t (round c row i) = (List.range (count t)).map fun j =>
              t.variableKey (c.number t + (i * count t + j)) := by
  have hcompiled := compilePage_each hguard hrow hback hne hparam hread hlist hends hdepth htags
    hlength
  rw [Atom.fill_replicate] at hcompiled
  refine ⟨hcompiled, fun estimate mode values c => ?_⟩
  have hatoms : atoms Token.all (List.replicate xs.length (Atom.fill spelling row)).flatten =
      (List.replicate xs.length row).flatten := by
    rw [← Atom.fill_replicate, (hrow.replicate xs.length).atoms_fill]
  rw [bindPage_eq, hatoms]
  refine ⟨?_, fun t => ⟨number_countersAt c row xs.length t, fun i => keys_round c row i t⟩⟩
  show Atom.fill _ _ = _
  rw [numberFrom_replicate, Atom.fill_flatten, List.map_map]
  rfl

/-- A text with two tokens of one kind and a cost line. -/
def positionRow : List (Atom Token) :=
  [.char 'a', .item (.custom .text), .item (.item .labor), .char ' ', .item (.custom .text)]

/-- In the second of two rounds the tokens of texts are the third and the fourth of their kind. -/
theorem each_positions_rates :
    let html := (List.replicate 2 (Atom.fill spelling positionRow)).flatten
    (standard {}).compilePage
        (Link.alone ⟨.each, lit "rates", Atom.fill spelling positionRow⟩) rates = .ok html ∧
      ((standard {}).bindPage default .edit [] Counters.start html).2.number (.custom .text) = 4 ∧
      keysOf (.custom .text) (round Counters.start positionRow 1) =
        [lit "customText_2", lit "customText_3"] := by
  have hrow : IsTokenRow positionRow := by
    intro c hc
    simp only [positionRow, List.mem_cons, Atom.char.injEq, reduceCtorEq, List.not_mem_nil, or_false,
      false_or] at hc
    rcases hc with rfl | rfl
    · decide
    · decide
  have hread : Expr.readParameter (standard {}).compiler.isHelper (lit "rates") =
      .ok (.path (.scope 0 false [lit "rates"])) :=
    Expr.readParameter_bare Compiler.isName_rates.word (Expr.readWord_name Compiler.isName_rates)
  have hlist : Expr.eval ((standard {}).compiler.surroundings rates)
      (.path (.scope 0 false [lit "rates"])) = .ok (.value (.list [.text ['1'], .text ['{']])) := by
    refine (Compiler.eval_name _ _ _).trans ?_
    rw [Value.entry, Compiler.split_rates, Compiler.get?_rates]
    rfl
  have hends : ∀ t, ¬ spelling t <:+ Link.tag ('#' :: (Link.mk .each (lit "rates") []).call) := by
    intro t
    cases t with
    | custom k => cases k <;> decide +kernel
    | item c => cases c <;> decide +kernel
  have hback : Atom.char '\\' ∉ positionRow := by simp [positionRow]
  obtain ⟨hcompiled, hbound⟩ := each_positions rfl hrow hback (List.cons_ne_nil _ _)
    (Compiler.parsable_name Compiler.isName_rates) hread hlist hends (by decide) (by decide) (by decide +kernel)
  obtain ⟨-, hpositions⟩ := hbound default .edit [] Counters.start
  obtain ⟨hnumber, hkeys⟩ := hpositions (.custom .text)
  exact ⟨hcompiled, hnumber, (hkeys 1).trans (by decide +kernel)⟩

end Renderer

end Tender
