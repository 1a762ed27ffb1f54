/-
Pages of text, tokens and data paths.

The compiler sees such a page as a row with its tokens hidden.

* `pieces_row` — its pieces are tags of data paths and texts that the scans after the compiler read on
  their own (`Steady`);
* `nodes_row` — so its nodes are such texts, problems and paths that are shown as text.
-/
import Tender.Proofs.Guard
import Tender.Proofs.Template.Piece
import Tender.Proofs.Template.Reading

namespace Tender

open Text Binding

/-! ### Texts beside which nothing changes -/

/-- A text that the scans for markers and for tokens read on its own. -/
structure Steady (s : Text) : Prop where
  markers : Guard.Sealed s
  tokens : Whole (spelled spelling Token.all) (Guard.standard.restore s)

namespace Steady

theorem append {s t : Text} (hs : Steady s) (ht : Steady t) : Steady (s ++ t) := by
  refine ⟨hs.markers.append ht.markers, ?_⟩
  rw [Guard.restore_append hs.markers]
  exact hs.tokens.append ht.tokens

theorem of_no_brace {s : Text} (hs : '{' ∉ s) : Steady s := by
  refine ⟨Guard.sealed_of_no_brace hs, ?_⟩
  rw [Guard.restore_of_no_brace hs]
  exact whole_of_no_brace hs

theorem marker (t : Token) : Steady (Guard.marker t.name) := by
  refine ⟨Guard.sealed_of_end ⟨lit "\x7b~protected:" ++ t.name ++ ['~'], ?_⟩, ?_⟩
  · rw [Guard.marker, List.append_assoc]
    rfl
  · rw [Guard.restore_marker]
    exact whole_spelling t

theorem not_closing_suffix_marker (n : Text) : ¬ Piece.closing <:+ Guard.marker n := by
  rintro ⟨x, hx⟩
  have hlast : (Guard.marker n).reverse = '}' :: '~' :: (lit "\x7b~protected:" ++ n).reverse := by
    rw [Guard.marker, List.reverse_append]
    rfl
  rw [← hx, List.reverse_append] at hlast
  exact absurd (List.cons.inj (List.cons.inj hlast).2).1 (by decide)

/-- Closing braces at the end of a text stay there when markers become tokens. -/
theorem restore_end {s : Text} (hs : Piece.closing <:+ s) :
    Piece.closing <:+ Guard.standard.restore s := by
  have hbrace : Guard.standard.restore ['}'] = ['}'] := Guard.restore_of_no_brace (by decide)
  -- a marker is passed in one step, so the induction is on the length
  induction hn : s.length using Nat.strongRecOn generalizing s with
  | _ n ih =>
    rw [Guard.restore_eq]
    cases s with
    | nil => exact absurd (List.suffix_nil.1 hs) (by decide)
    | cons c s =>
      rw [List.length_cons] at hn
      rcases atoms_cons (fun n _ => Guard.marker_ne_nil n) c s with
        ⟨-, heq⟩ | ⟨name, -, rest, hrest, heq⟩
      · rw [heq, Atom.fill_char, ← Guard.restore_eq]
        rcases List.suffix_cons_iff.1 hs with h | h
        · obtain ⟨rfl, rfl⟩ := List.cons.inj h
          rw [hbrace]
          exact List.suffix_refl _
        · exact (ih s.length (by omega) h rfl).trans (List.suffix_cons c _)
      · have hlen := congrArg List.length hrest
        have := List.length_pos_iff.2 (Guard.marker_ne_nil name)
        rw [List.length_cons, List.length_append] at hlen
        rw [heq, Atom.fill_item, ← Guard.restore_eq]
        rw [hrest] at hs
        rcases List.suffix_or_suffix_of_suffix hs (List.suffix_append _ rest) with h | h
        · exact (ih rest.length (by omega) h rfl).trans (List.suffix_append _ _)
        · -- at most the last brace stands after the marker
          rcases List.suffix_cons_iff.1 h with rfl | h
          · exact (ih 2 (by simp only [List.length_cons, List.length_nil] at hlen; omega)
              (List.suffix_refl _) rfl).trans (List.suffix_append _ _)
          · rcases List.suffix_cons_iff.1 h with rfl | h
            · rw [hbrace]
              exact ⟨'{' :: '{' :: name ++ ['}'], by simp [Guard.token, Piece.closing]⟩
            · rw [List.suffix_nil.1 h, List.append_nil] at hs
              exact absurd hs (not_closing_suffix_marker name)

theorem of_end {s : Text} (hs : Piece.closing <:+ s) : Steady s := by
  refine ⟨Guard.sealed_of_end ?_, whole_of_end (restore_end hs)⟩
  exact (List.suffix_cons '}' ['}']).trans hs

end Steady

/-! ### Data paths -/

/-- No token starts in a mustache that ends at its own braces, if none ends there as well. -/
theorem Slot.isFree_of_tag {body : Text}
    (htag : Piece.readTag? (body ++ Piece.closing) = some (.tag body, []))
    (hends : ∀ t, ¬ spelling t <:+ Slot.mustache body) : Slot.IsFree body := by
  intro n hn v hv hnil rest hpre
  obtain ⟨t, -, rfl⟩ := List.mem_map.1 hn
  have hend : ['}', '}'] <:+ Slot.mustache body := ⟨Piece.opening ++ body, rfl⟩
  obtain ⟨tail, rfl⟩ := Guard.token_prefix_of_append t.isName_name hend hv hnil hpre
  -- the braces of the token would end the tag, so nothing follows them
  obtain ⟨x, hx⟩ := hv
  have hcut := (Piece.cut_of_readTag htag).1
  have hwhole : (x ++ '{' :: '{' :: t.name) ++ (Piece.closing ++ tail) =
      Piece.opening ++ (body ++ Piece.closing) := by
    simpa [Guard.token, Slot.mustache, Piece.opening, Piece.closing] using hx
  have hsplit : body ++ Piece.closing =
      (x ++ '{' :: '{' :: t.name).drop 2 ++ (Piece.closing ++ tail) := by
    have htwo : 2 ≤ (x ++ '{' :: '{' :: t.name).length := by
      simp only [List.length_append, List.length_cons]
      omega
    rw [← List.drop_append_of_le_length htwo, hwhole]
    rfl
  have hle := length_le_of_cut hcut hsplit
  have hlen := congrArg List.length hsplit
  simp only [List.length_append, List.length_drop, List.length_cons] at hle hlen
  have htail : tail = [] := List.length_eq_zero_iff.1 (by omega)
  rw [htail, List.append_nil] at hx
  exact hends t ⟨x, hx⟩

/-- A mustache that shows the data at a path: it ends at its own braces, no token ends there as well,
it has no tildes, and what stands between its braces is neither the tag of a block nor markup but a
path. -/
structure IsPath (isHelper : Text → Bool) (body : Text) : Prop where
  tag : Piece.readTag? (body ++ Piece.closing) = some (.tag body, [])
  unguarded : ∀ t, ¬ spelling t <:+ Slot.mustache body
  untrimmed : Builder.splitTildes body = (false, body, false)
  shown : Demand.tag [] (Text.trim body) = .shown (Text.trim body)
  path : ∃ p, Expr.readShown isHelper (Text.trim body) = .ok (.path p)

namespace IsPath

variable {isHelper : Text → Bool} {body : Text}

/-- The tag is read in the same way whatever follows it. -/
theorem readTag_append (h : IsPath isHelper body) (rest : Text) :
    Piece.readTag? (body ++ (Piece.closing ++ rest)) = some (.tag body, rest) := by
  rw [← List.append_assoc]
  exact Piece.readTag?_append h.tag rest

theorem isFree (h : IsPath isHelper body) : Slot.IsFree body :=
  Slot.isFree_of_tag h.tag h.unguarded

end IsPath

/-- A page of characters that are no braces, tokens and data paths. -/
structure IsPage (isHelper : Text → Bool) (row : List (Atom Slot)) : Prop where
  plain : ∀ c, .char c ∈ row → c ≠ '{' ∧ c ≠ '}'
  paths : ∀ body, .item (.path body) ∈ row → IsPath isHelper body

namespace IsPage

variable {isHelper : Text → Bool} {row rest : List (Atom Slot)}

theorem isRow (h : IsPage isHelper row) : Slot.IsRow row :=
  ⟨h.plain, fun body hbody => (h.paths body hbody).isFree⟩

theorem mono (h : IsPage isHelper row) (hsub : rest ⊆ row) : IsPage isHelper rest :=
  ⟨fun c hc => h.plain c (hsub hc), fun body hbody => h.paths body (hsub hbody)⟩

theorem steady (h : IsPage isHelper row) : Steady (Atom.fill Slot.hidden row) := by
  induction row with
  | nil => exact Steady.of_no_brace (by simp)
  | cons a row ih =>
    have hrow := ih (h.mono (List.subset_cons_self a row))
    cases a with
    | char c =>
      have hc := (h.plain c List.mem_cons_self).1
      exact (Steady.of_no_brace (s := [c]) (by simpa using hc.symm)).append hrow
    | item slot =>
      cases slot with
      | token t => exact (Steady.marker t).append hrow
      | path body => exact (Steady.of_end ⟨Piece.opening ++ body, rfl⟩).append hrow

end IsPage

/-! ### The pieces of a page -/

/-- No tag starts in a row without mustaches. -/
theorem bare_opening {row : List (Atom Slot)} (hplain : ∀ c, .char c ∈ row → c ≠ '{' ∧ c ≠ '}')
    (hnone : ∀ body, .item (.path body) ∉ row) :
    Bare Piece.opening (Atom.fill Slot.hidden row) := by
  induction row with
  | nil => exact Bare.nil
  | cons a row ih =>
    have hrow := ih (fun c hc => hplain c (List.mem_cons_of_mem a hc))
      (fun body hbody => hnone body (List.mem_cons_of_mem a hbody))
    cases a with
    | char c =>
      have hc := (hplain c List.mem_cons_self).1
      exact (Bare.of_not_mem (w := [c]) (by simpa using hc.symm)).append hrow
    | item slot =>
      cases slot with
      | token t => exact (Guard.bare_marker_opening t.isName_name).append hrow
      | path body => exact absurd List.mem_cons_self (hnone body)

/-- A row has no mustache, or a first one. -/
theorem first_path (row : List (Atom Slot)) :
    (∀ body, .item (.path body) ∉ row) ∨
      ∃ before body after, row = before ++ .item (.path body) :: after ∧
        ∀ b, .item (.path b) ∉ before := by
  induction row with
  | nil => exact .inl fun body h => by cases h
  | cons a row ih =>
    have hcons (hfirst : ∀ body, a ≠ .item (.path body)) : (∀ body, .item (.path body) ∉ a :: row) ∨
        ∃ before body after, a :: row = before ++ .item (.path body) :: after ∧
          ∀ b, .item (.path b) ∉ before := by
      rcases ih with hnone | ⟨before, body, after, rfl, hnone⟩
      · refine .inl fun body hmem => ?_
        rcases List.mem_cons.1 hmem with h | h
        · exact hfirst body h.symm
        · exact hnone body h
      · refine .inr ⟨a :: before, body, after, rfl, fun b hmem => ?_⟩
        rcases List.mem_cons.1 hmem with h | h
        · exact hfirst b h.symm
        · exact hnone b h
    cases a with
    | char c => exact hcons fun body h => by cases h
    | item slot =>
      cases slot with
      | token t => exact hcons fun body h => by cases h
      | path body => exact .inr ⟨[], body, row, rfl, fun b h => by cases h⟩

/-- A backslash at the end of a row is a character of the row. -/
theorem steady_dropLast {isHelper : Text → Bool} {row : List (Atom Slot)}
    (h : IsPage isHelper row) (hlast : (Atom.fill Slot.hidden row).getLast? = some '\\') :
    Steady (Atom.fill Slot.hidden row).dropLast := by
  rcases List.eq_nil_or_concat row with rfl | ⟨row, a, rfl⟩
  · cases hlast
  · rw [List.concat_eq_append, Atom.fill_append] at hlast ⊢
    have hrow : Steady (Atom.fill Slot.hidden row) := by
      refine (h.mono fun b hb => ?_).steady
      rw [List.concat_eq_append]
      exact List.mem_append_left _ hb
    cases a with
    | char c =>
      rw [Atom.fill_char, Atom.fill_nil, List.dropLast_concat]
      exact hrow
    | item slot =>
      have hend : ∃ w, slot.hidden = w ++ ['}'] := by
        cases slot with
        | token t => exact ⟨_, List.append_cons _ '~' ['}']⟩
        | path body => exact ⟨_, List.append_cons _ '}' ['}']⟩
      obtain ⟨w, hw⟩ := hend
      rw [Atom.fill_item, Atom.fill_nil, List.append_nil, hw, ← List.append_assoc,
        List.getLast?_concat] at hlast
      cases hlast

/-- What the pieces of a page are. -/
def IsPiece (isHelper : Text → Bool) : Piece → Prop
  | .text s => Steady s
  | .tag body => IsPath isHelper body
  | .overLimit s => Steady s
  | _ => False

theorem piecesFrom_row {isHelper : Text → Bool} {row : List (Atom Slot)} (h : IsPage isHelper row)
    {budget : Nat} {done : List Piece} (hdone : ∀ p ∈ done, IsPiece isHelper p) :
    ∀ p ∈ Piece.piecesFrom budget done (Atom.fill Slot.hidden row), IsPiece isHelper p := by
  -- each step takes the row up to its first mustache, so the induction is on its length
  induction hn : row.length using Nat.strongRecOn generalizing row budget done with
  | _ n ih =>
    rcases first_path row with hnone | ⟨before, body, after, rfl, hnone⟩
    · rw [Piece.piecesFrom_plain (cut_of_bare (by decide) (bare_opening h.plain hnone))]
      intro p hp
      rw [List.mem_reverse] at hp
      split at hp
      · exact hdone p hp
      · rcases List.mem_cons.1 hp with rfl | hp
        · exact h.steady
        · exact hdone p hp
    · have hbefore : IsPage isHelper before := h.mono (List.subset_append_left _ _)
      have hrest : IsPage isHelper (.item (.path body) :: after) :=
        h.mono (List.subset_append_right _ _)
      have hafter : IsPage isHelper after := hrest.mono (List.subset_cons_self _ _)
      have hpath := hrest.paths body List.mem_cons_self
      have hlen : after.length < n := by
        rw [List.length_append, List.length_cons] at hn
        omega
      have hcut : cut Piece.opening (Atom.fill Slot.hidden (before ++ .item (.path body) :: after)) =
          some (Atom.fill Slot.hidden before,
            body ++ (Piece.closing ++ Atom.fill Slot.hidden after)) := by
        rw [Atom.fill_append, Atom.fill_item, Slot.hidden, Slot.mustache, List.append_assoc,
          List.append_assoc]
        exact cut_append_of_bare (by decide) (bare_opening hbefore.plain hnone) _
      -- a backslash before a mustache makes it plain text
      by_cases hescaped : (Atom.fill Slot.hidden before).getLast? = some '\\'
      · have hclose := (Piece.cut_of_readTag (hpath.readTag_append (Atom.fill Slot.hidden after))).1
        rw [Piece.piecesFrom_escaped hcut hescaped hclose]
        refine ih after.length hlen hafter (fun p hp => ?_) rfl
        rcases List.mem_cons.1 hp with rfl | hp
        · exact Steady.of_end ⟨Piece.opening ++ body, rfl⟩
        · rcases List.mem_cons.1 hp with rfl | hp
          · exact steady_dropLast hbefore hescaped
          · exact hdone p hp
      · cases budget with
        -- past the limit of tags the rest of the page is one piece
        | zero =>
          rw [Piece.piecesFrom_limit hcut hescaped]
          intro p hp
          rcases List.mem_cons.1 (List.mem_reverse.1 hp) with rfl | hp
          · have hsteady := hrest.steady
            rw [Atom.fill_item, Slot.hidden, Slot.mustache, List.append_assoc,
              List.append_assoc] at hsteady
            exact hsteady
          · rcases List.mem_cons.1 hp with rfl | hp
            · exact hbefore.steady
            · exact hdone p hp
        | succ budget =>
          rw [Piece.piecesFrom_tag hcut hescaped (hpath.readTag_append _)]
          refine ih after.length hlen hafter (fun p hp => ?_) rfl
          rcases List.mem_cons.1 hp with rfl | hp
          · exact hpath
          · rcases List.mem_cons.1 hp with rfl | hp
            · exact hbefore.steady
            · exact hdone p hp

theorem pieces_row {isHelper : Text → Bool} {row : List (Atom Slot)} (h : IsPage isHelper row)
    (limit : Nat) : ∀ p ∈ Piece.ofPage limit (Atom.fill Slot.hidden row), IsPiece isHelper p :=
  piecesFrom_row h fun p hp => by cases hp

/-! ### The nodes of a page -/

/-- What the nodes of a page are. -/
def IsNode : Node → Prop
  | .text s => Steady s
  | .problem _ => True
  | .shown e raw => raw = false ∧ ∃ p, e = .path p
  | .block .. => False

namespace Builder

variable {isHelper : Text → Bool}

theorem addTag_shown {b : Builder} {maxDepth : Nat} {token body : Text}
    (h : Demand.tag b.stack body = .shown body) :
    b.addTag isHelper maxDepth token body = b.addShown isHelper token body false := by
  have hbranch (chain : Text) : Demand.branch b.stack chain ≠ .shown body := by
    unfold Demand.branch Demand.block
    repeat' split
    all_goals exact fun heq => by cases heq
  unfold Demand.tag at h
  split at h
  · exact absurd h (hbranch _)
  · rename_i helse
    split at h
    · exact absurd h (hbranch _)
    · rename_i hchain
      split at h
      · unfold Demand.block at h
        split at h
        · cases h
        · split at h <;> cases h
      · unfold Demand.closing at h
        split at h
        · cases h
        · split at h <;> cases h
      · cases h
      · cases h
      · cases h
      · rename_i hopen hclose hpartial hinverse hplain
        rw [addTag, if_neg helse, hchain]
        · exact hopen
        · exact hclose
        · exact hpartial
        · exact hinverse
        · exact hplain

/-- What has been read of a page so far: no block is open. -/
structure OnPage (b : Builder) : Prop where
  stack : b.stack = []
  strip : b.strip = false
  nodes : ∀ n ∈ b.nodes, IsNode n

theorem OnPage.addText {b : Builder} (h : b.OnPage) {s : Text} (hs : Steady s) :
    (b.addText s).OnPage := by
  refine ⟨h.stack, rfl, fun n hn => ?_⟩
  rw [Builder.addText, h.strip] at hn
  simp only [Bool.false_eq_true, if_false] at hn
  split at hn
  · exact h.nodes n hn
  · rcases List.mem_cons.1 hn with rfl | hn
    · exact hs
    · exact h.nodes n hn

theorem OnPage.addProblem {b : Builder} (h : b.OnPage) (p : Problem) : (b.addProblem p).OnPage := by
  refine ⟨h.stack, h.strip, fun n hn => ?_⟩
  rcases List.mem_cons.1 hn with rfl | hn
  · exact True.intro
  · exact h.nodes n hn

theorem OnPage.add {b : Builder} (h : b.OnPage) (maxTags maxDepth : Nat) {p : Piece}
    (hp : IsPiece isHelper p) :
    ∃ b', b.add isHelper maxTags maxDepth p = .ok b' ∧ b'.OnPage := by
  cases p with
  | text s => exact ⟨_, rfl, h.addText hp⟩
  | overLimit s => exact ⟨_, rfl, (h.addProblem ⟨.tooManyTags maxTags, none⟩).addText hp⟩
  | tag body =>
    obtain ⟨path, hpath⟩ := hp.path
    have hshown : Demand.tag ({ b with strip := false } : Builder).stack (Text.trim body) =
        .shown (Text.trim body) := by
      rw [show ({ b with strip := false } : Builder).stack = [] from h.stack]
      exact hp.shown
    refine ⟨{ b with strip := false, nodes := .shown (.path path) false :: b.nodes }, ?_, h.stack,
      rfl, fun n hn => ?_⟩
    · rw [Builder.add, hp.untrimmed]
      show Builder.addTag isHelper maxDepth { b with strip := false } _ (Text.trim body) = _
      rw [addTag_shown hshown, addShown, hpath]
      rfl
    · rcases List.mem_cons.1 hn with rfl | hn
      · exact ⟨rfl, path, rfl⟩
      · exact h.nodes n hn
  | _ => exact absurd hp not_false

theorem OnPage.addAll {b : Builder} (h : b.OnPage) (maxTags maxDepth : Nat) {ps : List Piece}
    (hps : ∀ p ∈ ps, IsPiece isHelper p) :
    ∃ b', ps.foldlM (Builder.add isHelper maxTags maxDepth) b = .ok b' ∧ b'.OnPage := by
  induction ps generalizing b with
  | nil => exact ⟨b, rfl, h⟩
  | cons p ps ih =>
    obtain ⟨c, hadd, hc⟩ := h.add maxTags maxDepth (hps p List.mem_cons_self)
    obtain ⟨b', hrest, hb'⟩ := ih hc fun q hq => hps q (List.mem_cons_of_mem p hq)
    refine ⟨b', ?_, hb'⟩
    rw [List.foldlM_cons, hadd]
    exact hrest

end Builder

theorem nodes_row {isHelper : Text → Bool} {row : List (Atom Slot)} (h : IsPage isHelper row)
    (maxTags maxDepth : Nat) :
    ∃ page, Page.read isHelper maxTags maxDepth (Atom.fill Slot.hidden row) = .ok page ∧
      ∀ n ∈ page.nodes, IsNode n := by
  have hstart : Builder.start.OnPage := ⟨rfl, rfl, fun n hn => by cases hn⟩
  obtain ⟨b, hread, hb⟩ := hstart.addAll maxTags maxDepth (pieces_row h maxTags)
  refine ⟨⟨b.nodes.reverse, b.problems.reverse ++ Node.depthProblemsOf maxDepth b.nodes.reverse⟩,
    ?_, fun n hn => hb.nodes n (List.mem_reverse.1 hn)⟩
  rw [Page.read, hread]
  show Except.ok (Page.mk _ _) = _
  rw [hb.stack]
  rfl

end Tender
