/-
Documents of plain text and tokens.

* `compile_of_no_tag` — a page without tags is written as it stands;
* `render_rows` — if the pages are rows of plain characters and tokens, then the document is these
  rows with the page-break marker between them and every token filled in.
-/
import Tender.Proofs.Document
import Tender.Proofs.Renderer
import Tender.Proofs.Template.Page

namespace Tender

open Text Binding

/-! ### Compiling -/

/-- A page without tags is written as it stands. -/
theorem Compiler.compile_of_no_tag (c : Compiler) {s : Text} (h : cut Piece.opening s = none)
    (context : Value) : c.compile s context = .ok s := by
  have hpieces : Piece.ofPage c.settings.maxTemplateTokens s =
      if s = [] then [] else [.text s] := by
    rw [Piece.ofPage, Piece.piecesFrom_plain h]
    split <;> rfl
  -- one piece of text, or none if the page is empty
  have hread : c.read s = .ok ⟨if s = [] then [] else [.text s], []⟩ := by
    rw [Compiler.read, Page.read, hpieces]
    by_cases hs : s = []
    · rw [if_pos hs, if_pos hs]
      rfl
    · rw [if_neg hs, if_neg hs]
      show Except.ok (Page.mk (Builder.addText Builder.start s).nodes.reverse
        ([] ++ Node.depthProblemsOf _ (Builder.addText Builder.start s).nodes.reverse)) = _
      rw [Builder.addText_plain rfl hs]
      rfl
  rw [Compiler.compile, hread]
  show Node.renderAll _ _ (if s = [] then [] else [.text s]) = _
  by_cases hs : s = []
  · rw [if_pos hs, hs]
    rfl
  · rw [if_neg hs]
    show Except.ok (s ++ []) = _
    rw [List.append_nil]

/-- A row of tokens and characters that are no braces. -/
def IsTokenRow (row : List (Atom Token)) : Prop :=
  ∀ c, .char c ∈ row → c ≠ '{' ∧ c ≠ '}'

/-- An atom of a page without data paths. -/
def slot : Atom Token → Atom Slot
  | .char c => .char c
  | .item t => .item (.token t)

theorem fill_slots (f : Slot → Text) (row : List (Atom Token)) :
    Atom.fill f (row.map slot) = Atom.fill (fun t => f (.token t)) row := by
  induction row with
  | nil => rfl
  | cons a row ih =>
    cases a with
    | char c => rw [List.map_cons, slot, Atom.fill_char, Atom.fill_char, ih]
    | item t => rw [List.map_cons, slot, Atom.fill_item, Atom.fill_item, ih]

namespace IsTokenRow

variable {row : List (Atom Token)}

theorem tail {a : Atom Token} (h : IsTokenRow (a :: row)) : IsTokenRow row :=
  fun c hc => h c (List.mem_cons_of_mem a hc)

theorem no_path (row : List (Atom Token)) (body : Text) : .item (.path body) ∉ row.map slot := by
  intro h
  obtain ⟨a, -, heq⟩ := List.mem_map.1 h
  cases a <;> cases heq

theorem slots_plain (h : IsTokenRow row) : ∀ c, .char c ∈ row.map slot → c ≠ '{' ∧ c ≠ '}' := by
  intro c hc
  obtain ⟨a, ha, heq⟩ := List.mem_map.1 hc
  cases a with
  | char d =>
    cases heq
    exact h c ha
  | item t => cases heq

theorem isRow (h : IsTokenRow row) : Slot.IsRow (row.map slot) :=
  ⟨h.slots_plain, fun body hbody => absurd hbody (no_path row body)⟩

/-- Hiding the tokens of a row and bringing them back leaves the row as it was. -/
theorem restore_hidden (h : IsTokenRow row) :
    Guard.standard.restore (Atom.fill (fun t => Guard.marker t.name) row) =
      Atom.fill spelling row := by
  induction row with
  | nil => rfl
  | cons a row ih =>
    cases a with
    | char c =>
      have hc : '{' ∉ [c] := by simpa using (h c List.mem_cons_self).1.symm
      have hsplit := Guard.restore_append (Guard.sealed_of_no_brace hc)
        (Atom.fill (fun t : Token => Guard.marker t.name) row)
      rw [Guard.restore_of_no_brace hc, ih h.tail] at hsplit
      exact hsplit
    | item t =>
      rw [Atom.fill_item, Atom.fill_item, Guard.restore_append (Steady.marker t).markers,
        Guard.restore_marker, ih h.tail]

theorem atoms_fill (h : IsTokenRow row) : atoms Token.all (Atom.fill spelling row) = row := by
  induction row with
  | nil => rfl
  | cons a row ih =>
    cases a with
    | char c =>
      rw [Atom.fill_char, atoms_cons_of_ne_brace (h c List.mem_cons_self).1, ih h.tail]
    | item t => rw [Atom.fill_item, atoms_spelling_append t.mem_all, ih h.tail]

end IsTokenRow

/-- A page of plain characters and tokens is compiled to itself. -/
theorem Renderer.compilePage_row {r : Renderer} (hguard : r.guard = Guard.standard)
    {row : List (Atom Token)} (hrow : IsTokenRow row)
    (hlength : (Atom.fill spelling row).length ≤ r.settings.maxPageChars) (context : Value) :
    r.compilePage (Atom.fill spelling row) context = .ok (Atom.fill spelling row) := by
  have hsource : Atom.fill spelling row = Atom.fill Slot.source (row.map slot) :=
    (fill_slots Slot.source row).symm
  have hhidden : Atom.fill Slot.hidden (row.map slot) =
      Atom.fill (fun t => Guard.marker t.name) row := fill_slots Slot.hidden row
  have hcut : cut Piece.opening (Atom.fill Slot.hidden (row.map slot)) = none :=
    cut_of_bare (by decide) (bare_opening hrow.slots_plain (IsTokenRow.no_path row))
  rw [compilePage, if_neg (Nat.not_lt.2 hlength), hguard]
  conv => lhs; rw [hsource]
  rw [Guard.escape_row hrow.isRow, Compiler.compile_of_no_tag _ hcut]
  show Except.ok (Guard.standard.restore (Atom.fill Slot.hidden (row.map slot))) = _
  rw [hhidden, hrow.restore_hidden]

/-! ### Rendering -/

namespace Document

/-- The pages of rows whose tokens are numbered from `c` on. -/
def rowPages (w : Token × Nat → Text) : Counters → List (List (Atom Token)) → List Text
  | _, [] => []
  | c, row :: rest => Atom.fill w (numberFrom [] c row) :: rowPages w (c.after (tokens row)) rest

/-- Rows of plain characters and tokens are rendered one after the other. -/
theorem renderPages_rows {d : Document} (hready : d.stage.Ready)
    (hguard : d.renderer.guard = Guard.standard) {rows : List (List (Atom Token))}
    (hrows : ∀ row ∈ rows, IsTokenRow row) {i : Nat}
    (hlimit : i + rows.length ≤ d.renderer.settings.maxPages)
    (hlength : ∀ row ∈ rows,
      (Atom.fill spelling row).length ≤ d.renderer.settings.maxPageChars) :
    ∃ d', d.renderPages i (rows.map (Atom.fill spelling)) = (d', none) ∧ d'.stage.Ready ∧
      d'.renderer = d.renderer ∧ d'.pages = d.pages ++ rowPages d.replacement d.counters rows := by
  induction rows generalizing d i with
  | nil => exact ⟨d, rfl, hready, rfl, (List.append_nil _).symm⟩
  | cons row rest ih =>
    have hrow := hrows row List.mem_cons_self
    have hpage := Renderer.compilePage_row hguard hrow (hlength row List.mem_cons_self)
      (.map d.context)
    rw [List.length_cons] at hlimit
    obtain ⟨d', hrest, hready', hrenderer, hpages⟩ :=
      ih (d := d.addPage (Atom.fill spelling row)) (i := i + 1) (.inr rfl) hguard
        (fun r hr => hrows r (List.mem_cons_of_mem row hr))
        (by show i + 1 + rest.length ≤ d.renderer.settings.maxPages; omega)
        (fun r hr => hlength r (List.mem_cons_of_mem row hr))
    -- the counters of the page are those of its row, since its tokens are the tokens of the row
    refine ⟨d', ?_, hready', hrenderer, ?_⟩
    · rw [List.map_cons, renderPages_cons, if_neg (by omega), renderPage_ok hready hpage]
      exact hrest
    · rw [hpages]
      show d.pages ++ [Atom.fill d.replacement (d.row (Atom.fill spelling row))] ++
        rowPages d.replacement
          (d.counters.after (tokens (atoms Token.all (Atom.fill spelling row)))) rest = _
      rw [Document.row, hrow.atoms_fill, List.append_assoc]
      rfl

/-- Pages before their tokens are bound, the first being number `index`. -/
def compilePages (d : Document) : (index : Nat) → List Text → Except Fault (List Text)
  | _, [] => .ok []
  | index, source :: rest =>
    if d.renderer.settings.maxPages ≤ index then .ok [d.notice]
    else do
      let html ← d.renderer.compilePage source (.map d.context)
      return html :: (← compilePages d (index + 1) rest)

/-- The pages of a document before their tokens are bound. -/
def compiled (d : Document) : Except Fault (List Text) :=
  d.compilePages 0 d.sources

theorem compilePages_congr {d d' : Document} (h : d.SameInputs d') (i : Nat) (sources : List Text) :
    d'.compilePages i sources = d.compilePages i sources := by
  obtain ⟨hrenderer, hsources, -, -, -, hcontext⟩ := h
  have hnotice : d'.notice = d.notice := by rw [notice, notice, hsources, hrenderer]
  induction sources generalizing i with
  | nil => rfl
  | cons source rest ih =>
    rw [compilePages, compilePages, hnotice, hrenderer, hcontext, ih]

theorem compiled_congr {d d' : Document} (h : d.SameInputs d') : d'.compiled = d.compiled := by
  rw [compiled, compiled, compilePages_congr h, h.2.1]

/-- A rendering that ends well fills in the tokens of its compiled pages. -/
theorem renderPages_compilePages {d d' : Document} (hready : d.stage.Ready) {i : Nat}
    {sources : List Text} (h : d.renderPages i sources = (d', none)) :
    ∃ pages, d.compilePages i sources = .ok pages ∧
      d'.pages = d.pages ++
        rowPages d.replacement d.counters (pages.map (Binding.atoms Token.all)) := by
  induction sources generalizing d i with
  | nil =>
    cases h
    exact ⟨[], rfl, (List.append_nil _).symm⟩
  | cons source rest ih =>
    rw [renderPages_cons] at h
    rw [compilePages]
    split at h
    · rename_i hpast
      cases h
      have hnotice : Binding.atoms Token.all d.notice = d.notice.map .char :=
        atoms_of_no_brace fun h => (Problem.no_brace_diagnostic h).1 rfl
      refine ⟨[d.notice], if_pos hpast, ?_⟩
      rw [List.map_singleton, hnotice, rowPages, fill_numberFrom_plain]
      rfl
    · rename_i hwithin
      rw [if_neg hwithin]
      cases hcompile : d.renderer.compilePage source (.map d.context) with
      | error f =>
        rw [renderPage_error hready hcompile] at h
        cases h
      | ok html =>
        rw [renderPage_ok hready hcompile] at h
        obtain ⟨pages, hpages, hd'⟩ := ih (d := d.addPage html) (.inr rfl) h
        have hsame : d.SameInputs (d.addPage html) := ⟨rfl, rfl, rfl, rfl, rfl, rfl⟩
        rw [compilePages_congr hsame] at hpages
        refine ⟨html :: pages, ?_, ?_⟩
        · show (do return html :: (← d.compilePages (i + 1) rest)) = _
          rw [hpages]
          rfl
        · rw [hd', List.map_cons, rowPages]
          exact List.append_assoc _ _ _

/-- A rendering whose pages are rendered ends well. -/
theorem run_of_pages {d d' : Document} (hstart : d.stage = .notStarted)
    (hpages : d.renderPages 0 d.sources = (d', none)) (hready : d'.stage.Ready) :
    d.run = ({ d' with stage := .joined }, none) := by
  have hjoined : d'.advance .joined = .ok { d' with stage := .joined } := by
    rcases hready with h | h
    · exact if_pos (by rw [h]; decide)
    · exact if_pos (by rw [h]; decide)
  rw [run, if_neg (by rw [hstart]; simp), hpages]
  dsimp only
  rw [hjoined]

end Document

/-- The rows of the pages of a document with the page-break marker between them. -/
def joinRows (marker : Text) (rows : List (List (Atom Token))) : List (Atom Token) :=
  List.intercalate (marker.map .char) rows

theorem joinRows_cons_cons (marker : Text) (row next : List (Atom Token))
    (rest : List (List (Atom Token))) :
    joinRows marker (row :: next :: rest) =
      row ++ (marker.map .char ++ joinRows marker (next :: rest)) := by
  simp [joinRows, List.intercalate]

theorem joinWith_rowPages (w : Token × Nat → Text) (marker : Text) (c : Counters)
    (rows : List (List (Atom Token))) :
    joinWith marker (Document.rowPages w c rows) =
      Atom.fill w (numberFrom [] c (joinRows marker rows)) := by
  induction rows generalizing c with
  | nil => rfl
  | cons row rest ih =>
    cases rest with
    | nil => simp [joinWith, joinRows, Document.rowPages, List.intercalate]
    | cons next rest =>
      have hrest := ih (c.after (tokens row))
      rw [joinRows_cons_cons, numberFrom_append, numberFrom_chars, Atom.fill_append,
        Atom.fill_append, Atom.fill_chars, ← hrest]
      simp [joinWith, Document.rowPages, List.intercalate]

/-- Pages of plain characters and tokens are rendered to the pages of their rows. -/
theorem Renderer.render_rowPages {settings : Settings} {r : Renderer}
    (hr : Renderer.new settings = .ok r) {template : Proposal} {rows : List (List (Atom Token))}
    (hsources : template.sources = rows.map (Atom.fill spelling))
    (hrows : ∀ row ∈ rows, IsTokenRow row) (hlimit : rows.length ≤ settings.maxPages)
    (hlength : ∀ row ∈ rows, (Atom.fill spelling row).length ≤ settings.maxPageChars)
    {e : Estimate} {today : Date} {context : Entries Value}
    (hcontext : Context.build e today settings = .ok context) (mode : Mode)
    (values : Option (Entries Text)) :
    ∃ d, r.render template e mode values today = .ok d ∧
      d.pages = Document.rowPages (r.replacement e mode (values.getD e.values)) Counters.start rows ∧
      d.html = .ok (joinWith settings.pageBreakMarker d.pages) := by
  rw [Renderer.new_eq] at hr
  cases hr
  let d : Document := ⟨Renderer.standard settings, template.sources, e, mode,
    values.getD e.values, context, Counters.start, .notStarted, []⟩
  have hstart : Document.start (Renderer.standard settings) template e mode values today = .ok d :=
    Document.start_ok.2 ⟨context, hcontext, rfl⟩
  obtain ⟨d', hpages, hready, hrenderer, hd'⟩ := Document.renderPages_rows (d := d) (i := 0)
    (.inl rfl) rfl hrows (by rw [Nat.zero_add]; exact hlimit) hlength
  rw [← hsources] at hpages
  refine ⟨_, Renderer.render_ok.2 ⟨d, hstart, Document.run_of_pages rfl hpages hready⟩, hd', ?_⟩
  rw [Document.html, if_pos rfl]
  show Except.ok (joinWith d'.renderer.settings.pageBreakMarker d'.pages) = _
  rw [hrenderer]
  rfl

theorem Renderer.render_rows {settings : Settings} {r : Renderer}
    (hr : Renderer.new settings = .ok r) {template : Proposal} {rows : List (List (Atom Token))}
    (hsources : template.sources = rows.map (Atom.fill spelling))
    (hrows : ∀ row ∈ rows, IsTokenRow row) (hlimit : rows.length ≤ settings.maxPages)
    (hlength : ∀ row ∈ rows, (Atom.fill spelling row).length ≤ settings.maxPageChars)
    {e : Estimate} {today : Date} {context : Entries Value}
    (hcontext : Context.build e today settings = .ok context) (mode : Mode)
    (values : Option (Entries Text)) :
    ∃ d, r.render template e mode values today = .ok d ∧
      d.html = .ok (Atom.fill (r.replacement e mode (values.getD e.values))
        (numberFrom [] Counters.start (joinRows settings.pageBreakMarker rows))) := by
  obtain ⟨d, hd, hpages, hhtml⟩ :=
    render_rowPages hr hsources hrows hlimit hlength hcontext mode values
  rw [hpages, joinWith_rowPages] at hhtml
  exact ⟨d, hd, hhtml⟩

end Tender
