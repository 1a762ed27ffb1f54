/-
Reading settings from what is given, the environment and a settings file, the first of these that
has a setting going before the others.  The case of names does not matter.

Main statement: `positive_pos`, a limit that is read without complaint is positive.
-/
import Tender.Record.Survey
import Tender.Settings.Basic
import Tender.Settings.Dotenv
import Tender.Text.Case
import Tender.Text.Path

namespace Tender.Settings

/-- Values by their names in lower case; a later one replaces an earlier one. -/
def normalise {α : Type} (es : Entries α) : Entries α :=
  Entries.ofPairs (es.map fun (k, v) => (Text.toLower k, v))

/-- Texts as values. -/
def ofTexts (es : Entries Text) : Entries Value :=
  es.map fun (k, s) => (k, .text s)

/-- A limit that may not be zero or less. -/
def positive (v : Value) : Survey Nat := do
  match Survey.integerOf v with
  | .error kind => do Survey.complain kind v; return 0
  | .ok n => if 0 < n then return n.toNat else do Survey.complain .badValue v; return 0

theorem positive_pos {v : Value} {cs : List Complaint} {n : Nat}
    (h : positive v cs = .ok (n, cs)) : 0 < n := by
  have refused (kind : Complaint.Kind) : cs ++ [⟨[], kind, v⟩] ≠ cs := by simp
  unfold positive at h
  cases hi : Survey.integerOf v with
  | error kind =>
    rw [hi] at h
    exact absurd (Prod.mk.inj (Except.ok.inj h)).2 (refused kind)
  | ok k =>
    rw [hi] at h
    by_cases hk : 0 < k
    · simp only [hk, if_true] at h
      have := (Prod.mk.inj (Except.ok.inj h)).1
      omega
    · simp only [hk, if_false] at h
      exact absurd (Prod.mk.inj (Except.ok.inj h)).2 (refused .badValue)

/-- Reads a directory that may be absent. -/
def directory (v : Value) : Survey (Option Text) :=
  match v with
  | .null => pure none
  | .text s => pure (some (Text.normalPath s))
  | v => do Survey.complain .pathType v; return none

/-- Reads the settings out of their values. -/
def ofEntries (es : Entries Value) : Survey Settings := do
  let base : Settings := {}
  let currencySymbol ← (Field.plain "currency_symbol").read es base.currencySymbol Survey.text
  let dateFormat ← (Field.plain "date_format").read es base.dateFormat Survey.text
  let defaultCustomerName ←
    (Field.plain "default_customer_name").read es base.defaultCustomerName Survey.text
  let pageBreakMarker ← (Field.plain "page_break_marker").read es base.pageBreakMarker Survey.text
  let maxPageChars ← (Field.plain "max_page_chars").read es base.maxPageChars positive
  let maxTemplateTokens ←
    (Field.plain "max_template_tokens").read es base.maxTemplateTokens positive
  let maxBlockDepth ← (Field.plain "max_block_depth").read es base.maxBlockDepth positive
  let maxPages ← (Field.plain "max_pages").read es base.maxPages positive
  let logLevel ← (Field.plain "log_level").read es base.logLevel Survey.text
  let logDir ← (Field.plain "log_dir").read es base.logDir directory
  return { currencySymbol, dateFormat, defaultCustomerName, pageBreakMarker, maxPageChars,
           maxTemplateTokens, maxBlockDepth, maxPages, logLevel := Text.toUpper logLevel, logDir }

/-- Reads settings from what is given, the environment and the text of a settings file. -/
def read (given : Entries Value) (environment : Entries Text) (file : Text) :
    Except Fault Settings :=
  let layers := [normalise (ofTexts (Dotenv.read file)), normalise (ofTexts environment),
    normalise given]
  (ofEntries (layers.foldl (fun acc layer => Entries.putAll layer acc) [])).finish

/-- The settings as a map. -/
def toEntries (s : Settings) : Entries Value :=
  [(lit "currency_symbol", .text s.currencySymbol), (lit "date_format", .text s.dateFormat),
   (lit "default_customer_name", .text s.defaultCustomerName),
   (lit "page_break_marker", .text s.pageBreakMarker),
   (lit "max_page_chars", .int s.maxPageChars),
   (lit "max_template_tokens", .int s.maxTemplateTokens),
   (lit "max_block_depth", .int s.maxBlockDepth), (lit "max_pages", .int s.maxPages),
   (lit "log_level", .text s.logLevel),
   (lit "log_dir", match s.logDir with
     | some p => .text p
     | none => .null)]

end Tender.Settings
