/-
Settings: what can be configured, with the values that hold unless others are set.
-/
import Tender.Helper.DateText

namespace Tender

/-- The settings of the engine. -/
structure Settings where
  currencySymbol : Text := ['$']
  /-- The pattern that dates are written by. -/
  dateFormat : Text := DateText.standardPattern
  /-- Stands in for the name of a customer without one. -/
  defaultCustomerName : Text := lit "Valued Customer"
  /-- Stands between the pages of a document. -/
  pageBreakMarker : Text := lit "___PAGE_BREAK___"
  /-- The longest page that is compiled. -/
  maxPageChars : Nat := 500000
  /-- How many tags of a page are interpreted. -/
  maxTemplateTokens : Nat := 5000
  /-- How deep blocks may be nested. -/
  maxBlockDepth : Nat := 16
  /-- How many pages of a document are rendered. -/
  maxPages : Nat := 200
  logLevel : Text := lit "INFO"
  logDir : Option Text := none
  deriving DecidableEq

end Tender
