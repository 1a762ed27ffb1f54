/-
The helpers that every template can call, by name.
-/
import Tender.Helper.Amount
import Tender.Helper.DateText
import Tender.Helper.Group
import Tender.Helper.Logic

namespace Tender

/-- Helpers by name, in the order in which the names were first registered. -/
abbrev Helpers := Entries Helper

/-- The built-in helpers. -/
def Helpers.standard : Helpers :=
  [(lit "formatCurrency", Amount.helper),
   (lit "formatDate", DateText.helper),
   (lit "groupBy", Group.helper),
   (lit "eq", Logic.binary "eq" Logic.equal),
   (lit "ne", Logic.binary "ne" Logic.notEqual),
   (lit "gt", Logic.binary "gt" Logic.greater),
   (lit "gte", Logic.binary "gte" Logic.greaterEq),
   (lit "lt", Logic.binary "lt" Logic.less),
   (lit "lte", Logic.binary "lte" Logic.lessEq),
   (lit "and", Logic.joining "and_" Logic.allOf),
   (lit "or", Logic.joining "or_" Logic.anyOf),
   (lit "not", Logic.negation)]

end Tender
