/-
The context of an estimate: what the paths of a template lead to.

It holds the record's own fields, the cost lines by category, the totals as amounts of money, and names
for the fields that templates use, each with the fields that stand in for it.

Main statement: `keys_lineItems`, the cost lines stand under their categories in order.
-/
import Tender.Record.Estimate
import Tender.Settings.Basic

namespace Tender.Context

/-- The sum of the totals of cost lines. -/
def categoryTotal (items : List LineItem) : Binary64 :=
  items.foldl (fun sum item => match item.total with
    | some x => if x.isZero then sum else sum.add x
    | none => sum) Binary64.zero

/-- A number as an amount of money, nothing counting as zero. -/
def money (symbol : Text) (x : Option Binary64) : Except Fault Value :=
  (Amount.format (.value (.float (x.getD Binary64.zero))) symbol).map Outcome.toValue

/-- The key of a category's total. -/
def totalKey (c : Category) : Text :=
  c.key ++ lit "Total"

/-- The totals of the categories in order. -/
def categoryTotals (symbol : Text) (e : Estimate) : List Category → Except Fault (Entries Value)
  | [] => .ok []
  | c :: cs => do
    let total ← money symbol (some (categoryTotal (e.items c)))
    let rest ← categoryTotals symbol e cs
    return (totalKey c, total) :: rest

/-- The totals of an estimate as amounts of money. -/
def aggregations (symbol : Text) (e : Estimate) : Except Fault (Entries Value) := do
  let totals ← categoryTotals symbol e Category.all
  let subTotal ← money symbol e.subTotal
  let grandTotal ← money symbol e.grandTotal
  return totals ++ [(lit "subTotal", subTotal), (lit "grandTotal", grandTotal)]

/-- The cost lines by category. -/
def lineItems (e : Estimate) : Entries Value :=
  Category.all.map fun c => (c.key, .list ((e.items c).map fun item => .map (item.toEntries true)))

theorem keys_lineItems (e : Estimate) :
    Entries.keys (lineItems e) = Category.all.map Category.key := by
  simp [lineItems, Entries.keys]

/-- The first text that is there and not empty, or else the last one. -/
def firstOf (candidates : List (Option Text)) (fallback : Text) : Value :=
  .text ((candidates.findSome? fun s => s.filter (· ≠ [])).getD fallback)

/-- The number of the proposal: the estimate's number and version. -/
def proposalNumber (e : Estimate) : Text :=
  let number := (e.number.filter (· ≠ [])).getD (lit "DRAFT")
  let version := if e.version.isPresent then e.version.toText else ['1']
  number ++ lit "-V" ++ version

/-- The names that templates use beside the record's own. -/
def names (e : Estimate) (today : Date) (s : Settings) : Entries Value :=
  let number := Value.text (proposalNumber e)
  let customer := firstOf [e.customerName, e.customer] s.defaultCustomerName
  let contact := firstOf [e.contactName] []
  [(lit "proposalNo", number), (lit "fullProposalId", number),
   (lit "jobAddress", firstOf [e.jobAddress] []),
   (lit "customerName", customer), (lit "clientName", customer),
   (lit "projectName", firstOf [e.projectName, e.projectTitle] []),
   (lit "projectTitle", firstOf [e.projectTitle, e.projectName] []),
   (lit "contactName", contact), (lit "contactPerson", contact),
   (lit "contactPhone", firstOf [e.contactPhone] []),
   (lit "contactEmail", firstOf [e.contactEmail] []),
   (lit "today", .date today)]

/-- The context of an estimate on a day.  The version has to be written into the proposal's number. -/
def build (e : Estimate) (today : Date) (s : Settings) : Except Fault (Entries Value) := do
  let totals ← aggregations s.currencySymbol e
  if !e.version.isWritable then throw .tooLongToWrite
  return Entries.putAll
    ([(lit "lineItems", .map (lineItems e)), (lit "aggregations", .map totals)] ++ names e today s)
    (e.toEntries true)

end Tender.Context
