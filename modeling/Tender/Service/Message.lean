/-
Requests to the service and its responses.

A body is a value that is sent as JSON or a text that has yet to be read; null counts as no body.

Main statements: `read_value_null`, null is no body, and `sent_status`, a response that cannot be
sent is replaced by a failure.
-/
import Tender.Json.Read
import Tender.Json.Sendable

namespace Tender.Service

/-- The body of a request. -/
inductive Body where
  | absent
  | value (v : Value)
  | text (s : Text)

/-- A request. -/
structure Request where
  method : Text
  /-- The path, with or without a query after it. -/
  path : Text
  body : Body

/-- A response: its status and what its body holds. -/
structure Response where
  status : Nat
  body : Value

namespace Response

/-- A response whose body holds no more than a remark. -/
def remark (status : Nat) (detail : Text) : Response :=
  ⟨status, .map [(lit "detail", .text detail)]⟩

/-- There is nothing under the path. -/
def notFound : Response := remark 404 (lit "Not Found")

/-- The path takes other methods. -/
def methodNotAllowed : Response := remark 405 (lit "Method Not Allowed")

/-- The body cannot be read at all. -/
def unreadable : Response := remark 400 (lit "There was an error parsing the body")

/-- The request failed inside the service. -/
def failure : Response :=
  ⟨500, .map [(lit "detail", .text (lit "Internal server error")),
    (lit "error_code", .text (lit "INTERNAL_ERROR")), (lit "extra", .null)]⟩

/-- A complaint about a body as its place and its kind. -/
def complaintEntry (c : Complaint) : Value :=
  .list [.text (c.under (lit "body")).where_, .text c.kind.name]

/-- Whether a complaint can be sent together with the value that it is about. -/
def canSend (c : Complaint) : Bool :=
  c.place.all Json.isSpelled && Json.isSendable c.found

/-- What a response becomes on its way: a failure if it cannot be sent. -/
def sent (r : Response) : Response :=
  if Json.isSendable r.body then r else failure

/-- The body is refused for complaints. -/
def refused (complaints : List Complaint) : Response :=
  if complaints.all canSend then
    ⟨422, .map [(lit "detail", .text (lit "Validation error")),
      (lit "errors", .list (complaints.map complaintEntry))]⟩
  else failure

/-- A body that could not be made a form: complaints refuse it, and any other fault is a failure. -/
def ofFault : Fault → Response
  | .invalid complaints => refused complaints
  | _ => failure

/-- The result of a request, or a failure. -/
def ofResult : Except Fault Value → Response
  | .ok v => sent ⟨200, v⟩
  | .error _ => failure

theorem sent_status (r : Response) : r.sent = r ∨ r.sent = failure := by
  unfold sent
  split
  · exact .inl rfl
  · exact .inr rfl

end Response

namespace Body

/-- The text of a body without a byte order mark. -/
def withoutMark (s : Text) : Text :=
  match s with
  | c :: rest => if c.toNat = 0xFEFF then rest else s
  | [] => []

/-- Reads a text as JSON; what is no JSON is refused with the place where that shows. -/
def readText (s : Text) : Except Response Value :=
  let s := withoutMark s
  match Json.read s with
  | .ok v => .ok v
  | .error (.noJson rest) =>
    .error (.refused [⟨[Text.ofNat (Json.position s rest)], .badJson, .map []⟩])
  | .error (.tooManyDigits _) => .error .unreadable

/-- What a body holds, if anything. -/
def read : Body → Except Response (Option Value)
  | .absent => .ok none
  | .value v => .ok (if v.isNull then none else some v)
  | .text [] => .ok none
  | .text s => (readText s).map fun v => if v.isNull then none else some v

theorem read_value_null : read (.value .null) = .ok none := rfl

end Body
end Tender.Service
