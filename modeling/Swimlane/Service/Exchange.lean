import Swimlane.Json.Reader
import Swimlane.Json.Writer

/-! Exchanges with a web service: requests that are sent one by one, each after the reply to the
last, and what can go wrong with a reply. All texts keep halves, save that the body of a reply has
none. -/
namespace Swimlane.Service

/-- A POST of JSON text. -/
structure Request where
  url : Text
  headers : List (Text × Text)
  body : Text
  timeout : Json

inductive Reply
  | answer (status : Int) (body : Text)
  | timedOut
  | failed (detail : Text)

inductive ServiceError
  | timedOut
  | requestFailed (url detail : Text)
  | status (code : Int)
  | undecodable (url : Text) (error : Json.ReadError)
  | notAnObject (url : Text)
  | refused (detail : Text)
  | foreignUrl

def ServiceError.message : ServiceError → Text
  | .timedOut => "Request timed out"
  | .requestFailed url detail => "Request to " ++ url ++ " failed: " ++ detail
  | .status code => "API error: " ++ Text.ofInt code
  | .undecodable url error => "Failed to decode response from " ++ url ++ ": " ++ error.message
  | .notAnObject url => "Unexpected response from " ++ url ++ ": expected a JSON object."
  | .refused detail => detail
  | .foreignUrl => "Invalid playground URL returned"

/-- What there is too much of: a number that is to be whole is infinite, or a value has no text. -/
inductive Overflow
  | infinity
  | excess (excess : Json.Excess)
  deriving DecidableEq, Repr

def Overflow.message : Overflow → Text
  | .infinity => "cannot convert float infinity to integer"
  | .excess .digits => Text.tooManyDigits none
  | .excess .depth => "maximum recursion depth exceeded"

/-- Why a call has no result: an error of the service, or an overflow, which is not taken for one. -/
inductive CallFailure
  | service (error : ServiceError)
  | overflow (overflow : Overflow)

/-- The fields of the object in a reply, which is read with room for so many lists and objects one inside
the other. -/
def Reply.fields (room : Nat) (url : Text) : Reply → Except CallFailure (List (Text × Json))
  | .timedOut => .error (.service .timedOut)
  | .failed detail => .error (.service (.requestFailed url detail))
  | .answer status body =>
    if 400 ≤ status then .error (.service (.status status))
    else
      match Json.readKept room body with
      | .error (.flawed error) => .error (.service (.undecodable url error))
      | .error .tooDeep => .error (.overflow (.excess .depth))
      | .ok (.obj fields) => .ok fields
      | .ok _ => .error (.service (.notAnObject url))

/-- What is done with a service, from request to request; `warn` leaves a note for the log. -/
inductive Exchange (α : Type)
  | done (value : α)
  | post (request : Request) (next : Reply → Exchange α)
  | warn (message : Text) (next : Exchange α)

namespace Exchange

variable {α β : Type}

def bind (exchange : Exchange α) (next : α → Exchange β) : Exchange β :=
  match exchange with
  | .done value => next value
  | .post request after => .post request fun reply => (after reply).bind next
  | .warn message after => .warn message (after.bind next)

instance : Monad Exchange where
  pure := .done
  bind := bind

/-- The value of an exchange, what was sent and noted on the way, and the replies that are left. -/
structure Record (α : Type) where
  value : α
  requests : List Request
  warnings : List Text
  replies : List Reply

/-- Answers the requests from a list of replies; when it is used up, requests fail. -/
def run : Exchange α → List Reply → Record α
  | .done value, replies => ⟨value, [], [], replies⟩
  | .warn message next, replies =>
    let record := next.run replies
    { record with warnings := message :: record.warnings }
  | .post request next, replies =>
    let record := (next (replies.headD (.failed []))).run replies.tail
    { record with requests := request :: record.requests }

/-- Of two exchanges, one after the other, the second has the replies that the first left. -/
theorem run_bind (exchange : Exchange α) (next : α → Exchange β) (replies : List Reply) :
    (exchange.bind next).run replies =
      let first := exchange.run replies
      let second := (next first.value).run first.replies
      { second with
        requests := first.requests ++ second.requests
        warnings := first.warnings ++ second.warnings } := by
  induction exchange generalizing replies with
  | done value => rfl
  | post request after ih => simp [bind, run, ih]
  | warn message after ih => simp [bind, run, ih]

end Exchange

end Swimlane.Service
