import Swimlane.Diff
import Swimlane.Endpoint.Check
import Swimlane.Endpoint.Consultation
import Swimlane.Guide
import Swimlane.Patch.Session

/-! The endpoints: each checks its values, does its work and answers with JSON. The strings of an answer
keep halves, since what a service says can have some. -/
namespace Swimlane.Endpoint

open Service

def failureFields (message : Text) : List (Text × Json) :=
  [("success", .bool false), ("error", .str message)]

def failure (message : Text) : Json := .obj (failureFields message)

def success (fields : List (Text × Json)) : Json := .obj (("success", .bool true) :: fields)

def graphHint : Text :=
  "Use this graph to query structure: find nodes by lane, trace paths between "
    ++ "nodes, identify decision points, etc."

def exportGraph (code : Json) : Json :=
  match checkCode false code with
  | .error flaw => failure (flaw.message "code")
  | .ok text =>
    success [("graph", (Graph.ofText (sanitize text)).toJson.keep), ("hint", .str graphHint)]

/-- Both texts may be blank; of two flawed ones the old is named. -/
def diff (old new : Json) : Json :=
  match checkCode true old, checkCode true new with
  | .error flaw, _ => failure (flaw.message "oldCode")
  | _, .error flaw => failure (flaw.message "newCode")
  | .ok old, .ok new =>
    let result := Diff.ofTexts (sanitize old) (sanitize new)
    success [("changes", result.toJson.keep), ("summary", .str (Text.keep result.summary))]

/-- The answer to applied changes, with a link if one was asked for. -/
def applied (result : Patch.Result) (shared : Option Shared) : Json :=
  let url : Option Text := shared.bind (·.url)
  let error : Option Text := (shared.bind (·.error)).bind Text.nonempty?
  let count := Text.ofNat result.entries.length
  let fields : List (Text × Json) :=
    [("code", .str (Text.keep result.code)), ("url", Json.ofOption url),
     ("applied", .arr (result.log.map fun line => .str (Text.keep line))),
     ("summary", .str ("Applied " ++ count ++ " operation(s)"))]
  let detail : List (Text × Json) := error.toList.map fun error => ("playgroundError", .str error)
  success (fields ++ detail)

/-- What ends an endpoint without an answer. -/
inductive Breakdown
  | fault (fault : Patch.Fault)
  | overflow (overflow : Overflow)
  deriving DecidableEq, Repr

def Breakdown.ofExcess (excess : Json.Excess) : Breakdown := .overflow (.excess excess)

/-- Applies operations; with `sharing` a link to the new text is asked for as well. -/
def applyChange (depths : Json.Depths) (sharing : Bool) (code operations : Json) :
    Consultation (Except Breakdown Json) :=
  match checkCode false code with
  | .error flaw => .answer (.ok (failure (flaw.message "code")))
  | .ok text =>
    match checkOperations operations with
    | .error flaw => .answer (((flaw.message depths.writing).map failure).mapError .ofExcess)
    | .ok items =>
      match Patch.applyJson depths.showing (sanitize text) (.arr items) with
      | .error (.unlisted (.malformed error)) =>
        .answer (.ok (failure ("Failed to apply changes: " ++ error.message)))
      | .error (.unlisted (.excess excess)) => .answer (.error (.ofExcess excess))
      | .error (.fault fault) => .answer (.error (.fault fault))
      | .ok result =>
        if sharing then
          .share result.code fun shared =>
            .answer ((shared.map fun shared => applied result (some shared)).mapError .overflow)
        else .answer (.ok (applied result none))

def unavailable (error : ServiceError) : Text :=
  "Validation service unavailable: " ++ error.message

def validate (code : Json) : Consultation (Except Overflow Json) :=
  match checkCode false code with
  | .error flaw => .answer (.ok (failure (flaw.message "code")))
  | .ok text =>
    .validate (sanitize text) fun result =>
      .answer (match result with
        | .error (.service error) => .ok (failure (unavailable error))
        | .error (.overflow overflow) => .error overflow
        | .ok validation => .ok (success validation.fields))

/-- What came of a wish for a link. -/
inductive LinkOutcome
  | flawed (flaw : CodeFlaw)
  | unavailable (error : ServiceError)
  | invalid (errors : List Issue)
  | linked (url : Text)
  | failed (detail : Option Text)

namespace LinkOutcome

def message : LinkOutcome → Text
  | .flawed flaw => flaw.message "code"
  | .unavailable error => Endpoint.unavailable error
  | .invalid _ => "Cannot create playground - code has errors"
  | .linked url => url
  | .failed detail => "Failed to create playground: " ++ detail.getD "unexpected response"

/-- The errors that were found in the text. -/
def issues : LinkOutcome → List Issue
  | .invalid errors => errors
  | _ => []

def toJson (outcome : LinkOutcome) : Json :=
  match outcome with
  | .linked url => success [("url", .str url)]
  | .invalid errors =>
    .obj (failureFields outcome.message ++ [("errors".toList, .arr (errors.map Issue.toJson))])
  | _ => failure outcome.message

end LinkOutcome

/-- Asks for a link once the text is found valid. -/
def createPlayground (code : Json) : Consultation (Except Overflow LinkOutcome) :=
  match checkCode false code with
  | .error flaw => .answer (.ok (.flawed flaw))
  | .ok text =>
    .validate (sanitize text) fun result =>
      match result with
      | .error (.service error) => .answer (.ok (.unavailable error))
      | .error (.overflow overflow) => .answer (.error overflow)
      | .ok validation =>
        if validation.valid then
          .share (sanitize text) fun shared =>
            .answer (shared.map fun shared =>
              match shared.url.bind Text.nonempty? with
              | some url => .linked url
              | none => .failed (shared.error.bind Text.nonempty?))
        else .answer (.ok (.invalid validation.errors))

def guideAnswer : Json := success [("syntax", .str guide)]

end Swimlane.Endpoint
