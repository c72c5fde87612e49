import Swimlane.Service.Exchange
import Swimlane.Service.Validation

/-! The validation service and the service that makes links to share a diagram by. -/
namespace Swimlane.Service

def defaultBase : Text := "https://flowzap.xyz"

/-- Seconds to wait for a reply: thirty. -/
def defaultTimeout : Json := .float (Double.ofDecimal false 30 0)

def views : List Text := ["workflow", "sequence", "architecture"]

/-- The version under which the services know this client. -/
def version : Text := "0.1.0"

def userAgent : Text := "flowzap-graph/" ++ version

def headers : List (Text × Text) :=
  [("Accept", "application/json"), ("Content-Type", "application/json"),
   ("User-Agent", userAgent), ("X-Client", "flowzap-graph")]

/-- The address of the services without slashes at its end: the one that is asked for, else that of
the environment, else the default. -/
def baseUrl (asked environment : Option Text) : Text :=
  let base := ((asked.bind Text.nonempty?).or (environment.bind Text.nonempty?)).getD defaultBase
  (base.reverse.dropWhile (· == '/')).reverse

/-- Where the services are, how long to wait for them, and how deep what goes to and fro may be. -/
structure Settings where
  root : Text
  timeout : Json := defaultTimeout
  depths : Json.Depths := {}

def Settings.ofEnvironment (environment : Option Text) : Settings where
  root := baseUrl none environment

/-- A request with a body that can be written. -/
def Settings.request (settings : Settings) (path : Text) (body : Json) : Except Json.Excess Request := do
  let text ← body.compact settings.depths.writing
  return ⟨settings.root ++ path, headers, text, settings.timeout⟩

def readValidation (settings : Settings) (url : Text) (reply : Reply) :
    Except CallFailure Validation := do
  let fields ← reply.fields settings.depths.reading url
  (Validation.ofFields settings.depths.showing fields).mapError .overflow

def validate (settings : Settings) (code : Json) : Exchange (Except CallFailure Validation) :=
  match settings.request "/api/validate" (.obj [("code", code)]) with
  | .error excess => .done (.error (.overflow (.excess excess)))
  | .ok request => .post request fun reply => .done (readValidation settings request.url reply)

/-- Why a link was not made. -/
inductive LinkError
  | unknownView (view : Text)
  | call (failure : CallFailure)

/-- What is said of it. Of values that are nested too deep nothing is said. -/
def LinkError.report : LinkError → Except Overflow Text
  | .unknownView view =>
    .ok ("Unknown view: " ++ view ++ ". Expected one of " ++ Text.join ", " views ++ ".")
  | .call (.service error) => .ok error.message
  | .call (.overflow (.excess .digits)) => .ok (Overflow.excess .digits).message
  | .call (.overflow overflow) => .error overflow

def LinkError.ofExcess (excess : Json.Excess) : LinkError := .call (.overflow (.excess excess))

/-- The view to show, if one is asked for. -/
def readView (room : Nat) : Json → Except LinkError (Option Text)
  | .null => .ok none
  | .str view => if view ∈ views then .ok (some view) else .error (.unknownView view)
  | other => do
    let view ← (other.displayKept room).mapError .ofExcess
    .error (.unknownView view)

/-- The link in a reply, which must lead to the service itself. -/
def readLink (settings : Settings) (url : Text) (reply : Reply) : Except CallFailure Text := do
  let fields ← reply.fields settings.depths.reading url
  let link := Json.field fields "url"
  let detail := Json.field fields "error"
  let told (value : Json) := (textOf settings.depths.showing value).mapError CallFailure.overflow
  if !link.holds then
    if detail.holds then throw (.service (.refused (← told detail)))
    else throw (.service (.refused "Unknown error creating playground"))
  else
    let link ← told link
    if (settings.root ++ "/").isPrefixOf link then return link
    else throw (.service .foreignUrl)

def createLink (settings : Settings) (code view : Json) : Exchange (Except LinkError Text) :=
  match readView settings.depths.showing view with
  | .error error => .done (.error error)
  | .ok view =>
    let fields : List (Text × Json) := [("code", code), ("source", .str "mcp")]
    let shown : List (Text × Json) := view.toList.map fun view => ("view", .str view)
    match settings.request "/api/playground/create" (.obj (fields ++ shown)) with
    | .error excess => .done (.error (.ofExcess excess))
    | .ok request =>
      .post request fun reply =>
        .done ((readLink settings request.url reply).mapError .call)

/-- A link or what stood in its way. -/
structure Shared where
  url : Option Text := none
  error : Option Text := none
  deriving DecidableEq, Repr

/-- Makes a link; an error that has a report is noted and handed on as text. -/
def share (settings : Settings) (code view : Json) : Exchange (Except Overflow Shared) := do
  match ← createLink settings code view with
  | .ok url => return .ok { url := some url }
  | .error error =>
    match error.report with
    | .error overflow => return .error overflow
    | .ok message =>
      .warn ("Could not create playground: " ++ message) (.done (.ok { error := some message }))

end Swimlane.Service
