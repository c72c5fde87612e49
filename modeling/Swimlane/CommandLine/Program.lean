import Swimlane.CommandLine.Command
import Swimlane.CommandLine.Script
import Swimlane.Endpoint.Answers

/-! The program: what each command does with its words. -/
namespace Swimlane.CommandLine

open Markup Service

/-- What breaks the program off without a report. -/
inductive Breakdown
  | overflow (overflow : Overflow)
  | lineOutOfRange
  | missingPath
  | printing
  deriving DecidableEq, Repr

/-- Why a command fails. -/
inductive Failure
  | file (error : FileError)
  | decoding (error : Utf8.DecodeError)
  | encoding (error : Utf8.EncodeError)
  | json (error : Json.ReadError)
  | operations (error : Patch.OperationError)
  | digits (limit : Patch.DigitLimit)
  | service (error : ServiceError)
  | printing (message : Text)
  | breakdown (cause : Breakdown)

namespace Failure

/-- The failure's report, if it has one. -/
def report : Failure → Except Breakdown Text
  | .file error => .ok error.message
  | .decoding error => .ok error.message
  | .encoding error => .ok error.message
  | .json error => .ok error.message
  | .operations error => .ok error.message
  | .digits limit => .ok limit.message
  | .service error => .ok error.message
  | .printing message => .ok message
  | .breakdown cause => .error cause

def ofFault : Patch.Fault → Failure
  | .digits limit => .digits limit
  | .lineOutOfRange => .breakdown .lineOutOfRange

def ofOverflow : Overflow → Failure
  | .excess .digits => .digits .writing
  | overflow => .breakdown (.overflow overflow)

def ofUnread : Json.Unread → Failure
  | .flawed error => .json error
  | .tooDeep => .ofOverflow (.excess .depth)

def ofUnlisted : Patch.Unlisted → Failure
  | .malformed error => .operations error
  | .excess excess => .ofOverflow (.excess excess)

def ofCall : CallFailure → Failure
  | .service error => .service error
  | .overflow overflow => .ofOverflow overflow

def ofPrint : PrintError → Failure
  | .reported message => .printing message
  | .other => .breakdown .printing

end Failure

/-- How the program ends. -/
inductive Ending
  | exit (code : Nat)
  | breakdown (cause : Breakdown)
  deriving DecidableEq, Repr

/-- A script that may fail. -/
abbrev Task := ExceptT Failure Script

namespace Task

def ofExcept {ε α : Type} (failure : ε → Failure) (result : Except ε α) : Task α :=
  ExceptT.mk (.done (result.mapError failure))

def emit (output : Output) : Task Unit := do
  let result ← ExceptT.lift (.emit output .done)
  ofExcept .ofPrint result

def print (markup : Text) : Task Unit := emit (.shown (.markup markup))

def ofExchange {α : Type} (exchange : Exchange α) : Task α := ExceptT.lift (.ofExchange exchange)

/-- The text of a file, with line feeds only. It has no halves. -/
def readText : PathWord → Task Text
  | none => throw (.breakdown .missingPath)
  | some path => do
    let bytes ← ExceptT.lift (.read path .done)
    let text ← ofExcept .decoding (Utf8.decode (← ofExcept .file bytes))
    return Text.unifyBreaks text

def writeBytes (path : Text) (bytes : Utf8.Bytes) : Task Unit := do
  let result ← ExceptT.lift (.write path bytes .done)
  ofExcept .file result

/-- Writes a text that keeps halves. The file is emptied first, and stays so if the text has a half. -/
def writeText (path text : Text) : Task Unit := do
  writeBytes path []
  let bytes ← ofExcept .encoding (Utf8.encodeKept text)
  writeBytes path bytes

def printJson (value : Json) : Task Unit := emit (.plain (value.indented 0 ++ ['\n']))

def graph (file : PathWord) (asJson : Bool) : Task Nat := do
  let graph := Graph.ofText (Text.keep (← readText file))
  if asJson then printJson graph.toJson
  else
    emit (.shown (.table (.lanes graph)))
    emit (.shown (.table (.nodes graph)))
    emit (.shown (.table (.edges graph)))
    print (styled "bold" (Text.ofNat graph.stats.crossLaneEdges) ++ " cross-lane edge(s)")
  return 0

def diff (old new : PathWord) (asJson : Bool) : Task Nat := do
  let old ← readText old
  let result := Diff.ofTexts (Text.keep old) (Text.keep (← readText new))
  if asJson then
    printJson (.obj [("changes".toList, result.toJson), ("summary".toList, result.summary)])
  else
    print (escape result.summary)
    if result.hasChanges then emit (.shown (.table (.changes result)))
  return 0

def stepRecord (entry : Patch.Entry) : LogRecord :=
  if entry.isApplied then ⟨.debug, .patch, "Applied patch operation: " ++ entry.text⟩
  else ⟨.info, .patch, "Skipped patch operation: " ++ entry.text⟩

/-- Applies operations to a text, both of which keep halves, and logs each step, also those before a
fault. -/
def patch (text : Text) (operations : List Patch.Operation) : Task (Text × List Patch.Entry) := do
  let session ← ofExcept .ofFault (Patch.Session.ofText text)
  let trace := session.trace operations
  for entry in trace.entries do
    emit (.logged (stepRecord entry))
  match trace.interruption with
  | some interruption => throw (.ofFault interruption.fault)
  | none => return ((trace.last session).text, trace.entries)

def entryNotice (entry : Patch.Entry) : Text :=
  styled (if entry.isApplied then "green" else "yellow") (escape entry.text)

def sharedNotice (shared : Shared) : Text :=
  match shared.url.bind Text.nonempty? with
  | some url => "Playground: " ++ url
  | none => styled "red" "Playground unavailable:" ++ ' ' :: escape (shared.error.getD [])

/-- Applies the operations of one file to the text of another. JSON can hold a half of a character
alone, so the texts keep halves. -/
def apply (settings : Settings) (file operations : PathWord) (output : Option Text)
    (sharing : Bool) : Task Nat := do
  let json ← ofExcept .ofUnread (Json.readKept settings.depths.reading (← readText operations))
  let text ← readText file
  let operations ← ofExcept .ofUnlisted (Patch.Operation.listOfKept settings.depths.showing json)
  let (code, entries) ← patch (Text.keep text) operations
  match output.bind Text.nonempty? with
  | some path => writeText path code
  | none => emit (.plain (code ++ ['\n']))
  for entry in entries do
    emit (.notice (entryNotice entry))
  if sharing then
    let result ← ofExchange (Service.share settings (.str code) .null)
    let shared ← ofExcept .ofOverflow result
    emit (.notice (sharedNotice shared))
  return 0

/-- The digits of a number. -/
def number (value : Int) : Task Text :=
  ofExcept (fun excess => .ofOverflow (.excess excess)) (Json.intText value)

def printIssue (issue : Issue) : Task Unit := do
  let line ← number issue.line
  print ("- Line " ++ line ++ ": " ++ escape issue.message)

def printIssues (issues : List Issue) : Task Unit := do
  for issue in issues do
    printIssue issue

def printCounts (counts : Counts) : Task Unit := do
  let lanes ← number counts.lanes
  let nodes ← number counts.nodes
  let edges ← number counts.edges
  print (styled "green" "Valid" ++ " - " ++ "lanes: " ++ lanes ++ ", nodes: " ++ nodes ++ ", edges: "
    ++ edges)

def validate (settings : Settings) (file : PathWord) : Task Nat := do
  let text ← readText file
  let result ← ofExchange (Service.validate settings (.str (Text.keep text)))
  let validation ← ofExcept .ofCall result
  if validation.valid then
    printCounts (validation.stats.getD ⟨0, 0, 0⟩)
    return 0
  else
    print (styled "red" "Validation failed")
    printIssues validation.errors
    return 1

def playground (settings : Settings) (file : PathWord) : Task Nat := do
  let text ← readText file
  let result ← ofExchange ((Endpoint.createPlayground (.str text)).overServices settings)
  match ← ofExcept .ofOverflow result with
  | .linked url =>
    print ("Playground: " ++ url)
    return 0
  | outcome =>
    print (styled "red" (escape outcome.message))
    printIssues outcome.issues
    return 1

def showGuide (raw : Bool) : Task Nat := do
  if raw then emit (.plain guide) else emit (.shown (.document guide))
  return 0

/-- What a command does; the result is the exit code. -/
def ofCommand (settings : Settings) : Command → Task Nat
  | .graph file asJson => graph file asJson
  | .diff old new asJson => diff old new asJson
  | .apply file operations output sharing => apply settings file operations output sharing
  | .validate file => validate settings file
  | .playground file => playground settings file
  | .guide raw => showGuide raw

end Task

/-- How the program ends once a failure's report is printed, or is not. -/
def Ending.ofReport : Except PrintError Unit → Ending
  | .ok () => .exit 1
  | .error _ => .breakdown .printing

/-- The script of a command, with the report of a failure. -/
def Command.script (settings : Settings) (command : Command) : Script Ending := do
  match ← (Task.ofCommand settings command).run with
  | .ok code => return .exit code
  | .error failure =>
    match failure.report with
    | .error cause => return .breakdown cause
    | .ok message =>
      let log := "Command " ++ command.name.text ++ " failed"
      .emit (.logged ⟨.debug, .commands, log⟩) fun _ =>
        .emit (.notice (styled "red" "Error:" ++ ' ' :: escape message)) fun result =>
          .done (.ofReport result)

/-- What a whole command line leads to, and whether its log is to hold everything. -/
structure Program where
  verbose : Bool
  script : Script Ending

/-- To ask for help is no failure; other words that name no command are. -/
def Program.ofWords (settings : Settings) (words : List Text) : Program :=
  match Invocation.ofWords words with
  | .ok invocation => ⟨invocation.verbose, invocation.command.script settings⟩
  | .error .help => ⟨false, .done (.exit 0)⟩
  | .error .misuse => ⟨false, .done (.exit 2)⟩

end Swimlane.CommandLine
