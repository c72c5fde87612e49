import Swimlane.CommandLine.Folder
import Swimlane.CommandLine.Table
import Swimlane.Service.Exchange

/-! What a command does, step by step, and what comes of it in a folder of files. -/
namespace Swimlane.CommandLine

open Service Utf8

/-- What is shown with styles. -/
inductive Display
  | markup (text : Text)
  | table (table : Table)
  | document (text : Text)
  deriving DecidableEq, Repr

inductive LogLevel
  | debug
  | info
  | warning
  deriving DecidableEq, Repr

/-- The part of the program that a log record comes from. -/
inductive LogSource
  | commands
  | patch
  | service
  deriving DecidableEq, Repr

structure LogRecord where
  level : LogLevel
  source : LogSource
  message : Text
  deriving DecidableEq, Repr

/-- Warnings are always logged, the rest only if the user asks for it. -/
def LogRecord.isLogged (verbose : Bool) (record : LogRecord) : Bool :=
  verbose || record.level = .warning

/-- What is put out: text as it is, a display, a notice beside the output, or a log record. -/
inductive Output
  | plain (text : Text)
  | shown (display : Display)
  | notice (markup : Text)
  | logged (record : LogRecord)
  deriving DecidableEq, Repr

/-- Why something is not put out: the failure is one of those that are reported, or another one. -/
inductive PrintError
  | reported (message : Text)
  | other
  deriving DecidableEq, Repr

/-- Steps that read and write files, send requests and put things out. -/
inductive Script (α : Type)
  | done (value : α)
  | read (path : Text) (next : Except FileError Bytes → Script α)
  | write (path : Text) (bytes : Bytes) (next : Except FileError Unit → Script α)
  | post (request : Request) (next : Reply → Script α)
  | emit (output : Output) (next : Except PrintError Unit → Script α)

/-- What a script meets outside of its folder: the replies to its requests, and what comes of what it puts
out, each in order. When they are used up, requests fail and everything is put out. -/
structure Outside where
  replies : List Reply := []
  prints : List (Except PrintError Unit) := []

namespace Outside

def reply (outside : Outside) : Reply := outside.replies.headD (.failed [])

def afterReply (outside : Outside) : Outside := { outside with replies := outside.replies.tail }

/-- What comes of something that is put out. The log takes every record. -/
def print (outside : Outside) : Output → Except PrintError Unit
  | .logged _ => .ok ()
  | _ => outside.prints.headD (.ok ())

def afterPrint (outside : Outside) : Output → Outside
  | .logged _ => outside
  | _ => { outside with prints := outside.prints.tail }

end Outside

namespace Script

variable {α β : Type}

def bind (script : Script α) (next : α → Script β) : Script β :=
  match script with
  | .done value => next value
  | .read path after => .read path fun result => (after result).bind next
  | .write path bytes after => .write path bytes fun result => (after result).bind next
  | .post request after => .post request fun reply => (after reply).bind next
  | .emit output after => .emit output fun result => (after result).bind next

instance : Monad Script where
  pure := .done
  bind := bind

/-- An exchange with a service as a part of a script. -/
def ofExchange : Exchange α → Script α
  | .done value => .done value
  | .post request next => .post request fun reply => ofExchange (next reply)
  | .warn message next => .emit (.logged ⟨.warning, .service, message⟩) fun _ => ofExchange next

/-- What a script leads to, with the files that are then there and what is left of the outside. -/
structure Run (α : Type) where
  value : α
  outputs : List Output
  requests : List Request
  folder : Folder
  outside : Outside

/-- Runs a script in a folder. -/
def run (folder : Folder) (outside : Outside) : Script α → Run α
  | .done value => ⟨value, [], [], folder, outside⟩
  | .read path next => (next (folder.read path)).run folder outside
  | .write path bytes next =>
    match folder.write path bytes with
    | .ok folder => (next (.ok ())).run folder outside
    | .error error => (next (.error error)).run folder outside
  | .post request next =>
    let rest := (next outside.reply).run folder outside.afterReply
    { rest with requests := request :: rest.requests }
  | .emit output next =>
    let result := outside.print output
    let rest := (next result).run folder (outside.afterPrint output)
    match result with
    | .ok () => { rest with outputs := output :: rest.outputs }
    | .error _ => rest

/-- Of two scripts, one after the other, the second starts where the first ended. -/
theorem run_bind (script : Script α) (next : α → Script β) (folder : Folder) (outside : Outside) :
    (script.bind next).run folder outside =
      let first := script.run folder outside
      let second := (next first.value).run first.folder first.outside
      { second with
        outputs := first.outputs ++ second.outputs
        requests := first.requests ++ second.requests } := by
  induction script generalizing folder outside with
  | done value => rfl
  | read path after ih => simp [bind, run, ih]
  | write path bytes after ih =>
    simp only [bind, run]
    cases folder.write path bytes with
    | error error => simp [ih]
    | ok folder => simp [ih]
  | post request after ih => simp [bind, run, ih]
  | emit output after ih =>
    simp only [bind, run]
    cases outside.print output <;> simp [ih]

end Script

/-- The files that are in one folder and not in another. -/
def Folder.newFiles (before after : Folder) : List (Text × Bytes) :=
  after.entries.filter fun (name, _) => !before.contains name

end Swimlane.CommandLine
