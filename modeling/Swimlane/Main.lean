import Swimlane.CommandLine.Program

/-! The program on a real command line. Requests to the services are answered as failed, since no
connection is made here. -/
namespace Swimlane.CommandLine

open Service

def ofBytes (bytes : ByteArray) : Utf8.Bytes := bytes.toList

def toBytes (bytes : Utf8.Bytes) : ByteArray := ByteArray.mk bytes.toArray

/-- The causes that the system reports for a file. -/
def fileError (path : Text) : IO.Error → FileError
  | .noFileOrDirectory .. => .system .notFound path
  | .inappropriateType .. => .system .isFolder path
  | _ => .system .notAFolder path

def cellLine (cells : List Text) : Text := Text.join " | " cells

def displayText : Display → Text
  | .markup text => text ++ ['\n']
  | .document text => text
  | .table table =>
    (table.title :: cellLine table.columns :: table.rows.map cellLine).flatMap (· ++ ['\n'])

/-- A text that keeps halves for a terminal, which has none. -/
def shownString (text : Text) : String := String.ofList (Text.shown text)

def putOut (verbose : Bool) : Output → IO Unit
  | .plain text => do (← IO.getStdout).putStr (shownString text)
  | .shown display => do (← IO.getStdout).putStr (shownString (displayText display))
  | .notice markup => do (← IO.getStderr).putStrLn (shownString markup)
  | .logged record =>
    if record.isLogged verbose then do
      (← IO.getStderr).putStrLn (shownString record.message)
    else pure ()

/-- A failure of the system is reported as it tells it. -/
def tryPutOut (verbose : Bool) (output : Output) : IO (Except PrintError Unit) := do
  try
    putOut verbose output
    return .ok ()
  catch error =>
    return .error (.reported (Text.keep error.toString.toList))

def readFile (path : Text) : IO (Except FileError Utf8.Bytes) := do
  try
    return .ok (ofBytes (← IO.FS.readBinFile (String.ofList path)))
  catch error =>
    return .error (fileError (normalPath path) error)

def writeFile (path : Text) (bytes : Utf8.Bytes) : IO (Except FileError Unit) := do
  try
    IO.FS.writeBinFile (String.ofList path) (toBytes bytes)
    return .ok ()
  catch error =>
    return .error (fileError (normalPath path) error)

/-- Runs a script with the files of the system. -/
def Script.perform (verbose : Bool) {α : Type} : Script α → IO α
  | .done value => pure value
  | .read path next => do (next (← readFile path)).perform verbose
  | .write path bytes next => do (next (← writeFile path bytes)).perform verbose
  | .post _ next => (next (.failed "no connection")).perform verbose
  | .emit output next => do (next (← tryPutOut verbose output)).perform verbose

end Swimlane.CommandLine

open Swimlane CommandLine in
def main (words : List String) : IO UInt32 := do
  let environment ← IO.getEnv "FLOWZAP_API_BASE"
  let settings := Service.Settings.ofEnvironment (environment.map fun text => Text.keep text.toList)
  let program := Program.ofWords settings (words.map String.toList)
  match ← program.script.perform program.verbose with
  | .exit code => return code.toUInt32
  | .breakdown _ => return 1
