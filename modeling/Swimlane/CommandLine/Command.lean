import Swimlane.CommandLine.Arguments

/-! The commands, and how the words of a command line name them. -/
namespace Swimlane.CommandLine

inductive OptionKey
  | verbose
  | json
  | raw
  | playground
  | output
  deriving DecidableEq, Repr

/-- A value that was given, or a separator in its place. -/
abbrev PathWord := Option Text

inductive Command
  | graph (file : PathWord) (asJson : Bool)
  | diff (old new : PathWord) (asJson : Bool)
  | apply (file operations : PathWord) (output : Option Text) (sharing : Bool)
  | validate (file : PathWord)
  | playground (file : PathWord)
  | guide (raw : Bool)
  deriving DecidableEq, Repr

/-- A command with what is said before it. -/
structure Invocation where
  verbose : Bool
  command : Command
  deriving DecidableEq, Repr

inductive CommandName
  | graph
  | diff
  | apply
  | validate
  | playground
  | guide
  deriving DecidableEq, Repr

def helpOption : OptionSpec OptionKey := ⟨["-h", "--help"], .help⟩

/-- The options before a command. -/
def leadingOptions : List (OptionSpec OptionKey) :=
  [helpOption, ⟨["-v", "--verbose"], .flag .verbose⟩]

namespace CommandName

def all : List CommandName := [.graph, .diff, .apply, .validate, .playground, .guide]

def text : CommandName → Text
  | .graph => "graph"
  | .diff => "diff"
  | .apply => "apply"
  | .validate => "validate"
  | .playground => "playground"
  | .guide => "syntax"

def ofText? (word : Text) : Option CommandName := all.find? (·.text = word)

def options : CommandName → List (OptionSpec OptionKey)
  | .graph | .diff => [helpOption, ⟨["--json"], .flag .json⟩]
  | .apply =>
    [helpOption, ⟨["-o", "--output"], .valued .output⟩, ⟨["--playground"], .flag .playground⟩]
  | .validate | .playground => [helpOption]
  | .guide => [helpOption, ⟨["--raw"], .flag .raw⟩]

def valueCount : CommandName → Nat
  | .graph | .validate | .playground => 1
  | .diff | .apply => 2
  | .guide => 0

end CommandName

def isGiven (settings : List (Setting OptionKey)) (key : OptionKey) : Bool :=
  settings.any (·.key = key)

/-- The value that an option was given last. -/
def lastValue? (settings : List (Setting OptionKey)) (key : OptionKey) : Option Text :=
  (settings.filter (·.key = key)).getLast?.bind Setting.value

def CommandName.command (name : CommandName) (gathered : Gathered OptionKey) : Command :=
  let value (position : Nat) : PathWord := gathered.values[position]?.join
  let given := isGiven gathered.settings
  match name with
  | .graph => .graph (value 0) (given .json)
  | .diff => .diff (value 0) (value 1) (given .json)
  | .apply =>
    .apply (value 0) (value 1) (lastValue? gathered.settings .output) (given .playground)
  | .validate => .validate (value 0)
  | .playground => .playground (value 0)
  | .guide => .guide (given .raw)

def Command.name : Command → CommandName
  | .graph .. => .graph
  | .diff .. => .diff
  | .apply .. => .apply
  | .validate .. => .validate
  | .playground .. => .playground
  | .guide .. => .guide

/-- Reads the words of a command line. -/
def Invocation.ofWords (words : List Text) : Except Stop Invocation := do
  let first ← leading leadingOptions false (← tokens leadingOptions words)
  match CommandName.ofText? first.command with
  | none => throw .misuse
  | some name =>
    let gathered ← gather name.options name.valueCount first.stray
      (← tokens name.options first.rest)
    return ⟨isGiven first.settings .verbose, name.command gathered⟩

end Swimlane.CommandLine
