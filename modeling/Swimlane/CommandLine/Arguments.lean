import Swimlane.Text.DecimalDigit

/-! Options and values among the words of a command line. -/
namespace Swimlane.CommandLine

open Text

/-- What an option is for: to ask for help, to be there or not, or to give a value. -/
inductive Role (κ : Type)
  | help
  | flag (key : κ)
  | valued (key : κ)
  deriving DecidableEq, Repr

/-- An option and its names, each with its hyphens. -/
structure OptionSpec (κ : Type) where
  names : List Text
  role : Role κ
  deriving DecidableEq, Repr

/-- Why the words are not read to their end. -/
inductive Stop
  | help
  | misuse
  deriving DecidableEq, Repr

/-- What is attached to an option's name, and whether an equals sign stands between. -/
structure Attached where
  afterSign : Bool
  text : Text
  deriving DecidableEq, Repr

/-- An option as it is named by a word. -/
structure Mention (κ : Type) where
  role : Role κ
  /-- Whether the name has a single hyphen. -/
  isShort : Bool
  attached : Option Attached
  deriving DecidableEq, Repr

def separatorWord : Text := ['-', '-']

/-- A word by its looks. -/
inductive Token (κ : Type)
  | plain (word : Text)
  | separator
  | option (word : Text) (mention : Mention κ)
  | unknown (word : Text)
  deriving DecidableEq, Repr

def Token.word {κ : Type} : Token κ → Text
  | .separator => separatorWord
  | .plain word | .option word _ | .unknown word => word

def hasShortName (name : Text) : Bool := name[1]? != some '-'

/-- The text before the first equals sign, and what the sign attaches to it. -/
def cutAtSign (word : Text) : Text × Option Attached :=
  match word.dropWhile (· != '=') with
  | [] => (word, none)
  | _ :: text => (word.takeWhile (· != '='), some ⟨true, text⟩)

/-- A hyphen and a number, with or without decimals. -/
def isNegativeNumber : Text → Bool
  | '-' :: rest =>
    let number := match rest.reverse with
      | '\n' :: before => before.reverse
      | _ => rest
    let whole := number.takeWhile isDecimalDigit
    match number.dropWhile isDecimalDigit with
    | [] => !whole.isEmpty
    | point :: decimals => point = '.' && !decimals.isEmpty && decimals.all isDecimalDigit
  | _ => false

section

variable {κ : Type} (options : List (OptionSpec κ))

def roleOf? (name : Text) : Option (Role κ) :=
  (options.find? (name ∈ ·.names)).map OptionSpec.role

/-- Every name, with the role of its option. -/
def allNames : List (Text × Role κ) :=
  options.flatMap fun option => option.names.map fun name => (name, option.role)

/-- The options that a word can stand for: by the start of a long name, or by a short name with what
follows it attached. -/
def candidates (word : Text) : List (Mention κ) :=
  if hasShortName word then
    (allNames options).filterMap fun (name, role) =>
      if name = word.take 2 then some ⟨role, true, some ⟨false, word.drop 2⟩⟩
      else if word.isPrefixOf name then some ⟨role, hasShortName name, none⟩
      else none
  else
    let (start, attached) := cutAtSign word
    (allNames options).filterMap fun (name, role) =>
      if start.isPrefixOf name then some ⟨role, hasShortName name, attached⟩ else none

/-- A whole name stands for its option, with or without something attached. -/
def wholeName? (word : Text) : Option (Mention κ) :=
  match roleOf? options word with
  | some role => some ⟨role, hasShortName word, none⟩
  | none =>
    let (name, attached) := cutAtSign word
    if attached.isNone then none
    else (roleOf? options name).map fun role => ⟨role, hasShortName name, attached⟩

/-- A word that starts with a hyphen and more. It must not stand for two options. -/
def optionToken (word : Text) : Except Stop (Token κ) :=
  match wholeName? options word with
  | some mention => .ok (.option word mention)
  | none =>
    match candidates options word with
    | [mention] => .ok (.option word mention)
    | [] =>
      if isNegativeNumber word || word.contains ' ' then .ok (.plain word) else .ok (.unknown word)
    | _ => .error .misuse

def token (word : Text) : Except Stop (Token κ) :=
  match word with
  | '-' :: _ :: _ => optionToken options word
  | _ => .ok (.plain word)

/-- The words as tokens; after a separator all are plain. -/
def tokens : List Text → Except Stop (List (Token κ))
  | [] => .ok []
  | word :: rest =>
    if word = separatorWord then .ok (.separator :: rest.map .plain)
    else return (← token options word) :: (← tokens rest)

/-- An option that was given, with its value if it takes one. -/
structure Setting (κ : Type) where
  key : κ
  value : Option Text
  deriving DecidableEq, Repr

/-- The options in one word. The last may take its value from the next word; a letter that names no
option leaves something over. -/
structure Cluster (κ : Type) where
  flags : List (Role κ)
  value : Option (κ × Text) := none
  awaits : Option κ := none
  stray : Bool := false

/-- Takes a mention apart. Letters attached to a short flag are short options themselves; nothing
else may be attached to a flag. -/
def cluster (role : Role κ) (isShort : Bool) (attached : Option Attached) :
    Except Stop (Cluster κ) :=
  match role, attached with
  | .valued key, some attached => .ok { flags := [], value := some (key, attached.text) }
  | .valued key, none => .ok { flags := [], awaits := some key }
  | role, none => .ok { flags := [role] }
  | _, some ⟨_, []⟩ => .error .misuse
  | role, some ⟨afterSign, c :: text⟩ =>
    if !isShort || afterSign || c = '-' then .error .misuse
    else
      match roleOf? options ['-', c] with
      | none => .ok { flags := [role], stray := true }
      | some next => do
        let more ← match text with
          | [] => cluster next true none
          | '=' :: text => cluster next true (some ⟨true, text⟩)
          | text => cluster next true (some ⟨false, text⟩)
        return { more with flags := role :: more.flags }
  termination_by (attached.map fun attached => attached.text.length + 1).getD 0

/-- The settings of flags in order; to ask for help ends everything. -/
def flagSettings : List (Role κ) → Except Stop (List (Setting κ))
  | [] => .ok []
  | .help :: _ => .error .help
  | .flag key :: rest | .valued key :: rest => return ⟨key, none⟩ :: (← flagSettings rest)

/-- An option with the tokens after it: its settings, the tokens that are left, and whether
something of it is left over. -/
structure Taken (κ : Type) where
  settings : List (Setting κ)
  rest : List (Token κ)
  stray : Bool

def take (mention : Mention κ) (rest : List (Token κ)) : Except Stop (Taken κ) := do
  let cluster ← cluster options mention.role mention.isShort mention.attached
  match cluster.awaits, rest with
  | none, _ =>
    let settings ← flagSettings cluster.flags
    let last := cluster.value.toList.map fun (key, value) => ⟨key, some value⟩
    return ⟨settings ++ last, rest, cluster.stray⟩
  | some key, .plain value :: rest =>
    let settings ← flagSettings cluster.flags
    return ⟨settings ++ [⟨key, some value⟩], rest, false⟩
  | some _, _ => throw .misuse

theorem length_rest_take {mention : Mention κ} {rest : List (Token κ)} {taken : Taken κ}
    (h : take options mention rest = .ok taken) : taken.rest.length ≤ rest.length := by
  simp only [take, bind, Except.bind, pure, Except.pure] at h
  repeat' split at h
  all_goals simp_all
  all_goals subst h; simp

/-- The words up to the first plain one, which says what the rest are for. -/
structure Leading (κ : Type) where
  settings : List (Setting κ)
  /-- Whether something before it is not understood. -/
  stray : Bool
  command : Text
  rest : List Text

def leading (stray : Bool) : List (Token κ) → Except Stop (Leading κ)
  | [] | .separator :: _ => .error .misuse
  | .plain word :: rest => .ok ⟨[], stray, word, rest.map Token.word⟩
  | .unknown _ :: rest => leading true rest
  | .option _ mention :: rest =>
    match _h : take options mention rest with
    | .error stop => .error stop
    | .ok taken => do
      let after ← leading (stray || taken.stray) taken.rest
      return { after with settings := taken.settings ++ after.settings }
  termination_by tokens => tokens.length
  decreasing_by
    · simp
    · have := length_rest_take options _h
      simp only [List.length_cons]
      omega

/-- The options and the values among all the words. -/
structure Gathered (κ : Type) where
  settings : List (Setting κ)
  values : List (Option Text)

def Gathered.withValue (gathered : Gathered κ) (value : Option Text) : Gathered κ :=
  { gathered with values := value :: gathered.values }

/-- A value that is a separator stands for none. -/
def valueOf (word : Text) : Option Text := if word = separatorWord then none else some word

/-- Reads all the words, of which `needed` must be values and none may be left over. A separator
goes with the value next to it. -/
def gather (needed : Nat) (stray : Bool) : List (Token κ) → Except Stop (Gathered κ)
  | [] => if needed = 0 && !stray then .ok ⟨[], []⟩ else .error .misuse
  | .unknown _ :: rest => gather needed true rest
  | .option _ mention :: rest =>
    match _h : take options mention rest with
    | .error stop => .error stop
    | .ok taken => do
      let after ← gather needed (stray || taken.stray) taken.rest
      return { after with settings := taken.settings ++ after.settings }
  | .plain word :: rest =>
    match needed, rest with
    | 0, rest => gather 0 true rest
    | needed + 1, .separator :: rest => return (← gather needed stray rest).withValue (some word)
    | needed + 1, rest => return (← gather needed stray rest).withValue (valueOf word)
  | .separator :: rest =>
    match needed, rest with
    | needed + 1, .plain word :: rest => return (← gather needed stray rest).withValue (some word)
    | needed, rest => gather needed true rest
  termination_by tokens => tokens.length
  decreasing_by
    · simp
    · have := length_rest_take options _h
      simp only [List.length_cons]
      omega
    all_goals
      simp only [List.length_cons]
      omega

end

end Swimlane.CommandLine
