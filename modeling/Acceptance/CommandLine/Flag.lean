import Acceptance.Duration

/-!
# Flags

What may stand on a command line: flags with a value, switches, and the words that choose a command.
A flag that is not given may take its value from the environment, and then from its default.
-/

namespace Acceptance.CommandLine

/-- What the value of a flag must be. -/
inductive ValueKind where
  | text
  /-- A path, which is not empty. -/
  | path
  | duration
  /-- No value on the command line; `true` or `false` in the environment. -/
  | switch
  /-- Ends the reading with help. -/
  | help
  /-- Ends the reading with the version. -/
  | version
  deriving DecidableEq, Repr

def ValueKind.takesValue : ValueKind → Bool
  | .text | .path | .duration => true
  | .switch | .help | .version => false

structure Flag where
  name : String
  kind : ValueKind := .text
  short : Option Char := none
  /-- Variable of the environment that may give the value. -/
  environment : Option String := none
  default : Option String := none
  required : Bool := false
  /-- Flags that may not be given beside this one. -/
  excludes : List String := []
  deriving DecidableEq, Repr

/-- Why a command line is not carried out. -/
inductive UsageFault where
  | help
  | version
  /-- Nothing was asked for. -/
  | nothingGiven
  | commandMissing
  | commandUnknown
  | argumentUnknown
  | conflict
  /-- A value that is missing, or not one of the possible ones. -/
  | value
  | tooManyValues
  | requiredMissing
  /-- A value that a check of its own refuses. -/
  | refused (flag value reason : String)
  deriving DecidableEq, Repr

namespace UsageFault

def exitCode : UsageFault → Nat
  | help | version => 0
  | _ => 2

/-- The placeholder that help shows for a value: the name of the flag in capitals. -/
def placeholder (flag : String) : String :=
  String.ofList (flag.toList.map fun c => if c == '-' then '_' else c.toUpper)

/-- What is said of a value that a check refuses. -/
def message? : UsageFault → Option String
  | refused flag text reason =>
    some s!"error: invalid value '{text}' for '--{flag} <{placeholder flag}>': {reason}"
  | _ => none

end UsageFault

/-- Where a value comes from; what is given goes over the environment, and that over a default. -/
inductive Source where
  | default
  | environment
  | given
  deriving DecidableEq, Repr

def Source.rank : Source → Nat
  | default => 0
  | environment => 1
  | given => 2

structure Value where
  flag : String
  text : String
  source : Source
  deriving DecidableEq, Repr

/-- The values of one level of a command line. -/
abbrev Values := List Value

namespace Values

def find? (values : Values) (flag : String) : Option Value :=
  List.find? (fun v => v.flag == flag) values

def text? (values : Values) (flag : String) : Option String := (values.find? flag).map Value.text

def text (values : Values) (flag : String) : String := (values.text? flag).getD ""

def isSet (values : Values) (flag : String) : Bool := values.text? flag == some "true"

/-- The length of time that a flag holds; its value has been checked. -/
def duration (values : Values) (flag : String) : Nat :=
  ((Duration.parse (values.text flag)).toOption).getD 0

/-- Whether a flag holds more than a default. -/
def isExplicit (values : Values) (flag : String) : Bool :=
  (values.find? flag).any (·.source != .default)

end Values

/-- Checks a value from a source. -/
def Flag.check (f : Flag) (source : Source) (text : String) : Except UsageFault Value :=
  match f.kind with
  | .path => if text.isEmpty then .error .value else .ok ⟨f.name, text, source⟩
  | .duration =>
    match Duration.parse text with
    | .ok _ => .ok ⟨f.name, text, source⟩
    | .error fault => .error (.refused f.name text fault.message)
  | .switch => if text = "true" || text = "false" then .ok ⟨f.name, text, source⟩ else .error .value
  | _ => .ok ⟨f.name, text, source⟩

end Acceptance.CommandLine
