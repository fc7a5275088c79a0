import Acceptance.CommandLine.Flag
import Acceptance.Dict

/-!
# Reading command lines

A command line is read word by word: flags of the whole program, then the word that chooses a command,
then flags of that command, among which those of the whole program may stand again.

* `Grammar.read`: the values on both levels, or what is wrong.
-/

namespace Acceptance.CommandLine

/-- A command and its own flags. -/
structure CommandGrammar where
  name : String
  flags : List Flag

structure Grammar where
  /-- Flags that may stand before and after the command. -/
  shared : List Flag
  commands : List CommandGrammar

def helpFlag : Flag := { name := "help", kind := .help, short := some 'h' }

def versionFlag : Flag := { name := "version", kind := .version, short := some 'V' }

/-- The word that asks for help on a command. -/
def helpCommand : String := "help"

/-- What can stand on one level. -/
structure Level where
  flags : List Flag
  /-- Words that choose a command; empty within a command. -/
  commands : List String

/-- What has been read of a level. -/
structure Progress where
  values : Values := []
  /-- The last flag, with its value if that has been read; it has not been checked. -/
  current : Option (Flag × Option String) := none

namespace Progress

/-- Keeps a value. A flag is given only once. -/
def keep (p : Progress) (f : Flag) (text : String) : Except UsageFault Progress :=
  if (p.values.find? f.name).isSome then .error .conflict
  else do
    let v ← f.check .given text
    .ok { p with values := p.values ++ [v] }

/-- Checks and keeps the last flag. -/
def settle (p : Progress) : Except UsageFault Progress :=
  match p.current with
  | none => .ok p
  | some (_, none) => .error .value
  | some (f, some text) => { p with current := none }.keep f text

/-- Whether the last flag still needs its value. -/
def awaitsValue (p : Progress) : Bool := p.current.any (·.2.isNone)

/-- Reads a flag, with the value that is attached to it. -/
def take (p : Progress) (f : Flag) (attached : Option String) : Except UsageFault Progress :=
  match f.kind.takesValue, attached with
  | true, some text => do (← p.settle).keep f text
  | true, none => do .ok { (← p.settle) with current := some (f, none) }
  | false, some _ => .error .tooManyValues
  | false, none => do
    let p ← p.settle
    match f.kind with
    | .help => .error .help
    | .version => .error .version
    | _ => p.keep f "true"

/-- Reads the value of the last flag. -/
def takeValue (p : Progress) (text : String) : Progress :=
  { p with current := p.current.map fun c => (c.1, some text) }

end Progress

/-- The name of a long flag without its dashes, and the value attached to it. -/
def splitLong (word : List Char) : String × Option String :=
  let name := word.takeWhile (· != '=')
  (String.ofList name,
    if name.length < word.length then some (String.ofList (word.drop (name.length + 1))) else none)

/-- A value attached to a short flag; an equals sign before it does not count. -/
def attachedShort : List Char → Option String
  | [] => none
  | '=' :: rest => some (String.ofList rest)
  | rest => some (String.ofList rest)

/-- Reads short flags that stand in one word. -/
def Level.readShort (l : Level) (p : Progress) : List Char → Except UsageFault Progress
  | [] => .ok p
  | c :: rest =>
    match l.flags.find? (·.short == some c) with
    | none => .error .argumentUnknown
    | some f =>
      if f.kind.takesValue then p.take f (attachedShort rest)
      else do l.readShort (← p.take f none) rest

def Level.readLong (l : Level) (p : Progress) (word : List Char) : Except UsageFault Progress :=
  let (name, attached) := splitLong word
  match l.flags.find? (·.name == name) with
  | none => .error .argumentUnknown
  | some f => p.take f attached

/-- A word that is neither a flag nor a value. -/
def Level.stray (l : Level) (afterDashes : Bool) (word : String) : UsageFault :=
  if l.commands.isEmpty || (afterDashes && l.commands.contains word) then .argumentUnknown
  else .commandUnknown

/-- What a level ends with: the end of the command line, or a command. -/
structure LevelEnd where
  progress : Progress
  command : Option (String × List String) := none

/-- Reads one level. -/
def Level.read (l : Level) (p : Progress) : List String → Except UsageFault LevelEnd
  | [] => .ok { progress := p }
  | word :: rest =>
    if !p.awaitsValue && l.commands.contains word then .ok { progress := p, command := some (word, rest) }
    else if word = "--" then
      match rest with
      | [] => .ok { progress := p }
      | next :: _ => .error (l.stray true next)
    else
      match word.toList with
      | '-' :: '-' :: long => do l.read (← l.readLong p long) rest
      | '-' :: c :: short => do l.read (← l.readShort p (c :: short)) rest
      | _ => if p.awaitsValue then l.read (p.takeValue word) rest else .error (l.stray false word)

/-- The variables of the environment. -/
abbrev Environment := Dict String

/-- Takes the value of a flag from the environment. -/
def addVariable (environment : Environment) (values : Values) (f : Flag) : Except UsageFault Values :=
  match f.environment.bind environment.get? with
  | none => .ok values
  | some text =>
    if (values.find? f.name).isSome then .ok values
    else do .ok (values ++ [← f.check .environment text])

def addDefault (values : Values) (f : Flag) : Values :=
  match f.default with
  | none => values
  | some text => if (values.find? f.name).isSome then values else values ++ [⟨f.name, text, .default⟩]

/-- Completes a level with environment and defaults. -/
def Level.complete (l : Level) (environment : Environment) (p : Progress) :
    Except UsageFault Values := do
  let p ← p.settle
  let values ← l.flags.foldlM (addVariable environment) p.values
  .ok (l.flags.foldl addDefault values)

/-- Checks which flags are given together, and which have to be. -/
def Level.validate (l : Level) (values : Values) : Except UsageFault Unit :=
  if l.flags.any fun f => values.isExplicit f.name && f.excludes.any values.isExplicit then .error .conflict
  else if l.flags.any fun f => f.required && (values.find? f.name).isNone then .error .requiredMissing
  else .ok ()

/-- A flag that may stand on both levels: the inner value stands unless the outer one has the better
source. -/
def merge (outer inner : Values) (f : Flag) : Values :=
  match outer.find? f.name, inner.find? f.name with
  | some o, some i => [if o.source.rank > i.source.rank then o else i]
  | some o, none => [o]
  | none, i => i.toList

/-- What was read: the shared values, and a command with its own. -/
structure Reading where
  shared : Values
  command : String
  values : Values

namespace Grammar

def rootLevel (g : Grammar) : Level :=
  ⟨g.shared ++ [helpFlag, versionFlag], g.commands.map (·.name) ++ [helpCommand]⟩

def commandLevel (g : Grammar) (c : CommandGrammar) : Level := ⟨c.flags ++ g.shared ++ [helpFlag], []⟩

/-- Help on a command, by the words after `help`. -/
def helpFault (g : Grammar) : List String → UsageFault
  | [] => .help
  | [word] => if g.rootLevel.commands.contains word then .help else .commandUnknown
  | _ => .commandUnknown

def readCommand (g : Grammar) (environment : Environment) (name : String) (words : List String) :
    Except UsageFault Values :=
  match g.commands.find? (·.name == name) with
  | none => .error (if name = helpCommand then g.helpFault words else .commandUnknown)
  | some c => do
    let level := g.commandLevel c
    let reached ← level.read {} words
    let values ← level.complete environment reached.progress
    level.validate values
    .ok values

/-- The fault of a command line without a command. -/
def withoutCommand (values : Values) : UsageFault :=
  if values.any (·.source != .default) then .commandMissing else .nothingGiven

def read (g : Grammar) (environment : Environment) (words : List String) :
    Except UsageFault Reading := do
  let level := g.rootLevel
  let reached ← level.read {} words
  match reached.command with
  | none => do
    let values ← level.complete environment reached.progress
    .error (withoutCommand values)
  | some (name, rest) => do
    let inner ← g.readCommand environment name rest
    let outer ← level.complete environment reached.progress
    .ok { shared := g.shared.flatMap (merge outer inner), command := name, values := inner }

end Grammar

end Acceptance.CommandLine
