import Acceptance.Call
import Acceptance.Clock
import Acceptance.TestCommand

/-!
# Runs on this machine

The program that runs the suite on this machine: how it is started, and what its end says about the
tests. The credentials are in its environment, not among its arguments.

* `LocalRunner.reaction`: the whole call, from the start to the verdict.
-/

namespace Acceptance

/-- A program, with its arguments and what is added to its environment. -/
structure Launch where
  program : String
  arguments : List String
  exported : List (String × String)
  /-- What the file holds that the arguments name first, if it is there. -/
  config : Option String
  deriving DecidableEq, Repr

namespace Launch

def variablesOf : Option Credentials → List (String × String)
  | some c => [(TestCommand.usernameVariable, c.username), (TestCommand.passwordVariable, c.password)]
  | none => []

def ofInvocation (program : String) (i : LocalInvocation) : Launch where
  program
  arguments := TestCommand.arguments i.configPath i.category
  exported := variablesOf i.credentials
  config := i.config

/-- All texts that are handed to the system. -/
def texts (l : Launch) : List String := l.program :: l.arguments ++ l.exported.map (·.2)

/-- The system ends a text at its first NUL, so that there must be none. -/
def hasNul (l : Launch) : Bool := l.texts.any fun t => t.toList.contains '\x00'

end Launch

/-- How a program ended. -/
inductive ProgramEnd where
  | exited (code : Nat)
  | killed (signal : Nat)
  deriving DecidableEq, Repr

/-- Signals in the order of their numbers, from 1. -/
def signalNames : List String := [
  "SIGHUP", "SIGINT", "SIGQUIT", "SIGILL", "SIGTRAP", "SIGABRT", "SIGBUS", "SIGFPE", "SIGKILL",
  "SIGUSR1", "SIGSEGV", "SIGUSR2", "SIGPIPE", "SIGALRM", "SIGTERM", "SIGSTKFLT", "SIGCHLD",
  "SIGCONT", "SIGSTOP", "SIGTSTP", "SIGTTIN", "SIGTTOU", "SIGURG", "SIGXCPU", "SIGXFSZ",
  "SIGVTALRM", "SIGPROF", "SIGWINCH", "SIGIO", "SIGPWR", "SIGSYS"]

namespace ProgramEnd

def text : ProgramEnd → String
  | exited code => s!"exit status: {code}"
  | killed signal =>
    match signal with
    | 0 => "signal: 0"
    | n + 1 =>
      match signalNames[n]? with
      | some name => s!"signal: {signal} ({name})"
      | none => s!"signal: {signal}"

/-- What the end says about the tests: only a program that exits with zero has passed. -/
def verdict : ProgramEnd → Except Error Unit
  | exited 0 => .ok ()
  | e => .error (.testsFailed e.text)

end ProgramEnd

/-- A program that has been started. -/
structure Started where
  /-- How long it runs; `none` if it does not end. -/
  lasts : Option Nat
  ending : ProgramEnd
  /-- Whether it interrupts the run right at its start. -/
  interrupts : Bool := false
  deriving DecidableEq, Repr

/-- What starts programs, or says why it does not. -/
class Launcher (ρ : Type) where
  start : ρ → Launch → Except String Started × ρ

namespace LocalRunner

def notStarted (program why : String) : Error :=
  .config s!"failed to start test runner {program}: {why}"

/-- Starts the program. Once started it takes time, so that a run that is cancelled already is cut
short. -/
def reactionTo (program : String) : Except String Started → Reaction Unit
  | .error why => { answer := .error (notStarted program why) }
  | .ok s => {
    cancels := s.interrupts
    lasts := s.lasts.map (max 1 ·)
    answer := s.ending.verdict
    whenStopped := [.runnerStopped program] }

def reaction {ρ : Type} [Launcher ρ] (program : String) (i : LocalInvocation) (r : ρ) :
    Reaction Unit × ρ :=
  let launch := Launch.ofInvocation program i
  if launch.hasNul then (reactionTo program (.error "nul byte found in provided data"), r)
  else
    let (started, r) := Launcher.start r launch
    (reactionTo program started, r)

end LocalRunner

end Acceptance
