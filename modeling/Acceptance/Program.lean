import Acceptance.Collaborators
import Acceptance.Command
import Acceptance.Kubeconfig

/-!
# The program

What the program does for a command line: it finds the cluster, carries out the command and prints a
rendered configuration. A configuration that is rendered from a file needs no cluster.

* `Program.perform`: carries out a command;
* `Program.failureText`, `Program.failureJson`: how the log shows that it failed.
-/

namespace Acceptance.Program

/-- What `--version` prints. -/
def versionText : String := "vip 0.1.0\n"

variable {κ ι ρ : Type} [Http.Transport κ] [Http.Transport ι] [Launcher ρ]

/-- A part of the program. -/
abbrev Step (κ ι ρ α : Type) := Task (Collaborators κ ι ρ) α

/-- Finds the cluster. -/
def connect (environment : CommandLine.Environment) (shared : SharedArguments) : Step κ ι ρ Unit := do
  let s ← Task.session
  let _ ← Task.ofExcept (Kubeconfig.connect environment s.files shared.kubeconfig shared.context)

/-- Prepares the collaborators for a run. A pod is looked at once a second, so that one need not look
more often than the job has seconds. -/
def prepare (runner : String) (settings : RunSettings) : Step κ ι ρ Unit := fun s =>
  (.value (), { s with party := { s.party with
    program := runner, looks := Duration.seconds settings.observer.jobTimeout + 2 } })

/-- A rendered configuration is printed if it has not gone into a file. -/
def printed : RunMode → RunOutcome → Option String
  | .configOnly none, .configRendered text => some text
  | _, _ => none

def renderFile (settings : RunSettings) (path : String) (output : Option String) :
    Step κ ι ρ (Option String) := do
  let s ← Task.session
  let site ← Task.ofExcept (Run.readSiteFile s.files path)
  let text := Run.renderConfig site settings
  Run.emit output text
  pure (printed settings.mode (.configRendered text))

def run (environment : CommandLine.Environment) (shared : SharedArguments) (a : RunArguments) :
    Step κ ι ρ (Option String) := do
  let settings ← Task.ofExcept a.settings
  match settings.site, settings.mode with
  | .file path, .configOnly output => renderFile settings path output
  | _, _ => do
    connect environment shared
    prepare a.runner settings
    let outcome ← Run.run settings
    pure (printed settings.mode outcome)

def cleanUp (environment : CommandLine.Environment) (shared : SharedArguments)
    (a : CleanupArguments) : Step κ ι ρ (Option String) := do
  connect environment shared
  Cleanup.run a.namespaceName ⟨a.configMap, a.job⟩ a.timeout
  pure none

/-- Carries out a command; the value is what is printed at the end. -/
def perform (environment : CommandLine.Environment) (i : Invocation) : Step κ ι ρ (Option String) :=
  match i.command with
  | .run a => run environment i.shared a
  | .render a => run environment i.shared a.rendering
  | .cleanup a => cleanUp environment i.shared a

/-- The line of the log that says why the program failed, after its time. -/
def failureText (e : Error) : String :=
  "ERROR vip failed kind=" ++ Text.quoted e.kind ++ " error=" ++ e.message

def failureJson (e : Error) : Json :=
  .ofMembers [("level", .string "ERROR"), ("fields", .ofMembers [
    ("message", .string "vip failed"), ("kind", .string e.kind), ("error", .string e.message)])]

end Acceptance.Program
