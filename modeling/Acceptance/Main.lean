import Acceptance.LogFilter
import Acceptance.Program

/-!
# Command line

Reads the command line, the environment and the files that the command names, carries out the command,
and writes what it leaves. Neither a network nor other programs can be reached from here, so that only
what needs none of them succeeds.
-/

open Acceptance

namespace Acceptance.Main

/-- Stands for a network and for programs that cannot be reached. -/
structure OutOfReach where

instance : Http.Transport OutOfReach where
  send o _ := (.error "no network can be reached", o)

instance : Launcher OutOfReach where
  start o _ := (.error "programs cannot be started", o)

/-- The variables that the program looks at. -/
def variableNames : List String :=
  (Command.sharedFlags ++ Command.runFlags).filterMap (·.environment) ++
    ["VIP_KUBECONFIG", "VIP_LOG", "KUBECONFIG", "HOME"]

def readEnvironment : IO CommandLine.Environment := do
  let mut found : List (String × String) := []
  for name in variableNames do
    if let some text ← IO.getEnv name then
      found := (name, text) :: found
  return .ofList found

/-- The paths of files that a command reads. -/
def inputPaths (environment : CommandLine.Environment) (i : Invocation) : List String :=
  let site := match i.command with
    | .run a | .render a => a.siteFile.toList
    | .cleanup _ => []
  site ++ (Kubeconfig.path? environment i.shared.kubeconfig).toList

/-- The path of the file that a command writes. -/
def outputPath? (i : Invocation) : Option String :=
  match i.command with
  | .run a | .render a => a.output
  | .cleanup _ => none

/-- What is in the file that a path leads to, if it can be read. -/
def readBytes (path : String) : IO (Option Text.Utf8.Bytes) := do
  try
    return some (← IO.FS.readBinFile path).data.toList
  catch _ => return none

/-- The files that the paths lead to. -/
def readFiles (paths : List String) : IO Files := do
  let mut files : Files := {}
  for path in paths do
    if let some bytes ← readBytes path then
      files := { files with entries := files.entries.insert path bytes }
  return files

/-- Makes room for an output file. Whether it can be written shows at the end. -/
def makeRoom (output : Option String) (files : Files) : Files :=
  match output with
  | none => files
  | some path =>
    if (files.entries.get? path).isSome then files
    else { files with entries := files.entries.insert path [] }

def usage : String :=
  "VIP - verify a deployed site end to end\n\nUsage: vip <run|render|cleanup> [OPTIONS]\n"

def reportUsage (fault : CommandLine.UsageFault) : IO UInt32 := do
  let out ← IO.getStdout
  let err ← IO.getStderr
  match fault with
  | .help => out.putStr usage
  | .version => out.putStr Program.versionText
  | fault => err.putStrLn ((fault.message?.getD "error: the command line cannot be read") ++ "\n\n" ++ usage)
  return fault.exitCode.toUInt32

def report (environment : CommandLine.Environment) (json : Bool) (e : Error) : IO UInt32 := do
  if LogFilter.showsErrors (environment.get? "VIP_LOG") "vip" then
    let err ← IO.getStderr
    err.putStrLn (if json then (Program.failureJson e).text else Program.failureText e)
  return e.exitCode.toUInt32

/-- Writes what the command has put into its output file. -/
def writeOutput (i : Invocation) (before after : Files) : IO Unit := do
  if let some path := outputPath? i then
    if let some bytes := after.entries.get? path then
      if before.entries.get? path != some bytes then
        IO.FS.writeBinFile path ⟨bytes.toArray⟩

/-- Why a file cannot be written. -/
def writeFault : IO.Error → Error
  | .noFileOrDirectory .. => .io FileFault.missing.message
  | .permissionDenied .. => .io FileFault.denied.message
  | e => .io (toString e)

def carryOut (environment : CommandLine.Environment) (i : Invocation) : IO UInt32 := do
  let files := makeRoom (outputPath? i) (← readFiles (inputPaths environment i))
  let entropy ← IO.getRandomBytes 4096
  let party : Collaborators OutOfReach OutOfReach OutOfReach :=
    { cluster := { transport := {} }, identity := {}, launcher := {} }
  let (ending, s) := Program.perform environment i { party, files, entropy := entropy.data.toList }
  match ending with
  | .value printed =>
    (← IO.getStdout).putStr (printed.getD "")
    try
      writeOutput i files s.files
      return 0
    catch e => report environment i.shared.json (writeFault e)
  | .error e => report environment i.shared.json e
  | .crashed =>
    (← IO.getStderr).putStrLn "overflow when adding a duration to an instant"
    return 101
  | _ => return 1

end Acceptance.Main

def main (words : List String) : IO UInt32 := do
  let environment ← Main.readEnvironment
  match Invocation.parse environment words with
  | .error fault => Main.reportUsage fault
  | .ok i => Main.carryOut environment i
