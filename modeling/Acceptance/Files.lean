import Acceptance.Dict
import Acceptance.Text.Split
import Acceptance.Text.Utf8

/-!
# Files of a run

The files that a run reads and writes, by path: those of the work directory, and the temporary ones
that a run makes for itself and removes.
-/

namespace Acceptance

/-- Why a file cannot be read or written. -/
inductive FileFault where
  | missing
  | denied
  | notDirectory
  | isDirectory
  | nulInName
  | notText
  deriving DecidableEq, Repr

def FileFault.message : FileFault → String
  | .missing => "No such file or directory (os error 2)"
  | .denied => "Permission denied (os error 13)"
  | .notDirectory => "Not a directory (os error 20)"
  | .isDirectory => "Is a directory (os error 21)"
  | .nulInName => "file name contained an unexpected NUL byte"
  | .notText => "stream did not contain valid UTF-8"

structure Files where
  /-- Files of the work directory, which holds no further directories. -/
  entries : Dict Text.Utf8.Bytes := .empty
  temporary : Dict String := .empty

namespace Files

/-- What a path says about the file that it leads to. -/
inductive Place where
  /-- An entry of the work directory. -/
  | entry (name : String)
  | directory
  | fault (f : FileFault)

def isHere (part : List Char) : Bool := part.isEmpty || part == ['.']

/-- Where a path leads. A path that is an entry as it stands leads there; otherwise no directory but
this one is known, and a file is no directory. -/
def place (f : Files) (path : String) : Place :=
  let cs := path.toList
  if (f.entries.get? path).isSome then .entry path
  else if cs.isEmpty then .fault .missing
  else if cs.contains '\x00' then .fault .nulInName
  else
    let ps := Text.split '/' cs
    match ps.filter (fun p => !isHere p) with
    | [] => .directory
    | [name] =>
      let name := String.ofList name
      if cs.head? == some '/' then .fault .missing
      else if ps.getLast?.any isHere then
        if (f.entries.get? name).isSome then .fault .notDirectory else .fault .missing
      else .entry name
    | first :: _ =>
      if (f.entries.get? (String.ofList first)).isSome then .fault .notDirectory
      else .fault .missing

def read (f : Files) (path : String) : Except FileFault Text.Utf8.Bytes :=
  match f.place path with
  | .fault fault => .error fault
  | .directory => .error .isDirectory
  | .entry name =>
    match f.entries.get? name with
    | some bytes => .ok bytes
    | none => .error .missing

def readText (f : Files) (path : String) : Except FileFault String := do
  match Text.Utf8.decode? (← f.read path) with
  | some text => .ok text
  | none => .error .notText

def write (f : Files) (path text : String) : Except FileFault Files :=
  match f.place path with
  | .fault fault => .error fault
  | .directory => .error .isDirectory
  | .entry name => .ok { f with entries := f.entries.insert name (Text.Utf8.encode text) }

end Files

end Acceptance
