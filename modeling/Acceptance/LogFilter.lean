import Acceptance.Text.Blank
import Acceptance.Text.Split

/-!
# What the log shows

The environment may say what the log shows: directives with commas between them, each a level, the name
of a part of the program, or both. The most specific directive for a part counts, and the level of an
error is the last to be left out.

* `LogFilter.showsErrors`: whether errors of a part are shown.
-/

namespace Acceptance.LogFilter

/-- A part of the program, by the start of its name, and whether its errors are shown. -/
structure Directive where
  part : String := ""
  shows : Bool
  deriving DecidableEq, Repr

/-- Whether a level shows errors. -/
def level? (s : String) : Option Bool :=
  let name := String.ofList (s.toList.map Char.toLower)
  if name == "off" || name == "0" then some false
  else if ["error", "warn", "info", "debug", "trace", "1", "2", "3", "4", "5"].contains name then some true
  else none

def isPartChar (c : Char) : Bool := c.isAlphanum || c == '_' || c == ':' || c == '-'

def isPart (s : List Char) : Bool := !s.isEmpty && s.all isPartChar

def directive? (s : String) : Option Directive :=
  match level? s with
  | some shows => some { shows }
  | none =>
    let cs := s.toList
    let part := cs.takeWhile (· != '=')
    let level := cs.drop (part.length + 1)
    if !isPart part then none
    else if level.isEmpty then some ⟨String.ofList part, true⟩
    else (level? (String.ofList level)).map fun shows => ⟨String.ofList part, shows⟩

def splitCommas (s : String) : List String :=
  ((Text.split ',' s.toList).map fun p => String.ofList (Text.trim p)).filter (!·.isEmpty)

/-- Whether the directives show errors of a part; the last of two equally specific ones counts. -/
def decide? (directives : List Directive) (part : String) : Option Bool :=
  ((directives.filter fun d => d.part.toList.isPrefixOf part.toList).foldl (fun best d =>
    match best with
    | some (b : Directive) => if d.part.length ≥ b.part.length then some d else some b
    | none => some d) none).map Directive.shows

/-- Whether errors of a part are shown. Without directives they are, and also if one of them cannot be
read. -/
def showsErrors (directives : Option String) (part : String) : Bool :=
  match directives with
  | none => true
  | some text =>
    match (splitCommas text).mapM directive? with
    | none | some [] => true
    | some ds => (decide? ds part).getD false

end Acceptance.LogFilter
