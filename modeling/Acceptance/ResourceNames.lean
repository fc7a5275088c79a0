import Acceptance.Text.Quoted
import Acceptance.Text.Blank

/-!
# Names of a run's resources

Several operators may verify sites in one namespace at once, so the name of each resource of a run
carries the second in which the run started and a random token.
-/

namespace Acceptance

/-- Label values, and so job names, have at most 63 bytes. -/
def maxNameLength : Nat := 63

/-- Random bytes in a name. -/
def tokenBytes : Nat := 4

/-- Lower-case hexadecimal, two digits for each byte. -/
def hex (bytes : List UInt8) : String :=
  String.ofList (bytes.flatMap fun b =>
    [Text.hexDigit (b.toNat / 16), Text.hexDigit (b.toNat % 16)])

/-- A letter in lower case or a digit as it is, anything else a dash. -/
def labelChar (c : Char) : Char :=
  let c := c.toLower
  if c.isLower || c.isDigit then c else '-'

/-- The text as a label, without dashes at its start. -/
def normalized (stem : String) : List Char :=
  (stem.toList.map labelChar).dropWhile (· == '-')

/-- `<role>-<timestamp>-<token>`: the part of a name that is never shortened. -/
def nameTail (role : String) (timestamp : Int) (token : String) : String :=
  s!"{role}-{timestamp}-{token}"

/-- The part of a name that shows whose it is: as much of the stem as leaves room for `tail`. -/
def nameHead (stem tail : String) : List Char :=
  Text.dropEndWhile (· == '-')
    ((normalized stem).take (maxNameLength - (tail.utf8ByteSize + 1)))

/-- `<stem>-<role>-<timestamp>-<token>`, with the stem shortened to fit. -/
def uniqueName (stem role : String) (timestamp : Int) (token : String) : String :=
  let tail := nameTail role timestamp token
  match nameHead stem tail with
  | [] => tail
  | head => String.ofList head ++ "-" ++ tail

/-- The resources that a run creates and removes. -/
structure ResourceNames where
  configMap : String
  job : String
  deriving DecidableEq, Repr

/-- The names for a start time and the random bytes of each name. -/
def ResourceNames.ofTokens (stem : String) (timestamp : Int) (configToken jobToken : List UInt8) :
    ResourceNames where
  configMap := uniqueName stem "config" timestamp (hex configToken)
  job := uniqueName stem "job" timestamp (hex jobToken)

end Acceptance
