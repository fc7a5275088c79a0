import Acceptance.Dict

/-!
# JSON values

The form in which the cluster, the identity provider and site manifests hand over their data.
Members of an object made by `ofMembers` stand in ascending order of their names, one for each name.
-/

namespace Acceptance

/-- A whole number within 64 bits, signed or not, or a binary fraction by its bits. -/
inductive JsonNumber where
  | integer (value : Int)
  | real (bits : UInt64)
  deriving DecidableEq, Repr, Inhabited

inductive Json where
  | null
  | bool (value : Bool)
  | number (value : JsonNumber)
  | string (text : String)
  | array (items : List Json)
  | object (members : List (String × Json))
  deriving Inhabited, Repr

namespace Json

/-- Whole numbers without a sign lie below this. -/
def unsignedLimit : Nat := 18446744073709551616

/-- Whole numbers with a sign lie below this, and not below its negative. -/
def signedLimit : Nat := 9223372036854775808

def nat (n : Nat) : Json := .number (.integer n)

/-- The object with the given members; of two with one name, the later stands. -/
def ofMembers (members : List (String × Json)) : Json :=
  .object (members.foldl (fun sorted m => insertEntry m.1 m.2 sorted) [])

/-- The object with the members that are present. -/
def ofPresent (members : List (String × Option Json)) : Json :=
  ofMembers (members.filterMap fun m => m.2.map (m.1, ·))

def ofDict {α : Type} (f : α → Json) (d : Dict α) : Json :=
  .object (d.map fun _ v => f v).entries

/-- The text, or `null` if there is none. -/
def ofOption (s : Option String) : Json := (s.map Json.string).getD .null

/-- A member of an object. -/
def member? (name : String) : Json → Option Json
  | .object members => entryAt? name members
  | _ => none

/-- A member that is there and not `null`. -/
def present? (name : String) (value : Json) : Option Json :=
  match value.member? name with
  | some .null | none => none
  | some v => some v

def text? : Json → Option String
  | .string s => some s
  | _ => none

def items? : Json → Option (List Json)
  | .array items => some items
  | _ => none

def members? : Json → Option (List (String × Json))
  | .object members => some members
  | _ => none

end Json

end Acceptance
