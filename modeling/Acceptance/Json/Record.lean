import Acceptance.Json
import Acceptance.Decimal.Shortest
import Acceptance.Text.Quoted

/-!
# Records in JSON

How a record is read from a JSON value: from an object, where each field is found by its name and
other members are ignored, or from an array that lists the fields in their order. A field that is
not given keeps its default; `null` stands for an absent value only where the field is optional.
-/

namespace Acceptance.Json

/-- Why a value is not what was expected. -/
inductive Mismatch where
  | type (found expected : String)
  | length (found : Nat)
  /-- A field is given twice. -/
  | repeated (name : String)
  deriving DecidableEq, Repr

def Mismatch.message : Mismatch → String
  | .type found expected => s!"invalid type: {found}, expected {expected}"
  | .length found => s!"invalid length {found}, expected fewer elements in array"
  | .repeated name => s!"duplicate field `{name}`"

/-- What messages call a value. -/
def description : Json → String
  | .null => "null"
  | .bool true => "boolean `true`"
  | .bool false => "boolean `false`"
  | .number (.integer n) => s!"integer `{n}`"
  | .number (.real bits) => "floating point `" ++ Decimal.text bits ++ "`"
  | .string s => "string " ++ Text.quoted s
  | .array _ => "sequence"
  | .object _ => "map"

/-- How a part of a record is read. -/
abbrev Reading (α : Type) := Json → Except Mismatch α

namespace Reading

variable {α : Type}

def bool : Reading Bool
  | .bool b => .ok b
  | v => .error (.type v.description "a boolean")

def string : Reading String
  | .string s => .ok s
  | v => .error (.type v.description "a string")

/-- `null` is no value. -/
def optional (read : Reading α) : Reading (Option α)
  | .null => .ok none
  | v => (read v).map some

/-- The values of an object, in the order of their names. -/
def values (read : Reading α) : List (String × Json) → Except Mismatch (List (String × α))
  | [] => .ok []
  | (name, v) :: rest => do
    let value ← read v
    let others ← values read rest
    .ok ((name, value) :: others)

def dict (read : Reading α) : Reading (Dict α)
  | .object members => (values read members).map Dict.ofList
  | v => .error (.type v.description "a map")

/-- A field of a record: its name, and the record with what a value says about it. -/
structure RecordField (α : Type) where
  name : String
  set : α → Json → Except Mismatch α

def field {β : Type} (name : String) (read : Reading β) (put : α → β → α) : RecordField α :=
  ⟨name, fun record v => (read v).map (put record)⟩

/-- Sets the fields that the members name, none of them twice. -/
def setMembers (fields : List (RecordField α)) (record : α) (given : List String) :
    List (String × Json) → Except Mismatch α
  | [] => .ok record
  | (name, v) :: rest =>
    match fields.find? (·.name == name) with
    | none => setMembers fields record given rest
    | some f => do
      if given.contains name then .error (.repeated name)
      else setMembers fields (← f.set record v) (name :: given) rest

/-- A record that starts as `initial`. -/
def record (title : String) (fields : List (RecordField α)) (initial : α) : Reading α
  | .object members => setMembers fields initial [] members
  | .array items => do
    let filled ← (fields.zip items).foldlM (fun r f => f.1.set r f.2) initial
    if items.length ≤ fields.length then .ok filled else .error (.length items.length)
  | v => .error (.type v.description ("struct " ++ title))

end Reading

end Acceptance.Json
