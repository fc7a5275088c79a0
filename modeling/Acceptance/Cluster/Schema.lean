import Acceptance.Base64
import Acceptance.Cluster.Timestamp
import Acceptance.Json

/-!
# Schemas of resources

What the fields of a resource may hold. Reading a value by a schema refuses what does not fit and
leaves out what the schema does not know; a field that is `null` counts as not given.

* `Schema.read?`: the value as the schema sees it.
-/

namespace Acceptance.Cluster

inductive Schema where
  | any
  | text
  | flag
  /-- A whole number from `low` to `high`. -/
  | whole (low high : Int)
  | time
  /-- Bytes in base 64; `null` stands for none. -/
  | bytes
  | list (item : Schema)
  /-- An object with any names. -/
  | dict (value : Schema)
  | record (fields : List (String × Schema))
  /-- A field that holds `value` where it is not given. -/
  | orElse (value : Json) (schema : Schema)
  deriving Inhabited

namespace Schema

def number32 : Schema := whole (-2147483648) 2147483647

def number64 : Schema := whole (-9223372036854775808) 9223372036854775807

def texts : Schema := list text

/-- A text that is always there. -/
def word : Schema := orElse (.string "") text

/-- What a field holds that is not given. -/
def default? : Schema → Option Json
  | orElse value _ => some value
  | _ => none

def readText? : Json → Option Json
  | .string s => some (.string s)
  | _ => none

def readFlag? : Json → Option Json
  | .bool b => some (.bool b)
  | _ => none

def readWhole? (low high : Int) : Json → Option Json
  | .number (.integer n) => if low ≤ n && n ≤ high then some (.number (.integer n)) else none
  | _ => none

def readTime? : Json → Option Json
  | .string s => (Timestamp.parse? s).map fun t => .string t.text
  | _ => none

def readBytes? : Json → Option Json
  | .string s => (Base64.decode s.toList).map fun _ => .string s
  | .null => some (.string "")
  | _ => none

/-- The values of an object, each read the same way. -/
def readValues? (read : Json → Option Json) :
    List (String × Json) → Option (List (String × Json))
  | [] => some []
  | (name, v) :: rest => do
    let v ← read v
    let rest ← readValues? read rest
    some ((name, v) :: rest)

mutual

def read? : Schema → Json → Option Json
  | any, v => some v
  | text, v => readText? v
  | flag, v => readFlag? v
  | whole low high, v => readWhole? low high v
  | time, v => readTime? v
  | bytes, v => readBytes? v
  | list item, v => do
    let items ← v.items?
    let items ← items.mapM (read? item)
    some (.array items)
  | dict value, v => do
    let members ← v.members?
    let members ← readValues? (read? value) members
    some (.object members)
  | record fields, v => do
    let members ← v.members?
    let members ← readFields? fields members
    some (.ofMembers members)
  | orElse _ schema, v => read? schema v

def readFields? : List (String × Schema) → List (String × Json) →
    Option (List (String × Json))
  | [], _ => some []
  | field :: rest, members => do
    let first ← readField? field members
    let rest ← readFields? rest members
    some (first ++ rest)

def readField? : String × Schema → List (String × Json) → Option (List (String × Json))
  | (name, schema), members =>
    match entryAt? name members with
    | none | some .null => some ((schema.default?.map (name, ·)).toList)
    | some v => do
      let v ← read? schema v
      some [(name, v)]

end

end Schema

end Acceptance.Cluster
