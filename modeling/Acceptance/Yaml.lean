import Acceptance.Yaml.Node
import Acceptance.Yaml.Scalar
import Acceptance.Yaml.Token.Lexer

/-!
# Manifests in YAML

A manifest holds one document, which `Yaml.parse?` reads as a JSON value. Keys are texts whatever
they look like, and of two with one text the later stands. Tags of an application have no value
here.
-/

namespace Acceptance.Yaml

/-- How deep sequences and mappings may nest. -/
def maxDepth : Nat := 128

def key? : Node → Option String
  | .scalar _ _ text => some text
  | _ => none

def admits (tag : Option String) : Bool := !tag.any Scalar.isLocalTag

/-- The value of a node in which collections nest at most `depth` deep. -/
def Node.toJson? (depth : Nat) (n : Node) : Option Json :=
  match n with
  | .scalar tag plain text => Scalar.value? tag plain text
  | .sequence tag items =>
    match depth with
    | 0 => none
    | depth + 1 =>
      if admits tag then (items.mapM (Node.toJson? depth)).map .array else none
  | .mapping tag entries =>
    match depth with
    | 0 => none
    | depth + 1 =>
      if admits tag then do
        let members ← entries.mapM fun e => do
          let name ← key? e.1
          let value ← Node.toJson? depth e.2
          some (name, value)
        some (.ofMembers members)
      else none

/-- Reads a manifest; an empty one is `null`. -/
def parse? (s : String) : Option Json := do
  match ← Node.ofTokens? (← Token.ofText? s) with
  | none => some .null
  | some n => n.toJson? maxDepth

end Acceptance.Yaml
