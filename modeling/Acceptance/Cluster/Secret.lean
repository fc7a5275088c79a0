import Acceptance.Base64
import Acceptance.Credentials
import Acceptance.Json
import Acceptance.Text.Utf8

/-!
# Secrets and config maps

How the data of a secret is read, and the resources that a run publishes.
-/

namespace Acceptance.Cluster

/-- Name and namespace of a resource. -/
def identity (namespaceName name : String) : Json :=
  .ofMembers [("name", .string name), ("namespace", .string namespaceName)]

/-- A config map with one entry. -/
def configMap (namespaceName name key data : String) : Json :=
  .ofMembers [
    ("apiVersion", .string "v1"), ("kind", .string "ConfigMap"),
    ("metadata", identity namespaceName name), ("data", .ofMembers [(key, .string data)])]

def encodedText (s : String) : Json := .string (String.ofList (Base64.encode (Text.Utf8.encode s)))

def secret (namespaceName name : String) (data : SecretData) : Json :=
  .ofMembers [
    ("apiVersion", .string "v1"), ("kind", .string "Secret"),
    ("metadata", identity namespaceName name), ("type", .string "Opaque"),
    ("data", .ofDict encodedText data)]

/-- The text that an entry in base 64 stands for. -/
def decodedText? (value : Json) : Option String := do
  let encoded ← value.text?
  let bytes ← Base64.decode encoded.toList
  Text.Utf8.decode? bytes

/-- The entries as texts, or the key of the first that is none. -/
def decodedEntries : List (String × Json) → Except String (List (String × String))
  | [] => .ok []
  | (key, value) :: rest =>
    match decodedText? value with
    | some text => do
      let rest ← decodedEntries rest
      .ok ((key, text) :: rest)
    | none => .error key

def entriesOf (name : String) (value : Json) : List (String × Json) :=
  ((value.present? name).bind Json.members?).getD []

/-- The data of a secret. Entries that are plain text go over those in base 64. -/
def secretData (value : Json) : Except String SecretData := do
  let decoded ← decodedEntries (entriesOf "data" value)
  let plain := (entriesOf "stringData" value).filterMap fun e => e.2.text?.map (e.1, ·)
  .ok (.ofList (decoded ++ plain))

end Acceptance.Cluster
