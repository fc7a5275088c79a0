import Acceptance.Cluster.Fault
import Acceptance.Cluster.Schema

/-!
# Resources

The kinds of resources that a run deals with, and how the response that holds one is read. A response
may leave the kind out, but it may not name another one. Sites are read without a schema of their own,
since that belongs to whoever defines them.
-/

namespace Acceptance.Cluster

/-- A kind of resource, with its fields besides the names of the kind. -/
structure Kind where
  apiVersion : String
  name : String
  fields : List (String × Schema)

open Schema

def ownerReference : Schema := record [
  ("apiVersion", word), ("blockOwnerDeletion", flag), ("controller", flag), ("kind", word),
  ("name", word), ("uid", word)]

def managedField : Schema := record [
  ("apiVersion", text), ("fieldsType", text), ("fieldsV1", any), ("manager", text),
  ("operation", text), ("subresource", text), ("time", time)]

def objectMeta : Schema := record [
  ("annotations", dict text), ("creationTimestamp", time), ("deletionGracePeriodSeconds", number64),
  ("deletionTimestamp", time), ("finalizers", texts), ("generateName", text),
  ("generation", number64), ("labels", dict text), ("managedFields", list managedField),
  ("name", text), ("namespace", text), ("ownerReferences", list ownerReference),
  ("resourceVersion", text), ("selfLink", text), ("uid", text)]

def listMeta : Schema := record [
  ("continue", text), ("remainingItemCount", number64), ("resourceVersion", text),
  ("selfLink", text)]

def secretKind : Kind := ⟨"v1", "Secret", [
  ("data", dict bytes), ("immutable", flag), ("metadata", objectMeta), ("stringData", dict text),
  ("type", text)]⟩

def configMapKind : Kind := ⟨"v1", "ConfigMap", [
  ("binaryData", dict bytes), ("data", dict text), ("immutable", flag), ("metadata", objectMeta)]⟩

/-- A condition, with the point in time at which it was looked at under the given name. -/
def condition (looked : String) : Schema := record [
  (looked, time), ("lastTransitionTime", time), ("message", text), ("observedGeneration", number64),
  ("reason", text), ("status", word), ("type", word)]

def containerState : Schema := record [
  ("running", record [("startedAt", time)]),
  ("terminated", record [
    ("containerID", text), ("exitCode", orElse (.nat 0) number32), ("finishedAt", time),
    ("message", text), ("reason", text), ("signal", number32), ("startedAt", time)]),
  ("waiting", record [("message", text), ("reason", text)])]

def containerStatus : Schema := record [
  ("allocatedResources", dict text), ("containerID", text), ("image", word), ("imageID", word),
  ("lastState", containerState), ("name", word), ("ready", orElse (.bool false) flag),
  ("restartCount", orElse (.nat 0) number32), ("started", flag), ("state", containerState)]

def addresses : Schema := list (record [("ip", word)])

def podStatus : Schema := record [
  ("conditions", list (condition "lastProbeTime")), ("containerStatuses", list containerStatus),
  ("ephemeralContainerStatuses", list containerStatus), ("hostIP", text), ("hostIPs", addresses),
  ("initContainerStatuses", list containerStatus), ("message", text), ("nominatedNodeName", text),
  ("phase", text), ("podIP", text), ("podIPs", addresses), ("qosClass", text), ("reason", text),
  ("resize", text), ("startTime", time)]

/-- What a run does not look into. -/
def anyRecord : Schema := record []

def podKind : Kind := ⟨"v1", "Pod", [
  ("metadata", objectMeta), ("spec", anyRecord), ("status", podStatus)]⟩

def jobSpec : Schema := record [
  ("activeDeadlineSeconds", number64), ("backoffLimit", number32), ("backoffLimitPerIndex", number32),
  ("completionMode", text), ("completions", number32), ("managedBy", text), ("manualSelector", flag),
  ("maxFailedIndexes", number32), ("parallelism", number32), ("podFailurePolicy", anyRecord),
  ("podReplacementPolicy", text), ("selector", anyRecord), ("successPolicy", anyRecord),
  ("suspend", flag), ("template", record [("metadata", objectMeta), ("spec", anyRecord)]),
  ("ttlSecondsAfterFinished", number32)]

def jobStatus : Schema := record [
  ("active", number32), ("completedIndexes", text), ("completionTime", time),
  ("conditions", list (condition "lastProbeTime")), ("failed", number32), ("failedIndexes", text),
  ("ready", number32), ("startTime", time), ("succeeded", number32), ("terminating", number32),
  ("uncountedTerminatedPods", record [("failed", texts), ("succeeded", texts)])]

def jobKind : Kind := ⟨"batch/v1", "Job", [
  ("metadata", objectMeta), ("spec", jobSpec), ("status", jobStatus)]⟩

/-- Whether a value names something else under `name`. -/
def contradicts (name expected : String) (value : Json) : Bool :=
  match value.member? name with
  | some v => v.text? != some expected
  | none => false

def Kind.read? (kind : Kind) (value : Json) : Option Json :=
  if contradicts "apiVersion" kind.apiVersion value || contradicts "kind" kind.name value then none
  else (record kind.fields).read? value

/-- Reads a list of resources. Its items must be given, though they may be `null`. -/
def Kind.readList? (kind : Kind) (value : Json) : Option (List Json) := do
  let members ← value.members?
  let _ ← listMeta.read? ((entryAt? "metadata" members).getD (.object []))
  match ← entryAt? "items" members with
  | .null => some []
  | items => (← items.items?).mapM kind.read?

/-- The names of the kind, if the resource gives both. If it gives no more than one, that is
dropped; a version that is no text is dropped alone. -/
def declared (members : List (String × Json)) : List (String × Json) :=
  let others := members.filter fun m => m.1 != "apiVersion" && m.1 != "kind"
  match entryAt? "apiVersion" members, entryAt? "kind" members with
  | some (.string version), some (.string kind) =>
    ("apiVersion", .string version) :: ("kind", .string kind) :: others
  | some (.string _), _ | none, _ => others
  | some _, kind => (kind.map ("kind", ·)).toList ++ others

/-- Reads a resource of a kind with no schema here. All but its metadata stays as it is. -/
def readUntyped? (value : Json) : Option Json := do
  let members ← value.members?
  let metadata ← objectMeta.read? ((entryAt? "metadata" members).getD (.object []))
  some (.ofMembers (declared members ++ [("metadata", metadata)]))

open Json.Reading in
/-- Whether a value reads as the report of a deletion. -/
def isStatus (value : Json) : Bool :=
  let ignore {α : Type} : Unit → α → Unit := fun _ _ => ()
  let cause := record "StatusCause" [
    field "reason" string ignore, field "message" string ignore, field "field" string ignore] ()
  let number : Json.Reading Unit := fun v =>
    match readWhole? 0 4294967295 v with
    | some _ => .ok ()
    | none => .error (.type v.description "u32")
  let causes : Json.Reading Unit := fun v =>
    match v.items? with
    | some items => (items.mapM cause).map fun _ => ()
    | none => .error (.type v.description "a sequence")
  let details := record "StatusDetails" [
    field "name" string ignore, field "group" string ignore, field "kind" string ignore,
    field "uid" string ignore, field "causes" causes ignore,
    field "retryAfterSeconds" number ignore] ()
  let summary : Json.Reading Unit := fun v =>
    if v matches .string "Success" || v matches .string "Failure" then .ok ()
    else .error (.type v.description "a summary")
  let status := record "Status" [
    field "status" (optional summary) ignore, field "code" readCode ignore,
    field "message" string ignore, field "reason" string ignore,
    field "details" (optional details) ignore] ()
  (status value).isOk

/-- Whether a value reads as the answer to a deletion: what was deleted, or a report. -/
def Kind.isDeletion (kind : Kind) (value : Json) : Bool :=
  if (value.member? "kind").bind Json.text? == some "Status" then isStatus value
  else (kind.read? value).isSome

end Acceptance.Cluster
