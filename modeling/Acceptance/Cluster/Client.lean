import Acceptance.Call
import Acceptance.Clock
import Acceptance.Cluster.Pod
import Acceptance.Cluster.Resource
import Acceptance.Cluster.Secret
import Acceptance.Json.Printer

/-!
# Calls to the cluster

The requests by which the calls to the cluster are made, and what is made of the responses. A run
publishes by server side apply, in its own name and over other owners; it deletes in the background,
and what is already gone counts as deleted.
-/

namespace Acceptance.Cluster

open Http

/-- A link to the cluster, with the lines that were printed from the output of pods, the last
first. -/
structure Connection (τ : Type) where
  transport : τ
  printed : List String := []

namespace Connection

variable {τ : Type} [Transport τ]

instance : Transport (Connection τ) where
  send c request :=
    let (response, transport) := Transport.send c.transport request
    (response, { c with transport })

end Connection

/-- A step of a call to the cluster. -/
abbrev Step (τ α : Type) := Exchange (Connection τ) Fault α

namespace Client

variable {τ : Type} [Transport τ]

def json (value : Json) : Body := ⟨"application/json", value.text⟩

/-- Sends a request to a target; a failure that the API reports is a fault. -/
def send (method : Method) (target : Except RequestFault String) (body : Option Body) :
    Step τ Response := do
  let target ← .ofExcept (target.mapError .request)
  let response ← (Exchange.send { method, target, body }).mapError .transport
  .ofExcept (accepted response)

/-- The response as a value. -/
def readValue (response : Response) : Except Fault Json := do
  let text ← bodyText response.body
  match Json.parse? text with
  | some value => .ok value
  | none => .error (.unexpected "not JSON")

/-- What a reader makes of the response. -/
def readAs {α : Type} (read : Json → Option α) (response : Response) : Except Fault α := do
  match read (← readValue response) with
  | some a => .ok a
  | none => .error (.unexpected "not the resource")

def get {α : Type} (type : ResourceType) (read : Json → Option α) (namespaceName name : String) :
    Step τ α := do
  let response ← send .get (named type namespaceName name "") none
  .ofExcept (readAs read response)

/-- Publishes a resource in the name of the runs, over what others have set. -/
def apply (type : ResourceType) (kind : Kind) (namespaceName name : String) (value : Json) :
    Step τ Unit := do
  let query := form [("force", "true"), ("fieldManager", "vip")]
  let response ← send .patch (named type namespaceName name ("?" ++ query))
    (some ⟨"application/apply-patch+yaml", value.text⟩)
  let _ ← .ofExcept (readAs kind.read? response)

def create (type : ResourceType) (kind : Kind) (namespaceName : String) (value : Json) :
    Step τ Unit := do
  let response ← send .post (target (collection type namespaceName ++ "?")) (some (json value))
  let _ ← .ofExcept (readAs kind.read? response)

/-- Pods with a label, by their names. -/
def labelled (namespaceName label value : String) : Step τ (List Json) := do
  let query := form [("labelSelector", label ++ "=" ++ value)]
  let response ← send .get (target (collection pods namespaceName ++ "?" ++ query)) none
  .ofExcept (readAs podKind.readList? response)

/-- Deletes a resource; one that is gone is no fault. -/
def delete (type : ResourceType) (kind : Kind) (options : List (String × Json))
    (namespaceName name : String) : Step τ Unit := fun c =>
  let deletion : Step τ Unit := do
    let response ← send .delete (named type namespaceName name "") (some (json (.ofMembers options)))
    .ofExcept (readAs (fun v => if kind.isDeletion v then some () else none) response)
  match deletion c with
  | (.error fault, c) => (if fault.isNotFound then .ok () else .error fault, c)
  | r => r

/-- What a lookup finds, if it is there. -/
def found? {α : Type} : Except Fault α → Except Fault (Option α)
  | .ok a => .ok (some a)
  | .error fault => if fault.isNotFound then .ok none else .error fault

/-- A resource within a namespace, as messages name it. -/
def place (namespaceName name : String) : String := s!"{namespaceName}/{name}"

def fail (operation subject : String) (fault : Fault) : Error :=
  .controlPlane operation (subject ++ ": " ++ fault.message)

def siteFault (site : SiteRef) (fault : Fault) : Error :=
  let subject := site.kind ++ " " ++ place site.namespaceName site.name
  if fault.isNotFound then .config (subject ++ " not found") else fail "get site" subject fault

def getSite (site : SiteRef) : Exchange (Connection τ) Error Json :=
  (get (siteType site) readUntyped? site.namespaceName site.name).mapError (siteFault site)

def applyConfigMap (ns name key data : String) : Exchange (Connection τ) Error Unit :=
  (apply configMaps configMapKind ns name (configMap ns name key data)).mapError
    (fail "apply config map" (place ns name))

def getSecretValue (operation ns name : String) : Exchange (Connection τ) Error (Option Json) :=
  fun c =>
    let (found, c) := get secrets secretKind.read? ns name c
    ((found? found).mapError (fail operation (place ns name)), c)

def secretExists (ns name : String) : Exchange (Connection τ) Error Bool := do
  pure (← getSecretValue "check secret" ns name).isSome

def dataOfSecret (ns name : String) (value : Json) : Except Error SecretData :=
  (secretData value).mapError fun key =>
    .controlPlane "get secret" s!"{place ns name} key {key} is not valid UTF-8"

def getSecret (ns name : String) : Exchange (Connection τ) Error (Option SecretData) := do
  match ← getSecretValue "get secret" ns name with
  | some value => do
    let data ← .ofExcept (dataOfSecret ns name value)
    pure (some data)
  | none => pure none

def applySecret (ns name : String) (data : SecretData) : Exchange (Connection τ) Error Unit :=
  (apply secrets secretKind ns name (secret ns name data)).mapError
    (fail "apply secret" (place ns name))

/-- The name within the metadata of a resource. -/
def nameOf? (value : Json) : Option String :=
  ((value.member? "metadata").bind (Json.member? "name")).bind Json.text?

/-- Submits a job, which names itself. -/
def createJob (ns : String) (job : Json) : Exchange (Connection τ) Error Unit :=
  (create jobs jobKind ns job).mapError (fail "create job" (place ns ((nameOf? job).getD "")))

/-- The label by which the pods of a job are found. -/
def jobLabel : String := "job-name"

def findJobPod (ns job : String) : Exchange (Connection τ) Error (Option String) := do
  let found ← (labelled ns jobLabel job).mapError (fail "list pods" ("job " ++ place ns job))
  pure (found.findSome? nameOf?)

def conditionOf (value : Json) : JobCondition :=
  ⟨PodStart.memberText "type" value, PodStart.memberText "status" value⟩

def statusOfJob (job : Json) : JobStatus :=
  let conditions := ((job.present? "status").bind (Json.present? "conditions")).bind Json.items?
  .ofConditions ((conditions.getD []).map conditionOf)

def getJobStatus (ns job : String) : Exchange (Connection τ) Error JobStatus := do
  let found ← (get jobs jobKind.read? ns job).mapError (fail "get job" (place ns job))
  pure (statusOfJob found)

def deleteJob (ns name : String) : Exchange (Connection τ) Error Unit :=
  (delete jobs jobKind [("propagationPolicy", .string "Background")] ns name).mapError
    (fail "delete job" (place ns name))

def deleteConfigMap (ns name : String) : Exchange (Connection τ) Error Unit :=
  (delete configMaps configMapKind [] ns name).mapError (fail "delete config map" (place ns name))

end Client

end Acceptance.Cluster
