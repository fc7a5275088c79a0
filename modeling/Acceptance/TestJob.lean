import Acceptance.Credentials
import Acceptance.Duration
import Acceptance.Json
import Acceptance.TestCommand
import Acceptance.Text.Blank

/-!
# The test suite as a job of the cluster

`TestJob.compile` says which job runs a suite, `TestJob.toJson` writes it for the cluster. The pod
is never restarted and the job never retried: a failed run has to be looked at. Credentials are
named by the secret that holds them and never part of the job.
-/

namespace Acceptance

/-- What to run. -/
structure JobDescriptor where
  name : String
  configMap : String
  credentialSecret : String
  namespaceName : String
  image : String
  category : String
  deadline : Nat
  /-- Whether the credential secret is there for the suite. -/
  credentialsAvailable : Bool
  deriving DecidableEq, Repr

/-- What is the same for every run. -/
structure JobSettings where
  cpuRequest : String := "250m"
  memoryRequest : String := "512Mi"
  cpuLimit : String := "1"
  memoryLimit : String := "2Gi"
  /-- The account of the pod, where it is not that of the namespace. -/
  serviceAccount : Option String := none
  deriving DecidableEq, Repr, Inhabited

/-- A variable of the container with its value in a secret. -/
structure SecretVariable where
  name : String
  secret : String
  key : String
  deriving DecidableEq, Repr

/-- A job with one container, into which the files of one config map are mounted. -/
structure TestJob where
  name : String
  namespaceName : String
  labels : Dict String
  deadlineSeconds : Int
  image : String
  arguments : List String
  exported : Option (List SecretVariable)
  /-- The config map whose entries are the files under `mountDirectory`. -/
  configMap : String
  settings : JobSettings
  deriving DecidableEq

namespace TestJob

def containerName : String := "vip"

/-- The entry of the config map, and so the name of the file, that holds the configuration. -/
def configKey : String := "config.toml"

def mountDirectory : String := "/etc/vip"

def configPath : String := s!"{mountDirectory}/{configKey}"

def volumeName : String := "vip-config"

/-- Seconds as a signed number of 64 bits. -/
def signedSeconds (n : Nat) : Int := Int.bmod n 18446744073709551616

/-- The deadline of a job is a whole number of seconds, at least one. -/
def deadlineOf (d : Nat) : Int := signedSeconds (max (Duration.seconds d) 1)

def labelsOf (name : String) : Dict String :=
  .ofList [("app.kubernetes.io/name", containerName), ("vip.dev/run", name)]

def variablesOf (secret : String) : List SecretVariable := [
  ⟨TestCommand.usernameVariable, secret, Credentials.usernameKey⟩,
  ⟨TestCommand.passwordVariable, secret, Credentials.passwordKey⟩]

def compile (d : JobDescriptor) (settings : JobSettings) : Except Error TestJob :=
  if d.name.isEmpty then .error (.config "job name is empty")
  else if (Text.trimmed d.image).isEmpty then .error (.config "test image is empty")
  else .ok {
    name := d.name
    namespaceName := d.namespaceName
    labels := labelsOf d.name
    deadlineSeconds := deadlineOf d.deadline
    image := d.image
    arguments := TestCommand.arguments configPath d.category
    exported := if d.credentialsAvailable then some (variablesOf d.credentialSecret) else none
    configMap := d.configMap
    settings }

def variableJson (v : SecretVariable) : Json :=
  .ofMembers [("name", .string v.name), ("valueFrom", .ofMembers [("secretKeyRef", .ofMembers [
    ("name", .string v.secret), ("key", .string v.key), ("optional", .bool false)])])]

def resourcesJson (s : JobSettings) : Json :=
  .ofMembers [
    ("requests", .ofMembers [("cpu", .string s.cpuRequest), ("memory", .string s.memoryRequest)]),
    ("limits", .ofMembers [("cpu", .string s.cpuLimit), ("memory", .string s.memoryLimit)])]

def containerJson (j : TestJob) : Json :=
  .ofPresent [
    ("name", some (.string containerName)),
    ("image", some (.string j.image)),
    ("args", some (.array (j.arguments.map .string))),
    ("env", j.exported.map fun vs => .array (vs.map variableJson)),
    ("volumeMounts", some (.array [.ofMembers [("name", .string volumeName),
      ("mountPath", .string mountDirectory), ("readOnly", .bool true)]])),
    ("resources", some (resourcesJson j.settings))]

def podJson (j : TestJob) : Json :=
  .ofPresent [
    ("containers", some (.array [j.containerJson])),
    ("restartPolicy", some (.string "Never")),
    ("serviceAccountName", j.settings.serviceAccount.map .string),
    ("volumes", some (.array [.ofMembers [("name", .string volumeName),
      ("configMap", .ofMembers [("name", .string j.configMap)])]]))]

/-- The job as the cluster takes it. -/
def toJson (j : TestJob) : Json :=
  let labels := Json.ofDict .string j.labels
  .ofMembers [
    ("apiVersion", .string "batch/v1"),
    ("kind", .string "Job"),
    ("metadata", .ofMembers [("name", .string j.name), ("namespace", .string j.namespaceName),
      ("labels", labels)]),
    ("spec", .ofMembers [
      ("backoffLimit", .nat 0),
      ("activeDeadlineSeconds", .number (.integer j.deadlineSeconds)),
      ("template", .ofMembers [("metadata", .ofMembers [("labels", labels)]),
        ("spec", j.podJson)])])]

end TestJob

end Acceptance
