import Acceptance.CommandLine.Reader
import Acceptance.Run

/-!
# Commands

The commands of the program and their flags, and what each asks for: a run, a run that only renders the
configuration, or the removal of what an interrupted run has left.

* `Invocation.parse`: reads a command line;
* `RunArguments.settings`: the settings of the run that it asks for.
-/

namespace Acceptance

open CommandLine

/-- Flags that every command has. -/
structure SharedArguments where
  kubeconfig : Option String := none
  /-- The context within the kubeconfig. -/
  context : Option String := none
  /-- Whether the log is written in JSON. -/
  json : Bool := false
  deriving DecidableEq, Repr

structure RunArguments where
  deployment : String
  site : Option String
  siteFile : Option String
  namespaceName : String
  category : String
  onThisMachine : Bool
  configOnly : Bool
  output : Option String
  image : Option String
  identityProviderUrl : Option String
  realm : Option String
  testUser : String
  adminSecret : String
  credentialSecret : String
  timeout : Nat
  /-- The program that runs the suite on this machine. -/
  runner : String
  siteApiVersion : String
  siteKind : String
  deriving DecidableEq, Repr

structure CleanupArguments where
  namespaceName : String
  job : String
  configMap : String
  timeout : Nat
  deriving DecidableEq, Repr

inductive Command where
  | run (arguments : RunArguments)
  | render (arguments : RunArguments)
  | cleanup (arguments : CleanupArguments)
  deriving DecidableEq, Repr

structure Invocation where
  shared : SharedArguments
  command : Command
  deriving DecidableEq, Repr

namespace Command

def defaultRunner : String := "pytest"

def sharedFlags : List Flag := [
  { name := "kubeconfig", kind := .path },
  { name := "context", environment := some "VIP_CONTEXT" },
  { name := "json", kind := .switch, environment := some "VIP_LOG_JSON", default := some "false" }]

def namespaceFlag : Flag :=
  { name := "namespace", short := some 'n', environment := some "VIP_NAMESPACE", default := some "default" }

def runFlags : List Flag := [
  { name := "deployment", environment := some "VIP_DEPLOYMENT", required := true },
  { name := "site", environment := some "VIP_SITE" },
  { name := "site-file", kind := .path, environment := some "VIP_SITE_FILE", excludes := ["site"] },
  namespaceFlag,
  { name := "category", environment := some "VIP_CATEGORY", default := some "" },
  { name := "local", kind := .switch, environment := some "VIP_LOCAL", default := some "false" },
  { name := "config-only", kind := .switch, environment := some "VIP_CONFIG_ONLY",
    default := some "false" },
  { name := "output", kind := .path, short := some 'o' },
  { name := "image", environment := some "VIP_IMAGE" },
  { name := "idp-url", environment := some "VIP_IDP_URL" },
  { name := "realm", environment := some "VIP_REALM" },
  { name := "test-user", environment := some "VIP_TEST_USER", default := some "vip-tester" },
  { name := "admin-secret", environment := some "VIP_ADMIN_SECRET",
    default := some "keycloak-initial-admin" },
  { name := "credential-secret", environment := some "VIP_CREDENTIAL_SECRET",
    default := some "vip-test-credentials" },
  { name := "timeout", kind := .duration, environment := some "VIP_TIMEOUT", default := some "15m" },
  { name := "local-runner", environment := some "VIP_LOCAL_RUNNER", default := some defaultRunner },
  { name := "site-api-version", environment := some "VIP_SITE_API_VERSION",
    default := some "vip.dev/v1" },
  { name := "site-kind", environment := some "VIP_SITE_KIND", default := some "Site" }]

def cleanupFlags : List Flag := [
  namespaceFlag,
  { name := "job", required := true },
  { name := "config-map", required := true },
  { name := "timeout", kind := .duration, default := some "30s" }]

def grammar : Grammar where
  shared := sharedFlags
  commands := [⟨"run", runFlags⟩, ⟨"render", runFlags⟩, ⟨"cleanup", cleanupFlags⟩]

end Command

def SharedArguments.ofValues (v : Values) : SharedArguments where
  kubeconfig := v.text? "kubeconfig"
  context := v.text? "context"
  json := v.isSet "json"

def RunArguments.ofValues (v : Values) : RunArguments where
  deployment := v.text "deployment"
  site := v.text? "site"
  siteFile := v.text? "site-file"
  namespaceName := v.text "namespace"
  category := v.text "category"
  onThisMachine := v.isSet "local"
  configOnly := v.isSet "config-only"
  output := v.text? "output"
  image := v.text? "image"
  identityProviderUrl := v.text? "idp-url"
  realm := v.text? "realm"
  testUser := v.text "test-user"
  adminSecret := v.text "admin-secret"
  credentialSecret := v.text "credential-secret"
  timeout := v.duration "timeout"
  runner := v.text "local-runner"
  siteApiVersion := v.text "site-api-version"
  siteKind := v.text "site-kind"

def CleanupArguments.ofValues (v : Values) : CleanupArguments where
  namespaceName := v.text "namespace"
  job := v.text "job"
  configMap := v.text "config-map"
  timeout := v.duration "timeout"

def Command.ofReading (r : Reading) : Command :=
  if r.command = "run" then .run (.ofValues r.values)
  else if r.command = "render" then .render (.ofValues r.values)
  else .cleanup (.ofValues r.values)

def Invocation.parse (environment : Environment) (words : List String) :
    Except UsageFault Invocation := do
  let reading ← Command.grammar.read environment words
  .ok ⟨.ofValues reading.shared, .ofReading reading⟩

namespace RunArguments

/-- A site of the cluster is looked for under the name of the deployment if no other is given. -/
def siteSource (a : RunArguments) : SiteSource :=
  match a.siteFile with
  | some path => .file path
  | none => .cluster {
      apiVersion := a.siteApiVersion
      kind := a.siteKind
      name := a.site.getD a.deployment
      namespaceName := a.namespaceName }

def mode (a : RunArguments) : Except Error RunMode :=
  if a.configOnly then .ok (.configOnly a.output)
  else if a.onThisMachine then .ok .here
  else match a.image with
    | some image => .ok (.remote image)
    | none => .error (.config "--image is required unless --local or --config-only is set")

def settings (a : RunArguments) : Except Error RunSettings :=
  if (Text.trimmed a.deployment).isEmpty then .error (.config "--deployment must not be empty")
  else do
    let mode ← a.mode
    .ok {
      deployment := a.deployment
      site := a.siteSource
      mode
      namespaceName := a.namespaceName
      category := a.category
      identityProviderUrl := a.identityProviderUrl
      realm := a.realm
      testUser := a.testUser
      adminSecret := a.adminSecret
      credentialSecret := a.credentialSecret
      observer := { jobTimeout := a.timeout } }

/-- The same run, but for its end with the rendered configuration. -/
def rendering (a : RunArguments) : RunArguments := { a with configOnly := true }

end RunArguments

end Acceptance
