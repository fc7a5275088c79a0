import Acceptance.Cleanup
import Acceptance.Observe
import Acceptance.Provision
import Acceptance.Site.Manifest
import Acceptance.SuiteConfig
import Acceptance.Wait

/-!
# Runs

A run fetches the descriptor of a site, renders the configuration of the suite, makes sure that the
test user exists, and then runs the suite as a job of the cluster or on this machine. What is wrong
with the configuration is found before anything is changed.

* `Run.run`: a whole run;
* `Run.runRemote`, `Run.runLocal`: its last part in either place.
-/

namespace Acceptance

/-- Where the descriptor of the site comes from. -/
inductive SiteSource where
  | cluster (site : SiteRef)
  | file (path : String)
  deriving DecidableEq, Repr

inductive RunMode where
  /-- As a job of the cluster. -/
  | remote (image : String)
  /-- On this machine. -/
  | here
  /-- Not at all: the configuration is only rendered, into a file if one is given. -/
  | configOnly (output : Option String)
  deriving DecidableEq, Repr

structure RunSettings where
  deployment : String
  site : SiteSource
  mode : RunMode
  /-- The namespace of the job, the config map and the secrets. -/
  namespaceName : String := "default"
  /-- The category of tests; an empty one stands for all. -/
  category : String := ""
  identityProviderUrl : Option String := none
  realm : Option String := none
  testUser : String := "vip-tester"
  adminSecret : String := "keycloak-initial-admin"
  credentialSecret : String := "vip-test-credentials"
  observer : ObserverSettings := {}
  job : JobSettings := {}
  cleanupTimeout : Nat := Cleanup.defaultTimeout
  deriving DecidableEq, Repr

/-- How a run ends that does not fail. -/
inductive RunOutcome where
  | configRendered (text : String)
  | passed
  deriving DecidableEq, Repr

namespace Run

variable {σ : Type}

/-- The realm of the test user: that of the settings, else the site's, else a common one. -/
def realm (site : Site) (settings : RunSettings) : String :=
  (settings.realm <|> site.declaredRealm).getD "vip"

/-- What the suite is told about the run. A provider's URL that cannot be found is left empty. -/
def context (site : Site) (settings : RunSettings) : RunContext where
  deployment := settings.deployment
  namespaceName := settings.namespaceName
  identityProviderUrl := (site.identityProviderUrl settings.identityProviderUrl).toOption
  realm := realm site settings
  username := settings.testUser

def renderConfig (site : Site) (settings : RunSettings) : String :=
  SuiteConfig.render site (context site settings)

/-- The test identity that a run needs, if the site has an identity provider. -/
def identityRequest (site : Site) (settings : RunSettings) :
    Except Error (Option IdentityRequest) :=
  if site.identityProviderEnabled then do
    site.checkIdentityProvider
    let providerUrl ← site.identityProviderUrl settings.identityProviderUrl
    .ok (some {
      namespaceName := settings.namespaceName
      adminSecret := settings.adminSecret
      credentialSecret := settings.credentialSecret
      providerUrl
      realm := realm site settings
      username := settings.testUser })
  else .ok none

/-- Reads the descriptor from a file. -/
def readSiteFile (files : Files) (path : String) : Except Error Site :=
  match files.readText path with
  | .ok text => Site.ofManifest text
  | .error fault => .error (.config s!"failed to read site file {path}: {fault.message}")

/-- Writes the configuration into a file, if one is given. -/
def emitConfig (output : Option String) (text : String) (files : Files) : Except Error Files :=
  match output with
  | none => .ok files
  | some path =>
    match files.write path text with
    | .ok files => .ok files
    | .error fault => .error (.io fault.message)

def emit (output : Option String) (text : String) : Task σ Unit := fun s =>
  match emitConfig output text s.files with
  | .ok files => (.value (), { s with files })
  | .error e => (.error e, s)

def stem (settings : RunSettings) : String := "vip-" ++ settings.deployment

def jobDescriptor (settings : RunSettings) (image : String) (names : ResourceNames)
    (credentialsAvailable : Bool) : JobDescriptor where
  name := names.job
  configMap := names.configMap
  credentialSecret := settings.credentialSecret
  namespaceName := settings.namespaceName
  image
  category := settings.category
  deadline := settings.observer.jobTimeout
  credentialsAvailable

variable [Party σ]

def loadSite (source : SiteSource) (g : Guard) : Task σ Site := do
  match source with
  | .cluster site => do
    let object ← Task.ask g (.getSite site)
    .ofExcept (Site.ofObject object)
  | .file path => do
    let s ← Task.session
    .ofExcept (readSiteFile s.files path)

/-- Makes sure that the test identity exists; says whether there is one for the suite. -/
def provision : Option IdentityRequest → Task σ Bool
  | some request => do
    let _ ← Task.withCancel "test identity provisioning" fun g => (Provision.ensure request).perform g
    pure true
  | none => pure false

/-- Publishes the configuration, submits the job and follows it to its verdict. -/
def runRemote (settings : RunSettings) (image : String) (names : ResourceNames) (config : String)
    (credentialsAvailable : Bool) : Task σ Unit := do
  let ns := settings.namespaceName
  Task.withCancel "config upload" fun g =>
    Task.ask g (.applyConfigMap ns names.configMap TestJob.configKey config)
  let job ← Task.ofExcept
    (TestJob.compile (jobDescriptor settings image names credentialsAvailable) settings.job)
  Task.withCancel "job submission" fun g => Task.ask g (.createJob ns job)
  Observe.observeJob ns names.job settings.observer

/-- Runs a task and then the removal of what it made; the result is that of the task. -/
def cleaningUp (settings : RunSettings) (names : ResourceNames) (t : Task σ Unit) : Task σ Unit := do
  let result ← t.isolate
  Cleanup.run settings.namespaceName names settings.cleanupTimeout
  .ofExcept result

/-- The credentials for a run on this machine. -/
def localCredentials (settings : RunSettings) (available : Bool) :
    Task σ (Option Credentials) :=
  if available then
    some <$> Task.withCancel "credential lookup" fun g =>
      (readCredentials settings.namespaceName settings.credentialSecret).perform g
  else pure none

/-- Puts the configuration into the temporary file. That the file system refuses this, or the removal
below, is left out: the file can always be made, and it can always be removed. -/
def writeTemporary (config : String) : Task σ String := fun s =>
  (.value s.temporaryPath, { s with
    files := { s.files with temporary := s.files.temporary.insert s.temporaryPath config } })

/-- Removes the temporary file. -/
def removeTemporary (path : String) : Task σ Unit := fun s =>
  (.value (), { s with files := { s.files with temporary := s.files.temporary.erase path } })

/-- Starts the suite on this machine. It is stopped when the run is cancelled. -/
def runTests (invocation : LocalInvocation) : Task σ Unit := fun s =>
  match Task.ask { cancellable := true } (.runTests invocation) s with
  | (.cancelled, s) => (.error (.cancelled "local test run"), s)
  | r => r

def runLocal (settings : RunSettings) (config : String) (credentialsAvailable : Bool) :
    Task σ Unit := do
  let credentials ← localCredentials settings credentialsAvailable
  let configPath ← writeTemporary config
  let s ← Task.session
  let result ← Task.isolate (runTests
    { configPath, config := s.files.temporary.get? configPath, category := settings.category, credentials })
  removeTemporary configPath
  .ofExcept result

/-- A run whose configuration is rendered and whose mode calls for tests. -/
def execute (settings : RunSettings) (site : Site) (config : String) : Task σ Unit := do
  let request ← Task.ofExcept (identityRequest site settings)
  match settings.mode with
  | .remote image =>
    if (Text.trimmed image).isEmpty then Task.fail (.config "remote runs need a test image")
    else do
      -- names are drawn before the first change, so that nothing is left behind without them
      let names ← Task.drawNames (stem settings)
      let available ← provision request
      cleaningUp settings names (runRemote settings image names config available)
  | _ => do
    let available ← provision request
    runLocal settings config available

def run (settings : RunSettings) : Task σ RunOutcome := do
  let site ← Task.withCancel "site lookup" (loadSite settings.site)
  let config := renderConfig site settings
  match settings.mode with
  | .configOnly output => do
    emit output config
    pure (.configRendered config)
  | _ => do
    execute settings site config
    pure .passed

end Run

end Acceptance
