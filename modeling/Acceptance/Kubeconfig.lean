import Acceptance.Cluster.Path
import Acceptance.CommandLine.Reader
import Acceptance.Files
import Acceptance.Json
import Acceptance.Text.Split
import Acceptance.Yaml

/-!
# Kubeconfigs

How the cluster is found: a kubeconfig names clusters, users and the contexts that join them. One that is
asked for goes over that of the environment, and that over the places where one is usually kept.

* `Kubeconfig.path?`: the kubeconfig that is asked for;
* `Kubeconfig.connect`: the address of the cluster.
-/

namespace Acceptance

/-- A context within a kubeconfig. -/
structure ClusterContext where
  cluster : String
  user : Option String
  deriving DecidableEq, Repr

/-- Things by their names; some names stand for nothing. -/
abbrev Named (α : Type) := List (String × Option α)

structure Kubeconfig where
  /-- The addresses of the clusters, where they are given. -/
  clusters : Named (Option String) := []
  users : Named Unit := []
  contexts : Named ClusterContext := []
  currentContext : Option String := none
  deriving DecidableEq, Repr

namespace Kubeconfig

/-- How a part of a kubeconfig is read. -/
abbrev Part (α : Type) := Json → Option α

def optional {α : Type} (read : Part α) : Option Json → Option (Option α)
  | none | some .null => some none
  | some v => (read v).map some

/-- A member of an object that may be missing or `null`. -/
def member {α : Type} (name : String) (read : Part α) (v : Json) : Option (Option α) := do
  let members ← v.members?
  optional read (entryAt? name members)

def cluster? : Part (Option String) := member "server" Json.text?

def user? : Part Unit := fun v => v.members?.map fun _ => ()

def context? : Part ClusterContext := fun v => do
  let cluster ← (← v.member? "cluster").text?
  let user ← member "user" Json.text? v
  some ⟨cluster, user⟩

/-- A name and what it stands for under `key`. -/
def named? {α : Type} (key : String) (read : Part α) : Part (String × Option α) := fun v => do
  let name ← (← v.member? "name").text?
  let value ← member key read v
  some (name, value)

def list? {α : Type} (read : Part α) : Part (List α) := fun v => do
  (← v.items?).mapM read

def ofJson? (v : Json) : Option Kubeconfig := do
  let clusters ← member "clusters" (list? (named? "cluster" cluster?)) v
  let users ← member "users" (list? (named? "user" user?)) v
  let contexts ← member "contexts" (list? (named? "context" context?)) v
  let currentContext ← member "current-context" Json.text? v
  some {
    clusters := clusters.getD [], users := users.getD [], contexts := contexts.getD []
    currentContext }

/-- Reads a kubeconfig. An empty text is one with nothing in it. -/
def ofText? (text : String) : Option Kubeconfig :=
  if (Text.trimmed text).isEmpty then some {} else (Yaml.parse? text).bind ofJson?

def readFile (files : Files) (path : String) : Except String Kubeconfig :=
  match files.readText path with
  | .error fault => .error s!"failed to read kubeconfig from '{path}': {fault.message}"
  | .ok text =>
    match ofText? text with
    | some k => .ok k
    | none => .error "the structure of the parsed kubeconfig is invalid"

/-- What the first entry of a name stands for. -/
def look {α : Type} (name : String) (entries : Named α) : Option α :=
  (entries.find? (·.1 == name)).bind (·.2)

/-- The address of the cluster of a context; the current one if none is named. -/
def address (k : Kubeconfig) (context : Option String) : Except String String :=
  match context <|> k.currentContext with
  | none => .error "failed to determine current context"
  | some name =>
    match look name k.contexts with
    | none => .error s!"failed to load current context: {name}"
    | some c =>
      match look c.cluster k.clusters with
      | none => .error s!"failed to load the cluster of context: {c.cluster}"
      | some server =>
        if c.user.any fun u => (look u k.users).isNone then .error "failed to find named user"
        else match server with
          | none => .error "the cluster url is missing on selected cluster"
          | some url =>
            if url.isEmpty || !url.toList.all Cluster.isPathChar then .error "failed to parse cluster url"
            else .ok url

/-- Two kubeconfigs as one. Of two entries with one name, the earlier stands. -/
def join (a b : Kubeconfig) : Kubeconfig where
  clusters := a.clusters ++ b.clusters
  users := a.users ++ b.users
  contexts := a.contexts ++ b.contexts
  currentContext := a.currentContext <|> b.currentContext

/-- The kubeconfig that is asked for, by a flag or else by the environment. -/
def path? (environment : CommandLine.Environment) (asked : Option String) : Option String :=
  asked <|> (environment.get? "VIP_KUBECONFIG").filter (!·.isEmpty)

/-- The paths in a list with colons between them. -/
def splitPaths (s : String) : List String :=
  ((Text.split ':' s.toList).map String.ofList).filter (!·.isEmpty)

/-- The kubeconfig in its usual places. -/
def readUsual (environment : CommandLine.Environment) (files : Files) : Except String Kubeconfig := do
  match splitPaths ((environment.get? "KUBECONFIG").getD "") with
  | [] => readFile files ((environment.get? "HOME").getD "" ++ "/.kube/config")
  | paths => paths.foldlM (fun k path => return join k (← readFile files path)) {}

/-- The address of the cluster that is asked for. -/
def connect (environment : CommandLine.Environment) (files : Files) (asked context : Option String) :
    Except Error String :=
  match path? environment asked with
  | some path =>
    match readFile files path with
    | .error why => .error (.config s!"failed to read kubeconfig {path}: {why}")
    | .ok k => (k.address context).mapError fun why => .config ("failed to load kubeconfig: " ++ why)
  | none =>
    let found := do (← readUsual environment files).address context
    let failure := if context.isSome then "failed to load kubeconfig: " else "failed to infer kube config: "
    found.mapError fun why => .config (failure ++ why)

end Kubeconfig

end Acceptance
