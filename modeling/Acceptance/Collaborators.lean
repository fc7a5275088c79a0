import Acceptance.Cluster.Log
import Acceptance.Identity.Client
import Acceptance.LocalRunner
import Acceptance.Session

/-!
# Collaborators over the network

The collaborators of a run as they are reached: the cluster and the identity provider by requests, the
suite on this machine by a program that is started.
-/

namespace Acceptance

structure Collaborators (κ ι ρ : Type) where
  cluster : Cluster.Connection κ
  identity : ι
  launcher : ρ
  /-- The program that runs the suite on this machine. -/
  program : String := "pytest"
  /-- How often one looks at most whether a pod has started. -/
  looks : Nat := 0

namespace Collaborators

open Http

variable {κ ι ρ α : Type}

/-- A call to the cluster that takes no time of its own. -/
def overCluster (x : Exchange (Cluster.Connection κ) Error α) (c : Collaborators κ ι ρ) :
    Reaction α × Collaborators κ ι ρ :=
  let (answer, cluster) := x c.cluster
  ({ answer }, { c with cluster })

def overIdentity (x : Exchange ι Error α) (c : Collaborators κ ι ρ) :
    Reaction α × Collaborators κ ι ρ :=
  let (answer, identity) := x c.identity
  ({ answer }, { c with identity })

variable [Transport κ] [Transport ι] [Launcher ρ]

def followLogs (ns pod : String) (c : Collaborators κ ι ρ) : Reaction Unit × Collaborators κ ι ρ :=
  let (reaction, cluster) := Cluster.Client.followPodLogs c.looks ns pod c.cluster
  (reaction, { c with cluster })

def runTests (i : LocalInvocation) (c : Collaborators κ ι ρ) : Reaction Unit × Collaborators κ ι ρ :=
  let (reaction, launcher) := LocalRunner.reaction c.program i c.launcher
  (reaction, { c with launcher })

def react (c : Collaborators κ ι ρ) : (call : Call) → Reaction call.Answer × Collaborators κ ι ρ
  | .getSite site => overCluster (Cluster.Client.getSite site) c
  | .applyConfigMap ns name key data => overCluster (Cluster.Client.applyConfigMap ns name key data) c
  | .secretExists ns name => overCluster (Cluster.Client.secretExists ns name) c
  | .getSecret ns name => overCluster (Cluster.Client.getSecret ns name) c
  | .applySecret ns name data => overCluster (Cluster.Client.applySecret ns name data) c
  | .createJob ns job => overCluster (Cluster.Client.createJob ns job.toJson) c
  | .findJobPod ns job => overCluster (Cluster.Client.findJobPod ns job) c
  | .followPodLogs ns pod => followLogs ns pod c
  | .jobStatus ns job => overCluster (Cluster.Client.getJobStatus ns job) c
  | .deleteJob ns name => overCluster (Cluster.Client.deleteJob ns name) c
  | .deleteConfigMap ns name => overCluster (Cluster.Client.deleteConfigMap ns name) c
  | .adminToken url username password =>
    overIdentity (Identity.Client.adminToken url username password) c
  | .findUser url token realm username =>
    overIdentity (Identity.Client.findUser url token realm username) c
  | .createUser url token realm username password =>
    overIdentity (Identity.Client.createUser url token realm username password) c
  | .resetPassword url token realm user password =>
    overIdentity (Identity.Client.resetPassword url token realm user password) c
  | .runTests i => runTests i c

instance : Party (Collaborators κ ι ρ) where
  react := react

end Collaborators

end Acceptance
