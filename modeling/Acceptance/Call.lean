import Acceptance.Credentials
import Acceptance.JobStatus
import Acceptance.Json
import Acceptance.Site
import Acceptance.TestJob

/-!
# Calls to the collaborators of a run

A run changes nothing by itself: it asks the cluster, the identity provider, or the program that
runs the suite on this machine. `Call` lists what it asks, `Call.Answer` what comes back.
-/

namespace Acceptance

/-- One run of the suite on this machine. -/
structure LocalInvocation where
  configPath : String
  /-- What the file at `configPath` holds when the program starts, if it is there. -/
  config : Option String
  category : String
  credentials : Option Credentials
  deriving DecidableEq

inductive Call where
  | getSite (site : SiteRef)
  /-- Creates or replaces a config map with one entry. -/
  | applyConfigMap (namespaceName name key data : String)
  | secretExists (namespaceName name : String)
  | getSecret (namespaceName name : String)
  /-- Creates or replaces a secret. -/
  | applySecret (namespaceName name : String) (data : SecretData)
  | createJob (namespaceName : String) (job : TestJob)
  | findJobPod (namespaceName job : String)
  /-- Copies what the pod prints until it ends. -/
  | followPodLogs (namespaceName pod : String)
  | jobStatus (namespaceName job : String)
  | deleteJob (namespaceName name : String)
  | deleteConfigMap (namespaceName name : String)
  | adminToken (provider username password : String)
  | findUser (provider token realm username : String)
  | createUser (provider token realm username password : String)
  | resetPassword (provider token realm user password : String)
  | runTests (invocation : LocalInvocation)

/-- What a call gives if it succeeds. -/
@[reducible]
def Call.Answer : Call → Type
  | getSite _ => Json
  | applyConfigMap .. => Unit
  | secretExists .. => Bool
  | getSecret .. => Option SecretData
  | applySecret .. => Unit
  | createJob .. => Unit
  | findJobPod .. => Option String
  | followPodLogs .. => Unit
  | jobStatus .. => JobStatus
  | deleteJob .. => Unit
  | deleteConfigMap .. => Unit
  | adminToken .. => String
  | findUser .. => Option String
  | createUser .. => Unit
  | resetPassword .. => Unit
  | runTests _ => Unit

end Acceptance
