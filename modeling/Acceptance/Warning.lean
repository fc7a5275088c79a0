import Acceptance.Error

/-!
# Warnings

What a run reports without failing of it.
-/

namespace Acceptance

inductive Warning where
  | userSearchFailed (user : String) (error : Error)
  | podLookupFailed (job : String) (error : Error)
  | streamCancelled (pod : String)
  | streamFailed (pod : String) (error : Error)
  | streamStillOpen (pod : String) (timeout : Nat)
  | statusUnreadable (job : String) (error : Error)
  | jobNotDeleted (namespaceName job : String) (error : Error)
  | configMapNotDeleted (namespaceName configMap : String) (error : Error)
  | cleanupTimedOut (namespaceName : String) (timeout : Nat)
  | runnerStopped (program : String)
  deriving DecidableEq

namespace Warning

def message : Warning → String
  | userSearchFailed .. => "user search failed, attempting to create"
  | podLookupFailed .. => "pod lookup failed, retrying"
  | streamCancelled _ => "run cancelled while streaming output"
  | streamFailed .. => "could not stream test output"
  | streamStillOpen .. => "output stream still open at job timeout"
  | statusUnreadable .. => "failed to read job status, retrying"
  | jobNotDeleted .. => "failed to delete job"
  | configMapNotDeleted .. => "failed to delete config map"
  | cleanupTimedOut .. => "cleanup timed out; resources may need manual removal"
  | runnerStopped _ => "run cancelled, stopping test runner"

/-- The particulars, by name. -/
def fields : Warning → List (String × String)
  | userSearchFailed user e => [("error", e.message), ("user", user)]
  | podLookupFailed job e => [("job", job), ("error", e.message)]
  | streamCancelled pod => [("pod", pod)]
  | streamFailed pod e => [("pod", pod), ("error", e.message)]
  | streamStillOpen pod timeout => [("pod", pod), ("timeout", Duration.text timeout)]
  | statusUnreadable job e => [("job", job), ("error", e.message)]
  | jobNotDeleted ns job e => [("namespace", ns), ("job", job), ("error", e.message)]
  | configMapNotDeleted ns configMap e =>
    [("namespace", ns), ("config_map", configMap), ("error", e.message)]
  | cleanupTimedOut ns timeout => [("namespace", ns), ("timeout", Duration.text timeout)]
  | runnerStopped program => [("program", program)]

end Warning

end Acceptance
