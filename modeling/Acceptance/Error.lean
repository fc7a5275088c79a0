import Acceptance.Duration

/-!
# Errors of a run

What can go wrong, grouped so that an operator can tell a broken configuration from a hung
cluster, an image that cannot be pulled, or a suite that simply failed. Each class has its own
name in the log, and most have their own exit code.
-/

namespace Acceptance

inductive Error where
  /-- Missing or invalid input, found before the cluster is changed. -/
  | config (message : String)
  | controlPlane (operation message : String)
  /-- `status` is that of the provider's answer, if it gave one. -/
  | identityProvider (operation message : String) (status : Option Nat)
  /-- A bounded wait for `stage` ran out. -/
  | timeout (stage : String) (after : Nat)
  | cancelled (stage : String)
  | imagePull (pod reason : String)
  | jobFailed (job : String)
  /-- The suite ran on this machine and ended with a status that is not success. -/
  | testsFailed (status : String)
  /-- No random bytes for `purpose`. -/
  | random (purpose : String)
  | serialization (message : String)
  | io (message : String)
  deriving DecidableEq, Repr

/-- What an operator has to look at. -/
inductive ErrorClass where
  | configuration | controlPlane | identityProvider | timeout | imagePull | testFailure
  | randomSource | internal
  deriving DecidableEq, Repr

def ErrorClass.name : ErrorClass → String
  | .configuration => "configuration"
  | .controlPlane => "control-plane"
  | .identityProvider => "identity-provider"
  | .timeout => "timeout"
  | .imagePull => "image-pull"
  | .testFailure => "test-failure"
  | .randomSource => "random-source"
  | .internal => "internal"

/-- Exit code of a process that ends with an error of the class. -/
def ErrorClass.exitCode : ErrorClass → Nat
  | .testFailure => 1
  | .configuration => 2
  | .timeout => 3
  | .imagePull => 4
  | .controlPlane | .identityProvider | .randomSource | .internal => 5

namespace Error

def message : Error → String
  | .config message => s!"configuration error: {message}"
  | .controlPlane operation message => s!"control plane error during {operation}: {message}"
  | .identityProvider operation message _ =>
    s!"identity provider error during {operation}: {message}"
  | .timeout stage after => "timed out after " ++ Duration.text after ++ " waiting for " ++ stage
  | .cancelled stage => s!"cancelled while waiting for {stage}"
  | .imagePull pod reason => s!"image pull failed for pod {pod}: {reason}"
  | .jobFailed job => s!"job {job} failed"
  | .testsFailed status => s!"local test run failed with {status}"
  | .random purpose =>
    s!"cryptographic random source unavailable while generating {purpose}"
  | .serialization message => s!"serialization error: {message}"
  | .io message => s!"io error: {message}"

/-- A cancelled wait shares its class with one that ran out: neither reached a verdict. -/
def errorClass : Error → ErrorClass
  | .config _ => .configuration
  | .controlPlane .. => .controlPlane
  | .identityProvider .. => .identityProvider
  | .timeout .. | .cancelled _ => .timeout
  | .imagePull .. => .imagePull
  | .jobFailed _ | .testsFailed _ => .testFailure
  | .random _ => .randomSource
  | .serialization _ | .io _ => .internal

def kind (e : Error) : String := e.errorClass.name

def exitCode (e : Error) : Nat := e.errorClass.exitCode

/-- The identity provider refused a request because the object exists already. -/
def isConflict : Error → Bool
  | .identityProvider _ _ (some 409) => true
  | _ => false

def isImagePull : Error → Bool
  | .imagePull .. => true
  | _ => false

def isTimeout : Error → Bool
  | .timeout .. | .cancelled _ => true
  | _ => false

end Error

end Acceptance
