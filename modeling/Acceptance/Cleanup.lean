import Acceptance.Session

/-!
# Removal of what a run has made

The job and the config map of a run are removed after it, whatever its result and even if it is
cancelled. The removal has its own time, and what goes wrong in it is only reported. The credential
secret stays: later runs use it.
-/

namespace Acceptance.Cleanup

variable {σ : Type} [Party σ]

/-- The time for the removal. -/
def defaultTimeout : Nat := Duration.ofSeconds 30

/-- A call whose error is only reported. -/
def attempt (g : Guard) (call : Call) (warning : Error → Warning) : Task σ Unit := do
  match ← (Task.ask g call).isolate with
  | .ok _ => pure ()
  | .error e => Task.warn (warning e)

def deletes (g : Guard) (namespaceName : String) (names : ResourceNames) : Task σ Unit := do
  attempt g (.deleteJob namespaceName names.job) (.jobNotDeleted namespaceName names.job)
  attempt g (.deleteConfigMap namespaceName names.configMap)
    (.configMapNotDeleted namespaceName names.configMap)

/-- Removes the job and the config map. Unlike a wait this does not crash where the clock cannot show
when its time is up: such a time counts in full here, where the program takes some thirty years. -/
def run (namespaceName : String) (names : ResourceNames) (timeout : Nat) : Task σ Unit := fun s =>
  match deletes { deadline := some (s.clock.now + timeout) } namespaceName names s with
  | (.expired, s) => Task.warn (.cleanupTimedOut namespaceName timeout) s
  | r => r

end Acceptance.Cleanup
