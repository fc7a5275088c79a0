import Acceptance.Wait

/-!
# Observation of a job

A job is followed in three stages: until its pod appears, while the pod prints, and until the job
has a verdict. Whatever goes wrong in between says nothing about the tests, and is only reported;
but an image that cannot be pulled ends the run.
-/

namespace Acceptance

structure ObserverSettings where
  podTimeout : Nat := Duration.ofSeconds 30
  podInterval : Nat := Duration.ofSeconds 1
  /-- Bounds both the output and the wait for the verdict. -/
  jobTimeout : Nat := Duration.ofSeconds 900
  statusInterval : Nat := Duration.ofSeconds 5
  deriving DecidableEq, Repr, Inhabited

namespace Observe

variable {σ α : Type} [Party σ]

/-- A call as a check of a wait: its answer may hold a value, and its errors are only reported. -/
def lookup (call : Call) (value? : call.Answer → Option α) (warning : Error → Warning) :
    Check σ α where
  run g := do
    match ← (Task.ask g call).isolate with
    | .ok a => pure (value? a)
    | .error e => do
      Task.warn (warning e)
      pure none
  forward g s := by
    have asked := Task.now_le_ask g call s
    simp only [Bind.bind, Task.bind, Task.isolate]
    revert asked
    cases Task.ask g call s with
    | mk ending s =>
      cases ending <;> exact id

def podWait (settings : ObserverSettings) : Wait :=
  ⟨"pod creation", settings.podTimeout, settings.podInterval⟩

/-- Waits for a pod of the job. -/
def awaitPod (namespaceName job : String) (settings : ObserverSettings) : Task σ String :=
  (podWait settings).poll (lookup (.findJobPod namespaceName job) id (.podLookupFailed job))

/-- Copies what the pod prints until it ends, the job's time is up, or the run is cancelled. Unlike a
wait this does not crash where the clock cannot show when the time is up: such a time counts in full
here, where the program takes some thirty years. -/
def streamOutput (namespaceName pod : String) (settings : ObserverSettings) : Task σ Unit :=
  fun s =>
    if s.clock.cancelled then Task.warn (.streamCancelled pod) s
    else
      let guard : Guard := ⟨true, some (s.clock.now + settings.jobTimeout)⟩
      match Task.ask guard (.followPodLogs namespaceName pod) s with
      | (.value (), s) => (.value (), s)
      | (.error e, s) => if e.isImagePull then (.error e, s) else Task.warn (.streamFailed pod e) s
      | (.cancelled, s) => Task.warn (.streamCancelled pod) s
      | (.expired, s) => Task.warn (.streamStillOpen pod settings.jobTimeout) s
      | (.pending, s) => (.pending, s)
      | (.crashed, s) => (.crashed, s)

def verdictWait (settings : ObserverSettings) : Wait :=
  ⟨"job completion", settings.jobTimeout, settings.statusInterval⟩

/-- What a verdict means for the run. -/
def ofOutcome (job : String) : JobOutcome → Except Error Unit
  | .succeeded => .ok ()
  | .failed => .error (.jobFailed job)

/-- Waits for the verdict. -/
def awaitCompletion (namespaceName job : String) (settings : ObserverSettings) : Task σ Unit := do
  let outcome ← (verdictWait settings).poll
    (lookup (.jobStatus namespaceName job) JobStatus.outcome (.statusUnreadable job))
  .ofExcept (ofOutcome job outcome)

/-- All three stages. -/
def observeJob (namespaceName job : String) (settings : ObserverSettings) : Task σ Unit := do
  let pod ← awaitPod namespaceName job settings
  streamOutput namespaceName pod settings
  awaitCompletion namespaceName job settings

end Observe

end Acceptance
