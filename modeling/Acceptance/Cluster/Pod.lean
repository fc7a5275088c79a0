import Acceptance.ImagePull
import Acceptance.Json

/-!
# The start of a pod

Whether the output of a pod can be followed yet. The first container that has started, or whose image
cannot be pulled, decides; without one, the phase of the pod does.
-/

namespace Acceptance.Cluster

/-- How far a pod is. -/
inductive PodStart where
  | started
  | imagePullFailed (reason : String)
  | waiting
  deriving DecidableEq, Repr

namespace PodStart

/-- The text of a member, or none. -/
def memberText (name : String) (value : Json) : String :=
  ((value.member? name).bind Json.text?).getD ""

/-- What one container says, if it decides. -/
def ofContainer? (status : Json) : Option PodStart := do
  let state ← status.present? "state"
  if (state.present? "running").isSome || (state.present? "terminated").isSome then some .started
  else
    let waiting ← state.present? "waiting"
    let reason := memberText "reason" waiting
    if ImagePull.isFailure reason then
      some (.imagePullFailed (reason ++ ": " ++ memberText "message" waiting))
    else none

/-- What the phase says: a finished pod has no containers left that wait. -/
def ofPhase (phase : String) : PodStart :=
  if phase = "Succeeded" || phase = "Failed" then .started else .waiting

def ofPod (pod : Json) : PodStart :=
  let status := (pod.present? "status").getD .null
  let containers := ((status.present? "containerStatuses").bind Json.items?).getD []
  match containers.findSome? ofContainer? with
  | some start => start
  | none => ofPhase (memberText "phase" status)

end PodStart

end Acceptance.Cluster
