import Acceptance.Text.Blank

/-!
# Status of a batch job

A job reports conditions; two of them end it. `JobStatus` is what they say at one moment, and
`JobStatus.outcome` the verdict, if there is one yet.
-/

namespace Acceptance

/-- What a condition says. A condition that is not listed says nothing. -/
inductive ConditionState where
  | true
  | false
  | unknown
  deriving DecidableEq, Repr, Inhabited

namespace ConditionState

/-- Only the words `True` and `False` say something; blanks around them do not matter. -/
def ofText (s : String) : ConditionState :=
  match Text.trimmed s with
  | "True" => .true
  | "False" => .false
  | _ => .unknown

def word : ConditionState → String
  | .true => "True"
  | .false => "False"
  | .unknown => "Unknown"

end ConditionState

inductive JobOutcome where
  | succeeded
  | failed
  deriving DecidableEq, Repr

/-- A condition as the cluster lists it. -/
structure JobCondition where
  type : String
  status : String
  deriving DecidableEq, Repr

structure JobStatus where
  complete : ConditionState
  failed : ConditionState
  deriving DecidableEq, Repr, Inhabited

namespace JobStatus

/-- The status that two condition texts give; an empty text stands for no condition. -/
def ofTexts (complete failed : String) : JobStatus :=
  ⟨.ofText complete, .ofText failed⟩

/-- State of the first listed condition of a type. -/
def state (conditions : List JobCondition) (type : String) : ConditionState :=
  match conditions.find? (·.type == type) with
  | some c => .ofText c.status
  | none => .unknown

def ofConditions (conditions : List JobCondition) : JobStatus :=
  ⟨state conditions "Complete", state conditions "Failed"⟩

/-- The verdict. A job that is both complete and failed counts as complete. -/
def outcome (s : JobStatus) : Option JobOutcome :=
  if s.complete = .true then some .succeeded
  else if s.failed = .true then some .failed
  else none

end JobStatus

end Acceptance
