import Acceptance.Call
import Acceptance.Clock
import Acceptance.Files
import Acceptance.Password
import Acceptance.ResourceNames

/-!
# Sessions

A session is the world in which one run takes place: the clock, the collaborators and what they
remember, the random source, the files, and a record of what was asked and answered. A `Task` is a
part of a run.

* `ask`: one call under a guard, written into the record;
* `Task.isolate`: a task whose failure does not end the run.
-/

namespace Acceptance

/-- Collaborators: what they do when asked, and what they remember of it. -/
class Party (σ : Type) where
  react : σ → (call : Call) → Reaction call.Answer × σ

/-- What can be seen of a run. -/
inductive Event where
  | asked (time : Nat) (call : Call)
  | answered (time : Nat) (call : Call) (answer : Except Error call.Answer)
  /-- The run went on without the answer. -/
  | abandoned (time : Nat) (call : Call)
  | warned (time : Nat) (warning : Warning)

structure Session (σ : Type) where
  clock : Clock := {}
  party : σ
  /-- Bytes that the random source will give. -/
  entropy : List UInt8 := []
  /-- Seconds since 1970 when the clock started. -/
  epoch : Int := 0
  files : Files := {}
  /-- Where the temporary file of this run is put. -/
  temporaryPath : String := ""
  /-- What happened, the last first. -/
  events : List Event := []

/-- A part of a run: how it ends, and the session that it leaves. -/
def Task (σ α : Type) := Session σ → Ending α × Session σ

namespace Task

variable {σ α β : Type}

/-- Goes on with the value of a task; any other ending stands. -/
def bind (t : Task σ α) (next : α → Task σ β) : Task σ β := fun s =>
  match t s with
  | (.value a, s) => next a s
  | (.error e, s) => (.error e, s)
  | (.cancelled, s) => (.cancelled, s)
  | (.expired, s) => (.expired, s)
  | (.pending, s) => (.pending, s)
  | (.crashed, s) => (.crashed, s)

instance : Monad (Task σ) where
  pure a := fun s => (.value a, s)
  bind := bind

def fail (e : Error) : Task σ α := fun s => (.error e, s)

def ofExcept (r : Except Error α) : Task σ α := fun s => (.ofExcept r, s)

/-- The session as it is. -/
def session : Task σ (Session σ) := fun s => (.value s, s)

/-- Hands an error over as a value. -/
def isolate (t : Task σ α) : Task σ (Except Error α) := fun s =>
  match t s with
  | (.value a, s) => (.value (.ok a), s)
  | (.error e, s) => (.value (.error e), s)
  | (.cancelled, s) => (.cancelled, s)
  | (.expired, s) => (.expired, s)
  | (.pending, s) => (.pending, s)
  | (.crashed, s) => (.crashed, s)

def warn (w : Warning) : Task σ Unit := fun s =>
  (.value (), { s with events := .warned s.clock.now w :: s.events })

/-- Bytes from the random source. -/
def drawBytes (n : Nat) (purpose : String) : Task σ (List UInt8) := fun s =>
  if s.entropy.length < n then (.error (.random purpose), s)
  else (.value (s.entropy.take n), { s with entropy := s.entropy.drop n })

/-- A fresh password. -/
def drawPassword : Task σ String := fun s =>
  match Password.generate s.entropy with
  | some (password, entropy) => (.value password, { s with entropy })
  | none => (.error (.random "test user password"), s)

/-- Names for the resources of a run that starts now. -/
def drawNames (stem : String) : Task σ ResourceNames := do
  let configToken ← drawBytes tokenBytes "resource name suffix"
  let jobToken ← drawBytes tokenBytes "resource name suffix"
  let s ← session
  pure (.ofTokens stem (s.epoch + Duration.seconds s.clock.now) configToken jobToken)

/-- Lets time pass. -/
def sleep (g : Guard) (d : Nat) : Task σ Unit := fun s =>
  let (ending, clock) := s.clock.await g { lasts := some d, answer := .ok () }
  (ending, { s with clock })

/-- How a call ended, for the record. -/
def endEvents (call : Call) (time : Nat) (warnings : List Warning) :
    Ending call.Answer → List Event
  | .value a => [.answered time call (.ok a)]
  | .error e => [.answered time call (.error e)]
  | .cancelled => (warnings.map (.warned time)).reverse ++ [.abandoned time call]
  | .expired | .pending | .crashed => [.abandoned time call]

/-- Asks a collaborator, and waits for the answer as the guard allows. -/
def ask [Party σ] (g : Guard) (call : Call) : Task σ call.Answer := fun s =>
  let (reaction, party) := Party.react s.party call
  let (ending, clock) := s.clock.await g reaction
  let asked := Event.asked s.clock.now call :: s.events
  (ending, { s with
    party, clock, events := endEvents call clock.now reaction.whenStopped ending ++ asked })

theorem now_le_ask [Party σ] (g : Guard) (call : Call) (s : Session σ) :
    s.clock.now ≤ (ask g call s).2.clock.now :=
  Clock.now_le_await g _ s.clock

end Task

end Acceptance
