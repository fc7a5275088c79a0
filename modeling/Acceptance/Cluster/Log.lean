import Acceptance.Cluster.Client

/-!
# The output of a pod

Following a pod: it is looked at once a second until its container has started, and then what it
prints is copied line by line. An image that cannot be pulled ends the wait.

* `Client.followPodLogs`: the whole call, with the time that it takes.
-/

namespace Acceptance.Cluster

open Http

/-- The lines of a text in bytes. What follows the last line break is a line if it is not empty, and
keeps a carriage return at its end. -/
def logLines (bytes : Text.Utf8.Bytes) : List Text.Utf8.Bytes :=
  finish (bytes.foldl step ([], []))
where
  /-- The lines so far, the last first, and the bytes of the open one, the last first. -/
  step (acc : List Text.Utf8.Bytes × Text.Utf8.Bytes) (b : UInt8) :
      List Text.Utf8.Bytes × Text.Utf8.Bytes :=
    if b == 0x0A then
      let line := if acc.2.head? == some 0x0D then acc.2.tail else acc.2
      (line.reverse :: acc.1, [])
    else (acc.1, b :: acc.2)
  finish (acc : List Text.Utf8.Bytes × Text.Utf8.Bytes) : List Text.Utf8.Bytes :=
    (if acc.2.isEmpty then acc.1 else acc.2.reverse :: acc.1).reverse

namespace Client

variable {τ : Type} [Transport τ]

/-- Prints lines up to the first that is no text. -/
def print (c : Connection τ) : List Text.Utf8.Bytes → Except Error Unit × Connection τ
  | [] => (.ok (), c)
  | line :: rest =>
    match Text.Utf8.decode? line with
    | some text => print { c with printed := text :: c.printed } rest
    | none => (.error (.io "stream did not contain valid UTF-8"), c)

/-- A fault at the start of the output may say that the image cannot be pulled. -/
def attachFault (ns pod : String) (fault : Fault) : Error :=
  if ImagePull.isFailure fault.message then .imagePull pod fault.message
  else fail "attach logs" (place ns pod) fault

def copyLogs (ns pod : String) : Exchange (Connection τ) Error Unit := fun c =>
  match send .get (named pods ns pod "/log?follow=true") none c with
  | (.ok response, c) => print c (logLines response.body)
  | (.error fault, c) => (.error (attachFault ns pod fault), c)

def lookAtPod (ns pod : String) : Exchange (Connection τ) Error PodStart := do
  let found ← (get pods podKind.read? ns pod).mapError (fail "get pod" (place ns pod))
  pure (.ofPod found)

/-- How long to wait between two looks at a pod. -/
def lookInterval : Nat := Duration.ofSeconds 1

/-- Looks at the pod up to `looks` times, and copies its output once it has started. `waited` is the
time that has passed. If the pod does not start within that, the call does not end. -/
def follow (ns pod : String) (waited : Nat) : Nat → Connection τ → Reaction Unit × Connection τ
  | 0, c => ({ lasts := none, answer := .ok () }, c)
  | looks + 1, c =>
    match lookAtPod ns pod c with
    | (.error e, c) => ({ lasts := some waited, answer := .error e }, c)
    | (.ok .waiting, c) => follow ns pod (waited + lookInterval) looks c
    | (.ok (.imagePullFailed reason), c) =>
      ({ lasts := some waited, answer := .error (.imagePull pod reason) }, c)
    | (.ok .started, c) =>
      let (answer, c) := copyLogs ns pod c
      ({ lasts := some waited, answer }, c)

def followPodLogs (looks : Nat) (ns pod : String) (c : Connection τ) :
    Reaction Unit × Connection τ :=
  follow ns pod 0 looks c

end Client

end Acceptance.Cluster
