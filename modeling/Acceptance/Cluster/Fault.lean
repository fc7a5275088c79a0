import Acceptance.Cluster.Path
import Acceptance.Http
import Acceptance.Http.Status
import Acceptance.Json.Reader
import Acceptance.Json.Record
import Acceptance.Text.Utf8

/-!
# What goes wrong with the cluster

The API reports a failure as a `Status`. A failure in any other form keeps the text of the response
and the code of its status line.
-/

namespace Acceptance.Cluster

/-- A failure that the API reports. -/
structure ApiFailure where
  status : String
  message : String
  reason : String
  code : Nat
  deriving DecidableEq, Repr

inductive Fault where
  | request (fault : RequestFault)
  /-- There was no response. -/
  | transport (message : String)
  | api (failure : ApiFailure)
  | notText (fault : Text.Utf8.Fault)
  /-- The response is not what was asked for. -/
  | unexpected (why : String)
  deriving DecidableEq, Repr

/-- All that a failure says. -/
def ApiFailure.shown (f : ApiFailure) : String :=
  "ErrorResponse \x7b status: " ++ Text.quoted f.status ++ ", message: " ++ Text.quoted f.message ++
    ", reason: " ++ Text.quoted f.reason ++ s!", code: {f.code} \x7d"

def Fault.message : Fault → String
  | .request fault => "Failed to build request: " ++ fault.message
  | .transport message => "ServiceError: " ++ message
  | .api f => s!"ApiError: {f.message}: {f.reason} ({f.shown})"
  | .notText fault => "UTF-8 Error: " ++ fault.message
  | .unexpected why => "Error deserializing response: " ++ why

/-- The resource is not there. The code within the failure counts. -/
def Fault.isNotFound : Fault → Bool
  | .api f => f.code == 404
  | _ => false

/-- A whole number of 16 bits. -/
def readCode : Json.Reading Nat
  | .number (.integer n) =>
    if 0 ≤ n && n < 65536 then .ok n.toNat else .error (.type s!"integer `{n}`" "u16")
  | v => .error (.type v.description "u16")

open Json.Reading in
/-- Reads a failure; status and code must be there. -/
def ApiFailure.read? (value : Json) : Option ApiFailure :=
  let fields : List (RecordField (ApiFailure × Option String × Option Nat)) := [
    field "status" string fun f s => (f.1, some s, f.2.2),
    field "message" string fun f m => ({ f.1 with message := m }, f.2),
    field "reason" string fun f r => ({ f.1 with reason := r }, f.2),
    field "code" readCode fun f c => (f.1, f.2.1, some c)]
  match record "ErrorResponse" fields (⟨"", "", "", 0⟩, none, none) value with
  | .ok (f, some status, some code) => some { f with status, code }
  | _ => none

/-- What a response with a failing status reports. -/
def ApiFailure.ofResponse (code : Nat) (text : String) : ApiFailure :=
  match (Json.parseAsWritten? text).bind read? with
  | some f => f
  | none => {
    status := Http.statusText code
    message := Text.quoted text
    reason := "Failed to parse error data"
    code }

/-- The text of a body. -/
def bodyText (body : Text.Utf8.Bytes) : Except Fault String :=
  match Text.Utf8.fault? body, Text.Utf8.decode? body with
  | none, some text => .ok text
  | some fault, _ => .error (.notText fault)
  | none, none => .error (.unexpected "no text")

/-- The response, unless it reports a failure. -/
def accepted (response : Http.Response) : Except Fault Http.Response := do
  if Http.isFailure response.status then
    .error (.api (.ofResponse response.status (← bodyText response.body)))
  else .ok response

end Acceptance.Cluster
