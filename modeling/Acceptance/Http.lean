import Acceptance.Text.Utf8

/-!
# Requests and responses

What is sent to the cluster and to the identity provider, and what comes back. A `Transport` carries
requests; it follows redirects, and says why a request that it cannot deliver got no response.
-/

namespace Acceptance.Http

inductive Method where
  | get
  | post
  | put
  | patch
  | delete
  deriving DecidableEq, Repr

def Method.name : Method → String
  | .get => "GET"
  | .post => "POST"
  | .put => "PUT"
  | .patch => "PATCH"
  | .delete => "DELETE"

structure Body where
  contentType : String
  text : String
  deriving DecidableEq, Repr

structure Request where
  method : Method
  /-- A path with a query, or a whole URL. -/
  target : String
  authorization : Option String := none
  body : Option Body := none
  deriving DecidableEq, Repr

structure Response where
  status : Nat
  body : Text.Utf8.Bytes
  deriving DecidableEq, Repr

/-- What carries requests. -/
class Transport (τ : Type) where
  send : τ → Request → Except String Response × τ

/-- A step that may send requests. -/
def Exchange (τ ε α : Type) := τ → Except ε α × τ

namespace Exchange

variable {τ ε α β : Type}

def bind (x : Exchange τ ε α) (next : α → Exchange τ ε β) : Exchange τ ε β := fun t =>
  match x t with
  | (.ok a, t) => next a t
  | (.error e, t) => (.error e, t)

instance : Monad (Exchange τ ε) where
  pure a := fun t => (.ok a, t)
  bind := bind

def ofExcept (r : Except ε α) : Exchange τ ε α := fun t => (r, t)

def mapError {δ : Type} (f : ε → δ) (x : Exchange τ ε α) : Exchange τ δ α := fun t =>
  let (r, t) := x t
  (r.mapError f, t)

def send [Transport τ] (request : Request) : Exchange τ String Response := fun t =>
  Transport.send t request

end Exchange

end Acceptance.Http
