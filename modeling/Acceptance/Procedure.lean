import Acceptance.Session

/-!
# Procedures

A procedure is a series of calls as a tree: each call with what is done for every answer to it. As
a tree it can be carried out by one run alone, or call by call among others.

* `Procedure.perform`: carries a procedure out within a session, under one guard for all its calls.
-/

namespace Acceptance

inductive Procedure (α : Type) where
  | done (result : Except Error α)
  | ask (call : Call) (next : Except Error call.Answer → Procedure α)
  | warn (warning : Warning) (next : Procedure α)
  /-- Draws a new password. -/
  | password (next : String → Procedure α)

namespace Procedure

variable {α β σ : Type}

/-- Goes on with the value; an error ends the procedure. -/
def bind : Procedure α → (α → Procedure β) → Procedure β
  | done (.ok a), next => next a
  | done (.error e), _ => done (.error e)
  | ask call k, next => ask call fun answer => (k answer).bind next
  | warn w k, next => warn w (k.bind next)
  | password k, next => password fun p => (k p).bind next

instance : Monad Procedure where
  pure a := done (.ok a)
  bind := bind

/-- One call, whose error ends the procedure. -/
def call (c : Call) : Procedure c.Answer := ask c done

def newPassword : Procedure String := password fun p => done (.ok p)

def perform [Party σ] (g : Guard) : Procedure α → Task σ α
  | done result => Task.ofExcept result
  | ask call next => fun s =>
    match Task.ask g call s with
    | (.value a, s) => (next (.ok a)).perform g s
    | (.error e, s) => (next (.error e)).perform g s
    | (.cancelled, s) => (.cancelled, s)
    | (.expired, s) => (.expired, s)
    | (.pending, s) => (.pending, s)
    | (.crashed, s) => (.crashed, s)
  | warn w next => Task.warn w >>= fun _ => next.perform g
  | password next => Task.drawPassword >>= fun p => (next p).perform g

end Procedure

end Acceptance
