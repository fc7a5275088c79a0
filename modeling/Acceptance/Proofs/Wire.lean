import Acceptance.Http

/-!
# What goes over a transport

* `Http.Wire`: a transport that notes what goes over another one.
-/

namespace Acceptance.Http

variable {τ ε α β : Type}

/-- A request, and what came of it. -/
structure Sent where
  request : Request
  answer : Except String Response

/-- A transport with a note of what went over it, the first request first. -/
structure Wire (τ : Type) where
  carrier : τ
  log : List Sent := []

instance [Transport τ] : Transport (Wire τ) where
  send w request :=
    let (answer, carrier) := Transport.send w.carrier request
    (answer, ⟨carrier, w.log ++ [⟨request, answer⟩]⟩)

namespace Exchange

theorem bind_ok {x : Exchange τ ε α} {t t' : τ} {a : α} (h : x t = (.ok a, t'))
    (next : α → Exchange τ ε β) : (x >>= next) t = next a t' := by
  change bind x next t = _
  rw [bind, h]

theorem bind_error {x : Exchange τ ε α} {t t' : τ} {e : ε} (h : x t = (.error e, t'))
    (next : α → Exchange τ ε β) : (x >>= next) t = (.error e, t') := by
  change bind x next t = _
  rw [bind, h]

/-- What comes after a step that leaves the transport alone. -/
theorem bind_still (x : Exchange τ ε α) (next : α → Exchange τ ε β)
    (still : ∀ a t, (next a t).2 = t) (t : τ) : ((x >>= next) t).2 = (x t).2 := by
  cases step : x t with
  | mk result t' =>
    cases result with
    | ok a => rw [bind_ok step, still]
    | error e => rw [bind_error step]

end Exchange

end Acceptance.Http
