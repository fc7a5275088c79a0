import Acceptance.Session

/-!
# Waits

Every wait of a run is bounded, and ends as soon as the run is cancelled.

* `Task.withCancel`: one step that gives way to cancellation;
* `Wait.poll`: repeats a check until it has a value, the time is up, or the run is cancelled. The
  last check is made right at the deadline. If the clock cannot show the deadline, the program crashes
  before the first check.
-/

namespace Acceptance

variable {σ α : Type}

/-- Makes a step unless the run is cancelled, and gives it up when the run is cancelled. -/
def Task.withCancel (stage : String) (step : Guard → Task σ α) : Task σ α := fun s =>
  if s.clock.cancelled then (.error (.cancelled stage), s)
  else match step { cancellable := true } s with
    | (.cancelled, s) => (.error (.cancelled stage), s)
    | r => r

/-- A check that a wait repeats. The clock does not go back while it is made. -/
structure Check (σ α : Type) where
  run : Guard → Task σ (Option α)
  forward : ∀ g s, s.clock.now ≤ (run g s).2.clock.now

/-- The check that is a reaction of its own each time. The party is the times at which the checks
started, the last first. -/
def Check.series (reaction : Nat → Reaction (Option α)) : Check (List Nat) α where
  run g := fun s =>
    let (ending, clock) := s.clock.await g (reaction s.party.length)
    (ending, { s with clock, party := s.clock.now :: s.party })
  forward g s := Clock.now_le_await g _ s.clock

/-- A wait for `stage`, with a check every `interval`, which is meant to be positive. -/
structure Wait where
  stage : String
  timeout : Nat
  interval : Nat
  deriving DecidableEq, Repr

namespace Wait

/-- How long to pause when `left` is left until the deadline. An interval of zero counts as one, so
that time passes between two checks; what a timer makes of a pause of no time is left out. -/
def pause (w : Wait) (left : Nat) : Nat := max 1 (min w.interval left)

def timedOut (w : Wait) : Error := .timeout w.stage w.timeout

def wasCancelled (w : Wait) : Error := .cancelled w.stage

theorem now_lt_sleep {g : Guard} {d : Nat} (positive : 0 < d) {s s' : Session σ}
    (h : Task.sleep g d s = (.value (), s')) : s.clock.now < s'.clock.now := by
  have ending := congrArg Prod.fst h
  have left := congrArg (fun r : Ending Unit × Session σ => r.2.clock) h
  obtain ⟨_, same, later⟩ := Clock.await_value (Prod.ext ending left :
    s.clock.await g { lasts := some d, answer := .ok () } = (.value (), s'.clock))
  cases same
  omega

theorem pause_pos (w : Wait) (left : Nat) : 0 < w.pause left :=
  Nat.lt_of_lt_of_le Nat.one_pos (Nat.le_max_left ..)

/-- The instant at which a wait that starts now is over, if the clock can show it. -/
def deadline? (w : Wait) (now : Instant) : Option Instant := now.add? w.timeout

/-- After a check without a value: the pause before the next one, unless it is too late for one.
`none` says that the wait goes on. -/
def rest (w : Wait) (deadline : Nat) (s : Session σ) : Option (Ending α) × Session σ :=
  if deadline ≤ s.clock.now then (some (.error w.timedOut), s)
  else match Task.sleep ⟨true, none⟩ (w.pause (deadline - s.clock.now)) s with
    | (.value (), s) => (none, s)
    | (.error e, s) => (some (.error e), s)
    | (.pending, s) => (some .pending, s)
    | (.crashed, s) => (some .crashed, s)
    | (.cancelled, s) | (.expired, s) => (some (.error w.wasCancelled), s)

/-- One check and the pause after it. -/
def round (w : Wait) (deadline : Nat) (check : Check σ α) (s : Session σ) :
    Option (Ending α) × Session σ :=
  if s.clock.cancelled then (some (.error w.wasCancelled), s)
  else match check.run ⟨true, some deadline⟩ s with
    | (.value (some a), s) => (some (.value a), s)
    | (.value none, s) => w.rest deadline s
    | (.error e, s) => (some (.error e), s)
    | (.cancelled, s) => (some (.error w.wasCancelled), s)
    | (.expired, s) => (some (.error w.timedOut), s)
    | (.pending, s) => (some .pending, s)
    | (.crashed, s) => (some .crashed, s)

theorem rest_none {w : Wait} {deadline : Nat} {s s' : Session σ}
    (h : w.rest (α := α) deadline s = (none, s')) :
    s.clock.now < deadline ∧ s.clock.now < s'.clock.now := by
  unfold rest at h
  split at h
  · cases h
  · split at h
    · rename_i early _ _ slept
      cases h
      exact ⟨Nat.lt_of_not_le early, now_lt_sleep (w.pause_pos _) slept⟩
    all_goals cases h

/-- Time passes between one check and the next, and none is made after the deadline. -/
theorem round_none {w : Wait} {deadline : Nat} {check : Check σ α} {s s' : Session σ}
    (h : w.round deadline check s = (none, s')) :
    s.clock.now < deadline ∧ s.clock.now < s'.clock.now := by
  unfold round at h
  split at h
  · cases h
  · split at h
    · cases h
    · rename_i made
      have onward := check.forward ⟨true, some deadline⟩ s
      rw [made] at onward
      have later := rest_none h
      exact ⟨Nat.lt_of_le_of_lt onward later.1, Nat.lt_of_le_of_lt onward later.2⟩
    all_goals cases h

/-- Checks again and again until `deadline`. -/
def loop (w : Wait) (deadline : Nat) (check : Check σ α) (s : Session σ) :
    Ending α × Session σ :=
  match _ : w.round deadline check s with
  | (some ending, s) => (ending, s)
  | (none, s) => loop w deadline check s
termination_by deadline - s.clock.now
decreasing_by
  have := round_none (by assumption)
  omega

/-- Waits until a check has a value. The deadline is taken first: where the clock cannot show it, the
program crashes, whether or not the run is cancelled. -/
def poll (w : Wait) (check : Check σ α) : Task σ α := fun s =>
  match s.clock.instant?.bind w.deadline? with
  | some _ => w.loop (s.clock.now + w.timeout) check s
  | none => (.crashed, s)

end Wait

end Acceptance
