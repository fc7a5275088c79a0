import Acceptance.Error
import Acceptance.Instant
import Acceptance.Warning

/-!
# Time and cancellation

A run lives on a clock that moves only while something is waited for. What is waited for is a
`Reaction`: it takes its time, or for ever, and then has an answer. A `Guard` says what may cut the
wait short.

* `Clock.await`: waits for a reaction under a guard;
* `Clock.now_le_await`: the clock never goes back;
* `Clock.await_value`: an answer comes exactly when the reaction is over.
-/

namespace Acceptance

/-- What somebody does when asked. It may cancel the run at its start and at no other time, and a
cancellation from outside comes after all else that happens at its time: that somebody cancels the run
right with a late answer is left out. -/
structure Reaction (α : Type) where
  /-- Whether it cancels the run, right at its start. -/
  cancels : Bool := false
  /-- How long the answer takes; `none` if it never comes. -/
  lasts : Option Nat := some 0
  answer : Except Error α
  /-- What is reported if cancellation cuts it short. -/
  whenStopped : List Warning := []

/-- What may cut a wait short. -/
structure Guard where
  cancellable : Bool := false
  deadline : Option Nat := none
  deriving DecidableEq, Repr

/-- How a part of a run ends. -/
inductive Ending (α : Type) where
  | value (a : α)
  | error (e : Error)
  /-- Cancellation came first. -/
  | cancelled
  /-- The deadline came first. -/
  | expired
  /-- It had not ended when one stopped to look. -/
  | pending
  /-- The program crashed: the clock cannot show a time that it needs. -/
  | crashed

namespace Ending

def ofExcept {α : Type} : Except Error α → Ending α
  | .ok a => value a
  | .error e => error e

end Ending

structure Clock where
  /-- What the clock of the machine showed at the time zero. -/
  origin : Instant := .zero
  now : Nat := 0
  /-- Whether the run is cancelled. -/
  cancelled : Bool := false
  /-- When the run will be cancelled from outside. -/
  cancelAt : Option Nat := none
  /-- How long one looks on. -/
  horizon : Option Nat := none
  deriving DecidableEq, Repr

/-- Something that will happen at a certain time. -/
structure Due (α : Type) where
  time : Nat
  ending : Ending α

/-- Whichever comes sooner; the first if they come at once. -/
def Due.sooner {α : Type} : Option (Due α) → Option (Due α) → Option (Due α)
  | some a, some b => if b.time < a.time then some b else some a
  | some a, none => some a
  | none, b => b

theorem Due.eq_some_of_sooner {α : Type} {a b : Option (Due α)} {d : Due α}
    (h : sooner a b = some d) : a = some d ∨ b = some d := by
  unfold sooner at h
  split at h
  · split at h
    · exact .inr h
    · exact .inl h
  · exact .inl h
  · exact .inr h

namespace Clock

variable {α : Type}

/-- What the clock of the machine shows, as far as it can show it. -/
def instant? (c : Clock) : Option Instant := c.origin.add? c.now

/-- When cancellation cuts a wait short that starts now. -/
def cancelTime (c : Clock) : Option Nat :=
  if c.cancelled then some c.now else c.cancelAt.map (max c.now ·)

/-- The clock at a later time. A cancellation from outside has happened once its time is over, and not
yet at that time. -/
def moveTo (c : Clock) (t : Nat) : Clock :=
  { c with now := max c.now t, cancelled := c.cancelled || c.cancelAt.any (· < t) }

/-- What ends the wait for a reaction: its answer, or else the deadline, or else cancellation, or
else that one stops to look. -/
def due (g : Guard) (r : Reaction α) (c : Clock) : Option (Due α) :=
  let answer := r.lasts.map fun d => ⟨c.now + d, .ofExcept r.answer⟩
  let deadline := g.deadline.map fun t => ⟨max c.now t, .expired⟩
  let cancel := if g.cancellable then c.cancelTime.map fun t => ⟨t, .cancelled⟩ else none
  let horizon := c.horizon.map fun t => ⟨max c.now t, .pending⟩
  Due.sooner (Due.sooner (Due.sooner answer deadline) cancel) horizon

/-- A reaction that takes no time is answered whatever the guard says. -/
def await (g : Guard) (r : Reaction α) (c : Clock) : Ending α × Clock :=
  let c := if r.cancels then { c with cancelled := true } else c
  if r.lasts = some 0 then (.ofExcept r.answer, c)
  else match due g r c with
    | none => (.pending, c)
    | some ⟨t, .cancelled⟩ => (.cancelled, { c.moveTo t with cancelled := true })
    | some ⟨t, ending⟩ => (ending, c.moveTo t)

/-- Only the answer itself can end a wait with a value. -/
theorem eq_of_due_value {g : Guard} {r : Reaction α} {c : Clock} {t : Nat} {a : α}
    (h : due g r c = some ⟨t, .value a⟩) : ∃ d, r.lasts = some d ∧ t = c.now + d := by
  unfold due at h
  rcases Due.eq_some_of_sooner h with h | h
  · rcases Due.eq_some_of_sooner h with h | h
    · rcases Due.eq_some_of_sooner h with h | h
      · obtain ⟨d, lasts, same⟩ := Option.map_eq_some_iff.1 h
        exact ⟨d, lasts, (congrArg Due.time same).symm⟩
      · obtain ⟨_, _, same⟩ := Option.map_eq_some_iff.1 h
        cases same
    · split at h
      · obtain ⟨_, _, same⟩ := Option.map_eq_some_iff.1 h
        cases same
      · cases h
  · obtain ⟨_, _, same⟩ := Option.map_eq_some_iff.1 h
    cases same

theorem now_le_moveTo (c : Clock) (t : Nat) : c.now ≤ (c.moveTo t).now := Nat.le_max_left ..

theorem now_le_await (g : Guard) (r : Reaction α) (c : Clock) : c.now ≤ (await g r c).2.now := by
  unfold await
  dsimp only
  split <;> split <;> try exact Nat.le_refl _
  all_goals split <;> first | exact Nat.le_refl _ | exact now_le_moveTo ..

/-- An answer comes when its time is over. -/
theorem await_value {g : Guard} {r : Reaction α} {c c' : Clock} {a : α}
    (h : await g r c = (.value a, c')) : ∃ d, r.lasts = some d ∧ c'.now = c.now + d := by
  unfold await at h
  dsimp only at h
  split at h
  · rename_i instant
    refine ⟨0, instant, ?_⟩
    obtain ⟨_, rfl⟩ := Prod.mk.injEq .. ▸ h
    split <;> rfl
  · split at h
    · cases h
    · cases h
    · rename_i t ending _ found
      obtain ⟨rfl, rfl⟩ := Prod.mk.injEq .. ▸ h
      obtain ⟨d, lasts, same⟩ := eq_of_due_value found
      refine ⟨d, lasts, ?_⟩
      have unmoved : (if r.cancels then { c with cancelled := true } else c).now = c.now := by
        split <;> rfl
      simp only [moveTo, same, unmoved]
      omega

end Clock

end Acceptance
