import Acceptance.Duration

/-!
# Instants

The clock of the machine has signed seconds of 64 bits, so that there is a last instant that it can
show.

* `Instant.add?`: the instant that is a certain time later, if the clock can show it;
* `Instant.isSome_add?_iff`, `Instant.add?_eq_some_iff`: when it can, and that the sum is exact then.
-/

namespace Acceptance

/-- Signed numbers of 64 bits are below it. -/
def signedLimit : Nat := 9223372036854775808

/-- What the clock of the machine can show: seconds with a sign, 64 bits of them, and
nanoseconds. -/
structure Instant where
  seconds : Int
  nanoseconds : Nat
  lower : -signedLimit ≤ seconds
  upper : seconds < signedLimit
  part : nanoseconds < 1000000000
  deriving DecidableEq, Repr

namespace Instant

/-- The clock shows zero. -/
def zero : Instant := ⟨0, 0, by decide, by decide, by decide⟩

/-- Nanoseconds since the clock was at zero. -/
def total (t : Instant) : Int := t.seconds * 1000000000 + t.nanoseconds

/-- The instant that is `d` later, if the clock can show it. -/
def add? (t : Instant) (d : Nat) : Option Instant :=
  let carried := t.nanoseconds + d % 1000000000
  let seconds := t.seconds + Duration.seconds d + (carried / 1000000000 : Nat)
  if upper : seconds < signedLimit then
    some {
      seconds
      nanoseconds := carried % 1000000000
      lower := by have := t.lower; omega
      upper
      part := Nat.mod_lt _ (by decide) }
  else none

theorem total_inj {t u : Instant} (h : t.total = u.total) : t = u := by
  obtain ⟨seconds, nanoseconds, _, _, part⟩ := t
  obtain ⟨seconds', nanoseconds', _, _, part'⟩ := u
  simp only [total] at h
  obtain rfl : seconds = seconds' := by omega
  obtain rfl : nanoseconds = nanoseconds' := by omega
  rfl

theorem total_lt (t : Instant) : t.total < signedLimit * 1000000000 := by
  have upper := t.upper
  have part := t.part
  unfold total
  omega

/-- A sum that the clock can show is the exact one. -/
theorem total_of_add? {t u : Instant} {d : Nat} (h : t.add? d = some u) :
    u.total = t.total + d := by
  simp only [add?] at h
  split at h <;> cases h
  simp only [total, Duration.seconds]
  omega

/-- The clock can show the sum exactly if it comes before the end of its seconds. -/
theorem isSome_add?_iff {t : Instant} {d : Nat} :
    (t.add? d).isSome ↔ t.total + d < signedLimit * 1000000000 := by
  cases sum : t.add? d with
  | some u =>
    rw [← total_of_add? sum]
    simpa using u.total_lt
  | none =>
    simp only [add?] at sum
    split at sum
    · cases sum
    · rename_i above
      have part := t.part
      simp only [Duration.seconds] at above
      simp only [total]
      simp
      omega

theorem add?_eq_some_iff {t u : Instant} {d : Nat} :
    t.add? d = some u ↔ u.total = t.total + d := by
  refine ⟨total_of_add?, fun exact => ?_⟩
  have shown : (t.add? d).isSome := isSome_add?_iff.2 (exact ▸ u.total_lt)
  obtain ⟨v, sum⟩ := Option.isSome_iff_exists.1 shown
  rw [sum, total_inj (exact.trans (total_of_add? sum).symm)]

end Instant

end Acceptance
