import Acceptance.Clock

/-!
# How a wait ends

* `Clock.Awaited`: the four ways in which a wait for a reaction ends, and when;
* `Clock.awaited`: every wait ends in one of them;
* `Clock.Shows`: which times the clock of the machine can show;
* `Clock.Raced`, `Clock.raced`: the exact time at which a wait ends that gives way to cancellation.
-/

namespace Acceptance

deriving instance DecidableEq for Ending

namespace Due

variable {α : Type} {a b : Option (Due α)} {d : Due α}

/-- Something happens at `t` at the latest. -/
def By (t : Nat) (a : Option (Due α)) : Prop := ∃ x, a = some x ∧ x.time ≤ t

/-- Either `x` happens, or something else does before it. -/
def Unless (x : Due α) (a : Option (Due α)) : Prop := ∃ y, a = some y ∧ (y = x ∨ y.time < x.time)

theorem By.left {t : Nat} (h : By t a) : By t (sooner a b) := by
  obtain ⟨x, rfl, early⟩ := h
  cases b with
  | none => exact ⟨x, rfl, early⟩
  | some b =>
    simp only [sooner]
    split
    · exact ⟨b, rfl, by omega⟩
    · exact ⟨x, rfl, early⟩

theorem By.right {t : Nat} (h : By t b) : By t (sooner a b) := by
  obtain ⟨x, rfl, early⟩ := h
  cases a with
  | none => exact ⟨x, rfl, early⟩
  | some a =>
    simp only [sooner]
    split
    · exact ⟨x, rfl, early⟩
    · exact ⟨a, rfl, by omega⟩

theorem Unless.left {x : Due α} (h : Unless x a) : Unless x (sooner a b) := by
  obtain ⟨y, rfl, early⟩ := h
  cases b with
  | none => exact ⟨y, rfl, early⟩
  | some b =>
    simp only [sooner]
    split
    · refine ⟨b, rfl, .inr ?_⟩
      rcases early with rfl | early <;> omega
    · exact ⟨y, rfl, early⟩

/-- What is not the first of the two comes before it. -/
theorem time_lt_of_right {t : Nat} (h : sooner a b = some d) (other : a ≠ some d) (early : By t a) :
    d.time < t := by
  obtain ⟨x, rfl, inTime⟩ := early
  cases b with
  | none => exact absurd h other
  | some b =>
    simp only [sooner] at h
    split at h
    · cases h
      omega
    · exact absurd h other

end Due

namespace Clock

variable {α : Type} {g : Guard} {r : Reaction α} {c : Clock}

/-- The clock of the machine can show when a time `d` that starts now is over. -/
def Shows (c : Clock) (d : Nat) : Prop := (c.instant?.bind (·.add? d)).isSome

instance (c : Clock) (d : Nat) : Decidable (c.Shows d) := inferInstanceAs (Decidable (_ = true))

theorem shows_iff {d : Nat} :
    c.Shows d ↔ c.origin.total + (c.now + d : Nat) < signedLimit * 1000000000 := by
  unfold Shows instant?
  cases now : c.origin.add? c.now with
  | none =>
    have late : ¬ (c.origin.add? c.now).isSome := by simp [now]
    rw [Instant.isSome_add?_iff] at late
    simp
    omega
  | some t =>
    have exact := Instant.total_of_add? now
    rw [Option.bind_some, Instant.isSome_add?_iff, exact]
    omega

/-- A clock that can show one time can show what comes before it. -/
theorem Shows.earlier {c' : Clock} {d d' : Nat} (h : c'.Shows d') (origin : c'.origin = c.origin)
    (early : c.now + d ≤ c'.now + d') : c.Shows d := by
  rw [shows_iff] at h ⊢
  rw [origin] at h
  omega

theorem cancelTime_of_cancelled (h : c.cancelled = true) : c.cancelTime = some c.now := if_pos h

theorem now_le_cancelTime {t : Nat} (h : c.cancelTime = some t) : c.now ≤ t := by
  unfold cancelTime at h
  split at h
  · cases h
    exact Nat.le_refl _
  · obtain ⟨u, _, rfl⟩ := Option.map_eq_some_iff.1 h
    exact Nat.le_max_left _ _

/-- The ways in which a wait from `c` can end, and the clock then. -/
inductive Awaited (g : Guard) (r : Reaction α) (c : Clock) : Ending α → Clock → Prop where
  /-- The answer came, at the deadline at the latest. -/
  | answered {c' : Clock} {d : Nat} (lasts : r.lasts = some d) (now : c'.now = c.now + d)
      (inTime : ∀ t, g.deadline = some t → c'.now ≤ max c.now t) :
      Awaited g r c (.ofExcept r.answer) c'
  /-- The deadline came, and the answer would have come later if at all. -/
  | expired {c' : Clock} {t : Nat} (deadline : g.deadline = some t) (now : c'.now = max c.now t)
      (late : ∀ d, r.lasts = some d → c'.now < c.now + d) : Awaited g r c .expired c'
  | cancelled {c' : Clock} (cancellable : g.cancellable = true) (stopped : c'.cancelled = true)
      (now_le : c.now ≤ c'.now) (inTime : ∀ t, g.deadline = some t → c'.now ≤ max c.now t) :
      Awaited g r c .cancelled c'
  /-- To one who looks on for ever, this happens only to a wait without an end. -/
  | pending {c' : Clock} (now_le : c.now ≤ c'.now)
      (inTime : ∀ t, g.deadline = some t → c'.now ≤ max c.now t)
      (unending : c.horizon = none → r.lasts = none ∧ g.deadline = none ∧
        (g.cancellable = true → c'.cancelTime = none)) : Awaited g r c .pending c'

/-- The clock when a reaction has started. -/
def started (r : Reaction α) (c : Clock) : Clock :=
  if r.cancels then { c with cancelled := true } else c

@[simp]
theorem started_now : (c.started r).now = c.now := by unfold started; split <;> rfl

@[simp]
theorem started_origin : (c.started r).origin = c.origin := by unfold started; split <;> rfl

@[simp]
theorem started_horizon : (c.started r).horizon = c.horizon := by unfold started; split <;> rfl

theorem await_eq : await g r c =
    if r.lasts = some 0 then (.ofExcept r.answer, c.started r)
    else match due g r (c.started r) with
      | none => (.pending, c.started r)
      | some ⟨t, .cancelled⟩ => (.cancelled, { (c.started r).moveTo t with cancelled := true })
      | some ⟨t, ending⟩ => (ending, (c.started r).moveTo t) := rfl

/-- What ends a wait is one of four things. -/
theorem due_cases {x : Due α} (h : due g r c = some x) :
    (∃ d, r.lasts = some d ∧ x = ⟨c.now + d, .ofExcept r.answer⟩) ∨
    (∃ t, g.deadline = some t ∧ x = ⟨max c.now t, .expired⟩) ∨
    (g.cancellable = true ∧ ∃ t, c.cancelTime = some t ∧ x = ⟨t, .cancelled⟩) ∨
    (∃ t, c.horizon = some t ∧ x = ⟨max c.now t, .pending⟩) := by
  unfold due at h
  rcases Due.eq_some_of_sooner h with h | h
  · rcases Due.eq_some_of_sooner h with h | h
    · rcases Due.eq_some_of_sooner h with h | h
      · obtain ⟨d, lasts, rfl⟩ := Option.map_eq_some_iff.1 h
        exact .inl ⟨d, lasts, rfl⟩
      · obtain ⟨t, deadline, rfl⟩ := Option.map_eq_some_iff.1 h
        exact .inr (.inl ⟨t, deadline, rfl⟩)
    · split at h
      · rename_i cancellable
        obtain ⟨t, time, rfl⟩ := Option.map_eq_some_iff.1 h
        exact .inr (.inr (.inl ⟨cancellable, t, time, rfl⟩))
      · cases h
  · obtain ⟨t, horizon, rfl⟩ := Option.map_eq_some_iff.1 h
    exact .inr (.inr (.inr ⟨t, horizon, rfl⟩))

theorem due_by_deadline {t : Nat} (deadline : g.deadline = some t) :
    Due.By (max c.now t) (due g r c) :=
  Due.By.left (Due.By.left (Due.By.right ⟨_, by rw [deadline]; rfl, Nat.le_refl _⟩))

theorem due_by_cancelTime {t : Nat} (cancellable : g.cancellable = true)
    (time : c.cancelTime = some t) : Due.By t (due g r c) :=
  Due.By.left (Due.By.right ⟨⟨t, .cancelled⟩, by rw [if_pos cancellable, time]; rfl, Nat.le_refl _⟩)

/-- The answer ends the wait unless something else does before it: of two at once, it counts. -/
theorem due_unless_answer {d : Nat} (lasts : r.lasts = some d) :
    Due.Unless ⟨c.now + d, .ofExcept r.answer⟩ (due g r c) :=
  Due.Unless.left (Due.Unless.left (Due.Unless.left ⟨_, by rw [lasts]; rfl, .inl rfl⟩))

theorem ofExcept_ne_cancelled {x : Except Error α} : Ending.ofExcept x ≠ .cancelled := by
  cases x <;> simp [Ending.ofExcept]

theorem ofExcept_ne_expired {x : Except Error α} : Ending.ofExcept x ≠ .expired := by
  cases x <;> simp [Ending.ofExcept]

/-- A wait that its cause ends at a known time ends as `Awaited` says. -/
theorem awaited_of_due {x : Due α} (found : due g r (c.started r) = some x)
    (ordinary : x.ending ≠ .cancelled) :
    Awaited g r c x.ending ((c.started r).moveTo x.time) := by
  have inTime : ∀ t, g.deadline = some t → ((c.started r).moveTo x.time).now ≤ max c.now t := by
    intro t deadline
    obtain ⟨y, found', early⟩ := due_by_deadline (r := r) (c := c.started r) deadline
    cases found.symm.trans found'
    simp only [moveTo, started_now] at early ⊢
    omega
  rcases due_cases found with
    ⟨d, lasts, rfl⟩ | ⟨t, deadline, rfl⟩ | ⟨_, t, _, rfl⟩ | ⟨t, horizon, rfl⟩
  · exact .answered lasts (by simp [moveTo]) inTime
  · refine .expired deadline (by simp only [moveTo, started_now]; omega) fun d lasts => ?_
    obtain ⟨y, found', same | early⟩ := due_unless_answer (g := g) (c := c.started r) lasts
    · cases found.symm.trans found'
      exact absurd (congrArg Due.ending same).symm ofExcept_ne_expired
    · cases found.symm.trans found'
      simp only [moveTo, started_now] at early ⊢
      omega
  · exact absurd rfl ordinary
  · refine .pending (by simp only [moveTo, started_now]; omega) inTime fun unwatched => ?_
    simp [unwatched] at horizon

/-- Every wait ends in one of the four ways. -/
theorem awaited (g : Guard) (r : Reaction α) (c : Clock) :
    Awaited g r c (await g r c).1 (await g r c).2 := by
  have atOnce : ∀ t, g.deadline = some t → (c.started r).now ≤ max c.now t := by
    intro t _
    rw [started_now]
    exact Nat.le_max_left c.now t
  rw [await_eq]
  split
  · rename_i instant
    exact .answered instant (by simp) atOnce
  · split
    · rename_i nothing
      refine .pending (by simp) atOnce fun _ => ⟨?_, ?_, fun cancellable => ?_⟩
      · cases lasts : r.lasts with
        | none => rfl
        | some d =>
          obtain ⟨_, found, _⟩ := due_unless_answer (g := g) (c := c.started r) lasts
          cases nothing.symm.trans found
      · cases deadline : g.deadline with
        | none => rfl
        | some t =>
          obtain ⟨_, found, _⟩ := due_by_deadline (r := r) (c := c.started r) deadline
          cases nothing.symm.trans found
      · cases time : (c.started r).cancelTime with
        | none => rfl
        | some t =>
          obtain ⟨_, found, _⟩ := due_by_cancelTime (r := r) cancellable time
          cases nothing.symm.trans found
    · rename_i t found
      rcases due_cases found with ⟨_, _, same⟩ | ⟨_, _, same⟩ | ⟨cancellable, _⟩ | ⟨_, _, same⟩
      · exact absurd (congrArg Due.ending same).symm ofExcept_ne_cancelled
      · cases same
      · refine .cancelled cancellable rfl (by simp only [moveTo, started_now]; omega) ?_
        intro u deadline
        obtain ⟨_, found', early⟩ := due_by_deadline (r := r) (c := c.started r) deadline
        cases found.symm.trans found'
        simp only [moveTo, started_now] at early ⊢
        omega
      · cases same
    · rename_i t ending ordinary found
      exact awaited_of_due found fun h => ordinary h

theorem await_now_le_deadline {t : Nat} (deadline : g.deadline = some t) :
    (await g r c).2.now ≤ max c.now t := by
  have ended := awaited g r c
  generalize (await g r c).1 = ending at ended
  cases ended with
  | answered _ _ inTime | cancelled _ _ _ inTime | pending _ inTime => exact inTime t deadline
  | expired deadline' now =>
    cases deadline.symm.trans deadline'
    exact Nat.le_of_eq now

/-- Nobody waits longer than the answer takes. -/
theorem await_now_le_answer {d : Nat} (lasts : r.lasts = some d) :
    (await g r c).2.now ≤ c.now + d := by
  obtain ⟨x, found, early⟩ := due_unless_answer (g := g) (c := c.started r) lasts
  have inTime : x.time ≤ c.now + d := by
    rcases early with rfl | early
    · simp
    · simp only [started_now] at early
      omega
  have moved : ((c.started r).moveTo x.time).now ≤ c.now + d := by
    simp only [moveTo, started_now]
    omega
  rw [await_eq]
  split
  · simp
  · rw [found]
    split
    · simp
    · rename_i same
      cases same
      exact moved
    · rename_i same
      cases same
      exact moved

/-! ## Waits that give way to cancellation -/

/-- Before the clock would be cancelled, it only moves on. -/
theorem moveTo_eq {t : Nat} (later : c.now < t) (uncut : ∀ u, c.cancelTime = some u → t ≤ u) :
    c.moveTo t = { c with now := t } := by
  have now : max c.now t = t := Nat.max_eq_right (Nat.le_of_lt later)
  have flag : (c.cancelled || c.cancelAt.any (· < t)) = c.cancelled := by
    unfold cancelTime at uncut
    cases stopped : c.cancelled with
    | true => rfl
    | false =>
      cases at? : c.cancelAt with
      | none => rfl
      | some v =>
        have := uncut (max c.now v) (by simp [stopped, at?])
        have late : ¬ v < t := by omega
        simp [late]
  rw [moveTo, now, flag]

/-- A clock that has not been cancelled by then will be when it would be. -/
theorem cancelTime_moved {t : Nat} (later : c.now ≤ t)
    (uncut : ∀ u, c.cancelTime = some u → t ≤ u) :
    cancelTime { c with now := t } = c.cancelTime := by
  unfold cancelTime at *
  by_cases stopped : c.cancelled = true
  · have := uncut c.now (if_pos stopped)
    have same : t = c.now := by omega
    simp [stopped, same]
  · simp only [stopped] at uncut ⊢
    cases at? : c.cancelAt with
    | none => rfl
    | some v =>
      have := uncut (max c.now v) (by simp [at?])
      have same : max t v = max c.now v := by omega
      simp [same]

/-- How a wait ends that gives way to cancellation: with what comes first of the answer, the deadline
and the cancellation, and of two at once with the one that is named first here. The clock `c` is the
one when the reaction has started. -/
inductive Raced (g : Guard) (r : Reaction α) (c : Clock) : Ending α → Clock → Prop where
  | answered {d : Nat} (lasts : r.lasts = some d)
      (inTime : ∀ t, g.deadline = some t → c.now + d ≤ max c.now t)
      (uncut : ∀ u, c.cancelTime = some u → c.now + d ≤ u) :
      Raced g r c (.ofExcept r.answer) { c with now := c.now + d }
  | expired {c' : Clock} {t : Nat} (deadline : g.deadline = some t) (now : c'.now = max c.now t)
      (late : ∀ d, r.lasts = some d → c'.now < c.now + d)
      (uncut : ∀ u, c.cancelTime = some u → c'.now ≤ u) : Raced g r c .expired c'
  | cancelled {c' : Clock} (time : c.cancelTime = some c'.now)
      (late : ∀ d, r.lasts = some d → c'.now < c.now + d)
      (early : ∀ t, g.deadline = some t → c'.now < max c.now t) : Raced g r c .cancelled c'
  /-- Nothing ever ends the wait. -/
  | pending {c' : Clock} (hangs : r.lasts = none) (unbounded : g.deadline = none) :
      Raced g r c .pending c'

/-- What is cancelled is so before its answer comes and before its deadline. -/
theorem due_cancelled {t u : Nat} (watched : c.horizon = none)
    (found : due g r c = some ⟨t, .cancelled⟩)
    (early : Due.By u (Due.sooner (r.lasts.map fun d => (⟨c.now + d, .ofExcept r.answer⟩ : Due α))
      (g.deadline.map fun t => ⟨max c.now t, .expired⟩))) : t < u := by
  simp only [due, watched, Option.map_none] at found
  rcases Due.eq_some_of_sooner found with first | first
  · apply Due.time_lt_of_right first ?_ early
    intro other
    rcases Due.eq_some_of_sooner other with other | other
    · obtain ⟨d, _, same⟩ := Option.map_eq_some_iff.1 other
      exact ofExcept_ne_cancelled (congrArg Due.ending same)
    · obtain ⟨d, _, same⟩ := Option.map_eq_some_iff.1 other
      cases same
  · cases first

namespace Raced

theorem of_cancelled {t : Nat} (watched : c.horizon = none)
    (found : due g r c = some ⟨t, .cancelled⟩) :
    Raced g r c .cancelled { c.moveTo t with cancelled := true } := by
  rcases due_cases found with ⟨_, _, same⟩ | ⟨_, _, same⟩ | ⟨_, u, time, same⟩ | ⟨_, _, same⟩
  · exact absurd (congrArg Due.ending same).symm ofExcept_ne_cancelled
  · cases same
  · cases same
    have now : (c.moveTo t).now = t := Nat.max_eq_right (now_le_cancelTime time)
    apply Raced.cancelled <;> rw [now]
    · exact time
    · intro d lasts
      exact due_cancelled watched found (Due.By.left ⟨_, by rw [lasts]; rfl, Nat.le_refl _⟩)
    · intro u deadline
      exact due_cancelled watched found (Due.By.right ⟨_, by rw [deadline]; rfl, Nat.le_refl _⟩)
  · cases same

theorem of_due {x : Due α} (cancellable : g.cancellable = true) (watched : c.horizon = none)
    (slow : r.lasts ≠ some 0) (found : due g r c = some x) (ordinary : x.ending ≠ .cancelled) :
    Raced g r c x.ending (c.moveTo x.time) := by
  have uncut : ∀ u, c.cancelTime = some u → x.time ≤ u := by
    intro u time
    obtain ⟨y, found', early⟩ := due_by_cancelTime (r := r) cancellable time
    cases found.symm.trans found'
    exact early
  rcases due_cases found with ⟨d, lasts, rfl⟩ | ⟨u, deadline, rfl⟩ | ⟨_, _, _, rfl⟩ | ⟨_, horizon, _⟩
  · have later : c.now < c.now + d := by
      have : d ≠ 0 := fun zero => slow (zero ▸ lasts)
      omega
    rw [moveTo_eq later uncut]
    refine .answered lasts ?_ uncut
    intro u deadline
    obtain ⟨y, found', early⟩ := due_by_deadline (r := r) (c := c) deadline
    cases found.symm.trans found'
    exact early
  · have now : (c.moveTo (max c.now u)).now = max c.now u := by
      simp only [moveTo]
      omega
    apply Raced.expired deadline now <;> rw [now]
    · intro d lasts
      obtain ⟨y, found', same | early⟩ := due_unless_answer (g := g) (c := c) lasts
      · cases found.symm.trans found'
        exact absurd (congrArg Due.ending same).symm ofExcept_ne_expired
      · cases found.symm.trans found'
        exact early
    · exact uncut
  · exact absurd rfl ordinary
  · cases watched.symm.trans horizon

end Raced

theorem raced (cancellable : g.cancellable = true) (watched : c.horizon = none) :
    Raced g r (c.started r) (await g r c).1 (await g r c).2 := by
  have watched' : (c.started r).horizon = none := started_horizon.trans watched
  rw [await_eq]
  generalize c.started r = c at watched'
  split
  · exact .answered (by assumption) (by intros; omega) fun u => now_le_cancelTime
  · rename_i slow
    split
    · rename_i nothing
      have hangs : r.lasts = none := by
        apply Option.eq_none_iff_forall_ne_some.2
        intro d lasts
        obtain ⟨x, found, _⟩ := due_unless_answer (g := g) (c := c) lasts
        cases nothing.symm.trans found
      have unbounded : g.deadline = none := by
        apply Option.eq_none_iff_forall_ne_some.2
        intro t deadline
        obtain ⟨x, found, _⟩ := due_by_deadline (r := r) (c := c) deadline
        cases nothing.symm.trans found
      exact .pending hangs unbounded
    · rename_i t found
      exact .of_cancelled watched' found
    · rename_i t ending ordinary found
      exact .of_due cancellable watched' slow found fun same => ordinary same

end Clock

end Acceptance
