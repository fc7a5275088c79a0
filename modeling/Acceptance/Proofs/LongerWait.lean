import Acceptance.Proofs.Schedule

/-!
# Longer waits

Two waits that differ in their timeouts alone make the same checks at the same times, until the
shorter one has no time left for a whole pause and makes its last check early.

* `Wait.SaidLast`: what the last check of a wait says when it is over;
* `Wait.Course.longer`: the longer wait comes to the same check, and not sooner;
* `Wait.AnsweredBy`: which check a wait got its value or its error from;
* `Wait.answered_longer`: a longer timeout never loses an answer.
-/

namespace Acceptance.Wait

variable {α : Type} {w : Wait} {deadline deadline' : Nat} {reaction : Nat → Reaction (Option α)}
  {o : Except Error α} {k t finish : Nat} {starts : List Nat} {ending : Ending α}

/-! ## The two courses -/

/-- Of the checks that start at `starts`, the first of them the check `k`, the last one says `o`,
and is over at `finish`. -/
def SaidLast (reaction : Nat → Reaction (Option α)) (k : Nat) (starts : List Nat)
    (o : Except Error α) (finish : Nat) : Prop :=
  ∃ r u d, r = reaction (k + (starts.length - 1)) ∧ starts.getLast? = some u ∧
    r.lasts = some d ∧ r.answer = o.map some ∧ finish = u + d

theorem saidLast_single : SaidLast reaction k [t] o finish ↔
    ∃ d, (reaction k).lasts = some d ∧ (reaction k).answer = o.map some ∧ finish = t + d := by
  simp [SaidLast]

theorem saidLast_cons (more : starts ≠ []) :
    SaidLast reaction k (t :: starts) o finish ↔ SaidLast reaction (k + 1) starts o finish := by
  have count : k + ((t :: starts).length - 1) = k + 1 + (starts.length - 1) := by
    have := List.length_pos_iff.2 more
    simp only [List.length_cons]
    omega
  have last : (t :: starts).getLast? = starts.getLast? := by
    cases starts with
    | nil => contradiction
    | cons => rfl
  simp only [SaidLast, count, last]

theorem Course.ne_nil (h : Course w deadline reaction k t starts ending finish) : starts ≠ [] := by
  cases h <;> simp

/-- The longer wait comes to the check that has something to say, and is in time for it. It may come
to a check later only where the shorter wait starts it right at its deadline; there that is the last
one, and takes no time. -/
theorem Course.longer {w' : Wait} (pause : w'.interval = w.interval) (longer : deadline ≤ deadline')
    (h : Course w deadline reaction k t starts ending finish) :
    ∀ t', t' = t ∨ t = deadline ∧ deadline ≤ t' → t ≤ deadline → t' ≤ deadline' →
      SaidLast reaction k starts o finish →
      ∃ starts' finish', Course w' deadline' reaction k t' starts' (.ofExcept o) finish' ∧
        SaidLast reaction k starts' o finish' ∧ starts'.dropLast = starts.dropLast ∧
        finish ≤ finish' := by
  induction h with
  | last concludes =>
    intro t' later start start' said
    obtain ⟨d, lasts, answer, finished⟩ := saidLast_single.1 said
    have inTime := (concludes.finish_mem start).2
    exact ⟨[t'], t' + d, .last (.answered lasts answer (by omega)),
      saidLast_single.2 ⟨d, lasts, answer, rfl⟩, rfl, by omega⟩
  | @more k t d finish starts ending lasts answer early next ih =>
    intro t' later start start' said
    -- The next check is not made at the deadline, so that this one was not.
    obtain rfl : t' = t := by omega
    obtain ⟨starts', finish', course, said', same, after⟩ :=
      ih (min (t' + d + w.interval) deadline') (by omega) (by omega) (by omega)
        ((saidLast_cons next.ne_nil).1 said)
    refine ⟨t' :: starts', finish', .more lasts answer (by omega) (pause ▸ course),
      (saidLast_cons course.ne_nil).2 said', ?_, after⟩
    rw [List.dropLast_cons_of_ne_nil course.ne_nil, List.dropLast_cons_of_ne_nil next.ne_nil, same]

/-! ## The two waits -/

/-- A wait that nobody cancels, about to make its first check. -/
structure Undisturbed (reaction : Nat → Reaction (Option α)) (s : Session (List Nat)) : Prop where
  unmade : s.party = []
  watched : s.clock.horizon = none
  uncancelled : s.clock.cancelTime = none
  silent : ∀ k, (reaction k).cancels = false

/-- A wait whose checks are a reaction of their own each time got `o`, a value or an error, from its
check `k`: no other check is made after it, and the wait ends with `o` right when that check is
over. -/
structure AnsweredBy (w : Wait) (reaction : Nat → Reaction (Option α)) (s : Session (List Nat))
    (k : Nat) (o : Except Error α) : Prop where
  answer : (reaction k).answer = o.map some
  last : (w.poll (.series reaction) s).2.party.length = k + 1
  finished : ∃ t d, (w.poll (.series reaction) s).2.party.head? = some t ∧
    (reaction k).lasts = some d ∧ (w.poll (.series reaction) s).2.clock.now = t + d
  ending : (w.poll (.series reaction) s).1 = .ofExcept o

section

variable {s : Session (List Nat)}

theorem Undisturbed.live (h : Undisturbed reaction s) : s.clock.cancelled ≠ true := by
  intro cancelled
  have time := h.uncancelled
  rw [Clock.cancelTime, if_pos cancelled] at time
  cases time

/-- A wait that nobody cancels runs its course. -/
theorem Undisturbed.run (h : Undisturbed reaction s) (positive : 0 < w.interval)
    (shown : s.clock.Shows w.timeout)
    (course : Course w (s.clock.now + w.timeout) reaction 0 s.clock.now starts ending finish) :
    (w.poll (.series reaction) s).1 = ending ∧
      (w.poll (.series reaction) s).2.party = starts.reverse ∧
      (w.poll (.series reaction) s).2.clock.now = finish := by
  have kept := course.keeps positive s rfl (by rw [h.unmade]; rfl) h.live h.watched
    (Nat.le_add_right _ _)
  rw [← poll_eq shown] at kept
  revert kept
  generalize w.poll (.series reaction) s = ended
  intro kept
  cases kept with
  | finished now party => exact ⟨rfl, by rw [party, h.unmade, List.append_nil], now⟩
  | cut _ _ cancelled =>
    rcases cancelled.cause with time | ⟨i, -, loud⟩
    · cases h.uncancelled.symm.trans time
    · cases (h.silent _).symm.trans loud

theorem Undisturbed.answeredBy_iff (h : Undisturbed reaction s) (positive : 0 < w.interval)
    (shown : s.clock.Shows w.timeout)
    (course : Course w (s.clock.now + w.timeout) reaction 0 s.clock.now starts ending finish) :
    AnsweredBy w reaction s k o ↔
      starts.length = k + 1 ∧ SaidLast reaction 0 starts o finish ∧ ending = .ofExcept o := by
  obtain ⟨ends, party, now⟩ := h.run positive shown course
  constructor
  · rintro ⟨answer, last, ⟨t, d, start, lasts, finished⟩, ending⟩
    rw [party, List.length_reverse] at last
    rw [party, List.head?_reverse] at start
    have index : 0 + (starts.length - 1) = k := by omega
    exact ⟨last, ⟨_, t, d, rfl, start, index ▸ lasts, index ▸ answer, now.symm.trans finished⟩,
      ends.symm.trans ending⟩
  · rintro ⟨count, ⟨_, t, d, rfl, start, lasts, answer, finished⟩, same⟩
    have index : 0 + (starts.length - 1) = k := by omega
    rw [index] at lasts answer
    exact ⟨answer, by rw [party, List.length_reverse, count],
      ⟨t, d, by rw [party, List.head?_reverse, start], lasts, now.trans finished⟩, ends.trans same⟩

/-- A longer timeout whose end the clock can show never loses an answer: what a wait is told by one of
its checks, a value or an error, it is told by the same check if it may last longer. It makes the
checks before at the same times then, and is not over sooner. -/
theorem answered_longer {timeout : Nat} (positive : 0 < w.interval) (longer : w.timeout ≤ timeout)
    (shown : s.clock.Shows timeout) (h : Undisturbed reaction s) (answered : AnsweredBy w reaction s k o) :
    let patient : Wait := { w with timeout }
    AnsweredBy patient reaction s k o ∧
      (patient.poll (.series reaction) s).2.party.tail =
        (w.poll (.series reaction) s).2.party.tail ∧
      (w.poll (.series reaction) s).2.clock.now ≤
        (patient.poll (.series reaction) s).2.clock.now := by
  intro patient
  have sooner : s.clock.Shows w.timeout := shown.earlier rfl (Nat.add_le_add_left longer _)
  obtain ⟨starts, ending, finish, course⟩ :=
    exists_course positive (s.clock.now + w.timeout) reaction 0 s.clock.now
  obtain ⟨count, said, -⟩ := (h.answeredBy_iff positive sooner course).1 answered
  have pause : patient.interval = w.interval := rfl
  obtain ⟨starts', finish', course', said', same, after⟩ :=
    Course.longer pause (Nat.add_le_add_left longer _) course s.clock.now (.inl rfl)
      (Nat.le_add_right _ _) (Nat.le_add_right _ _) said
  have count' : starts'.length = k + 1 := by
    have lengths := congrArg List.length same
    have := List.length_pos_iff.2 course'.ne_nil
    simp only [List.length_dropLast] at lengths
    omega
  obtain ⟨-, party, now⟩ := h.run positive sooner course
  obtain ⟨-, party', now'⟩ := h.run (w := patient) positive shown course'
  refine ⟨(h.answeredBy_iff (w := patient) positive shown course').2 ⟨count', said', rfl⟩, ?_, ?_⟩
  · rw [party, party', List.tail_reverse, List.tail_reverse, same]
  · rw [now, now']
    exact after

/-- The last check of the shorter wait is made right at its deadline, where it has its value at
once. The longer wait makes that check a whole pause after the one before. -/
theorem answered_longer_doorbell :
    let reaction : Nat → Reaction (Option String) := fun k =>
      { answer := .ok (if k = 2 then some "ring" else none) }
    let s : Session (List Nat) := { party := [] }
    let w : Wait := ⟨"door", 5, 3⟩
    AnsweredBy w reaction s 2 (.ok "ring") ∧
      AnsweredBy { w with timeout := 9 } reaction s 2 (.ok "ring") ∧
      (w.poll (.series reaction) s).2.party = [5, 3, 0] ∧
      (({ w with timeout := 9 } : Wait).poll (.series reaction) s).2.party = [6, 3, 0] := by
  intro reaction s w
  have answered : AnsweredBy w reaction s 2 (.ok "ring") :=
    ⟨rfl, by decide +kernel, ⟨5, 0, by decide +kernel, rfl, by decide +kernel⟩, by decide +kernel⟩
  exact ⟨answered, (answered_longer (by decide) (by decide) (by decide)
    ⟨rfl, rfl, rfl, fun _ => rfl⟩ answered).1, by decide +kernel, by decide +kernel⟩

end

end Acceptance.Wait
