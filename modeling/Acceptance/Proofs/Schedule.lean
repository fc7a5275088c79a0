import Mathlib.Algebra.Order.Floor.Div
import Acceptance.Proofs.Wait

/-!
# The schedule of a wait

A wait makes its first check at once, and each other one a pause after the one before, but the last
one right at its deadline at the latest.

* `Wait.Course`: when the checks start, and how and when the wait ends if it is not cancelled;
* `Wait.exists_course`, `Wait.Course.length_le`: every wait has such a course, with no more checks
  than there is time for;
* `Wait.Keeps`: a wait that keeps to its course until it is cancelled;
* `Wait.scheduled`: every wait does.
-/

namespace Acceptance.Wait

variable {α : Type} {w : Wait} {deadline : Nat}

/-- How and when a wait ends with a check that starts at `t`. -/
inductive Concludes (w : Wait) (deadline : Nat) (r : Reaction (Option α)) (t : Nat) :
    Ending α → Nat → Prop where
  /-- The check gives a value or an error, at the deadline at the latest. -/
  | answered {d : Nat} {o : Except Error α} (lasts : r.lasts = some d)
      (answer : r.answer = o.map some) (inTime : t + d ≤ deadline) :
      Concludes w deadline r t (.ofExcept o) (t + d)
  /-- The check is still under way at the deadline. -/
  | underway (late : ∀ d, r.lasts = some d → deadline < t + d) :
      Concludes w deadline r t (.error w.timedOut) deadline
  /-- The check gives nothing, right at the deadline. -/
  | nothing {d : Nat} (lasts : r.lasts = some d) (answer : r.answer = .ok none)
      (last : t + d = deadline) : Concludes w deadline r t (.error w.timedOut) deadline

/-- The starts of the checks from the check `k` on, which starts at `t`, and how and when the wait
ends if it is not cancelled. -/
inductive Course (w : Wait) (deadline : Nat) (reaction : Nat → Reaction (Option α)) :
    Nat → Nat → List Nat → Ending α → Nat → Prop where
  | last {k t finish : Nat} {ending : Ending α}
      (concludes : Concludes w deadline (reaction k) t ending finish) :
      Course w deadline reaction k t [t] ending finish
  /-- The check gives nothing before the deadline: the next one starts a pause later, or at the
  deadline. -/
  | more {k t d finish : Nat} {starts : List Nat} {ending : Ending α}
      (lasts : (reaction k).lasts = some d) (answer : (reaction k).answer = .ok none)
      (early : t + d < deadline)
      (next : Course w deadline reaction (k + 1) (min (t + d + w.interval) deadline) starts ending
        finish) :
      Course w deadline reaction k t (t :: starts) ending finish

/-! ## The course alone -/

theorem Concludes.finish_mem {r : Reaction (Option α)} {t finish : Nat} {ending : Ending α}
    (h : Concludes w deadline r t ending finish) (start : t ≤ deadline) :
    t ≤ finish ∧ finish ≤ deadline := by
  cases h with
  | answered lasts answer inTime => omega
  | underway | nothing => omega

/-- A check either ends the wait or gives nothing in time. -/
theorem concludes_or_goes_on (w : Wait) (deadline : Nat) (r : Reaction (Option α)) (t : Nat) :
    (∃ ending finish, Concludes w deadline r t ending finish) ∨
      ∃ d, r.lasts = some d ∧ r.answer = .ok none ∧ t + d < deadline := by
  by_cases late : ∀ d, r.lasts = some d → deadline < t + d
  · exact .inl ⟨_, _, .underway late⟩
  simp only [not_forall, Nat.not_lt] at late
  obtain ⟨d, lasts, inTime⟩ := late
  cases answer : r.answer with
  | error e => exact .inl ⟨_, _, .answered (o := .error e) lasts answer inTime⟩
  | ok found =>
    cases found with
    | some a => exact .inl ⟨_, _, .answered (o := .ok a) lasts answer inTime⟩
    | none =>
      by_cases last : t + d = deadline
      · exact .inl ⟨_, _, .nothing lasts answer last⟩
      · exact .inr ⟨d, lasts, rfl, by omega⟩

/-- Every wait has a course: each check starts later than the one before. -/
theorem exists_course (positive : 0 < w.interval) (deadline : Nat)
    (reaction : Nat → Reaction (Option α)) (k t : Nat) :
    ∃ starts ending finish, Course w deadline reaction k t starts ending finish := by
  induction left : deadline - t using Nat.strongRecOn generalizing k t with
  | ind left ih =>
    rcases concludes_or_goes_on w deadline (reaction k) t with
      ⟨ending, finish, concludes⟩ | ⟨d, lasts, answer, early⟩
    · exact ⟨_, _, _, .last concludes⟩
    · obtain ⟨starts, ending, finish, next⟩ :=
        ih _ (by omega) (k + 1) (min (t + d + w.interval) deadline) rfl
      exact ⟨_, _, _, .more lasts answer early next⟩

namespace Course

variable {reaction : Nat → Reaction (Option α)} {k t finish : Nat} {starts : List Nat}
  {ending : Ending α}

theorem finish_mem (h : Course w deadline reaction k t starts ending finish) :
    t ≤ deadline → t ≤ finish ∧ finish ≤ deadline := by
  induction h with
  | last concludes => exact concludes.finish_mem
  | more _ _ early _ ih =>
    intro start
    have := ih (by omega)
    omega

theorem mem_starts (h : Course w deadline reaction k t starts ending finish) :
    t ≤ deadline → ∀ u ∈ starts, t ≤ u ∧ u ≤ deadline := by
  induction h with
  | last => simp
  | more _ _ early _ ih =>
    intro start u hu
    rcases List.mem_cons.1 hu with rfl | hu
    · omega
    · have := ih (by omega) u hu
      omega

/-- At least the pause lies between one check and the next, but for the one at the deadline. -/
theorem spaced (h : Course w deadline reaction k t starts ending finish) {n u : Nat} :
    starts[n]? = some u → min (t + n * w.interval) deadline ≤ u := by
  induction h generalizing n with
  | last =>
    intro found
    cases n with
    | zero =>
      cases found
      omega
    | succ n => cases found
  | more _ _ _ _ ih =>
    intro found
    cases n with
    | zero =>
      cases found
      omega
    | succ n =>
      have := ih found
      rw [Nat.succ_mul]
      omega

/-- After a check at the deadline there is none. -/
theorem early_of_succ (h : Course w deadline reaction k t starts ending finish) {n u : Nat} :
    starts[n]? = some u → n + 1 < starts.length → u < deadline := by
  induction h generalizing n with
  | last =>
    intro _ more
    simp at more
  | more _ _ early _ ih =>
    intro found more
    cases n with
    | zero =>
      cases found
      omega
    | succ n => exact ih found (by simpa using more)

/-- The last check that there may be time for starts right at the deadline. -/
theorem last_possible (h : Course w deadline reaction k t starts ending finish)
    (start : t ≤ deadline) {n u : Nat} (enough : deadline ≤ t + n * w.interval)
    (found : starts[n]? = some u) : u = deadline := by
  have := h.spaced found
  have := (h.mem_starts start u (List.mem_of_getElem? found)).2
  omega

theorem length_le (h : Course w deadline reaction k t starts ending finish)
    (start : t ≤ deadline) {n : Nat} (enough : deadline ≤ t + n * w.interval) :
    starts.length ≤ n + 1 := by
  by_contra more
  have found : starts[n]? = some starts[n] := List.getElem?_eq_getElem (by omega)
  have := h.last_possible start enough found
  have := h.early_of_succ found (by omega)
  omega

end Course

/-! ## The wait itself -/

/-- The wait is cancelled at `c`: from outside, or by one of its checks right when it starts. The
first check is the check `k`. -/
structure CancelledAt (reaction : Nat → Reaction (Option α)) (k : Nat) (clock : Clock)
    (starts : List Nat) (c : Nat) : Prop where
  cause : clock.cancelTime = some c ∨
    ∃ i, starts[i]? = some c ∧ (reaction (k + i)).cancels = true
  outside : ∀ u, clock.cancelTime = some u → c ≤ u
  inside : ∀ i u, starts[i]? = some u → (reaction (k + i)).cancels = true → c ≤ u

/-- How a wait ends with these starts that is not cancelled at its start. -/
inductive Keeps (w : Wait) (reaction : Nat → Reaction (Option α)) (s : Session (List Nat))
    (starts : List Nat) (ending : Ending α) (finish : Nat) : Ending α × Session (List Nat) → Prop where
  /-- It has run its course before it is cancelled. -/
  | finished {s' : Session (List Nat)} (now : s'.clock.now = finish)
      (party : s'.party = starts.reverse ++ s.party)
      (uncut : ∀ c, CancelledAt reaction s.party.length s.clock starts c → finish ≤ c) :
      Keeps w reaction s starts ending finish (ending, s')
  /-- It ends as soon as it is cancelled, and the later checks do not start. -/
  | cut {s' : Session (List Nat)} {c : Nat} (now : s'.clock.now = c)
      (party : s'.party = (starts.filter (· ≤ c)).reverse ++ s.party)
      (cancelled : CancelledAt reaction s.party.length s.clock starts c) (early : c < finish) :
      Keeps w reaction s starts ending finish (.error w.wasCancelled, s')

/-- A pause between two checks. -/
theorem rest_raced (positive : 0 < w.interval) {s : Session (List Nat)}
    (watched : s.clock.horizon = none) (early : s.clock.now < deadline) {next : Nat}
    (hn : next = min (s.clock.now + w.interval) deadline) :
    (w.rest (α := α) deadline s = (none, { s with clock := { s.clock with now := next } }) ∧
      ∀ u, s.clock.cancelTime = some u → next ≤ u) ∨
    ∃ clock, w.rest (α := α) deadline s = (some (.error w.wasCancelled), { s with clock }) ∧
      s.clock.cancelTime = some clock.now ∧ clock.now < next := by
  have pause : s.clock.now + w.pause (deadline - s.clock.now) = next := by
    unfold pause
    omega
  let sleeping : Reaction Unit :=
    { lasts := some (w.pause (deadline - s.clock.now)), answer := .ok () }
  have raced : Clock.Raced ⟨true, none⟩ sleeping s.clock (s.clock.await ⟨true, none⟩ sleeping).1
    (s.clock.await ⟨true, none⟩ sleeping).2 := Clock.raced rfl watched
  unfold rest
  rw [if_neg (Nat.not_le.2 early)]
  simp only [Task.sleep]
  revert raced
  change Clock.Raced _ _ _ (s.clock.await ⟨true, none⟩ sleeping).1 _ → _
  generalize s.clock.await ⟨true, none⟩ sleeping = waited
  obtain ⟨ending, clock⟩ := waited
  intro raced
  cases raced with
  | answered lasts inTime uncut =>
    cases lasts
    rw [pause] at uncut ⊢
    exact .inl ⟨rfl, uncut⟩
  | expired deadline => cases deadline
  | cancelled time late =>
    have := late _ rfl
    exact .inr ⟨_, rfl, time, by omega⟩
  | pending hangs => cases hangs

section Round

variable {reaction : Nat → Reaction (Option α)} {s : Session (List Nat)}

/-- The wait is cancelled at `c`, while its next check is under way or in the pause after it. -/
structure CutAt (w : Wait) (deadline : Nat) (reaction : Nat → Reaction (Option α))
    (s : Session (List Nat)) (c : Nat) : Prop where
  time : (s.clock.started (reaction s.party.length)).cancelTime = some c
  round : ∃ clock, w.round deadline (.series reaction) s = (some (.error w.wasCancelled),
    { s with clock, party := s.clock.now :: s.party }) ∧ clock.now = c

theorem conclude_answered (o : Except Error α) (s : Session (List Nat)) :
    w.conclude deadline (.ofExcept (o.map some), s) = (some (.ofExcept o), s) := by
  cases o <;> rfl

theorem conclude_last (late : deadline ≤ s.clock.now) :
    w.conclude (α := α) deadline (.value none, s) = (some (.error w.timedOut), s) := if_pos late

/-- How the check goes that starts now. -/
theorem checked (w : Wait) (deadline : Nat) (reaction : Nat → Reaction (Option α))
    {s : Session (List Nat)} (live : s.clock.cancelled ≠ true) (watched : s.clock.horizon = none) :
    ∃ ending clock, Clock.Raced ⟨true, some deadline⟩ (reaction s.party.length)
        (s.clock.started (reaction s.party.length)) ending clock ∧
      w.round deadline (.series reaction) s =
        w.conclude deadline (ending, { s with clock, party := s.clock.now :: s.party }) :=
  ⟨_, _, Clock.raced rfl watched, round_eq live⟩

/-- A check that ends the wait does so in time, if the wait is not cancelled before. -/
theorem Concludes.round {ending : Ending α} {finish : Nat}
    (h : Concludes w deadline (reaction s.party.length) s.clock.now ending finish)
    (live : s.clock.cancelled ≠ true) (watched : s.clock.horizon = none)
    (start : s.clock.now ≤ deadline) :
    (∃ clock, w.round deadline (.series reaction) s =
        (some ending, { s with clock, party := s.clock.now :: s.party }) ∧ clock.now = finish ∧
      ∀ u, (s.clock.started (reaction s.party.length)).cancelTime = some u → finish ≤ u) ∨
    ∃ c, CutAt w deadline reaction s c ∧ c < finish := by
  obtain ⟨made, clock, raced, round⟩ := checked w deadline reaction live watched
  cases raced with
  | answered lasts inTime uncut =>
    have inTime := inTime deadline rfl
    simp only [Clock.started_now] at inTime uncut round
    cases h with
    | answered lasts' answer =>
      cases lasts.symm.trans lasts'
      rw [answer, conclude_answered] at round
      exact .inl ⟨_, round, rfl, uncut⟩
    | underway late =>
      have := late _ lasts
      omega
    | nothing lasts' answer last =>
      cases lasts.symm.trans lasts'
      rw [answer] at round
      exact .inl ⟨_, round.trans (conclude_last (Nat.le_of_eq last.symm)), last, last ▸ uncut⟩
  | expired deadline now late uncut =>
    cases deadline
    rw [Clock.started_now] at now late
    cases h with
    | answered lasts | nothing lasts =>
      have := late _ lasts
      omega
    | underway =>
      have finish : clock.now = deadline := by omega
      exact .inl ⟨clock, round, finish, finish ▸ uncut⟩
  | cancelled time late early =>
    have before := early deadline rfl
    rw [Clock.started_now] at late before
    refine .inr ⟨clock.now, ⟨time, clock, round, rfl⟩, ?_⟩
    cases h with
    | answered lasts => exact late _ lasts
    | underway | nothing => omega
  | pending _ unbounded => cases unbounded

/-- After a check that gives nothing in time the wait goes on, if it is not cancelled before the next
check. -/
theorem round_goes_on (positive : 0 < w.interval) {d next : Nat}
    (lasts : (reaction s.party.length).lasts = some d)
    (answer : (reaction s.party.length).answer = .ok none) (early : s.clock.now + d < deadline)
    (hn : next = min (s.clock.now + d + w.interval) deadline)
    (live : s.clock.cancelled ≠ true) (watched : s.clock.horizon = none) :
    (w.round deadline (.series reaction) s = (none,
        { s with clock := { s.clock with now := next }, party := s.clock.now :: s.party }) ∧
      (reaction s.party.length).cancels = false ∧
      ∀ u, s.clock.cancelTime = some u → next ≤ u) ∨
    ∃ c, CutAt w deadline reaction s c ∧ c < next := by
  obtain ⟨made, clock, raced, round⟩ := checked w deadline reaction live watched
  cases raced with
  | answered lasts' inTime uncut =>
    cases lasts.symm.trans lasts'
    have moved := Clock.cancelTime_moved (Nat.le_add_right _ _) uncut
    simp only [Clock.started_now] at moved round
    rw [answer] at round
    let s₁ : Session (List Nat) :=
      { s with
        clock := { s.clock.started (reaction s.party.length) with now := s.clock.now + d }
        party := s.clock.now :: s.party }
    rcases rest_raced (α := α) (s := s₁) positive (Clock.started_horizon.trans watched) early hn with
      ⟨rested, uncut⟩ | ⟨clock, rested, time, before⟩
    · apply Or.inl
      have silent : (reaction s.party.length).cancels = false := by
        by_contra loud
        have time : s₁.clock.cancelTime = some s₁.clock.now :=
          Clock.cancelTime_of_cancelled (by simp [s₁, Clock.started, loud])
        have := uncut _ time
        have : s₁.clock.now = s.clock.now + d := rfl
        omega
      have same : s.clock.started (reaction s.party.length) = s.clock := by
        simp [Clock.started, silent]
      simp only [s₁, same] at rested uncut moved
      rw [same] at round
      exact ⟨round.trans rested, silent, moved ▸ uncut⟩
    · exact .inr ⟨clock.now, ⟨moved.symm.trans time, clock, round.trans rested, rfl⟩, before⟩
  | expired deadline now late =>
    cases deadline
    have := late d lasts
    rw [Clock.started_now] at now this
    omega
  | cancelled time late =>
    have := late d lasts
    rw [Clock.started_now] at this
    exact .inr ⟨clock.now, ⟨time, clock, round, rfl⟩, by omega⟩
  | pending hangs =>
    cases lasts.symm.trans hangs

end Round

namespace CancelledAt

variable {reaction : Nat → Reaction (Option α)} {k : Nat} {clock : Clock} {starts : List Nat}
  {c : Nat}

theorem now_le (h : CancelledAt reaction k clock starts c) (later : ∀ u ∈ starts, clock.now ≤ u) :
    clock.now ≤ c := by
  rcases h.cause with time | ⟨i, found, _⟩
  · exact Clock.now_le_cancelTime time
  · exact later c (List.mem_of_getElem? found)

/-- A check that does not cancel the wait may be left out. -/
theorem cons_iff {clock' : Clock} {t : Nat} (silent : (reaction k).cancels = false)
    (time : clock'.cancelTime = clock.cancelTime) :
    CancelledAt reaction k clock (t :: starts) c ↔ CancelledAt reaction (k + 1) clock' starts c := by
  have shift : ∀ i, k + (i + 1) = k + 1 + i := by omega
  constructor
  · intro h
    refine ⟨?_, time ▸ h.outside, fun i u found loud => h.inside (i + 1) u found (shift i ▸ loud)⟩
    rw [time]
    apply h.cause.imp_right
    rintro ⟨i, found, loud⟩
    cases i with
    | zero => cases silent.symm.trans loud
    | succ i => exact ⟨i, found, shift i ▸ loud⟩
  · intro h
    refine ⟨?_, time ▸ h.outside, fun i u found loud => ?_⟩
    · rw [← time]
      apply h.cause.imp_right
      rintro ⟨i, found, loud⟩
      exact ⟨i + 1, found, shift i ▸ loud⟩
    · cases i with
      | zero => cases silent.symm.trans loud
      | succ i => exact h.inside i u found (shift i ▸ loud)

end CancelledAt

section Loop

variable {reaction : Nat → Reaction (Option α)} {s : Session (List Nat)} {starts : List Nat}
  {ending : Ending α} {c finish : Nat}

theorem started_cancelTime (r : Reaction α) (clock : Clock) : (clock.started r).cancelTime =
    if r.cancels then some clock.now else clock.cancelTime := by
  cases loud : r.cancels <;> simp [Clock.started, loud, Clock.cancelTime]

theorem CutAt.now_le (h : CutAt w deadline reaction s c) : s.clock.now ≤ c := by
  have := Clock.now_le_cancelTime h.time
  rwa [Clock.started_now] at this

theorem CutAt.cancelledAt (h : CutAt w deadline reaction s c) (later : ∀ u ∈ starts, c ≤ u) :
    CancelledAt reaction s.party.length s.clock (s.clock.now :: starts) c := by
  have time := h.time
  rw [started_cancelTime] at time
  have inside : ∀ i u, (s.clock.now :: starts)[i]? = some u →
      (reaction (s.party.length + i)).cancels = true → c ≤ u := by
    intro i u found loud
    cases i with
    | zero =>
      cases found
      have first : some s.clock.now = some c := (if_pos loud).symm.trans time
      exact Nat.le_of_eq (Option.some.inj first).symm
    | succ i => exact later u (List.mem_of_getElem? (l := starts) (i := i) found)
  split at time
  · rename_i loud
    cases time
    exact ⟨.inr ⟨0, rfl, loud⟩, fun u => Clock.now_le_cancelTime, inside⟩
  · refine ⟨.inl time, fun u time' => ?_, inside⟩
    cases time.symm.trans time'
    exact Nat.le_refl _

/-- A wait that is cut short in its next round keeps to any course from here. -/
theorem CutAt.keeps (h : CutAt w deadline reaction s c) (later : ∀ u ∈ starts, c < u)
    (early : c < finish) : Keeps w reaction s (s.clock.now :: starts) ending finish
      (w.loop deadline (.series reaction) s) := by
  obtain ⟨clock, round, now⟩ := h.round
  rw [loop_ended round]
  apply Keeps.cut now ?_ (h.cancelledAt fun u hu => Nat.le_of_lt (later u hu)) early
  have first : (s.clock.now :: starts).filter (· ≤ c) = [s.clock.now] := by
    have none : starts.filter (· ≤ c) = [] := by
      apply List.filter_eq_nil_iff.2
      intro u hu
      simpa using later u hu
    simp [none, h.now_le]
  rw [first]
  rfl

/-- A wait keeps to its course until it is cancelled. -/
theorem Course.keeps (positive : 0 < w.interval) {k t : Nat}
    (h : Course w deadline reaction k t starts ending finish) :
    ∀ s : Session (List Nat), s.clock.now = t → s.party.length = k → s.clock.cancelled ≠ true →
      s.clock.horizon = none → t ≤ deadline →
      Keeps w reaction s starts ending finish (w.loop deadline (.series reaction) s) := by
  induction h with
  | last concludes =>
    rintro s rfl rfl live watched start
    rcases concludes.round live watched start with ⟨clock, round, now, uncut⟩ | ⟨c, cut, early⟩
    · rw [loop_ended round]
      refine .finished now rfl fun c cancelled => ?_
      have now_le := cancelled.now_le (by simp)
      rw [started_cancelTime] at uncut
      by_cases loud : (reaction s.party.length).cancels = true
      · have := uncut _ (if_pos loud)
        omega
      · rcases cancelled.cause with time | ⟨i, found, loud'⟩
        · exact uncut c ((if_neg loud).trans time)
        · cases i with
          | zero => exact absurd loud' loud
          | succ i => cases found
    · exact cut.keeps nofun early
  | more lasts answer early next ih =>
    rename_i k t d finish starts ending
    rintro s rfl rfl live watched start
    have after := next.mem_starts (by omega)
    have ends := next.finish_mem (by omega)
    rcases round_goes_on positive lasts answer early rfl live watched with
      ⟨round, silent, uncut⟩ | ⟨c, cut, before⟩
    · have kept := ih { s with
        clock := { s.clock with now := min (s.clock.now + d + w.interval) deadline }
        party := s.clock.now :: s.party } rfl rfl live watched (by omega)
      have moved := Clock.cancelTime_moved (by omega) uncut
      rw [loop_eq round]
      revert kept
      generalize w.loop deadline (.series reaction) _ = ended
      intro kept
      cases kept with
      | finished now party uncut =>
        refine .finished now (by simp [party]) fun c cancelled => ?_
        exact uncut c ((CancelledAt.cons_iff silent moved).1 cancelled)
      | cut now party cancelled before =>
        refine .cut now ?_ ((CancelledAt.cons_iff silent moved).2 cancelled) before
        have := cancelled.now_le fun u hu => (after u hu).1
        have kept : s.clock.now ≤ _ := Nat.le_trans (by dsimp only; omega) this
        simp [party, kept]
    · apply cut.keeps
      · intro u hu
        have := after u hu
        omega
      · omega

end Loop

/-- What a check would do once the wait is cancelled does not matter: it does not start then. -/
theorem poll_congr {σ : Type} {check check' : Check σ α} (same : ∀ g (s : Session σ),
    s.clock.cancelled = false → check.run g s = check'.run g s) : w.poll check = w.poll check' := by
  have rounds : ∀ deadline s, w.round deadline check s = w.round deadline check' s := by
    intro deadline s
    by_cases cancelled : s.clock.cancelled = true
    · simp only [round, cancelled, if_true]
    · rw [round_eq cancelled, round_eq cancelled, same _ s (Bool.eq_false_iff.2 cancelled)]
  funext s
  by_cases shown : s.clock.Shows w.timeout
  · rw [poll_eq shown, poll_eq shown]
    let deadline := s.clock.now + w.timeout
    have loops : w.loop deadline check' s = ((w.loop deadline check s).1, (w.loop deadline check s).2) := by
      apply loop_induction (I := fun s' => w.loop deadline check' s = w.loop deadline check' s')
        (P := fun ending s' => w.loop deadline check' s = (ending, s'))
      · intro s₁ s₂ before made
        rw [before]
        exact loop_eq ((rounds _ s₁).symm.trans made)
      · intro s₁ ending s₂ before made
        rw [before]
        exact loop_ended ((rounds _ s₁).symm.trans made)
      · rfl
    exact loops.symm
  · rw [poll_crashed shown, poll_crashed shown]

/-- A wait whose checks take their time as they like has its course: with at most as many checks as
there is time for, the last of which starts right at the deadline if there are so many, and with an
end by the deadline. It keeps to the course until it is cancelled, and ends then; and once it is
cancelled it makes no check. That is so for every timeout whose end the clock can show; with any other
one the program crashes before the first check (`poll_crashed`). -/
theorem scheduled (positive : 0 < w.interval) (reaction : Nat → Reaction (Option α))
    {s : Session (List Nat)} (shown : s.clock.Shows w.timeout) (unmade : s.party = [])
    (watched : s.clock.horizon = none) :
    (∃ starts ending finish,
      Course w (s.clock.now + w.timeout) reaction 0 s.clock.now starts ending finish ∧
      starts.length ≤ w.timeout ⌈/⌉ w.interval + 1 ∧
      (∀ t, starts[w.timeout ⌈/⌉ w.interval]? = some t → t = s.clock.now + w.timeout) ∧
      finish ≤ s.clock.now + w.timeout ∧
      (s.clock.cancelled = false →
        Keeps w reaction s starts ending finish (w.poll (.series reaction) s))) ∧
    (s.clock.cancelled = true →
      w.poll (.series reaction) s = (.error w.wasCancelled, s)) ∧
    ∀ check : Check (List Nat) α, (∀ g s, s.clock.cancelled = false →
      check.run g s = (Check.series reaction).run g s) →
        w.poll check s = w.poll (.series reaction) s := by
  have start := Nat.le_add_right s.clock.now w.timeout
  have enough : s.clock.now + w.timeout ≤
      s.clock.now + (w.timeout ⌈/⌉ w.interval) * w.interval := by
    have := le_smul_ceilDiv positive (b := w.timeout)
    rw [smul_eq_mul, Nat.mul_comm] at this
    omega
  refine ⟨?_, poll_barred shown, fun check same => congrFun (poll_congr same) s⟩
  obtain ⟨starts, ending, finish, course⟩ :=
    exists_course positive (s.clock.now + w.timeout) reaction 0 s.clock.now
  refine ⟨starts, ending, finish, course, course.length_le start enough,
    fun t found => course.last_possible start enough found, (course.finish_mem start).2, ?_⟩
  intro live
  rw [poll_eq shown]
  apply course.keeps positive s rfl (by rw [unmade]; rfl) ?_ watched start
  simp [live]

/-- A wait for what never happens makes its last check at the deadline, off the beat. -/
theorem scheduled_unmet :
    let w : Wait := ⟨"door", 5, 2⟩
    let never : Nat → Reaction (Option Unit) := fun _ => { answer := .ok none }
    let ended := w.poll (.series never) { party := [] }
    ended.1 = .error (.timeout "door" 5) ∧ ended.2.clock.now = 5 ∧ ended.2.party = [5, 4, 2, 0] ∧
      ∃ starts ending finish, Course w 5 never 0 0 starts ending finish ∧
        Keeps w never { party := [] } starts ending finish ended := by
  intro w never ended
  have start : ended.1 = .error (.timeout "door" 5) ∧ ended.2.clock.now = 5 ∧
    ended.2.party = [5, 4, 2, 0] := by decide +kernel
  obtain ⟨⟨starts, ending, finish, course, _, _, _, keeps⟩, _⟩ :=
    scheduled (w := w) (s := { party := [] }) (by decide) never (by decide) rfl rfl
  exact ⟨start.1, start.2.1, start.2.2, starts, ending, finish, by simpa [w] using course, keeps rfl⟩

end Acceptance.Wait
