import Acceptance.Observe
import Acceptance.Proofs.Session

/-!
# Waits for an answer

* `Wait.loop_induction`: what the rounds of a wait keep, and how the last one ends it;
* `Wait.poll_eq`, `Wait.poll_crashed`: a wait has rounds exactly if the clock can show its deadline;
* `Wait.round_eq`: a round is its check and then what is made of the check's end;
* `Wait.Brought`, `Wait.brought`: a wait for the answer to a call ends with the first answer that
  holds a value, or without any such answer.
-/

namespace Acceptance

variable {σ α : Type}

namespace Wait

variable {w : Wait} {deadline : Nat} {check : Check σ α}

/-- `I` holds before every round, and the round that ends the wait gives `P`. -/
theorem loop_induction {I : Session σ → Prop} {P : Ending α → Session σ → Prop}
    (onward : ∀ s s', I s → w.round deadline check s = (none, s') → I s')
    (ends : ∀ s ending s', I s → w.round deadline check s = (some ending, s') → P ending s')
    {s : Session σ} (start : I s) :
    P (w.loop deadline check s).1 (w.loop deadline check s).2 := by
  induction s using Wait.loop.induct w deadline check with
  | case1 s ending s' made =>
    rw [loop, made]
    exact ends s ending s' start made
  | case2 s s' made ih =>
    rw [loop, made]
    exact ih (onward s s' start made)

theorem loop_eq {s s' : Session σ} (h : w.round deadline check s = (none, s')) :
    w.loop deadline check s = w.loop deadline check s' := by
  rw [loop, h]

theorem loop_ended {s s' : Session σ} {ending : Ending α}
    (h : w.round deadline check s = (some ending, s')) :
    w.loop deadline check s = (ending, s') := by
  rw [loop, h]

theorem poll_eq {s : Session σ} (shown : s.clock.Shows w.timeout) :
    w.poll check s = w.loop (s.clock.now + w.timeout) check s := by
  obtain ⟨deadline, exact⟩ := Option.isSome_iff_exists.1 shown
  have taken : s.clock.instant?.bind w.deadline? = some deadline := exact
  rw [poll, taken]

/-- Where the clock cannot show the deadline, the program crashes before anything else happens. -/
theorem poll_crashed {s : Session σ} (unshown : ¬ s.clock.Shows w.timeout) :
    w.poll check s = (.crashed, s) := by
  have untaken : s.clock.instant?.bind w.deadline? = none := Option.not_isSome_iff_eq_none.1 unshown
  rw [poll, untaken]

/-- As `loop_induction`, for a whole wait. A wait that crashes has no round. -/
theorem poll_induction {I : Session σ → Prop} {P : Ending α → Session σ → Prop} {s : Session σ}
    (onward : ∀ s₁ s₂, I s₁ → w.round (s.clock.now + w.timeout) check s₁ = (none, s₂) → I s₂)
    (ends : ∀ s₁ ending s₂, I s₁ →
      w.round (s.clock.now + w.timeout) check s₁ = (some ending, s₂) → P ending s₂)
    (crashes : ¬ s.clock.Shows w.timeout → P .crashed s) (start : I s) :
    P (w.poll check s).1 (w.poll check s).2 := by
  by_cases shown : s.clock.Shows w.timeout
  · rw [poll_eq shown]
    exact loop_induction onward ends start
  · rw [poll_crashed shown]
    exact crashes shown

/-- A wait that starts after the run was cancelled makes no check. -/
theorem poll_barred {s : Session σ} (shown : s.clock.Shows w.timeout)
    (cancelled : s.clock.cancelled = true) : w.poll check s = (.error w.wasCancelled, s) :=
  (poll_eq shown).trans (loop_ended (if_pos cancelled))

/-- What a round makes of its check. -/
def conclude (w : Wait) (deadline : Nat) :
    Ending (Option α) × Session σ → Option (Ending α) × Session σ
  | (.value (some a), s) => (some (.value a), s)
  | (.value none, s) => w.rest deadline s
  | (.error e, s) => (some (.error e), s)
  | (.cancelled, s) => (some (.error w.wasCancelled), s)
  | (.expired, s) => (some (.error w.timedOut), s)
  | (.pending, s) => (some .pending, s)
  | (.crashed, s) => (some .crashed, s)

theorem round_eq {s : Session σ} (live : s.clock.cancelled ≠ true) :
    w.round deadline check s = w.conclude deadline (check.run ⟨true, some deadline⟩ s) := by
  unfold round
  rw [if_neg live]
  rfl

/-- How a wait ends that brought nothing. -/
def GivesUp (w : Wait) (ending : Ending α) : Prop :=
  ending = .error w.timedOut ∨ ending = .error w.wasCancelled ∨ ending = .pending ∨ ending = .crashed

/-- What one round comes to. -/
inductive Rounded (w : Wait) (deadline : Nat) (check : Check σ α) (s : Session σ) :
    Option (Ending α) → Session σ → Prop where
  /-- The run was cancelled before the check. -/
  | stopped (cancelled : s.clock.cancelled = true) :
      Rounded w deadline check s (some (.error w.wasCancelled)) s
  | found {a : α} {s' : Session σ}
      (made : check.run ⟨true, some deadline⟩ s = (.value (some a), s')) :
      Rounded w deadline check s (some (.value a)) s'
  | failed {e : Error} {s' : Session σ}
      (made : check.run ⟨true, some deadline⟩ s = (.error e, s')) :
      Rounded w deadline check s (some (.error e)) s'
  /-- The check itself was cut short. -/
  | cut {made : Ending (Option α)} {ending : Ending α} {s' : Session σ}
      (cut : check.run ⟨true, some deadline⟩ s = (made, s')) (unfinished : ∀ a, made ≠ .value a)
      (givesUp : w.GivesUp ending) : Rounded w deadline check s (some ending) s'
  | notYet {s' s'' : Session σ} {o : Option (Ending α)}
      (made : check.run ⟨true, some deadline⟩ s = (.value none, s'))
      (rested : w.rest deadline s' = (o, s'')) : Rounded w deadline check s o s''

theorem rounded (w : Wait) (deadline : Nat) (check : Check σ α) (s : Session σ) :
    Rounded w deadline check s (w.round deadline check s).1 (w.round deadline check s).2 := by
  unfold round
  split
  · exact .stopped ‹_›
  · split
    · exact .found ‹_›
    · exact .notYet ‹_› rfl
    · exact .failed ‹_›
    · exact .cut ‹_› (by simp) (.inr (.inl rfl))
    · exact .cut ‹_› (by simp) (.inl rfl)
    · exact .cut ‹_› (by simp) (.inr (.inr (.inl rfl)))
    · exact .cut ‹_› (by simp) (.inr (.inr (.inr rfl)))

/-- A pause asks nobody, and ends the wait only by giving up. -/
theorem rest_quiet {s s' : Session σ} {o : Option (Ending α)} (h : w.rest deadline s = (o, s')) :
    s'.events = s.events ∧ (∀ Q, Session.Onward Q s s') ∧
      ∀ ending, o = some ending → w.GivesUp ending := by
  unfold rest at h
  split at h
  · cases h
    exact ⟨rfl, fun _ => .refl s, fun _ h => by cases h; exact .inl rfl⟩
  · rename_i early
    have slept : ∀ Q, _ := fun Q =>
      Task.Confined.sleep (Q := Q) (E := fun _ => False) (g := ⟨true, none⟩)
        (d := w.pause (deadline - s.clock.now)) s
    have events : (Task.sleep ⟨true, none⟩ (w.pause (deadline - s.clock.now)) s).2.events =
        s.events := rfl
    revert h slept events
    cases Task.sleep ⟨true, none⟩ (w.pause (deadline - s.clock.now)) s with
    | mk ending s₁ =>
      intro h slept events
      cases ending with
      | error => exact absurd (slept fun _ => True).2 id
      | value =>
        cases h
        exact ⟨events, fun Q => (slept Q).1, by simp⟩
      | pending =>
        cases h
        exact ⟨events, fun Q => (slept Q).1, fun _ h => by cases h; exact .inr (.inr (.inl rfl))⟩
      | crashed =>
        cases h
        exact ⟨events, fun Q => (slept Q).1, fun _ h => by cases h; exact .inr (.inr (.inr rfl))⟩
      | cancelled | expired =>
        cases h
        exact ⟨events, fun Q => (slept Q).1, fun _ h => by cases h; exact .inr (.inl rfl)⟩

theorem GivesUp.failsIn {E : Error → Prop} (timedOut : E w.timedOut)
    (wasCancelled : E w.wasCancelled) {ending : Ending α} (h : w.GivesUp ending) :
    ending.FailsIn E := by
  rcases h with rfl | rfl | rfl | rfl
  · exact timedOut
  · exact wasCancelled
  · trivial
  · trivial

end Wait

/-- A round keeps to the calls of its check. -/
theorem Wait.round_confined {w : Wait} {deadline : Nat} {check : Check σ α} {Q : Call → Prop}
    {E : Error → Prop} (hc : ∀ g, Task.Confined Q E (check.run g)) (timedOut : E w.timedOut)
    (wasCancelled : E w.wasCancelled) {s s' : Session σ} {o : Option (Ending α)}
    (h : w.round deadline check s = (o, s')) :
    Session.Onward Q s s' ∧ ∀ ending, o = some ending → ending.FailsIn E := by
  have checked := hc ⟨true, some deadline⟩ s
  have round := rounded w deadline check s
  rw [h] at round
  cases round with
  | stopped => exact ⟨.refl _, fun _ same => by cases same; exact wasCancelled⟩
  | found run =>
    rw [run] at checked
    exact ⟨checked.1, fun _ same => by cases same; trivial⟩
  | failed run =>
    rw [run] at checked
    exact ⟨checked.1, fun _ same => by cases same; exact checked.2⟩
  | cut run _ givesUp =>
    rw [run] at checked
    exact ⟨checked.1, fun _ same => by cases same; exact givesUp.failsIn timedOut wasCancelled⟩
  | notYet run rested =>
    rw [run] at checked
    obtain ⟨_, quiet, ends⟩ := rest_quiet rested
    exact ⟨checked.1.trans (quiet Q), fun ending same =>
      (ends ending same).failsIn timedOut wasCancelled⟩

/-- A wait keeps to the calls of its check. -/
theorem Task.Confined.poll {w : Wait} {check : Check σ α} {Q : Call → Prop} {E : Error → Prop}
    (hc : ∀ g, Task.Confined Q E (check.run g)) (timedOut : E w.timedOut)
    (wasCancelled : E w.wasCancelled) : Task.Confined Q E (w.poll check) := by
  intro s
  apply Wait.poll_induction (I := fun s' => Session.Onward Q s s')
    (P := fun ending s' => Session.Onward Q s s' ∧ ending.FailsIn E)
  · intro s₁ s₂ before made
    exact before.trans (Wait.round_confined hc timedOut wasCancelled made).1
  · intro s₁ ending s₂ before made
    have round := Wait.round_confined hc timedOut wasCancelled made
    exact ⟨before.trans round.1, round.2 ending rfl⟩
  · exact fun _ => ⟨.refl s, trivial⟩
  · exact .refl s

namespace Observe

variable [Party σ] {call : Call} {value? : call.Answer → Option α} {warning : Error → Warning}

/-- The ways in which a lookup goes. -/
inductive LookedUp (call : Call) (value? : call.Answer → Option α) (warning : Error → Warning)
    (g : Guard) (s : Session σ) : Ending (Option α) → Session σ → Prop where
  | answered {a : call.Answer} {s' : Session σ} (asked : Task.ask g call s = (.value a, s')) :
      LookedUp call value? warning g s (.value (value? a)) s'
  /-- The error is only reported. -/
  | failed {e : Error} {s' : Session σ} (asked : Task.ask g call s = (.error e, s')) :
      LookedUp call value? warning g s (.value none) (Task.warn (warning e) s').2
  | cut {asked : Ending call.Answer} {ending : Ending (Option α)} {s' : Session σ}
      (cut : Task.ask g call s = (asked, s')) (unanswered : ∀ a, asked ≠ .value a)
      (unfinished : ∀ a, ending ≠ .value a) (blameless : ∀ e, ending ≠ .error e) :
      LookedUp call value? warning g s ending s'

theorem lookedUp (call : Call) (value? : call.Answer → Option α) (warning : Error → Warning)
    (g : Guard) (s : Session σ) : LookedUp call value? warning g s
    ((lookup call value? warning).run g s).1 ((lookup call value? warning).run g s).2 := by
  simp only [lookup, Bind.bind, Task.bind, Task.isolate]
  cases asked : Task.ask g call s with
  | mk ending s' =>
    cases ending with
    | value a => exact .answered asked
    | error e => exact .failed asked
    | cancelled | expired | pending | crashed => exact .cut asked (by simp) (by simp) (by simp)

theorem lookup_confined {Q : Call → Prop} {F : Call → Error → Prop} {E : Error → Prop}
    (keeps : Party.Keeps σ F) (hQ : Q call) (g : Guard) :
    Task.Confined (σ := σ) Q E ((lookup call value? warning).run g) := by
  have asked : Task.Confined (σ := σ) Q (F call) (Task.ask g call) := .ask keeps hQ fun _ => id
  refine asked.isolate.bind fun answer => ?_
  cases answer with
  | ok a => exact .pure _
  | error e => exact (Task.Confined.warn _).bind fun _ => .pure _

/-- What is made of how the output ended. -/
def report (pod : String) (settings : ObserverSettings) :
    Ending Unit × Session σ → Ending Unit × Session σ
  | (.value (), s) => (.value (), s)
  | (.error e, s) => if e.isImagePull then (.error e, s) else Task.warn (.streamFailed pod e) s
  | (.cancelled, s) => Task.warn (.streamCancelled pod) s
  | (.expired, s) => Task.warn (.streamStillOpen pod settings.jobTimeout) s
  | (.pending, s) => (.pending, s)
  | (.crashed, s) => (.crashed, s)

theorem streamOutput_eq {ns pod : String} {settings : ObserverSettings} {s : Session σ}
    (live : s.clock.cancelled ≠ true) : streamOutput ns pod settings s = report pod settings
      (Task.ask ⟨true, some (s.clock.now + settings.jobTimeout)⟩ (.followPodLogs ns pod) s) := by
  unfold streamOutput
  rw [if_neg live]
  dsimp only
  cases Task.ask _ (.followPodLogs ns pod) s with
  | mk ending s₁ => cases ending <;> rfl

end Observe

/-- The event is an answer to `call` that holds `v`. -/
def Event.Brings (call : Call) (value? : call.Answer → Option α) (v : α) (e : Event) : Prop :=
  ∃ t a, e = .answered t call (.ok a) ∧ value? a = some v

theorem Event.Brings.succeeds {call : Call} {value? : call.Answer → Option α} {v : α} {e : Event}
    (h : e.Brings call value? v) : e.Succeeds := by
  obtain ⟨t, a, rfl, _⟩ := h
  trivial

namespace Wait

/-- What a wait for an answer to `call` adds to the record, and how it ends. -/
inductive Brought (w : Wait) (call : Call) (value? : call.Answer → Option α) :
    List Event → Ending α → Prop where
  /-- The first answer with a value is the last that happens. -/
  | found {v : α} {e : Event} {earlier : List Event} (brings : e.Brings call value? v)
      (first : ∀ e ∈ earlier, ∀ v, ¬ e.Brings call value? v) :
      Brought w call value? (e :: earlier) (.value v)
  | nothing {new : List Event} {ending : Ending α}
      (never : ∀ e ∈ new, ∀ v, ¬ e.Brings call value? v) (givesUp : w.GivesUp ending) :
      Brought w call value? new ending

variable [Party σ] {w : Wait} {call : Call} {value? : call.Answer → Option α}
  {warning : Error → Warning}

/-- The record after a lookup that brought nothing. -/
theorem lookup_brings_nothing {g : Guard} {s s' : Session σ} {ending : Ending (Option α)}
    (made : (Observe.lookup call value? warning).run g s = (ending, s'))
    (nothing : ∀ v, ending ≠ .value (some v)) :
    ∃ new, s'.events = new ++ s.events ∧ ∀ e ∈ new, ∀ v, ¬ e.Brings call value? v := by
  have looked := Observe.lookedUp call value? warning g s
  rw [made] at looked
  cases looked with
  | answered asked =>
    rename_i a
    obtain ⟨t, t₀, events⟩ := Task.ask_value asked
    refine ⟨[.answered t call (.ok a), .asked t₀ call], events, fun e he v brings => ?_⟩
    obtain ⟨_, a', same, hv⟩ := brings
    rcases List.mem_cons.1 he with rfl | he
    · cases same
      exact nothing v (by rw [hv])
    · cases List.mem_singleton.1 he
      cases same
  | failed asked =>
    obtain ⟨new, events, unanswered⟩ := Task.ask_unanswered asked (by simp)
    refine ⟨_ :: new, congrArg (List.cons _) events, fun e he v brings => ?_⟩
    rcases List.mem_cons.1 he with rfl | he
    · exact brings.succeeds
    · exact unanswered e he brings.succeeds
  | cut asked unanswered =>
    obtain ⟨new, events, none⟩ := Task.ask_unanswered asked unanswered
    exact ⟨new, events, fun e he v brings => none e he brings.succeeds⟩

/-- A lookup that brought a value ends with it. -/
theorem lookup_brings {g : Guard} {s s' : Session σ} {v : α}
    (made : (Observe.lookup call value? warning).run g s = (.value (some v), s')) :
    ∃ e t₀, s'.events = e :: .asked t₀ call :: s.events ∧ e.Brings call value? v := by
  have looked := Observe.lookedUp call value? warning g s
  rw [made] at looked
  generalize hv : some v = found at looked
  cases looked with
  | answered asked =>
    obtain ⟨t, t₀, events⟩ := Task.ask_value asked
    exact ⟨_, t₀, events, t, _, rfl, hv.symm⟩
  | failed => cases hv
  | cut _ _ unfinished => exact absurd rfl (unfinished _)

/-- A wait ends with the first answer that holds a value, or without any. -/
theorem brought (w : Wait) (call : Call) (value? : call.Answer → Option α)
    (warning : Error → Warning) (s : Session σ) :
    ∃ new, (w.poll (Observe.lookup call value? warning) s).2.events = new ++ s.events ∧
      Brought w call value? new (w.poll (Observe.lookup call value? warning) s).1 := by
  let deadline := s.clock.now + w.timeout
  let check : Check σ α := Observe.lookup call value? warning
  have idle : ∀ {new more : List Event}, (∀ e ∈ new, ∀ v, ¬ e.Brings call value? v) →
      (∀ e ∈ more, ∀ v, ¬ e.Brings call value? v) →
      ∀ e ∈ more ++ new, ∀ v, ¬ e.Brings call value? v :=
    fun none none' => List.forall_mem_append.2 ⟨none', none⟩
  -- Before each round nothing has been brought yet.
  refine Wait.poll_induction (w := w)
    (I := fun s' => ∃ new, s'.events = new ++ s.events ∧ ∀ e ∈ new, ∀ v, ¬ e.Brings call value? v)
    (P := fun ending s' => ∃ new, s'.events = new ++ s.events ∧ Brought w call value? new ending)
    ?_ ?_ (fun _ => ⟨[], rfl, .nothing (by simp) (.inr (.inr (.inr rfl)))⟩) ⟨[], rfl, by simp⟩
  · rintro s₁ s₂ ⟨new, events, none⟩ made
    have round := rounded w deadline check s₁
    rw [made] at round
    cases round with
    | notYet run rested =>
      obtain ⟨more, events', none'⟩ := lookup_brings_nothing run (by simp)
      exact ⟨more ++ new, by rw [(rest_quiet rested).1, events', events, List.append_assoc],
        idle none none'⟩
  · rintro s₁ ending s₂ ⟨new, events, none⟩ made
    have round := rounded w deadline check s₁
    rw [made] at round
    generalize ho : some ending = o at round
    cases round with
    | stopped => cases ho; exact ⟨new, events, .nothing none (.inr (.inl rfl))⟩
    | found run =>
      cases ho
      obtain ⟨e, t₀, events', brings⟩ := lookup_brings run
      refine ⟨e :: .asked t₀ call :: new, by rw [events', events]; rfl, .found brings ?_⟩
      rintro e he v ⟨_, _, rfl, _⟩
      rcases List.mem_cons.1 he with he | he
      · cases he
      · exact none _ he v ⟨_, _, rfl, ‹_›⟩
    | failed run =>
      have looked := Observe.lookedUp call value? warning ⟨true, some deadline⟩ s₁
      rw [run] at looked
      cases looked with
      | cut _ _ _ blameless => exact absurd rfl (blameless _)
    | cut run unfinished givesUp =>
      cases ho
      obtain ⟨more, events', none'⟩ := lookup_brings_nothing run fun v => unfinished _
      exact ⟨more ++ new, by rw [events', events, List.append_assoc],
        .nothing (idle none none') givesUp⟩
    | notYet run rested =>
      obtain ⟨more, events', none'⟩ := lookup_brings_nothing run (by simp)
      exact ⟨more ++ new, by rw [(rest_quiet rested).1, events', events, List.append_assoc],
        .nothing (idle none none') ((rest_quiet rested).2.2 ending ho.symm)⟩

end Wait

end Acceptance
