import Acceptance.Proofs.Cleanup

/-!
# Waits that come to an end

* `Task.ask_unending`: the one wait that never ends, for an answer that never comes, with nothing
  that would cut it short;
* `Task.Ends`: a task that waits so, or crashes, only in certain sessions;
* `Observe.observeJob_ends`: the observation of a job never waits so, and crashes only where the clock
  cannot show the end of one of its waits.
-/

namespace Acceptance

variable {σ α β : Type}

/-- Whoever looks on for ever sees the task end with a value or an error, or wait for ever in a
session that is `stuck`, or crash in one that is `doomed`. -/
def Task.Ends (stuck doomed : Session σ → Prop) (t : Task σ α) : Prop :=
  ∀ s : Session σ, s.clock.horizon = none → (t s).2.clock.horizon = none ∧
    ((t s).1.Over ∨ (t s).1 = .pending ∧ stuck (t s).2 ∨ (t s).1 = .crashed ∧ doomed (t s).2)

namespace Task.Ends

variable {stuck doomed : Session σ → Prop}

theorem ofExcept {r : Except Error α} : Ends stuck doomed (Task.ofExcept r) := fun _ watched =>
  ⟨watched, .inl (by cases r <;> trivial)⟩

theorem bind {t : Task σ α} {next : α → Task σ β} (ht : t.Ends stuck doomed)
    (hn : ∀ a, (next a).Ends stuck doomed) : (t >>= next).Ends stuck doomed := by
  intro s watched
  have ended := ht s watched
  simp only [Bind.bind, Task.bind]
  revert ended
  cases t s with
  | mk ending s' =>
    rintro ⟨watched', finished | ⟨rfl, waits⟩ | ⟨rfl, crashes⟩⟩
    · cases ending with
      | value a => exact hn a s' watched'
      | error e => exact ⟨watched', .inl trivial⟩
      | cancelled | expired | pending | crashed => exact finished.elim
    · exact ⟨watched', .inr (.inl ⟨rfl, waits⟩)⟩
    · exact ⟨watched', .inr (.inr ⟨rfl, crashes⟩)⟩

theorem mono {stuck' : Session σ → Prop} {t : Task σ α} (ht : t.Ends stuck doomed)
    (weaker : ∀ s, stuck s → stuck' s) : t.Ends stuck' doomed := fun s watched =>
  (ht s watched).imp_right (.imp_right (.imp_left (.imp_right (weaker _))))

end Task.Ends

/-- Whoever looks on for ever sees the task end with a value or an error, unless it crashes in a session
that is `doomed`. -/
def Task.Finishes (doomed : Session σ → Prop) (t : Task σ α) : Prop := t.Ends (fun _ => False) doomed

theorem Task.Finishes.ended {doomed : Session σ → Prop} {t : Task σ α} (h : t.Finishes doomed)
    {s : Session σ} (watched : s.clock.horizon = none) (safe : ¬ doomed (t s).2) : (t s).1.Over := by
  rcases (h s watched).2 with finished | ⟨_, stuck⟩ | ⟨_, crashes⟩
  · exact finished
  · exact stuck.elim
  · exact absurd crashes safe

/-- Neither for ever nor in a crash. -/
def Ending.Halts : Ending α → Prop
  | .pending | .crashed => False
  | _ => True

/-- A pause is never without an end. -/
theorem Task.sleep_halts {g : Guard} {d : Nat} {s : Session σ}
    (watched : s.clock.horizon = none) : (sleep g d s).1.Halts := by
  let r : Reaction Unit := { lasts := some d, answer := .ok () }
  have ended := Clock.awaited g r s.clock
  change (s.clock.await g r).1.Halts
  generalize (s.clock.await g r).1 = ending at ended
  cases ended with
  | pending _ _ unending => cases (unending watched).1
  | answered | expired | cancelled => trivial

namespace Wait

variable {w : Wait} {deadline : Nat} {check : Check σ α} {stuck doomed : Session σ → Prop}

theorem rest_ends {s s' : Session σ} {ending : Ending α} (watched : s.clock.horizon = none)
    (h : w.rest deadline s = (some ending, s')) : ending.Over := by
  have slept := Task.sleep_halts (g := ⟨true, none⟩) (d := w.pause (deadline - s.clock.now)) watched
  unfold rest at h
  split at h
  · cases h; trivial
  · revert h slept
    cases Task.sleep ⟨true, none⟩ (w.pause (deadline - s.clock.now)) s with
    | mk made s₁ =>
      intro slept h
      cases made with
      | value => cases h
      | error | cancelled | expired => cases h; trivial
      | pending | crashed => exact slept.elim

/-- The round that ends a wait does so with a value or an error, if its check is not without an
end. -/
theorem round_ends {s s' : Session σ} {ending : Ending α}
    (checked : (check.run ⟨true, some deadline⟩ s).1.Halts)
    (watched : (check.run ⟨true, some deadline⟩ s).2.clock.horizon = none)
    (h : w.round deadline check s = (some ending, s')) : ending.Over := by
  unfold round at h
  split at h
  · cases h; trivial
  · revert h checked watched
    cases check.run ⟨true, some deadline⟩ s with
    | mk made s₁ =>
      intro checked watched h
      cases made with
      | value found =>
        cases found with
        | some a => cases h; trivial
        | none => exact rest_ends watched h
      | error | cancelled | expired => cases h; trivial
      | pending | crashed => exact checked.elim

/-- The rounds of a wait end if its check does before the deadline. -/
theorem loop_over (hc : ∀ t (s : Session σ), s.clock.horizon = none →
      (check.run ⟨true, some t⟩ s).1.Halts ∧
        (check.run ⟨true, some t⟩ s).2.clock.horizon = none)
    {s : Session σ} (watched : s.clock.horizon = none) :
    (w.loop deadline check s).2.clock.horizon = none ∧ (w.loop deadline check s).1.Over := by
  have onward : ∀ {s₁ s₂ : Session σ} {o}, s₁.clock.horizon = none →
      w.round deadline check s₁ = (o, s₂) → s₂.clock.horizon = none := by
    intro s₁ s₂ o watched made
    have checked := (hc deadline s₁ watched).2
    have round := rounded w deadline check s₁
    rw [made] at round
    cases round with
    | stopped => exact watched
    | found run | failed run | cut run => rwa [run] at checked
    | notYet run rested =>
      rw [run] at checked
      exact ((rest_quiet rested).2.1 fun _ => True).horizon.trans checked
  refine loop_induction (I := fun s => s.clock.horizon = none)
    (P := fun ending s => s.clock.horizon = none ∧ ending.Over) (fun _ _ => onward) ?_ watched
  intro s₁ ending s₂ watched made
  exact ⟨onward watched made, round_ends (hc _ s₁ watched).1 (hc _ s₁ watched).2 made⟩

/-- A wait ends as its rounds do, or crashes before the first. -/
theorem poll_ends (hc : ∀ t (s : Session σ), s.clock.horizon = none →
      (check.run ⟨true, some t⟩ s).1.Halts ∧
        (check.run ⟨true, some t⟩ s).2.clock.horizon = none)
    (unshown : ∀ s : Session σ, ¬ s.clock.Shows w.timeout → doomed s) :
    (w.poll check).Ends stuck doomed := by
  intro s watched
  by_cases shown : s.clock.Shows w.timeout
  · rw [poll_eq shown]
    exact (loop_over hc watched).imp_right .inl
  · rw [poll_crashed shown]
    exact ⟨watched, .inr (.inr ⟨rfl, unshown s shown⟩)⟩

end Wait

variable [Party σ]

theorem Task.ask_horizon (g : Guard) (call : Call) (s : Session σ) :
    (ask g call s).2.clock.horizon = s.clock.horizon :=
  Clock.await_horizon g (Party.react s.party call).1 s.clock

/-- Only a call that is never answered is waited for without an end, and only where no deadline and
no cancellation cuts the wait short. -/
theorem Task.ask_unending {g : Guard} {call : Call} {s s' : Session σ}
    (watched : s.clock.horizon = none) (pending : ask g call s = (.pending, s')) :
    (Party.react s.party call).1.lasts = none ∧ g.deadline = none ∧
      (g.cancellable = true → s'.clock.cancelTime = none) ∧
      ∃ t t₀, s'.events = .abandoned t call :: .asked t₀ call :: s.events := by
  have ended := Clock.awaited g (Party.react s.party call).1 s.clock
  have ending : (s.clock.await g (Party.react s.party call).1).1 = .pending :=
    congrArg Prod.fst pending
  have clock : (s.clock.await g (Party.react s.party call).1).2 = s'.clock :=
    congrArg (fun r : Ending call.Answer × Session σ => r.2.clock) pending
  have events := congrArg (fun r : Ending call.Answer × Session σ => r.2.events) pending
  simp only [ask, ending, endEvents, List.singleton_append] at events
  rw [ending, clock] at ended
  generalize same : Ending.pending = e at ended
  cases ended with
  | pending _ _ unending =>
    obtain ⟨lasts, deadline, uncancelled⟩ := unending watched
    exact ⟨lasts, deadline, uncancelled, _, _, events.symm⟩
  | answered =>
    cases answer : (Party.react s.party call).1.answer <;> simp [answer, Ending.ofExcept] at same
  | expired | cancelled => cases same

/-- No call crashes. -/
theorem Task.ask_ne_crashed (g : Guard) (call : Call) (s : Session σ) :
    (ask g call s).1 ≠ .crashed := by
  have ended := Clock.awaited g (Party.react s.party call).1 s.clock
  change (s.clock.await g (Party.react s.party call).1).1 ≠ .crashed
  generalize (s.clock.await g (Party.react s.party call).1).1 = ending at ended
  cases ended with
  | answered => cases (Party.react s.party call).1.answer <;> exact nofun
  | expired | cancelled | pending => exact nofun

/-- A call with a deadline always ends. -/
theorem Task.ask_halts {t : Nat} (cancellable : Bool) (call : Call) {s : Session σ}
    (watched : s.clock.horizon = none) : (ask ⟨cancellable, some t⟩ call s).1.Halts := by
  have uncrashed := ask_ne_crashed ⟨cancellable, some t⟩ call s
  cases asked : ask ⟨cancellable, some t⟩ call s with
  | mk ending s' =>
    rw [asked] at uncrashed
    cases ending with
    | pending => cases (ask_unending watched asked).2.1
    | crashed => exact uncrashed rfl
    | value | error | cancelled | expired => trivial

/-- A call that no deadline cuts short. -/
theorem Task.withCancel_ask_ends {stage : String} {call : Call} {stuck doomed : Session σ → Prop}
    (unending : ∀ s s' : Session σ, (Party.react s.party call).1.lasts = none →
      s'.clock.cancelTime = none →
      (∃ t t₀, s'.events = .abandoned t call :: .asked t₀ call :: s.events) → stuck s') :
    (withCancel stage fun g => ask g call).Ends stuck doomed := by
  intro s watched
  have uncrashed := ask_ne_crashed { cancellable := true } call s
  have ended := Clock.awaited { cancellable := true } (Party.react s.party call).1 s.clock
  have horizon := (ask_horizon { cancellable := true } call s).trans watched
  unfold withCancel
  split
  · exact ⟨watched, .inl trivial⟩
  · change Clock.Awaited _ _ _ (ask { cancellable := true } call s).1 _ at ended
    dsimp only
    generalize asked : ask { cancellable := true } call s = r at ended horizon uncrashed
    obtain ⟨ending, s'⟩ := r
    cases ending with
    | value | error | cancelled => exact ⟨horizon, .inl trivial⟩
    | expired =>
      generalize same : Ending.expired = e at ended
      cases ended with
      | expired deadline => cases deadline
      | answered => exact absurd same.symm Clock.ofExcept_ne_expired
      | cancelled | pending => cases same
    | pending =>
      obtain ⟨lasts, _, uncancelled, events⟩ := ask_unending watched asked
      exact ⟨horizon, .inr (.inl ⟨rfl, unending s s' lasts (uncancelled rfl) events⟩)⟩
    | crashed => exact absurd rfl uncrashed

/-- The clock can show when each wait of an observation is over that starts now. -/
structure ObserverSettings.InReach (settings : ObserverSettings) (c : Clock) : Prop where
  pod : c.Shows settings.podTimeout
  job : c.Shows settings.jobTimeout

theorem ObserverSettings.InReach.earlier {settings : ObserverSettings} {c c' : Clock}
    (h : settings.InReach c') (origin : c'.origin = c.origin) (early : c.now ≤ c'.now) :
    settings.InReach c where
  pod := h.pod.earlier origin (Nat.add_le_add_right early _)
  job := h.job.earlier origin (Nat.add_le_add_right early _)

namespace Observe

variable {ns job pod : String} {settings : ObserverSettings} {stuck doomed : Session σ → Prop}

/-- A lookup with a deadline is not without an end. -/
theorem lookup_halts (call : Call) (value? : call.Answer → Option α) (warning : Error → Warning)
    (t : Nat) (s : Session σ) (watched : s.clock.horizon = none) :
    ((lookup call value? warning).run ⟨true, some t⟩ s).1.Halts ∧
      ((lookup call value? warning).run ⟨true, some t⟩ s).2.clock.horizon = none := by
  have horizon := Task.ask_horizon ⟨true, some t⟩ call s
  have halts : (Task.ask ⟨true, some t⟩ call s).1.Halts := Task.ask_halts true call watched
  simp only [lookup, Bind.bind, Task.bind, Task.isolate]
  revert horizon halts
  obtain ⟨ending, s'⟩ := Task.ask ⟨true, some t⟩ call s
  intro horizon halts
  cases ending with
  | pending | crashed => exact halts.elim
  | value | error | cancelled | expired => exact ⟨trivial, horizon.trans watched⟩

theorem lookup_poll_ends {w : Wait} {call : Call} {value? : call.Answer → Option α}
    {warning : Error → Warning} (unshown : ∀ s : Session σ, ¬ s.clock.Shows w.timeout → doomed s) :
    (w.poll (lookup call value? warning)).Ends stuck doomed :=
  Wait.poll_ends (lookup_halts call value? warning) unshown

theorem streamOutput_ends : (streamOutput ns pod settings).Ends stuck doomed := by
  intro s watched
  by_cases cancelled : s.clock.cancelled = true
  · rw [streamOutput, if_pos cancelled]
    exact ⟨watched, .inl trivial⟩
  · have horizon := Task.ask_horizon ⟨true, some (s.clock.now + settings.jobTimeout)⟩
      (.followPodLogs ns pod) s
    have halts : (Task.ask ⟨true, some (s.clock.now + settings.jobTimeout)⟩
      (.followPodLogs ns pod) s).1.Halts := Task.ask_halts true _ watched
    rw [streamOutput_eq cancelled]
    revert horizon halts
    obtain ⟨ending, s'⟩ := Task.ask _ (.followPodLogs ns pod) s
    intro horizon halts
    cases ending with
    | pending | crashed => exact halts.elim
    | error e =>
      dsimp only [report]
      split <;> exact ⟨horizon.trans watched, .inl trivial⟩
    | value | cancelled | expired => exact ⟨horizon.trans watched, .inl trivial⟩

/-- A job is not observed for ever. -/
theorem observeJob_ends :
    (observeJob ns job settings).Ends stuck fun s => ¬ settings.InReach s.clock :=
  .bind (lookup_poll_ends fun _ unshown reach => unshown reach.pod) fun _ =>
    .bind streamOutput_ends fun _ =>
      .bind (lookup_poll_ends fun _ unshown reach => unshown reach.job) fun _ => .ofExcept

end Observe

end Acceptance
