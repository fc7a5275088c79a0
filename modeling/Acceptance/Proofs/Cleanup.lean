import Acceptance.Proofs.Record
import Acceptance.Proofs.Run

/-!
# The removal at the end of a run

* `Cleanup.Removes`, `Cleanup.run_removes`: which calls the removal makes, and that it ends in time
  with no result.
-/

namespace Acceptance

variable {σ α : Type}

/-- Whether the answer comes at `t` at the latest if the call is made now. -/
def Reaction.EndsBy (r : Reaction α) (now t : Nat) : Prop := ∃ d, r.lasts = some d ∧ now + d ≤ t

variable [Party σ]

namespace Cleanup

/-- A call that only its deadline can cut short. -/
theorem asked_by (call : Call) {t : Nat} {s : Session σ} (early : s.clock.now ≤ t)
    (watched : s.clock.horizon = none) :
    (((Party.react s.party call).1.EndsBy s.clock.now t ∧
        (Task.ask { deadline := some t } call s).1 =
          .ofExcept (Party.react s.party call).1.answer) ∨
      (¬ (Party.react s.party call).1.EndsBy s.clock.now t ∧
        (Task.ask { deadline := some t } call s).1 = .expired)) ∧
    (Task.ask { deadline := some t } call s).2.clock.now ≤ t := by
  have ended := Clock.awaited { deadline := some t } (Party.react s.party call).1 s.clock
  show ((_ ∧ (s.clock.await { deadline := some t } (Party.react s.party call).1).1 = _) ∨
    (_ ∧ (s.clock.await { deadline := some t } (Party.react s.party call).1).1 = _)) ∧
    (s.clock.await { deadline := some t } (Party.react s.party call).1).2.now ≤ t
  revert ended
  generalize (s.clock.await { deadline := some t } (Party.react s.party call).1).1 = ending
  intro ended
  cases ended with
  | answered lasts now inTime =>
    have := inTime t rfl
    exact ⟨.inl ⟨⟨_, lasts, by omega⟩, rfl⟩, by omega⟩
  | expired deadline now late =>
    cases deadline
    refine ⟨.inr ⟨?_, rfl⟩, by omega⟩
    rintro ⟨d, lasts, inTime⟩
    have := late d lasts
    omega
  | cancelled cancellable => cases cancellable
  | pending _ _ unending => cases (unending watched).2.1

theorem attempt_eq (g : Guard) (call : Call) (warning : Error → Warning) (s : Session σ) :
    attempt g call warning s = match Task.ask g call s with
      | (.value _, s) => (.value (), s)
      | (.error e, s) => Task.warn (warning e) s
      | (.cancelled, s) => (.cancelled, s)
      | (.expired, s) => (.expired, s)
      | (.pending, s) => (.pending, s)
      | (.crashed, s) => (.crashed, s) := by
  simp only [attempt, Bind.bind, Task.bind, Task.isolate]
  cases Task.ask g call s with
  | mk ending s => cases ending <;> rfl

/-- What comes of one attempt of the removal, which has to end at `t`. -/
structure Attempted (call : Call) (t : Nat) (s : Session σ) (ending : Ending Unit)
    (s' : Session σ) : Prop where
  started : s'.started = s.started ++ [call]
  asked : ∃ after, s'.events = after ++ .asked s.clock.now call :: s.events
  now_le : s'.clock.now ≤ t
  watched : s'.clock.horizon = none
  ending : ((Party.react s.party call).1.EndsBy s.clock.now t ∧ ending = .value ()) ∨
    (¬ (Party.react s.party call).1.EndsBy s.clock.now t ∧ ending = .expired)

theorem attempted (call : Call) (warning : Error → Warning) {t : Nat} {s : Session σ}
    (early : s.clock.now ≤ t) (watched : s.clock.horizon = none) :
    Attempted call t s (attempt { deadline := some t } call warning s).1
      (attempt { deadline := some t } call warning s).2 := by
  have started := Task.started_ask { deadline := some t } call s
  have record : ∃ after, (Task.ask { deadline := some t } call s).2.events =
    after ++ .asked s.clock.now call :: s.events := ⟨_, rfl⟩
  have horizon : (Task.ask { deadline := some t } call s).2.clock.horizon = none :=
    (Clock.await_horizon _ (Party.react s.party call).1 s.clock).trans watched
  obtain ⟨ending, now_le⟩ := asked_by call early watched
  rw [attempt_eq]
  revert started record horizon ending now_le
  cases Task.ask { deadline := some t } call s with
  | mk asked s' =>
    rintro started ⟨after, events⟩ horizon (⟨endsBy, answered⟩ | ⟨late, expired⟩) now_le
    · dsimp only at answered
      cases answer : (Party.react s.party call).1.answer with
      | ok =>
        rw [answer] at answered
        cases answered
        exact ⟨started, ⟨after, events⟩, now_le, horizon, .inl ⟨endsBy, rfl⟩⟩
      | error e =>
        rw [answer] at answered
        cases answered
        exact ⟨(Task.started_warn _ s').trans started, ⟨_ :: after, congrArg (List.cons _) events⟩,
          now_le, horizon, .inl ⟨endsBy, rfl⟩⟩
    · cases expired
      exact ⟨started, ⟨after, events⟩, now_le, horizon, .inr ⟨late, rfl⟩⟩

/-- The calls of a removal that starts at `s`. -/
def Calls (ns : String) (names : ResourceNames) (timeout : Nat) (s : Session σ)
    (calls : List Call) : Prop :=
  ((Party.react s.party (.deleteJob ns names.job)).1.EndsBy s.clock.now (s.clock.now + timeout) ∧
    calls = [.deleteJob ns names.job, .deleteConfigMap ns names.configMap]) ∨
  (¬ (Party.react s.party (.deleteJob ns names.job)).1.EndsBy s.clock.now (s.clock.now + timeout) ∧
    calls = [.deleteJob ns names.job])

/-- A removal that starts at `s` and leaves `s'`. -/
structure Removes (ns : String) (names : ResourceNames) (timeout : Nat) (s s' : Session σ) :
    Prop where
  calls : ∃ calls, Calls ns names timeout s calls ∧ s'.started = s.started ++ calls
  /-- It starts by removing the job. -/
  asked : ∃ after, s'.events = after ++ .asked s.clock.now (.deleteJob ns names.job) :: s.events
  inTime : s'.clock.now ≤ s.clock.now + timeout

theorem Removes.warn {ns : String} {names : ResourceNames} {timeout : Nat} {s s' : Session σ}
    (h : Removes ns names timeout s s') (w : Warning) :
    Removes ns names timeout s (Task.warn w s').2 where
  calls := by
    rw [Task.started_warn]
    exact h.calls
  asked := by
    obtain ⟨after, events⟩ := h.asked
    exact ⟨_ :: after, congrArg (List.cons _) events⟩
  inTime := h.inTime

/-- The removal starts by removing the job, goes on to the config map if there is time, and ends
within its own time, without a result. -/
theorem run_removes (ns : String) (names : ResourceNames) (timeout : Nat) {s : Session σ}
    (watched : s.clock.horizon = none) : (run ns names timeout s).1 = .value () ∧
      Removes ns names timeout s (run ns names timeout s).2 := by
  have first := attempted (.deleteJob ns names.job) (.jobNotDeleted ns names.job)
    (Nat.le_add_right s.clock.now timeout) watched
  simp only [run, deletes, Bind.bind, Task.bind]
  revert first
  cases attempt _ (.deleteJob ns names.job) _ s with
  | mk ending s₁ =>
    rintro ⟨started, asked, now_le, watched', ⟨endsBy, rfl⟩ | ⟨late, rfl⟩⟩
    · have second := attempted (.deleteConfigMap ns names.configMap)
        (.configMapNotDeleted ns names.configMap) now_le watched'
      dsimp only
      revert second
      cases attempt _ (.deleteConfigMap ns names.configMap) _ s₁ with
      | mk ending s₂ =>
        intro second
        have removes : Removes ns names timeout s s₂ := by
          refine ⟨⟨_, .inl ⟨endsBy, rfl⟩, ?_⟩, ?_, second.now_le⟩
          · rw [second.started, started, List.append_assoc]
            rfl
          · obtain ⟨after, events⟩ := asked
            obtain ⟨after', events'⟩ := second.asked
            exact ⟨after' ++ _ :: after, by rw [events', events, List.append_assoc]; rfl⟩
        obtain ⟨_, rfl⟩ | ⟨_, rfl⟩ := second.ending
        · exact ⟨rfl, removes⟩
        · exact ⟨rfl, removes.warn _⟩
    · have removes : Removes ns names timeout s s₁ :=
        ⟨⟨_, .inr ⟨late, rfl⟩, started⟩, asked, now_le⟩
      exact ⟨rfl, removes.warn _⟩

/-- The removal makes no other calls, and no error of it is one of the run. -/
theorem run_confined (ns : String) (names : ResourceNames) (timeout : Nat) :
    Task.Confined (σ := σ) (fun call => call.stage = .removal) (fun _ => False)
      (run ns names timeout) := by
  have attempts : ∀ g (call : Call) (warning : Error → Warning), call.stage = .removal →
      Task.Confined (σ := σ) (fun call => call.stage = .removal) (fun _ => False)
        (attempt g call warning) := by
    intro g call warning removal
    have asked : Task.Confined (σ := σ) (fun call => call.stage = .removal) (fun _ => True)
        (Task.ask g call) :=
      .ask (F := fun _ _ => True) (fun _ _ _ _ => trivial) removal fun _ => id
    refine asked.isolate.bind fun answer => ?_
    cases answer with
    | ok => exact .pure _
    | error e => exact .warn _
  intro s
  have deleted : Task.Confined (σ := σ) (fun call => call.stage = .removal) (fun _ => False)
      (deletes { deadline := some (s.clock.now + timeout) } ns names) :=
    (attempts _ _ _ rfl).bind fun _ => attempts _ _ _ rfl
  have onward := deleted s
  unfold run
  revert onward
  cases deletes { deadline := some (s.clock.now + timeout) } ns names s with
  | mk ending s' =>
    cases ending with
    | expired => exact fun onward => ⟨onward.1.trans (.warn _ s'), trivial⟩
    | _ => exact id

end Cleanup

namespace Run

variable {settings : RunSettings} {names : ResourceNames} {t : Task σ Unit} {s s' : Session σ}
  {ending : Ending Unit}

/-- The removal asks what it asks, and adds no error. -/
theorem cleaningUp_confined {Q : Call → Prop} {E : Error → Prop} (ht : t.Confined Q E)
    (removal : ∀ call, call.stage = .removal → Q call) :
    Task.Confined Q E (cleaningUp settings names t) := by
  apply Task.Confined.isolate_bind ht
  intro result fails
  have removed : Task.Confined (σ := σ) Q E
      (Cleanup.run settings.namespaceName names settings.cleanupTimeout) :=
    (Cleanup.run_confined _ _ _).mono removal fun _ => False.elim
  exact removed.bind fun _ => .ofExcept fails

/-- The removal changes nothing about the result. -/
theorem cleaningUp_over (h : t s = (ending, s')) (finished : ending.Over)
    (watched : s'.clock.horizon = none) : cleaningUp settings names t s =
      (ending, (Cleanup.run settings.namespaceName names settings.cleanupTimeout s').2) := by
  have removed :=
    (Cleanup.run_removes settings.namespaceName names settings.cleanupTimeout watched).1
  simp only [cleaningUp, Bind.bind, Task.bind, Task.isolate, h]
  cases ending with
  | cancelled | expired | pending | crashed => exact finished.elim
  | value | error =>
    dsimp only
    generalize Cleanup.run settings.namespaceName names settings.cleanupTimeout s' = r at removed ⊢
    obtain ⟨_, s''⟩ := r
    cases removed
    rfl

/-- Who never comes to an end never removes anything. -/
theorem cleaningUp_unended (h : t s = (ending, s')) (unended : ¬ ending.Over) :
    cleaningUp settings names t s = (ending, s') := by
  simp only [cleaningUp, Bind.bind, Task.bind, Task.isolate, h]
  cases ending with
  | value | error => exact absurd trivial unended
  | cancelled | expired | pending | crashed => rfl

variable {image : String} {s₁ s₂ : Session σ} {p : Prepared}

/-- A run that did not get ready ends as it could not. -/
theorem run_unprepared {ending : Ending Prepared} (remote : settings.mode = .remote image)
    (prepared : prepare settings image s = (ending, s₁)) (unready : ∀ p, ending ≠ .value p) :
    run settings s = (ending.map fun _ => .passed, s₁) := by
  simp only [run_eq remote, Bind.bind, Task.bind, prepared]
  cases ending with
  | value p => exact absurd rfl (unready p)
  | error | cancelled | expired | pending | crashed => rfl

/-- A run that got ready ends as its job does, after the removal. -/
theorem run_over (remote : settings.mode = .remote image)
    (prepared : prepare settings image s = (.value p, s₁))
    (made : runRemote settings image p.names p.config p.credentialsAvailable s₁ = (ending, s₂))
    (finished : ending.Over) (watched : s₂.clock.horizon = none) :
    run settings s = (ending.map fun _ => .passed,
      (Cleanup.run settings.namespaceName p.names settings.cleanupTimeout s₂).2) := by
  simp only [run_eq remote, Bind.bind, Task.bind, prepared, cleaningUp_over made finished watched]
  cases ending <;> rfl

theorem run_unended (remote : settings.mode = .remote image)
    (prepared : prepare settings image s = (.value p, s₁))
    (made : runRemote settings image p.names p.config p.credentialsAvailable s₁ = (ending, s₂))
    (unended : ¬ ending.Over) : run settings s = (ending.map fun _ => .passed, s₂) := by
  simp only [run_eq remote, Bind.bind, Task.bind, prepared, cleaningUp_unended made unended]
  cases ending <;> rfl

/-- Only the removal comes after the job. -/
theorem run_onward (remote : settings.mode = .remote image) {s s₁ : Session σ} {p : Prepared}
    (prepared : prepare settings image s = (.value p, s₁)) (watched : s₁.clock.horizon = none) :
    (runRemote settings image p.names p.config p.credentialsAvailable s₁).2.Onward
      (·.stage = .removal) (run settings s).2 := by
  have watched' :=
    runRemote_watched settings image p.names p.config p.credentialsAvailable watched
  generalize made : runRemote settings image p.names p.config p.credentialsAvailable s₁ = r at watched'
  obtain ⟨ending, s₂⟩ := r
  by_cases finished : ending.Over
  · rw [run_over remote prepared made finished watched']
    exact (Cleanup.run_confined _ _ _ s₂).1
  · rw [run_unended remote prepared made finished]
    exact .refl s₂

end Run

end Acceptance
