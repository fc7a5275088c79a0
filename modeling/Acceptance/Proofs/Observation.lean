import Acceptance.Proofs.Ends

/-!
# The observation of a job

However its collaborators behave, a job is not observed for longer than its settings allow.

* `Task.Within`: a task that ends within a certain time;
* `Observe.Result`: the ways in which an observation ends;
* `Observe.observed_in_time`: every observation ends in one of them and in time, and reads the status
  of the job at least once where its pod was found and did print.
-/

namespace Acceptance

variable {σ α β : Type}

/-- The task takes no longer than `d`. -/
def Task.Within (d : Nat) (t : Task σ α) : Prop := ∀ s, (t s).2.clock.now ≤ s.clock.now + d

namespace Task.Within

theorem bind {t : Task σ α} {next : α → Task σ β} {d e : Nat} (ht : t.Within d)
    (hn : ∀ a, (next a).Within e) : (t >>= next).Within (d + e) := by
  intro s
  have first := ht s
  simp only [Bind.bind, Task.bind]
  revert first
  cases t s with
  | mk ending s₁ =>
    intro first
    dsimp only at first
    cases ending with
    | value a =>
      have second := hn a s₁
      dsimp only
      omega
    | error | cancelled | expired | pending | crashed =>
      dsimp only
      omega

theorem ofExcept (r : Except Error α) : (Task.ofExcept (σ := σ) r).Within 0 := fun _ => Nat.le_refl _

end Task.Within

namespace Wait

variable {w : Wait} {deadline : Nat} {check : Check σ α}

theorem rest_now_le {s s' : Session σ} {o : Option (Ending α)} (start : s.clock.now ≤ deadline)
    (h : w.rest deadline s = (o, s')) : s'.clock.now ≤ deadline := by
  by_cases late : deadline ≤ s.clock.now
  · rw [rest, if_pos late] at h
    cases h
    exact start
  · have inTime : s.clock.now + w.pause (deadline - s.clock.now) ≤ deadline := by
      unfold pause
      omega
    have slept : (Task.sleep ⟨true, none⟩ (w.pause (deadline - s.clock.now)) s).2.clock.now ≤
        s.clock.now + w.pause (deadline - s.clock.now) := Clock.await_now_le_answer rfl
    rw [rest, if_neg late] at h
    revert h slept
    cases Task.sleep ⟨true, none⟩ (w.pause (deadline - s.clock.now)) s with
    | mk ending s₁ =>
      intro h slept
      cases ending <;> cases h <;> exact Nat.le_trans slept inTime

/-- A wait takes no longer than its timeout, if no check goes on after the deadline. -/
theorem poll_within (hc : ∀ t (s : Session σ), s.clock.now ≤ t →
    (check.run ⟨true, some t⟩ s).2.clock.now ≤ t) : (w.poll check).Within w.timeout := by
  intro s
  have rounds : ∀ s₁ o s₂, s₁.clock.now ≤ s.clock.now + w.timeout →
      w.round (s.clock.now + w.timeout) check s₁ = (o, s₂) →
        s₂.clock.now ≤ s.clock.now + w.timeout := by
    intro s₁ o s₂ start made
    have checked := hc _ s₁ start
    have round := rounded w (s.clock.now + w.timeout) check s₁
    rw [made] at round
    cases round with
    | stopped => exact start
    | found run | failed run | cut run =>
      rw [run] at checked
      exact checked
    | notYet run rested =>
      rw [run] at checked
      exact rest_now_le checked rested
  apply poll_induction (I := fun s' => s'.clock.now ≤ s.clock.now + w.timeout)
    (P := fun _ s' => s'.clock.now ≤ s.clock.now + w.timeout)
  · exact fun s₁ s₂ start made => rounds s₁ none s₂ start made
  · exact fun s₁ ending s₂ start made => rounds s₁ (some ending) s₂ start made
  · exact fun _ => Nat.le_add_right _ _
  · exact Nat.le_add_right _ _

end Wait

variable [Party σ]

theorem Task.ask_now_le {t : Nat} (call : Call) {s : Session σ} (start : s.clock.now ≤ t) :
    (ask ⟨true, some t⟩ call s).2.clock.now ≤ t := by
  have inTime : (ask ⟨true, some t⟩ call s).2.clock.now ≤ max s.clock.now t :=
    Clock.await_now_le_deadline rfl
  omega

namespace Observe

variable {ns job pod : String} {settings : ObserverSettings} {call : Call}
  {value? : call.Answer → Option α} {warning : Error → Warning} {w : Wait}

theorem lookup_poll_within :
    (w.poll (lookup (σ := σ) call value? warning)).Within w.timeout := by
  apply Wait.poll_within
  intro t s start
  have asked := Task.ask_now_le call start
  have looked := lookedUp call value? warning ⟨true, some t⟩ s
  revert looked
  generalize (lookup call value? warning).run ⟨true, some t⟩ s = r
  obtain ⟨ending, s'⟩ := r
  intro looked
  cases looked with
  | answered made | failed made | cut made =>
    rw [made] at asked
    exact asked

theorem streamOutput_within :
    (streamOutput (σ := σ) ns pod settings).Within settings.jobTimeout := by
  intro s
  by_cases cancelled : s.clock.cancelled = true
  · rw [streamOutput, if_pos cancelled]
    exact Nat.le_add_right _ _
  · have asked := Task.ask_now_le (.followPodLogs ns pod)
      (Nat.le_add_right s.clock.now settings.jobTimeout)
    rw [streamOutput_eq cancelled]
    revert asked
    cases Task.ask _ (.followPodLogs ns pod) s with
    | mk ending s₁ =>
      intro asked
      cases ending with
      | error e =>
        dsimp only [report]
        split <;> exact asked
      | value | cancelled | expired | pending | crashed => exact asked

/-- A job is observed for no longer than its settings say. -/
theorem observeJob_within : (observeJob (σ := σ) ns job settings).Within
    (settings.podTimeout + (settings.jobTimeout + (settings.jobTimeout + 0))) := by
  have arrival : (awaitPod (σ := σ) ns job settings).Within settings.podTimeout :=
    lookup_poll_within
  have verdict : (awaitCompletion (σ := σ) ns job settings).Within (settings.jobTimeout + 0) :=
    lookup_poll_within.bind fun outcome => .ofExcept _
  exact arrival.bind fun pod => streamOutput_within.bind fun _ => verdict

/-! ## How an observation ends -/

/-- The ways in which the observation of a job ends that leaves `s`. -/
inductive Result (ns job : String) (settings : ObserverSettings) (s : Session σ) :
    Ending Unit → Prop where
  | passed : Result ns job settings s (.value ())
  | failed : Result ns job settings s (.error (.jobFailed job))
  /-- The last thing that happened is that an image could not be pulled. -/
  | unpullable {t : Nat} {pod : String} {e : Error} {before : List Event}
      (imagePull : e.isImagePull = true)
      (last : s.events = .answered t (.followPodLogs ns pod) (.error e) :: before) :
      Result ns job settings s (.error e)
  | timedOut {stage : String} {after : Nat}
      (known : stage = "pod creation" ∧ after = settings.podTimeout ∨
        stage = "job completion" ∧ after = settings.jobTimeout) :
      Result ns job settings s (.error (.timeout stage after))
  | cancelled {stage : String} (known : stage = "pod creation" ∨ stage = "job completion") :
      Result ns job settings s (.error (.cancelled stage))

/-- A wait for an answer ends with a value that was found, or gives up. -/
theorem lookup_poll_ending (w : Wait) (call : Call) (value? : call.Answer → Option α)
    (warning : Error → Warning) {s : Session σ} (watched : s.clock.horizon = none)
    (shown : s.clock.Shows w.timeout) :
    (∃ a, (w.poll (lookup call value? warning) s).1 = .value a) ∨
      (w.poll (lookup call value? warning) s).1 = .error w.timedOut ∨
      (w.poll (lookup call value? warning) s).1 = .error w.wasCancelled := by
  obtain ⟨new, _, brought⟩ := Wait.brought w call value? warning s
  have finished : (w.poll (lookup call value? warning) s).1.Over := by
    rw [Wait.poll_eq shown]
    exact (Wait.loop_over (lookup_halts call value? warning) watched).2
  generalize (w.poll (lookup call value? warning) s).1 = ending at brought finished
  cases brought with
  | found => exact .inl ⟨_, rfl⟩
  | nothing _ givesUp =>
    rcases givesUp with rfl | rfl | rfl | rfl
    · exact .inr (.inl rfl)
    · exact .inr (.inr rfl)
    · exact finished.elim
    · exact finished.elim

/-- The output ends the observation only where an image cannot be pulled. -/
theorem streamOutput_ending {s s' : Session σ} {ending : Ending Unit}
    (watched : s.clock.horizon = none) (h : streamOutput ns pod settings s = (ending, s')) :
    ending = .value () ∨ ∃ e t before, ending = .error e ∧ e.isImagePull = true ∧
      s'.events = .answered t (.followPodLogs ns pod) (.error e) :: before := by
  have ends : Task.Finishes (fun _ => False) (streamOutput (σ := σ) ns pod settings) :=
    streamOutput_ends
  have finished := ends.ended watched id
  rw [h] at finished
  by_cases cancelled : s.clock.cancelled = true
  · rw [streamOutput, if_pos cancelled] at h
    cases h
    exact .inl rfl
  · rw [streamOutput_eq cancelled] at h
    revert h
    cases asked : Task.ask _ (.followPodLogs ns pod) s with
    | mk made s₁ =>
      intro h
      cases made with
      | error e =>
        dsimp only [report] at h
        split at h
        · cases h
          obtain ⟨t, t₀, events⟩ := Task.ask_error asked
          exact .inr ⟨e, t, _, rfl, ‹_›, events⟩
        · cases h
          exact .inl rfl
      | value | cancelled | expired =>
        cases h
        exact .inl rfl
      | pending | crashed =>
        cases h
        exact finished.elim

theorem awaitCompletion_result {s : Session σ} (watched : s.clock.horizon = none)
    (shown : s.clock.Shows settings.jobTimeout) :
    Result ns job settings (awaitCompletion ns job settings s).2
      (awaitCompletion ns job settings s).1 := by
  have read := lookup_poll_ending (verdictWait settings) (.jobStatus ns job) JobStatus.outcome
    (.statusUnreadable job) watched shown
  simp only [awaitCompletion, Bind.bind, Task.bind]
  revert read
  cases (verdictWait settings).poll _ s with
  | mk ending s₁ =>
    rintro (⟨outcome, rfl⟩ | rfl | rfl)
    · cases outcome with
      | succeeded => exact .passed
      | failed => exact .failed
    · exact .timedOut (.inr ⟨rfl, rfl⟩)
    · exact .cancelled (.inr rfl)

theorem awaitPod_onward (ns job : String) (settings : ObserverSettings) (s : Session σ) :
    Session.Onward (fun _ => True) s (awaitPod ns job settings s).2 := by
  have confined : Task.Confined (σ := σ) (fun _ => True) (fun _ => True)
      (awaitPod ns job settings) :=
    awaitPod_confined (F := fun _ _ => True) (fun _ _ _ _ => trivial) trivial
      (fun _ _ => trivial) fun _ => trivial
  exact (confined s).1

theorem streamOutput_onward (ns pod : String) (settings : ObserverSettings) (s : Session σ) :
    Session.Onward (fun _ => True) s (streamOutput ns pod settings s).2 := by
  have confined : Task.Confined (σ := σ) (fun _ => True) (fun _ => True)
      (streamOutput ns pod settings) :=
    streamOutput_confined (F := fun _ _ => True) (fun _ _ _ _ => trivial) trivial
      fun _ _ _ => trivial
  exact (confined s).1

/-- A clock that can show the end of the longest observation can show, when the output is over, the
end of the wait for the verdict. -/
theorem verdict_shown {s s₁ : Session σ}
    (shown : s.clock.Shows (settings.podTimeout + 2 * settings.jobTimeout))
    (found : awaitPod ns job settings s = (.value pod, s₁)) :
    (streamOutput ns pod settings s₁).2.clock.Shows settings.jobTimeout := by
  have arrived := awaitPod_onward ns job settings s
  have arrival : (awaitPod ns job settings s).2.clock.now ≤ s.clock.now + settings.podTimeout :=
    lookup_poll_within s
  have printed := streamOutput_onward ns pod settings s₁
  have output : (streamOutput ns pod settings s₁).2.clock.now ≤
      s₁.clock.now + settings.jobTimeout := streamOutput_within s₁
  rw [found] at arrived arrival
  dsimp only at arrival
  exact shown.earlier (printed.origin.trans arrived.origin).symm (by omega)

theorem observeJob_result {s : Session σ} (watched : s.clock.horizon = none)
    (shown : s.clock.Shows (settings.podTimeout + 2 * settings.jobTimeout)) :
    Result ns job settings (observeJob ns job settings s).2 (observeJob ns job settings s).1 := by
  have podShown : s.clock.Shows settings.podTimeout := shown.earlier rfl (by omega)
  have found := lookup_poll_ending (podWait settings) (.findJobPod ns job) id
    (.podLookupFailed job) watched podShown
  have watched₁ : (awaitPod ns job settings s).2.clock.horizon = none :=
    (awaitPod_onward ns job settings s).horizon.trans watched
  have verdictShown := fun pod s₁ => @verdict_shown σ _ ns job pod settings s s₁ shown
  simp only [observeJob, awaitPod, Bind.bind, Task.bind] at watched₁ verdictShown ⊢
  revert found watched₁ verdictShown
  cases (podWait settings).poll _ s with
  | mk ending s₁ =>
    rintro (⟨pod, rfl⟩ | rfl | rfl) watched₁ verdictShown
    · have verdictShown := verdictShown pod s₁ rfl
      have watched₂ := (streamOutput_onward ns pod settings s₁).horizon.trans watched₁
      dsimp only
      cases streamed : streamOutput ns pod settings s₁ with
      | mk ending s₂ =>
        rw [streamed] at verdictShown watched₂
        rcases streamOutput_ending watched₁ streamed with
          rfl | ⟨e, t, before, rfl, imagePull, last⟩
        · exact awaitCompletion_result watched₂ verdictShown
        · exact .unpullable imagePull last
    · exact .timedOut (.inl ⟨rfl, rfl⟩)
    · exact .cancelled (.inl rfl)

/-! ## The first reading of the status -/

/-- What came of a session `s` that started with the call. -/
def Asks (call : Call) (s s' : Session σ) : Prop :=
  ∃ after, s'.events = after ++ .asked s.clock.now call :: s.events

omit [Party σ] in
theorem Asks.onward {Q : Call → Prop} {s s₁ s' : Session σ} (h : Asks call s s₁)
    (onward : Session.Onward Q s₁ s') : Asks call s s' := by
  obtain ⟨after, events⟩ := h
  obtain ⟨new, added, _⟩ := onward.record
  exact ⟨new ++ after, by rw [added, events, List.append_assoc]⟩

theorem lookup_asks (call : Call) (value? : call.Answer → Option α) (warning : Error → Warning)
    (g : Guard) (s : Session σ) : Asks call s ((lookup call value? warning).run g s).2 := by
  have asked : Asks call s (Task.ask g call s).2 := ⟨_, rfl⟩
  have looked := lookedUp call value? warning g s
  revert looked
  generalize (lookup call value? warning).run g s = r
  obtain ⟨ending, s'⟩ := r
  intro looked
  cases looked with
  | answered made | cut made =>
    rw [made] at asked
    exact asked
  | failed made =>
    rw [made] at asked
    exact asked.onward (.warn (Q := fun _ => True) _ _)

/-- A wait that is not cancelled yet starts with a call. -/
theorem lookup_poll_asks (w : Wait) (call : Call) (value? : call.Answer → Option α)
    (warning : Error → Warning) {s : Session σ} (shown : s.clock.Shows w.timeout)
    (live : s.clock.cancelled = false) :
    Asks call s (w.poll (lookup call value? warning) s).2 := by
  let deadline := s.clock.now + w.timeout
  have rounds : ∀ {s₁ o s₂}, w.round deadline (lookup call value? warning) s₁ = (o, s₂) →
      s₁ = s ∨ Asks call s s₁ → Asks call s s₂ := by
    rintro s₁ o s₂ made (rfl | before)
    · have asked := lookup_asks call value? warning ⟨true, some deadline⟩ s₁
      have round := Wait.rounded w deadline (lookup call value? warning) s₁
      rw [made] at round
      cases round with
      | stopped cancelled => cases live.symm.trans cancelled
      | found run | failed run | cut run =>
        rw [run] at asked
        exact asked
      | notYet run rested =>
        rw [run] at asked
        exact asked.onward ((Wait.rest_quiet rested).2.1 fun _ => True)
    · have confined : ∀ g, Task.Confined (fun _ => True) (fun _ => True)
          ((lookup (σ := σ) call value? warning).run g) :=
        fun g => lookup_confined (F := fun _ _ => True) (fun _ _ _ _ => trivial) trivial g
      exact before.onward (Wait.round_confined confined trivial trivial made).1
  -- Only the first round starts in `s` itself.
  rw [Wait.poll_eq shown]
  apply Wait.loop_induction (I := fun s' => s' = s ∨ Asks call s s')
    (P := fun _ s' => Asks call s s')
  · exact fun s₁ s₂ before made => .inr (rounds made before)
  · exact fun s₁ ending s₂ before made => rounds made before
  · exact .inl rfl

theorem awaitCompletion_asks {s : Session σ} (shown : s.clock.Shows settings.jobTimeout)
    (live : s.clock.cancelled = false) :
    Asks (.jobStatus ns job) s (awaitCompletion ns job settings s).2 := by
  have asked := lookup_poll_asks (verdictWait settings) (.jobStatus ns job) JobStatus.outcome
    (.statusUnreadable job) shown live
  simp only [awaitCompletion, Bind.bind, Task.bind]
  revert asked
  cases (verdictWait settings).poll _ s with
  | mk ending s₁ => cases ending <;> exact id

end Observe

/-- The observation of a job ends in time, and in one of the known ways. Where a pod was found, its
image could be pulled and the run is not cancelled when the output ends, the status of the job is read
at once. All this if the clock can show when the longest observation would be over. -/
theorem Observe.observed_in_time (ns job : String) (settings : ObserverSettings) {s : Session σ}
    (watched : s.clock.horizon = none)
    (shown : s.clock.Shows (settings.podTimeout + 2 * settings.jobTimeout)) :
    (observeJob ns job settings s).2.clock.now ≤
      s.clock.now + settings.podTimeout + 2 * settings.jobTimeout ∧
    Result ns job settings (observeJob ns job settings s).2 (observeJob ns job settings s).1 ∧
    ∀ pod s₁, awaitPod ns job settings s = (.value pod, s₁) →
      (∀ e, (streamOutput ns pod settings s₁).1 = .error e → e.isImagePull = false) →
      (streamOutput ns pod settings s₁).2.clock.cancelled = false →
      Asks (.jobStatus ns job) (streamOutput ns pod settings s₁).2
        (observeJob ns job settings s).2 := by
  refine ⟨?_, observeJob_result watched shown, fun pod s₁ found pulled live => ?_⟩
  · have inTime : (observeJob ns job settings s).2.clock.now ≤ _ := observeJob_within s
    omega
  · have watched₁ : (awaitPod ns job settings s).2.clock.horizon = none :=
      (awaitPod_onward ns job settings s).horizon.trans watched
    have verdictShown := verdict_shown shown found
    rw [found] at watched₁
    simp only [observeJob, Bind.bind, Task.bind, found]
    revert pulled live verdictShown
    cases streamed : streamOutput ns pod settings s₁ with
    | mk ending s₂ =>
      intro pulled live verdictShown
      rcases streamOutput_ending watched₁ streamed with rfl | ⟨e, _, _, rfl, imagePull, _⟩
      · exact awaitCompletion_asks verdictShown live
      · cases imagePull.symm.trans (pulled e rfl)

/-- The status of a job whose output never ends is read when the time for the output is up. -/
theorem Observe.observed_in_time_endless :
    let s : Session Willing :=
      Willing.start { lasts := fun stage => if stage = .output then none else some 0 }
    let r := observeJob "default" "job" {} s
    r.1 = .value () ∧ r.2.clock.now = Duration.ofSeconds 900 ∧
      r.2.clock.now ≤ Duration.ofSeconds 30 + 2 * Duration.ofSeconds 900 ∧
      ∃ s' : Session Willing, s'.clock.now = Duration.ofSeconds 900 ∧
        Asks (.jobStatus "default" "job") s' r.2 := by
  intro s r
  have observed : observeJob "default" "job" {} s = r := rfl
  have passed : r.1 = .value () := by decide +kernel
  have last : r.2.clock.now = Duration.ofSeconds 900 := by decide +kernel
  have found : (awaitPod "default" "job" {} s).1 = .value "pod" := by decide +kernel
  have endless : let o := streamOutput "default" "pod" {} (awaitPod "default" "job" {} s).2
      o.1 = .value () ∧ o.2.clock.cancelled = false ∧ o.2.clock.now = Duration.ofSeconds 900 := by
    decide +kernel
  generalize arrival : awaitPod "default" "job" {} s = arrived at found endless
  obtain ⟨ending, s₁⟩ := arrived
  cases found
  obtain ⟨printed, live, late⟩ := endless
  have fresh : s.Fresh := Willing.fresh _
  obtain ⟨inTime, _, reads⟩ :=
    observed_in_time "default" "job" {} fresh.watched (by decide +kernel)
  have asked := reads "pod" s₁ arrival (fun e failed => by cases printed.symm.trans failed) live
  rw [observed] at inTime asked
  exact ⟨passed, last, Nat.le_trans inTime (by decide), _, late, asked⟩

end Acceptance
