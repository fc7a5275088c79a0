import Acceptance.Proofs.Removal
import Acceptance.Proofs.Uncancelled

/-!
# What cancellation does to a run

All of a remote run but the removal is its work. If the run is cancelled before its work is done,
the work ends there and then, and otherwise cancellation changes nothing.

* `Run.work`, `Run.Worked`: the work of a run, and the removal after it;
* `Run.work_ends`: work that goes on for ever is work of a run that is never cancelled;
* `Run.Cancelled`, `Run.cancelled_promptly`: how a run goes that is cancelled.
-/

namespace Acceptance

variable {σ α β : Type}

/-- The run will never be cancelled from outside. -/
def Session.Uncancelled (s : Session σ) : Prop := s.clock.cancelTime = none

/-- Whoever looks on for ever sees the task end, or cut short by cancellation; or it waits for ever
in a run that is never cancelled. -/
def Task.Yields (t : Task σ α) : Prop :=
  ∀ s : Session σ, s.clock.horizon = none → (t s).2.clock.horizon = none ∧
    ((t s).1.Over ∨ (t s).1 = .cancelled ∨ (t s).1 = .pending ∧ (t s).2.Uncancelled)

namespace Task.Yields

theorem ofExcept (r : Except Error α) : Yields (σ := σ) (Task.ofExcept r) := fun _ watched =>
  ⟨watched, .inl (Ending.over_ofExcept r)⟩

theorem bind {t : Task σ α} {next : α → Task σ β} (ht : t.Yields) (hn : ∀ a, (next a).Yields) :
    (t >>= next).Yields := by
  intro s watched
  have ended := ht s watched
  simp only [Bind.bind, Task.bind]
  revert ended
  cases t s with
  | mk ending s₁ =>
    rintro ⟨watched₁, finished | rfl | ⟨rfl, never⟩⟩
    · cases ending with
      | value a => exact hn a s₁ watched₁
      | error e => exact ⟨watched₁, .inl trivial⟩
      | cancelled | expired | pending | crashed => exact finished.elim
    · exact ⟨watched₁, .inr (.inl rfl)⟩
    · exact ⟨watched₁, .inr (.inr ⟨rfl, never⟩)⟩

theorem drawPassword : Yields (σ := σ) Task.drawPassword := by
  intro s watched
  unfold Task.drawPassword
  split <;> exact ⟨watched, .inl trivial⟩

variable [Party σ]

theorem ask (call : Call) : Yields (σ := σ) (Task.ask { cancellable := true } call) := by
  intro s watched
  have waited := Clock.awaited { cancellable := true } (Party.react s.party call).1 s.clock
  refine ⟨(Task.ask_horizon _ call s).trans watched, ?_⟩
  simp only [Task.ask, Session.Uncancelled]
  revert waited
  generalize (s.clock.await { cancellable := true } (Party.react s.party call).1).1 = ending
  generalize (s.clock.await { cancellable := true } (Party.react s.party call).1).2 = clock
  intro waited
  cases waited with
  | answered => exact .inl (Ending.over_ofExcept _)
  | expired deadline => cases deadline
  | cancelled => exact .inr (.inl rfl)
  | pending _ _ unending => exact .inr (.inr ⟨rfl, (unending watched).2.2 rfl⟩)

theorem perform (p : Procedure α) : Yields (σ := σ) (p.perform { cancellable := true }) := by
  induction p with
  | done result => exact ofExcept result
  | ask call k ih =>
    intro s watched
    have asked := ask call s watched
    simp only [Procedure.perform]
    revert asked
    cases Task.ask { cancellable := true } call s with
    | mk ending s₁ =>
      rintro ⟨watched₁, finished | rfl | ⟨rfl, never⟩⟩
      · cases ending with
        | value a => exact ih (.ok a) s₁ watched₁
        | error e => exact ih (.error e) s₁ watched₁
        | cancelled | expired | pending | crashed => exact finished.elim
      · exact ⟨watched₁, .inr (.inl rfl)⟩
      · exact ⟨watched₁, .inr (.inr ⟨rfl, never⟩)⟩
  | warn w k ih => exact fun s watched => ih (Task.warn w s).2 watched
  | password k ih => exact drawPassword.bind ih

omit [Party σ] in
/-- What can be cut short by cancellation says so when it ends. -/
theorem withCancel {stage : String} {step : Guard → Task σ α} {doomed : Session σ → Prop}
    (h : (step { cancellable := true }).Yields) :
    (Task.withCancel stage step).Ends Session.Uncancelled doomed := by
  intro s watched
  have ended := h s watched
  unfold Task.withCancel
  split
  · exact ⟨watched, .inl trivial⟩
  · revert ended
    cases step { cancellable := true } s with
    | mk ending s₁ =>
      rintro ⟨watched₁, finished | rfl | ⟨rfl, never⟩⟩
      · cases ending with
        | value | error => exact ⟨watched₁, .inl trivial⟩
        | cancelled | expired | pending | crashed => exact finished.elim
      · exact ⟨watched₁, .inl trivial⟩
      · exact ⟨watched₁, .inr (.inl ⟨rfl, never⟩)⟩

end Task.Yields

namespace Task.Ends

variable {stuck doomed : Session σ → Prop}

theorem pure (a : α) : Ends (σ := σ) stuck doomed (Pure.pure a) := fun _ watched =>
  ⟨watched, .inl trivial⟩

theorem fail (e : Error) : Ends (σ := σ) (α := α) stuck doomed (Task.fail e) := fun _ watched =>
  ⟨watched, .inl trivial⟩

theorem drawBytes (n : Nat) (purpose : String) :
    Ends (σ := σ) stuck doomed (Task.drawBytes n purpose) := by
  intro s watched
  unfold Task.drawBytes
  split <;> exact ⟨watched, .inl trivial⟩

theorem drawNames (stem : String) : Ends (σ := σ) stuck doomed (Task.drawNames stem) :=
  .bind (drawBytes _ _) fun _ => .bind (drawBytes _ _) fun _ => fun _ watched =>
    ⟨watched, .inl trivial⟩

end Task.Ends

namespace Run

variable [Party σ]

/-- Nobody waits for ever for the preparation of a run that is cancelled, and it does not crash. -/
theorem prepare_ends (settings : RunSettings) (image : String) {doomed : Session σ → Prop} :
    (prepare (σ := σ) settings image).Ends Session.Uncancelled doomed := by
  have load : ∀ source, Task.Yields (σ := σ) (loadSite source { cancellable := true }) := by
    intro source
    cases source with
    | cluster site => exact (Task.Yields.ask _).bind fun object => .ofExcept _
    | file path => exact fun s watched => ⟨watched, .inl (Ending.over_ofExcept _)⟩
  refine .bind (Task.Yields.withCancel (load _)) fun site => .bind .ofExcept fun request => ?_
  split
  · exact .fail _
  refine .bind (.drawNames _) fun names => .bind ?_ fun _ => .pure _
  cases request with
  | none => exact .pure _
  | some request => exact .bind (Task.Yields.withCancel (.perform _)) fun _ => .pure _

/-- What a remote run does before the removal. -/
def work (settings : RunSettings) (image : String) : Task σ Unit := do
  let p ← prepare settings image
  runRemote settings image p.names p.config p.credentialsAvailable

/-- Nobody waits for ever for the work of a run that is cancelled. -/
theorem work_ends (settings : RunSettings) (image : String) :
    (work (σ := σ) settings image).Ends Session.Uncancelled
      fun s => ¬ settings.observer.InReach s.clock := by
  refine (prepare_ends settings image).bind fun p => (runRemote_ends settings image _ _ _).mono ?_
  rintro s ⟨_, _, _, _, _, _, never, _⟩
  exact never

theorem work_origin (settings : RunSettings) (image : String) (s : Session σ) :
    (work settings image s).2.clock.origin = s.clock.origin := by
  have prepared : Session.Onward (fun _ => True) s (prepare settings image s).2 :=
    prepare_onward settings image (fun _ _ => trivial) s
  simp only [work, Bind.bind, Task.bind]
  revert prepared
  cases prepare settings image s with
  | mk ending s₁ =>
    intro prepared
    cases ending with
    | value p =>
      have made : Session.Onward (fun _ => True) s₁
          (runRemote settings image p.names p.config p.credentialsAvailable s₁).2 :=
        runRemote_onward settings image _ _ _ trivial (fun _ _ => trivial) trivial
          (fun _ => trivial) trivial s₁
      exact made.origin.trans prepared.origin
    | error | cancelled | expired | pending | crashed => exact prepared.origin

theorem work_prompt (settings : RunSettings) (image : String) :
    (work (σ := σ) settings image).Prompt :=
  (prepare_prompt settings image).bind fun _ => runRemote_prompt settings image _ _ _

end Run

theorem Run.work_follows [P : Party σ] (settings : RunSettings) (image : String) :
    Follows Ending.CutShort (@work σ P settings image) (@work σ P.silent settings image) :=
  (prepare_follows settings image).bind fun _ => runRemote_follows settings image _ _ _

section Removal

variable [Party σ]

namespace Cleanup

theorem asked_attempt (g : Guard) (call : Call) (warning : Error → Warning) (s : Session σ) :
    (attempt g call warning s).2.asked = s.asked ++ [(s.clock.now, call)] ∧
      s.clock.now ≤ (attempt g call warning s).2.clock.now := by
  have asked := Task.asked_ask g call s
  have now_le := Task.now_le_ask g call s
  rw [attempt_eq]
  revert asked now_le
  cases Task.ask g call s with
  | mk ending s₁ => cases ending <;> exact fun asked now_le => ⟨asked, now_le⟩

/-- The calls of a removal are made from its start on. -/
theorem run_asked (ns : String) (names : ResourceNames) (timeout : Nat) (s : Session σ) :
    ∃ calls, (run ns names timeout s).2.asked = s.asked ++ calls ∧
      ∀ x ∈ calls, s.clock.now ≤ x.1 ∧ x.2.stage = .removal := by
  let g : Guard := { deadline := some (s.clock.now + timeout) }
  have first := asked_attempt g (.deleteJob ns names.job) (.jobNotDeleted ns names.job) s
  have deleted : ∃ calls, (deletes g ns names s).2.asked = s.asked ++ calls ∧
      ∀ x ∈ calls, s.clock.now ≤ x.1 ∧ x.2.stage = .removal := by
    simp only [deletes, Bind.bind, Task.bind]
    revert first
    cases attempt g (.deleteJob ns names.job) _ s with
    | mk ending s₁ =>
      rintro ⟨asked, now_le⟩
      cases ending with
      | value =>
        obtain ⟨asked', _⟩ := asked_attempt g (.deleteConfigMap ns names.configMap)
          (.configMapNotDeleted ns names.configMap) s₁
        refine ⟨_, by rw [asked', asked, List.append_assoc], fun x hx => ?_⟩
        rcases List.mem_cons.1 hx with rfl | hx
        · exact ⟨Nat.le_refl _, rfl⟩
        · cases List.mem_singleton.1 hx
          exact ⟨now_le, rfl⟩
      | error | cancelled | expired | pending | crashed =>
        refine ⟨_, asked, fun x hx => ?_⟩
        cases List.mem_singleton.1 hx
        exact ⟨Nat.le_refl _, rfl⟩
  unfold run
  revert deleted
  cases deletes g ns names s with
  | mk ending s₁ => cases ending <;> exact id

end Cleanup

namespace Run

/-- What comes of the work of a run that started in `s`: its result is that of the work, and only
the removal comes after the work, in its own time. -/
structure Worked (settings : RunSettings) (image : String) (s : Session σ) : Prop where
  result : (run settings s).1 = (work settings image s).1.map fun _ => .passed
  removal : ∃ calls, (run settings s).2.asked = (work settings image s).2.asked ++ calls ∧
    ∀ x ∈ calls, (work settings image s).2.clock.now ≤ x.1 ∧ x.2.stage = .removal
  unended : ¬ (work settings image s).1.Over →
    (run settings s).2.asked = (work settings image s).2.asked
  inTime : (run settings s).2.clock.now ≤
    (work settings image s).2.clock.now + settings.cleanupTimeout

theorem worked {settings : RunSettings} {image : String} (remote : settings.mode = .remote image)
    {s : Session σ} (fresh : s.Fresh) : Worked settings image s := by
  have result := run_result remote fresh
  generalize prepared : prepare settings image s = r
  obtain ⟨ending, s₁⟩ := r
  cases ending with
  | value p =>
    obtain ⟨watched, _⟩ := prepared_started fresh prepared
    have watched' := (runRemote_ends settings image p.names p.config p.credentialsAvailable s₁
      watched).1
    have works : work settings image s =
        runRemote settings image p.names p.config p.credentialsAvailable s₁ := by
      simp only [work, Bind.bind, Task.bind, prepared]
    generalize made : runRemote settings image p.names p.config p.credentialsAvailable s₁ = r
      at watched' works
    obtain ⟨ending, s₂⟩ := r
    by_cases finished : ending.Over
    · have ended := run_over remote prepared made finished watched'
      obtain ⟨calls, asked, later⟩ :=
        Cleanup.run_asked settings.namespaceName p.names settings.cleanupTimeout s₂
      have removes := (Cleanup.run_removes settings.namespaceName p.names settings.cleanupTimeout
        watched').2
      refine ⟨result, ?_, ?_, ?_⟩ <;> rw [works, ended]
      · exact ⟨calls, asked, later⟩
      · exact fun unended => absurd finished unended
      · exact removes.inTime
    · have ended := run_unended remote prepared made finished
      refine ⟨result, ?_, ?_, ?_⟩ <;> rw [works, ended]
      · exact ⟨[], (List.append_nil _).symm, nofun⟩
      · exact fun _ => rfl
      · exact Nat.le_add_right _ _
  | error | cancelled | expired | pending | crashed =>
    have ended := run_unprepared remote prepared fun p h => by cases h
    have works : (work settings image s).2 = s₁ := by
      simp only [work, Bind.bind, Task.bind, prepared]
    refine ⟨result, ?_, ?_, ?_⟩ <;> rw [works, ended]
    · exact ⟨[], (List.append_nil _).symm, nofun⟩
    · exact fun _ => rfl
    · exact Nat.le_add_right _ _

end Run

end Removal

namespace Run

variable [P : Party σ]

/-- The work of a run is over when the run is cancelled, or ends then. -/
theorem work_now_le {settings : RunSettings} {image : String}
    (remote : settings.mode = .remote image) {s : Session σ} (fresh : s.Fresh) {t : Nat}
    (cancelled : s.CancelledAt (run settings s).2.asked t) :
    (work settings image s).2.clock.now ≤ t := by
  obtain ⟨new, prompt⟩ := work_prompt settings image s trivial
  obtain ⟨removal, asked, later⟩ := (worked remote fresh).removal
  rw [asked, prompt.asked, fresh.asked, List.nil_append] at cancelled
  have cause := cancelled.cause
  rw [prompt.cancels?_append] at cause
  rcases cause with time | found
  · cases stopped : (work settings image s).2.clock.cancelled with
    | true => exact (prompt.stopped stopped).outside t time
    | false => exact (prompt.live stopped).2.2 t time
  · rcases Option.or_eq_some_iff.1 found with first | ⟨_, removing⟩
    · cases stopped : (work settings image s).2.clock.cancelled with
      | true => exact (prompt.stopped stopped).inside t first
      | false => cases (prompt.live stopped).2.1.symm.trans first
    · obtain ⟨call, hc⟩ := Party.mem_of_cancels? removing
      exact (later _ hc).1

/-- The work of a run does not crash if the clock could show, when the run is cancelled, the ends of
its waits. -/
theorem work_uncrashed {settings : RunSettings} {image : String}
    (remote : settings.mode = .remote image) {s : Session σ} (fresh : s.Fresh) {t : Nat}
    (cancelled : s.CancelledAt (run settings s).2.asked t)
    (reach : settings.observer.InReach { s.clock with now := t }) :
    (work settings image s).1 ≠ .crashed := by
  intro crashed
  have inReach : settings.observer.InReach (work settings image s).2.clock :=
    reach.earlier (work_origin settings image s).symm (work_now_le remote fresh cancelled)
  rcases (work_ends settings image s fresh.watched).2 with finished | ⟨pending, _⟩ | ⟨_, unshown⟩
  · rw [crashed] at finished
    exact finished
  · cases crashed.symm.trans pending
  · exact unshown inReach

/-- A run whose work is never done is not cancelled. -/
theorem over_of_cancelled {settings : RunSettings} {image : String}
    (remote : settings.mode = .remote image) {s : Session σ} (fresh : s.Fresh) {t : Nat}
    (cancelled : s.CancelledAt (run settings s).2.asked t)
    (uncrashed : (work settings image s).1 ≠ .crashed) : (work settings image s).1.Over := by
  obtain ⟨new, prompt⟩ := work_prompt settings image s trivial
  rcases (work_ends settings image s fresh.watched).2 with
    finished | ⟨pending, never⟩ | ⟨crashed, _⟩
  · exact finished
  · have live : (work settings image s).2.clock.cancelled = false := by
      refine Bool.eq_false_iff.2 fun stopped => ?_
      cases (Clock.cancelTime_of_cancelled stopped).symm.trans never
    have asked : (run settings s).2.asked = new := by
      rw [(worked remote fresh).unended (by rw [pending]; exact id), prompt.asked, fresh.asked]
      rfl
    have outside : s.clock.cancelTime = none := (prompt.cancelTime_eq live).symm.trans never
    rw [asked] at cancelled
    rcases cancelled.cause with time | found
    · cases outside.symm.trans time
    · cases (prompt.live live).2.1.symm.trans found
  · exact absurd crashed uncrashed

/-- Work that is given up because the run is cancelled is given up at once. -/
theorem work_now_eq {settings : RunSettings} {image : String}
    (remote : settings.mode = .remote image) {s : Session σ} (fresh : s.Fresh) {t : Nat}
    (cancelled : s.CancelledAt (run settings s).2.asked t)
    (stopped : (work settings image s).2.clock.cancelled = true) :
    (work settings image s).2.clock.now = t := by
  obtain ⟨new, prompt⟩ := work_prompt settings image s trivial
  obtain ⟨removal, asked, later⟩ := (worked remote fresh).removal
  have now_le := work_now_le remote fresh cancelled
  rw [asked, prompt.asked, fresh.asked, List.nil_append] at cancelled
  refine Nat.le_antisymm now_le ?_
  rcases (prompt.stopped stopped).cause with time | found
  · exact cancelled.outside _ time
  · refine cancelled.inside _ ?_
    rw [prompt.cancels?_append, found]
    rfl

/-- How a remote run from `s` goes that is cancelled at `t`. -/
structure Cancelled (settings : RunSettings) (image : String) (s : Session σ) (t : Nat) :
    Prop where
  /-- Its work is done before, with the result of a run that is not cancelled, or is given up
  then. -/
  result : ((work settings image s).1.Over ∧ (work settings image s).2.clock.now ≤ t ∧
      (run settings s).1 = (@run σ P.silent settings s.uncancelled).1) ∨
    ((run settings s).1.Stopped ∧ (work settings image s).2.clock.now = t)
  /-- Only the removal makes calls after that. -/
  removal : ∃ calls, (run settings s).2.asked = (work settings image s).2.asked ++ calls ∧
    ∀ x ∈ calls, x.2.stage = .removal
  inTime : ∀ x ∈ (work settings image s).2.asked, x.1 ≤ t
  /-- The calls of its work are the first that a run makes that is not cancelled. -/
  first : (work settings image s).2.asked <+:
    (@work σ P.silent settings image s.uncancelled).2.asked
  hushed : Party.Hushed s.party s.clock.cancelled
    ((work settings image s).2.asked.map Prod.snd)
  ends : (run settings s).2.clock.now ≤
    (work settings image s).2.clock.now + settings.cleanupTimeout
  /-- A run that is cancelled before its start does nothing. -/
  unstarted : s.clock.cancelled = true → run settings s = (.error (.cancelled "site lookup"), s)

/-- A remote run that is cancelled gives its work up at once, and makes no further calls but those
of the removal. Where its work was done before, cancellation changes nothing about the result. All this
if the clock can show, when the run is cancelled, the ends of waits that start then.

A collaborator cancels the run at the start of a call if at all, and somebody else does so after all
that happens at the same time (see `Reaction`): that a call cancels the run as it is answered, some time
after its start, is not covered. -/
theorem cancelled_promptly {settings : RunSettings} {image : String}
    (remote : settings.mode = .remote image) {s : Session σ} (fresh : s.Fresh) {t : Nat}
    (cancelled : s.CancelledAt (run settings s).2.asked t)
    (reach : settings.observer.InReach { s.clock with now := t }) :
    Cancelled settings image s t := by
  have uncrashed := work_uncrashed remote fresh cancelled reach
  obtain ⟨new, prompt⟩ := work_prompt settings image s trivial
  have worked := worked remote fresh
  have now_le := work_now_le remote fresh cancelled
  have asked : (work settings image s).2.asked = new := by
    rw [prompt.asked, fresh.asked, List.nil_append]
  have follows := (work_follows (P := P) settings image).follows s
  refine ⟨?_, ?_, ?_, ?_, ?_, worked.inTime, fun before => ?_⟩
  · rcases follows with same | ⟨⟨stage, short⟩ | crashed, stopped, _⟩
    · have uncut := @Worked.result σ P.silent settings image s.uncancelled
        (@Run.worked σ P.silent settings image remote s.uncancelled fresh.uncancelled)
      refine .inl ⟨over_of_cancelled remote fresh cancelled uncrashed, now_le, ?_⟩
      rw [worked.result, uncut, same]
    · refine .inr ⟨⟨stage, ?_⟩, work_now_eq remote fresh cancelled stopped⟩
      rw [worked.result, short]
      rfl
    · exact absurd crashed uncrashed
  · obtain ⟨calls, asked, later⟩ := worked.removal
    exact ⟨calls, asked, fun x hx => (later x hx).2⟩
  · intro x hx
    rw [asked] at hx
    exact Nat.le_trans (prompt.times x hx).2 now_le
  · rcases follows with same | ⟨_, _, first⟩
    · exact same.symm ▸ List.prefix_refl _
    · exact first
  · rw [asked]
    exact prompt.hushed
  · have refused : prepare settings image s = (.error (.cancelled "site lookup"), s) := by
      simp only [prepare, Bind.bind, Task.bind, Task.withCancel, if_pos before]
    have unprepared : ∀ p : Prepared, .error (.cancelled "site lookup") ≠ Ending.value p := by simp
    exact run_unprepared remote refused unprepared

/-- A run that is cancelled while its job prints says so, and removes what it made. -/
theorem cancelled_promptly_printing :
    let s : Session Willing :=
      { Willing.start { lasts := fun stage => if stage = .output then none else some 0 } with
        clock := { cancelAt := some 7 } }
    (run Willing.settings s).1 = .error (.cancelled "job completion") ∧
      Cancelled Willing.settings "image" s 7 := by
  intro s
  have reach : Willing.settings.observer.InReach { s.clock with now := 7 } :=
    ⟨by decide +kernel, by decide +kernel⟩
  refine ⟨by decide +kernel, cancelled_promptly rfl ⟨rfl, rfl⟩ ⟨.inl rfl, ?_, ?_⟩ reach⟩
  · intro u time
    cases time
    exact Nat.le_refl _
  · have silent : Party.cancels? s.party (run Willing.settings s).2.asked = none := by
      decide +kernel
    rw [silent]
    exact nofun

end Run

end Acceptance
