import Acceptance.Proofs.Cleanup
import Acceptance.Proofs.Conditions
import Mathlib.Data.List.Basic

/-!
# The verdict of a run

A remote run passes or fails for one reason only: a read of its job's status that held a verdict.

* `Observe.observed`: how the observation of a job ends;
* `Run.judged`: the same of everything between the preparation of a run and the removal;
* `Run.verdict_read`: what the result of a run says about the reads in its record, and the reverse.
-/

namespace Acceptance

/-- The suite ran as a job of the cluster, and failed. -/
def Error.IsVerdict : Error → Prop
  | .jobFailed _ => True
  | _ => False

/-- The event is a read of some job's status that holds a verdict. -/
def Event.Decides : Event → Prop
  | .answered _ (.jobStatus _ _) (.ok status) => status.outcome ≠ none
  | _ => False

/-- Neither a success nor a verdict. -/
def Ending.Undecided : Ending Unit → Prop
  | .value () => False
  | .error e => ¬ e.IsVerdict
  | _ => True

theorem Event.On.not_decides {Q : Call → Prop} {e : Event} (h : e.On Q)
    (other : ∀ call, Q call → call.stage ≠ .verdict) : ¬ e.Decides := by
  intro decides
  unfold Event.Decides at decides
  split at decides
  · exact other _ h rfl
  · exact decides

theorem Event.brings_of_decides {ns job : String} {e : Event} (h : e.Decides)
    (on : e.On (· = .jobStatus ns job)) :
    ∃ o, e.Brings (.jobStatus ns job) JobStatus.outcome o := by
  unfold Event.Decides at h
  split at h
  · cases on
    obtain ⟨o, ho⟩ := Option.ne_none_iff_exists'.1 h
    exact ⟨o, _, _, rfl, ho⟩
  · exact h.elim

theorem Event.Brings.read {ns job : String} {e : Event} {o : JobOutcome}
    (h : e.Brings (.jobStatus ns job) JobStatus.outcome o) :
    ∃ t status, e = .answered t (.jobStatus ns job) (.ok status) ∧ status.outcome = some o := h

namespace Observe

/-- What the observation of a job adds to the record, and how it ends. -/
inductive Observed (ns job : String) : List Event → Ending Unit → Prop where
  | decided {o : JobOutcome} {t : Nat} {status : JobStatus} {earlier : List Event}
      (verdict : status.outcome = some o) (first : ∀ e ∈ earlier, ¬ e.Decides) :
      Observed ns job (.answered t (.jobStatus ns job) (.ok status) :: earlier)
        (.ofExcept (ofOutcome job o))
  | undecided {new : List Event} {ending : Ending Unit} (never : ∀ e ∈ new, ¬ e.Decides)
      (undecided : ending.Undecided) : Observed ns job new ending

/-- What happened before the observation is no verdict either. -/
theorem Observed.after {ns job : String} {new old : List Event} {ending : Ending Unit}
    (h : Observed ns job new ending) (quiet : ∀ e ∈ old, ¬ e.Decides) :
    Observed ns job (new ++ old) ending := by
  cases h with
  | decided verdict first =>
    exact .decided verdict (List.forall_mem_append.2 ⟨first, quiet⟩)
  | undecided never undecided =>
    exact .undecided (List.forall_mem_append.2 ⟨never, quiet⟩) undecided

variable {σ : Type} [Party σ] {ns job : String} {settings : ObserverSettings}

theorem completion_observed (s : Session σ) :
    ∃ new, (awaitCompletion ns job settings s).2.events = new ++ s.events ∧
      Observed ns job new (awaitCompletion ns job settings s).1 := by
  let check : Check σ JobOutcome :=
    lookup (.jobStatus ns job) JobStatus.outcome (.statusUnreadable job)
  obtain ⟨new, events, brought⟩ := Wait.brought (verdictWait settings) (.jobStatus ns job)
    JobStatus.outcome (.statusUnreadable job) s
  have asks : Task.Confined (· = .jobStatus ns job) (fun _ => True)
      ((verdictWait settings).poll check) :=
    .poll (lookup_confined (F := fun _ _ => True) (fun _ _ _ _ => trivial) rfl) trivial trivial
  have on := (asks s).1.on_of_events events
  simp only [awaitCompletion, Bind.bind, Task.bind]
  revert events brought
  cases (verdictWait settings).poll check s with
  | mk ending s' =>
    intro events brought
    cases brought with
    | found brings first =>
      obtain ⟨t, status, rfl, verdict⟩ := brings.read
      refine ⟨_, events, .decided verdict fun e he decides => ?_⟩
      obtain ⟨o, brings⟩ := Event.brings_of_decides decides (on e (List.mem_cons_of_mem _ he))
      exact first e he o brings
    | nothing never givesUp =>
      have quiet : ∀ e ∈ new, ¬ e.Decides := by
        intro e he decides
        obtain ⟨o, brings⟩ := Event.brings_of_decides decides (on e he)
        exact never e he o brings
      rcases givesUp with rfl | rfl | rfl | rfl
      · exact ⟨new, events, .undecided quiet id⟩
      · exact ⟨new, events, .undecided quiet id⟩
      · exact ⟨new, events, .undecided quiet trivial⟩
      · exact ⟨new, events, .undecided quiet trivial⟩

end Observe

/-- A property of what a task adds to the record and of its ending that holds of everything without
a verdict, and does not mind what happened before. -/
structure Ending.Settles (P : List Event → Ending Unit → Prop) : Prop where
  undecided : ∀ {new ending}, (∀ e ∈ new, ¬ e.Decides) → Ending.Undecided ending → P new ending
  after : ∀ {new old ending}, P new ending → (∀ e ∈ old, ¬ e.Decides) → P (new ++ old) ending

/-- The task asks for no status, and fails without a verdict. -/
def Task.Quiet {σ α : Type} (t : Task σ α) : Prop :=
  t.Confined (fun call => call.stage ≠ .verdict) (fun e => ¬ e.IsVerdict)

/-- What happens before a task does not settle anything. -/
theorem Task.Quiet.settles {σ α : Type} {P : List Event → Ending Unit → Prop} {t : Task σ α}
    {next : α → Task σ Unit} (quiet : t.Quiet) (hP : Ending.Settles P)
    (hn : ∀ a s, ∃ new, (next a s).2.events = new ++ s.events ∧ P new (next a s).1)
    (s : Session σ) :
    ∃ new, ((t >>= next) s).2.events = new ++ s.events ∧ P new ((t >>= next) s).1 := by
  obtain ⟨⟨⟨old, events, on⟩, _, _⟩, fails⟩ := quiet s
  have silent : ∀ e ∈ old, ¬ e.Decides := fun e he => (on e he).not_decides fun _ => id
  simp only [Bind.bind, Task.bind]
  generalize t s = r at events fails ⊢
  cases r with
  | mk ending s' =>
    cases ending with
    | value a =>
      obtain ⟨new, events', settled⟩ := hn a s'
      exact ⟨new ++ old, by rw [events', events, List.append_assoc], hP.after settled silent⟩
    | error e => exact ⟨old, events, hP.undecided silent fails⟩
    | cancelled | expired | pending | crashed => exact ⟨old, events, hP.undecided silent trivial⟩

namespace Observe

variable {σ : Type} [Party σ] {ns job : String} {settings : ObserverSettings}

theorem settles : Ending.Settles (Observed ns job) := ⟨.undecided, .after⟩

variable (honest : Party.Keeps σ fun _ e => ¬ e.IsVerdict)

include honest

theorem observed (ns job : String) (settings : ObserverSettings) (s : Session σ) :
    ∃ new, (observeJob ns job settings s).2.events = new ++ s.events ∧
      Observed ns job new (observeJob ns job settings s).1 := by
  have pod : (awaitPod (σ := σ) ns job settings).Quiet :=
    awaitPod_confined honest nofun (fun _ _ => id) (fun _ => id)
  have output : ∀ pod, (streamOutput (σ := σ) ns pod settings).Quiet := fun _ =>
    streamOutput_confined honest nofun fun _ h _ => h
  exact pod.settles settles (fun p => (output p).settles settles fun _ => completion_observed) s

end Observe

namespace Run

/-- What happens between the preparation of a run and the removal, and how it ends. -/
inductive Judged (ns job : String) : List Event → Ending Unit → Prop where
  | decided {o : JobOutcome} {t t₀ : Nat} {status : JobStatus} {submitted : TestJob}
      {between before : List Event} (name : submitted.name = job)
      (verdict : status.outcome = some o)
      (first : ∀ e ∈ between ++ .answered t₀ (.createJob ns submitted) (.ok ()) :: before,
        ¬ e.Decides) :
      Judged ns job (.answered t (.jobStatus ns job) (.ok status) ::
        (between ++ .answered t₀ (.createJob ns submitted) (.ok ()) :: before))
        (.ofExcept (Observe.ofOutcome job o))
  | undecided {new : List Event} {ending : Ending Unit} (never : ∀ e ∈ new, ¬ e.Decides)
      (undecided : ending.Undecided) : Judged ns job new ending

theorem settles {ns job : String} : Ending.Settles (Judged ns job) where
  undecided := .undecided
  after {new old ending} h quiet := by
    cases h with
    | decided name verdict first =>
      rw [List.cons_append, List.append_assoc, List.cons_append]
      refine .decided name verdict ?_
      rw [← List.cons_append, ← List.append_assoc]
      exact List.forall_mem_append.2 ⟨first, quiet⟩
    | undecided never undecided =>
      exact .undecided (List.forall_mem_append.2 ⟨never, quiet⟩) undecided

/-- The observation of a job that was accepted just before. -/
theorem Judged.of_observed {ns : String} {submitted : TestJob} {t t₀ : Nat} {new : List Event}
    {ending : Ending Unit} (h : Observe.Observed ns submitted.name new ending) :
    Judged ns submitted.name (new ++ [.answered t (.createJob ns submitted) (.ok ()),
      .asked t₀ (.createJob ns submitted)]) ending := by
  have submitting : ∀ e ∈ [Event.answered t (.createJob ns submitted) (.ok ()),
      .asked t₀ (.createJob ns submitted)], ¬ e.Decides := by simp [Event.Decides]
  cases h with
  | decided verdict first =>
    exact .decided rfl verdict (List.forall_mem_append.2 ⟨first, submitting⟩)
  | undecided never undecided =>
    exact .undecided (List.forall_mem_append.2 ⟨never, submitting⟩) undecided

variable {σ : Type} [Party σ] (honest : Party.Keeps σ fun _ e => ¬ e.IsVerdict)

include honest

theorem submission_judged {settings : RunSettings} {submitted : TestJob} {ns job : String}
    (name : submitted.name = job) (s : Session σ) :
    let submission : Task σ Unit := Task.withCancel "job submission" (fun g =>
      Task.ask g (.createJob ns submitted)) >>= fun _ => Observe.observeJob ns job settings.observer
    ∃ new, (submission s).2.events = new ++ s.events ∧ Judged ns job new (submission s).1 := by
  dsimp only
  have quiet : Task.Quiet (σ := σ) (Task.withCancel "job submission" fun g =>
      Task.ask g (.createJob ns submitted)) := .withCancel id (.ask honest nofun fun _ h => h)
  obtain ⟨⟨⟨old, events, on⟩, _, _⟩, fails⟩ := quiet s
  have silent : ∀ e ∈ old, ¬ e.Decides := fun e he => (on e he).not_decides fun _ => id
  simp only [Bind.bind, Task.bind]
  generalize made : Task.withCancel "job submission" _ s = r at events fails ⊢
  obtain ⟨ending, s'⟩ := r
  cases ending with
  | error e => exact ⟨old, events, .undecided silent fails⟩
  | cancelled | expired | pending | crashed => exact ⟨old, events, .undecided silent trivial⟩
  | value a =>
    obtain ⟨t, t₀, accepted⟩ := Task.ask_value (Task.withCancel_value made)
    obtain ⟨new, observed, h⟩ := Observe.observed honest ns job settings.observer s'
    subst name
    exact ⟨new ++ [_, _], by rw [observed, accepted, List.append_assoc]; rfl, .of_observed h⟩

theorem runRemote_judged (settings : RunSettings) (image : String) (names : ResourceNames)
    (config : String) (available : Bool) (s : Session σ) :
    ∃ new, (runRemote settings image names config available s).2.events = new ++ s.events ∧
      Judged settings.namespaceName names.job new
        (runRemote settings image names config available s).1 := by
  have upload : Task.Quiet (σ := σ) (Task.withCancel "config upload" fun g =>
      Task.ask g
        (.applyConfigMap settings.namespaceName names.configMap TestJob.configKey config)) :=
    .withCancel id (.ask honest nofun fun _ h => h)
  refine upload.settles settles (fun _ s => ?_) s
  cases compiled : TestJob.compile (jobDescriptor settings image names available) settings.job with
  | error e =>
    obtain ⟨m, rfl⟩ := TestJob.compile_error compiled
    exact ⟨[], rfl, .undecided (by simp) id⟩
  | ok job => exact submission_judged honest (TestJob.compile_name compiled) s

theorem prepare_quiet (settings : RunSettings) (image : String) :
    Task.Quiet (σ := σ) (prepare settings image) :=
  prepare_confined honest (by rintro call (h | h) <;> simp [h]) (fun _ _ _ => id) (fun _ => id)
    (fun _ => id) (fun _ => id) (fun _ => id) (fun _ => id)

/-- A whole run, told by its record: nothing is decided before the job, and only the removal comes
after it. -/
theorem run_record {settings : RunSettings} {image : String}
    (remote : settings.mode = .remote image) {s : Session σ} (fresh : s.Fresh) :
    ∃ after new before job ending, (run settings s).2.events = after ++ (new ++ before) ∧
      (∀ e ∈ after, e.On (·.stage = .removal)) ∧ (∀ e ∈ before, ¬ e.Decides) ∧
      Judged settings.namespaceName job new ending ∧
      (run settings s).1 = ending.map fun _ => RunOutcome.passed := by
  obtain ⟨⟨⟨before, events, on⟩, _, horizon⟩, fails⟩ := prepare_quiet honest settings image s
  have silent : ∀ e ∈ before, ¬ e.Decides := fun e he => (on e he).not_decides fun _ => id
  rw [fresh.events, List.append_nil] at events
  rw [fresh.watched] at horizon
  generalize prepared : prepare settings image s = r at events horizon fails
  obtain ⟨ending, s₁⟩ := r
  by_cases ready : ∃ p, ending = .value p
  · obtain ⟨p, rfl⟩ := ready
    obtain ⟨new, added, judged⟩ := runRemote_judged honest settings image p.names p.config
      p.credentialsAvailable s₁
    have watched := runRemote_watched settings image p.names p.config p.credentialsAvailable horizon
    generalize made : runRemote settings image p.names p.config p.credentialsAvailable s₁ = r
      at added judged watched
    obtain ⟨ending, s₂⟩ := r
    dsimp only at events added judged watched
    rw [events] at added
    by_cases finished : ending.Over
    · rw [run_over remote prepared made finished watched]
      obtain ⟨after, removal, on⟩ := (Cleanup.run_confined settings.namespaceName p.names
        settings.cleanupTimeout s₂).1.record
      rw [added] at removal
      exact ⟨after, new, before, p.names.job, ending, removal, on, silent, judged, rfl⟩
    · rw [run_unended remote prepared made finished]
      exact ⟨[], new, before, p.names.job, ending, added, by simp, silent, judged, rfl⟩
  · have unready : ∀ p, ending ≠ .value p := fun p h => ready ⟨p, h⟩
    rw [run_unprepared remote prepared unready]
    refine ⟨[], [], before, "", ending.map fun _ => (), events, by simp, silent,
      .undecided (by simp) ?_, ?_⟩
    · cases ending with
      | value p => exact absurd rfl (unready p)
      | error e => exact fails
      | cancelled | expired | pending | crashed => trivial
    · cases ending <;> rfl

end Run

/-- The record shows, the last event first, that `job` was accepted and later read to have the
verdict `o`. -/
def Decided (ns job : String) (o : JobOutcome) (record : List Event) : Prop :=
  ∃ after t status between t₀ submitted before,
    record = after ++ .answered t (.jobStatus ns job) (.ok status) ::
      (between ++ .answered t₀ (.createJob ns submitted) (.ok ()) :: before) ∧
    submitted.name = job ∧ status.Shows o

/-- Where only one entry of a list is of a kind, an entry of the kind is that one. -/
theorem unique_split {α : Type} {P : α → Prop} {l l' r r' : List α} {x y : α}
    (hl : ∀ z ∈ l, ¬ P z) (hr : ∀ z ∈ r, ¬ P z) (hy : P y) (h : l ++ x :: r = l' ++ y :: r') :
    l = l' ∧ x = y ∧ r = r' :=
  (List.append_cons_inj_of_notMem (fun m => hl y m hy) (fun m => hr y m hy)).1 h

namespace Decided

variable {ns job : String} {o : JobOutcome} {record : List Event}

/-- What is decided was read. -/
theorem decides (h : Decided ns job o record) : ∃ e ∈ record, e.Decides := by
  obtain ⟨after, t, status, between, t₀, submitted, before, rfl, _, verdict⟩ := h
  have decides : (Event.answered t (.jobStatus ns job) (.ok status)).Decides := by
    simp [Event.Decides, JobStatus.outcome_eq_some.2 verdict]
  exact ⟨_, by simp, decides⟩

/-- If there is only one read with a verdict, that verdict is the only one. -/
theorem iff_of_unique {after between before : List Event} {t t₀ : Nat} {submitted : TestJob}
    {status : JobStatus} {job' : String} {o' : JobOutcome} (name : submitted.name = job)
    (verdict : status.outcome = some o) (quiet : ∀ e ∈ after, ¬ e.Decides)
    (first : ∀ e ∈ between ++ .answered t₀ (.createJob ns submitted) (.ok ()) :: before,
      ¬ e.Decides) :
    Decided ns job' o' (after ++ .answered t (.jobStatus ns job) (.ok status) ::
      (between ++ .answered t₀ (.createJob ns submitted) (.ok ()) :: before)) ↔
      job' = job ∧ o' = o := by
  constructor
  · rintro ⟨after', t', status', between', t₀', submitted', before', events, _, shows⟩
    have verdict' := JobStatus.outcome_eq_some.2 shows
    have decides : (Event.answered t' (.jobStatus ns job') (.ok status')).Decides := by
      simp [Event.Decides, verdict']
    obtain ⟨_, same, _⟩ := unique_split quiet first decides events
    cases same
    exact ⟨rfl, Option.some.inj (verdict'.symm.trans verdict)⟩
  · rintro ⟨rfl, rfl⟩
    exact ⟨after, t, status, between, t₀, submitted, before, rfl, name,
      JobStatus.outcome_eq_some.1 verdict⟩

end Decided

namespace Run

variable {σ : Type} [Party σ] (honest : Party.Keeps σ fun _ e => ¬ e.IsVerdict)

include honest

/-- A remote run passes, or fails with its job, exactly when its record shows that its job was
accepted and later read to have succeeded, or failed. That read is the first with a verdict, and
only the removal comes after it. -/
theorem verdict_read {settings : RunSettings} {image : String}
    (remote : settings.mode = .remote image) {s : Session σ} (fresh : s.Fresh) :
    let ns := settings.namespaceName
    let record := (run settings s).2.events
    ((run settings s).1 = .value .passed ↔ ∃ job, Decided ns job .succeeded record) ∧
    (∀ job, (run settings s).1 = .error (.jobFailed job) ↔ Decided ns job .failed record) ∧
    ∀ after e before, record = after ++ e :: before → e.Decides →
      (∀ x ∈ before, ¬ x.Decides) ∧ ∀ x ∈ after, x.On (·.stage = .removal) := by
  dsimp only
  obtain ⟨after, new, before, job, ending, events, removal, silent, judged, result⟩ :=
    run_record honest remote fresh
  have quiet : ∀ e ∈ after, ¬ e.Decides := fun e he =>
    (removal e he).not_decides fun call h => by simp [h]
  rw [events, result]
  cases judged with
  | undecided never undecided =>
    -- Nothing in the record decides, so that both sides of each statement are false.
    have none : ∀ e ∈ after ++ (new ++ before), ¬ e.Decides :=
      List.forall_mem_append.2 ⟨quiet, List.forall_mem_append.2 ⟨never, silent⟩⟩
    have open' : ∀ ns job o, ¬ Decided ns job o (after ++ (new ++ before)) := fun ns job o h =>
      h.decides.elim fun e he => none e he.1 he.2
    refine ⟨⟨fun h => ?_, fun ⟨_, h⟩ => absurd h (open' _ _ _)⟩,
      fun _ => ⟨fun h => ?_, fun h => absurd h (open' _ _ _)⟩, fun _ e _ h decides => ?_⟩
    · cases ending <;> cases h
      exact undecided.elim
    · cases ending <;> cases h
      exact absurd trivial undecided
    · exact absurd decides (none e (by simp [h]))
  | decided name verdict first =>
    rename_i o t t₀ status submitted between earlier
    rw [List.cons_append, List.append_assoc, List.cons_append]
    have rest : ∀ e ∈ between ++ .answered t₀ (.createJob settings.namespaceName submitted)
        (.ok ()) :: (earlier ++ before), ¬ e.Decides := by
      rw [← List.cons_append, ← List.append_assoc]
      exact List.forall_mem_append.2 ⟨first, silent⟩
    -- The one read with a verdict settles what the record shows and how the run ends.
    have only : ∀ job' o', Decided settings.namespaceName job' o' _ ↔ job' = job ∧ o' = o :=
      fun _ _ => Decided.iff_of_unique (t := t) name verdict quiet rest
    simp only [only]
    refine ⟨⟨fun h => ?_, fun ⟨job', _, h⟩ => ?_⟩, fun job' => ⟨fun h => ?_, fun ⟨same, h⟩ => ?_⟩,
      fun after' e before' h decides => ?_⟩
    · cases o <;> cases h
      exact ⟨job, rfl, rfl⟩
    · subst h
      rfl
    · cases o <;> cases h
      exact ⟨rfl, rfl⟩
    · subst same h
      rfl
    · obtain ⟨rfl, _, rfl⟩ := unique_split quiet rest decides h
      exact ⟨rest, removal⟩

end Run

/-- Among collaborators that refuse nothing, a run passes because its job was read to have
succeeded. -/
theorem Run.verdict_read_willing :
    let s := Willing.start {}
    (run Willing.settings s).1 = .value .passed ∧
      ∃ job, Decided "default" job .succeeded (run Willing.settings s).2.events := by
  have passed : (run Willing.settings (Willing.start {})).1 = .value .passed := by decide +kernel
  exact ⟨passed, (verdict_read Willing.keeps rfl (Willing.fresh {})).1.1 passed⟩

end Acceptance
