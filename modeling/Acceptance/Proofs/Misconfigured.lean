import Acceptance.Proofs.Removal

/-!
# Errors in the configuration

A run whose configuration is wrong ends before it has changed anything.

* `Task.Spares`: a task that asks only harmless calls where it fails in a certain way;
* `Run.prepare_spares`: the preparation of a run changes nothing where the configuration is wrong;
* `Run.compile_of_prepared`: a run that got ready never fails to compile its job;
* `Run.untouched_of_config`: a remote run that ends with an error in the configuration has changed
  nothing.
-/

namespace Acceptance

/-- An error in the configuration. -/
def Error.OfConfig (e : Error) : Prop := e.errorClass = .configuration

namespace Call

/-- A call that changes something at the cluster or at the identity provider. -/
def Changes : Call → Prop
  | applySecret .. | createUser .. | resetPassword .. => True
  | applyConfigMap .. | createJob .. | deleteJob .. | deleteConfigMap .. => True
  | _ => False

/-- A call that reads what an operator has set up. -/
def ReadsConfig : Call → Prop
  | getSite _ | getSecret .. | adminToken .. => True
  | _ => False

theorem ReadsConfig.stage {call : Call} (h : call.ReadsConfig) :
    call.stage = .lookup ∨ call.stage = .identity := by
  cases call <;> first | exact .inl rfl | exact .inr rfl | exact h.elim

end Call

variable {σ α β : Type}

/-- Only calls that read the configuration may be answered with an error in it. -/
def Party.Configured (σ : Type) [Party σ] : Prop :=
  Party.Keeps σ fun call e => e.OfConfig → call.ReadsConfig

/-! ## Tasks that fail before they change anything -/

/-- If the task fails with an error of the kind `E`, it has asked only calls of the kind `Q`. -/
def Task.Spares (Q : Call → Prop) (E : Error → Prop) (t : Task σ α) : Prop :=
  ∀ s e, (t s).1 = .error e → E e → Session.Onward Q s (t s).2

namespace Task

variable {Q R : Call → Prop} {E K : Error → Prop} {t : Task σ α} {next : α → Task σ β}

/-- A task that asks no other calls at all. -/
theorem Confined.spares (h : t.Confined Q K) : t.Spares Q E := fun s _ _ _ => (h s).1

/-- A task that does not fail in this way at all. -/
theorem Confined.spares_of_not (h : t.Confined R fun e => ¬ E e) : t.Spares Q E := by
  intro s e failed he
  have fails := (h s).2
  rw [failed] at fails
  exact absurd he fails

namespace Spares

/-- What is harmless may come first. -/
theorem after (ht : t.Confined Q K) (hn : ∀ a, (next a).Spares Q E) :
    (t >>= next).Spares Q E := by
  intro s e
  have first := (ht s).1
  simp only [Bind.bind, Task.bind]
  revert first
  cases t s with
  | mk ending s₁ =>
    intro first
    cases ending with
    | value a => exact fun failed he => first.trans (hn a s₁ e failed he)
    | error | cancelled | expired | pending | crashed => exact fun _ _ => first

/-- What does not fail in this way may come last. -/
theorem before (ht : t.Spares Q E) (hn : ∀ a s s', t s = (.value a, s') →
    ((next a s').1).FailsIn fun e => ¬ E e) : (t >>= next).Spares Q E := by
  intro s e
  have first := ht s e
  have last := fun a s' => hn a s s'
  simp only [Bind.bind, Task.bind]
  revert first last
  cases t s with
  | mk ending s₁ =>
    intro first last
    cases ending with
    | value a =>
      intro failed he
      have fails := last a s₁ rfl
      rw [failed] at fails
      exact absurd he fails
    | error e' =>
      intro failed
      cases failed
      exact first rfl
    | cancelled | expired | pending | crashed =>
      intro failed
      cases failed

theorem withCancel {stage : String} {step : Guard → Task σ α} (cancelled : ¬ E (.cancelled stage))
    (hs : (step { cancellable := true }).Spares Q E) :
    (Task.withCancel stage step).Spares Q E := by
  intro s e failed he
  by_cases stopped : s.clock.cancelled = true
  · rw [withCancel_barred stopped]
    exact .refl s
  · rw [withCancel_session stopped]
    apply hs s e ?_ he
    unfold Task.withCancel at failed
    rw [if_neg stopped] at failed
    revert failed
    cases step { cancellable := true } s with
    | mk ending s₁ =>
      cases ending with
      | cancelled =>
        intro failed
        cases failed
        exact absurd he cancelled
      | value | error | expired | pending | crashed => exact id

end Spares

end Task

variable [Party σ]

/-- What a procedure asks when it is carried out, whatever comes of it. -/
theorem Procedure.Confined.asks {Q : Call → Prop} {p : Procedure α} {g : Guard}
    (h : p.Confined Q (fun _ _ => True) fun _ => True) :
    Task.Confined (σ := σ) Q (fun _ => True) (p.perform g) :=
  h.perform fun _ _ _ _ => trivial

namespace Provision

/-- Once it reads no more, provisioning does not find anything wrong with the configuration. -/
theorem write_configured (configured : Party.Configured σ) (r : IdentityRequest)
    (token password : String) (g : Guard) :
    Task.Confined (σ := σ) (fun _ => True) (fun e => ¬ e.OfConfig)
      ((upsertUser r token password >>= fun _ => .call (.applySecret r.namespaceName
        r.credentialSecret (Credentials.toData ⟨r.username, password⟩))).perform g) := by
  have user : (upsertUser r token password).Confined (fun _ => True)
      (fun call e => e.OfConfig → call.ReadsConfig) (fun e => ¬ e.OfConfig) := by
    apply upsertUser_confined
    · exact fun _ _ => trivial
    · intro call user e reads config
      have read := reads config
      cases call <;> first | exact user | exact read
    · exact fun m h => by cases h
  have write : (Procedure.call (.applySecret r.namespaceName r.credentialSecret
      (Credentials.toData ⟨r.username, password⟩))).Confined (fun _ => True)
      (fun call e => e.OfConfig → call.ReadsConfig) (fun e => ¬ e.OfConfig) :=
    .call trivial fun e reads config => reads config
  exact (user.bind fun _ => write).perform configured

theorem ensure_spares (configured : Party.Configured σ) (r : IdentityRequest) (g : Guard) :
    ((ensure r).perform (σ := σ) g).Spares (fun call => ¬ call.Changes) Error.OfConfig := by
  have reading : ∀ call : Call, ¬ call.Changes → (Procedure.call call).Confined
      (fun call => ¬ call.Changes) (fun _ _ => True) fun _ => True :=
    fun call harmless => .call harmless fun _ _ => trivial
  rw [ensure, Procedure.perform_bind]
  apply Task.Spares.after (reading _ id).asks
  intro found
  split
  · exact (Task.Confined.pure (E := fun _ => True) false).spares
  rw [Procedure.perform_bind]
  apply Task.Spares.before
  · rw [create, Procedure.perform_bind]
    apply Task.Spares.after (readCredentials_confined id (fun _ _ => trivial) fun _ => trivial).asks
    intro admin
    rw [Procedure.perform_bind]
    apply Task.Spares.after (reading _ id).asks
    intro token
    rw [Procedure.perform_bind]
    apply Task.Spares.after (K := fun _ => True) (Task.Confined.drawPassword trivial |>.bind
      fun _ => .pure _)
    intro password
    exact (write_configured configured r token password g).spares_of_not
  · exact fun _ _ _ _ => trivial

end Provision

namespace Run

variable {settings : RunSettings} {image : String}

theorem loadSite_asks (source : SiteSource) (g : Guard) :
    Task.Confined (σ := σ) (fun call => ¬ call.Changes) (fun _ => True) (loadSite source g) :=
  loadSite_confined (F := fun _ _ => True) (fun _ _ _ _ => trivial) (fun _ => id)
    (fun _ _ _ => trivial) (fun _ => trivial) fun _ => trivial

/-- Whatever is wrong with the configuration is found by a run before it changes anything. -/
theorem prepare_spares (configured : Party.Configured σ) (settings : RunSettings)
    (image : String) : (prepare (σ := σ) settings image).Spares (fun call => ¬ call.Changes)
      Error.OfConfig := by
  apply Task.Spares.after (Task.Confined.withCancel trivial (loadSite_asks _ _))
  intro site
  apply Task.Spares.after (Task.Confined.ofExcept (E := fun _ => True) fun _ _ => trivial)
  intro request
  split
  · exact (Task.Confined.fail (E := fun _ => True) trivial).spares
  apply Task.Spares.after (Task.Confined.drawNames (E := fun _ => True) trivial)
  intro names
  apply Task.Spares.before
  · cases request with
    | none => exact (Task.Confined.pure (E := fun _ => True) false).spares
    | some request =>
      apply Task.Spares.before
      · exact .withCancel nofun (Provision.ensure_spares configured request _)
      · exact fun _ _ _ _ => trivial
  · exact fun _ _ _ _ => trivial

end Run

/-! ## Errors that come too late to happen -/

theorem isEmpty_uniqueName (stem role : String) (timestamp : Int) (token : String) :
    (uniqueName stem role timestamp token).isEmpty = false := by
  have tail : nameTail role timestamp token ≠ "" := by
    intro empty
    have joined : role ++ "-" ++ toString timestamp ++ "-" ++ token = "" := empty
    simp at joined
  have named : uniqueName stem role timestamp token ≠ "" := by
    unfold uniqueName
    dsimp only
    split
    · exact tail
    · simp [tail]
  simpa [String.isEmpty_iff] using named

namespace Run

variable {settings : RunSettings} {image : String}

theorem image_of_prepared {s s' : Session σ} {p : Prepared}
    (h : prepare settings image s = (.value p, s')) : (Text.trimmed image).isEmpty = false := by
  obtain ⟨site, s₁, _, h⟩ := Task.bind_value h
  obtain ⟨request, s₂, _, h⟩ := Task.bind_value h
  split at h
  · cases h
  · exact Bool.eq_false_iff.2 ‹_›

/-- A job has a name and an image, so that it compiles. -/
theorem compile_of_prepared {s s' : Session σ} {p : Prepared}
    (h : prepare settings image s = (.value p, s')) : ∃ job, TestJob.compile
      (jobDescriptor settings image p.names p.credentialsAvailable) settings.job = .ok job := by
  obtain ⟨t, names⟩ := prepare_names h
  have named : p.names.job.isEmpty = false := by
    rw [names]
    exact isEmpty_uniqueName _ _ _ _
  have imaged := image_of_prepared h
  simp [TestJob.compile, jobDescriptor, named, imaged]

/-- Once a run got ready, nothing is wrong with its configuration. -/
theorem cleaningUp_configured (configured : Party.Configured σ) {s s' : Session σ} {p : Prepared}
    (h : prepare settings image s = (.value p, s')) :
    Task.Confined (σ := σ) (fun _ => True) (fun e => ¬ e.OfConfig) (cleaningUp settings p.names
      (runRemote settings image p.names p.config p.credentialsAvailable)) := by
  obtain ⟨job, compiled⟩ := compile_of_prepared h
  refine cleaningUp_confined (runRemote_confined configured trivial (fun _ _ => trivial) trivial
    (fun _ => trivial) trivial ?_ ?_ nofun nofun nofun) fun _ _ => trivial
  · intro call made e reads config
    have stage := (reads config).stage
    rcases made with made | made | made <;> simp [made] at stage
  · intro e rejected
    cases compiled.symm.trans rejected

end Run

/-- A remote run that ends with an error in the configuration has changed nothing, where only calls
that read the configuration may be answered with such an error; and a run that got ready has a job
that compiles. -/
theorem Run.untouched_of_config (configured : Party.Configured σ) {settings : RunSettings}
    {image : String} (remote : settings.mode = .remote image) (s : Session σ) :
    (∀ m, (run settings s).1 = .error (.config m) → ∃ calls,
      (run settings s).2.started = s.started ++ calls ∧ ∀ call ∈ calls, ¬ call.Changes) ∧
    ∀ p s₁, prepare settings image s = (.value p, s₁) → ∃ job, TestJob.compile
      (jobDescriptor settings image p.names p.credentialsAvailable) settings.job = .ok job := by
  constructor
  · intro m failed
    have spares : (run (σ := σ) settings).Spares (fun call => ¬ call.Changes) Error.OfConfig := by
      rw [run_eq remote]
      apply Task.Spares.before (prepare_spares configured settings image)
      intro p s₁ s₂ prepared
      have rest := (cleaningUp_configured configured prepared).bind
        fun _ => Task.Confined.pure RunOutcome.passed
      exact (rest s₂).2
    exact (spares s (.config m) failed rfl).started
  · intro p s₁ prepared
    exact compile_of_prepared prepared

/-- Collaborators of a site whose identity provider does not know the administrator. -/
structure Unready where
  deriving DecidableEq

namespace Unready

instance : Party Unready where
  react p
    | .getSite _ => ({ answer := .ok (.object [("spec", .object [("domain", .string "example.org"),
        ("auth", .object [("enabled", .bool true)])])]) }, p)
    | .adminToken .. => ({ answer := .error (.config "unknown administrator") }, p)
    | call => ({ answer := .ok (Willing.answer call) }, p)

theorem configured : Party.Configured Unready := by
  intro p call e h config
  cases call <;> trivial

def start : Session Unready where
  party := {}
  entropy := List.replicate (2 * tokenBytes) 0

end Unready

/-- A run that is turned down as an administrator has read, and no more. -/
theorem Run.untouched_of_config_unready :
    let ended := run Willing.settings Unready.start
    ended.1 = .error (.config "unknown administrator") ∧ ended.2.started.length = 4 ∧
      ∃ calls, ended.2.started = Unready.start.started ++ calls ∧ ∀ call ∈ calls, ¬ call.Changes := by
  have failed : (run Willing.settings Unready.start).1 =
      .error (.config "unknown administrator") := by decide +kernel
  have length : (run Willing.settings Unready.start).2.started.length = 4 := by decide +kernel
  exact ⟨failed, length, (untouched_of_config Unready.configured rfl _).1 _ failed⟩

end Acceptance
