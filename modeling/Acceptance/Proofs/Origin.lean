import Acceptance.Proofs.Observation

/-!
# Where an error comes from

A part of a run ends with the error that it has just been answered, or with one that it found itself.

* `Task.Blames`: every error of a task is of one or the other sort, as `bind`, `ask` and the waits
  keep it;
* `Procedure.Blames`: the same, read off the tree of a procedure;
* `Error.Own`: the errors that a remote run finds itself;
* `Run.prepare_blames`, `Run.runRemote_blames`: the parts of a remote run before the removal.
-/

namespace Acceptance

variable {σ α β : Type}

/-- The last thing that happened is that a call was answered with the error. -/
def Session.Refused (s : Session σ) (e : Error) : Prop :=
  ∃ t call earlier, s.events = .answered t call (.error e) :: earlier

theorem Task.ask_refused [Party σ] {g : Guard} {call : Call} {s s' : Session σ} {e : Error}
    (failed : ask g call s = (.error e, s')) : s'.Refused e := by
  obtain ⟨t, t₀, events⟩ := ask_error failed
  exact ⟨t, call, _, events⟩

/-- An error of the task is of the kind `E`, or it is the last answer. -/
def Task.Blames (E : Error → Prop) (t : Task σ α) : Prop :=
  ∀ (s s' : Session σ) (e : Error), t s = (.error e, s') → E e ∨ s'.Refused e

namespace Task.Blames

variable {E : Error → Prop}

theorem pure (a : α) : Blames (σ := σ) E (Pure.pure a) := by rintro s s' e ⟨⟩

theorem fail {e : Error} (own : E e) : Blames (σ := σ) (α := α) E (Task.fail e) := by
  rintro s s' _ ⟨⟩
  exact .inl own

theorem ofExcept {r : Except Error α} (own : ∀ e, r = .error e → E e) :
    Blames (σ := σ) E (Task.ofExcept r) := by
  intro s s' e failed
  cases r with
  | ok a => cases failed
  | error e' =>
    cases failed
    exact .inl (own e rfl)

theorem session : Blames (σ := σ) E Task.session := by rintro s s' e ⟨⟩

theorem bind {t : Task σ α} {next : α → Task σ β} (ht : t.Blames E) (hn : ∀ a, (next a).Blames E) :
    (t >>= next).Blames E := by
  intro s s' e failed
  simp only [Bind.bind, Task.bind] at failed
  cases made : t s with
  | mk ending s₁ =>
    rw [made] at failed
    cases ending with
    | value a => exact hn a s₁ s' e failed
    | error e' =>
      cases failed
      exact ht s s' e made
    | cancelled | expired | pending | crashed => cases failed

theorem withCancel {stage : String} {step : Guard → Task σ α} (own : E (.cancelled stage))
    (hs : (step { cancellable := true }).Blames E) : (Task.withCancel stage step).Blames E := by
  intro s s' e failed
  unfold Task.withCancel at failed
  split at failed
  · cases failed
    exact .inl own
  · split at failed
    · cases failed
      exact .inl own
    · exact hs s s' e failed

theorem drawBytes {n : Nat} {purpose : String} (own : E (.random purpose)) :
    Blames (σ := σ) E (Task.drawBytes n purpose) := by
  intro s s' e failed
  unfold Task.drawBytes at failed
  split at failed <;> cases failed
  exact .inl own

theorem drawPassword (own : E (.random "test user password")) :
    Blames (σ := σ) E Task.drawPassword := by
  intro s s' e failed
  unfold Task.drawPassword at failed
  split at failed <;> cases failed
  exact .inl own

theorem drawNames {stem : String} (own : E (.random "resource name suffix")) :
    Blames (σ := σ) E (Task.drawNames stem) :=
  (drawBytes own).bind fun _ => (drawBytes own).bind fun _ => session.bind fun _ => pure _

variable [Party σ]

theorem ask (g : Guard) (call : Call) : Blames (σ := σ) E (Task.ask g call) :=
  fun _ _ _ failed => .inr (Task.ask_refused failed)

/-- A wait for an answer hands on no error. -/
theorem lookup {w : Wait} {call : Call} {value? : call.Answer → Option α} {warning : Error → Warning}
    (timedOut : E w.timedOut) (wasCancelled : E w.wasCancelled) :
    (w.poll (Observe.lookup (σ := σ) call value? warning)).Blames E := by
  intro s s' e failed
  obtain ⟨new, _, brought⟩ := Wait.brought w call value? warning s
  rw [failed] at brought
  cases brought with
  | nothing _ givesUp => exact .inl (givesUp.failsIn timedOut wasCancelled)

end Task.Blames

namespace Procedure

/-- An error of the procedure is of the kind `E`, or it is the last answer. Before the procedure the
last answer is an error as `last` says. -/
def Blames (E : Error → Prop) : Procedure α → (last : Error → Prop) → Prop
  | done result, last => ∀ e, result = .error e → E e ∨ last e
  | ask _ next, _ => ∀ answer, (next answer).Blames E (answer = .error ·)
  | warn _ next, _ => next.Blames E fun _ => False
  | password next, last => E (.random "test user password") ∧ ∀ p, (next p).Blames E last

namespace Blames

variable {E last last' : Error → Prop}

theorem mono {p : Procedure α} (hp : p.Blames E last) (more : ∀ e, last e → last' e) :
    p.Blames E last' := by
  induction p generalizing last last' with
  | done result => exact fun e same => (hp e same).imp_right (more e)
  | ask | warn => exact hp
  | password k ih => exact ⟨hp.1, fun p => ih p (hp.2 p) more⟩

theorem own {r : Except Error α} (own : ∀ e, r = .error e → E e) : (done r).Blames E last :=
  fun e same => .inl (own e same)

theorem call (c : Call) : (Procedure.call c).Blames E last := fun _ _ => .inr

theorem bind {p : Procedure α} {next : α → Procedure β} (hp : p.Blames E last)
    (hn : ∀ a, (next a).Blames E fun _ => False) : (p >>= next).Blames E last := by
  simp only [Bind.bind]
  induction p generalizing last with
  | done result =>
    cases result with
    | ok a => exact (hn a).mono nofun
    | error e =>
      rintro _ ⟨⟩
      exact hp e rfl
  | ask call k ih => exact fun answer => ih answer (hp answer)
  | warn w k ih => exact ih hp
  | password k ih => exact ⟨hp.1, fun p => ih p (hp.2 p)⟩

variable [Party σ]

theorem perform_from {g : Guard} {p : Procedure α} (hp : p.Blames E last) {s s' : Session σ} {e : Error}
    (refused : ∀ e, last e → s.Refused e) (failed : p.perform g s = (.error e, s')) :
    E e ∨ s'.Refused e := by
  induction p generalizing s last with
  | done result =>
    cases result with
    | ok a => cases failed
    | error e' =>
      cases failed
      exact (hp e rfl).imp_right (refused e)
  | ask call k ih =>
    simp only [perform] at failed
    cases asked : Task.ask g call s with
    | mk ending s₁ =>
      rw [asked] at failed
      cases ending with
      | value a => exact ih (.ok a) (hp _) (fun _ same => by cases same) failed
      | error e' =>
        refine ih (.error e') (hp _) (fun _ same => ?_) failed
        cases same
        exact Task.ask_refused asked
      | cancelled | expired | pending | crashed => cases failed
  | warn w k ih => exact ih hp (fun _ => False.elim) failed
  | password k ih =>
    simp only [perform, Bind.bind, Task.bind, Task.drawPassword] at failed
    cases drawn : Password.generate s.entropy with
    | none =>
      rw [drawn] at failed
      cases failed
      exact .inl hp.1
    | some r =>
      obtain ⟨password, entropy⟩ := r
      rw [drawn] at failed
      have refused' : ∀ e, last e → ({ s with entropy } : Session σ).Refused e := refused
      exact ih password (hp.2 password) refused' failed

/-- A procedure blames its calls when it is carried out. -/
theorem perform {g : Guard} {p : Procedure α} (hp : p.Blames E fun _ => False) :
    (p.perform (σ := σ) g).Blames E :=
  fun _ _ _ => hp.perform_from fun _ => False.elim

end Blames

end Procedure

/-! ## The errors of a run itself -/

/-- The errors that a remote run finds itself: no collaborator has answered with them. -/
inductive Error.Own (settings : RunSettings) : Error → Prop where
  | cancelled (stage : String) : Own settings (.cancelled stage)
  | noPod : Own settings (.timeout "pod creation" settings.observer.podTimeout)
  | noVerdict : Own settings (.timeout "job completion" settings.observer.jobTimeout)
  /-- The verdict is that the job failed. -/
  | failed (job : String) : Own settings (.jobFailed job)
  /-- The cluster has no descriptor of the site that can be read. -/
  | site {object : Json} {e : Error} (unread : Site.ofObject object = .error e) : Own settings e
  | siteFile {files : Files} {path : String} {e : Error}
      (unread : Run.readSiteFile files path = .error e) : Own settings e
  | identity {site : Site} {e : Error} (unfit : Run.identityRequest site settings = .error e) :
      Own settings e
  | noImage : Own settings (.config "remote runs need a test image")
  | noNames : Own settings (.random "resource name suffix")
  | noPassword : Own settings (.random "test user password")
  /-- A secret has no credentials that can be read. -/
  | credentials {ns secret : String} {data : Option SecretData} {e : Error}
      (unread : Credentials.ofSecret ns secret data = .error e) : Own settings e
  /-- The user exists already, but is not found. -/
  | lost (user realm : String) : Own settings (.identityProvider "create user"
      s!"user {user} reported as existing in realm {realm} but not found" none)
  | job {d : JobDescriptor} {e : Error} (rejected : TestJob.compile d settings.job = .error e) :
      Own settings e

section Parts

variable {settings : RunSettings} {r : IdentityRequest} {last : Error → Prop}

theorem readCredentials_blames {ns secret : String} :
    (readCredentials ns secret).Blames (Error.Own settings) last :=
  .bind (.call _) fun _ => .own fun _ => .credentials

namespace Provision

variable {token password : String}

theorem resetExisting_blames :
    (resetExisting r token password).Blames (Error.Own settings) last := by
  refine .bind (.call _) fun found => ?_
  cases found with
  | some user => exact .call _
  | none =>
    refine .own fun e same => ?_
    cases same
    exact .lost _ _

theorem createUser_blames : (createUser r token password).Blames (Error.Own settings) last := by
  intro answer
  cases answer with
  | ok => exact nofun
  | error e =>
    dsimp only
    split
    · exact resetExisting_blames
    · exact fun _ same => .inr same

theorem upsertUser_blames : (upsertUser r token password).Blames (Error.Own settings) last := by
  intro answer
  cases answer with
  | ok found =>
    cases found with
    | some user => exact .call _
    | none => exact createUser_blames
  | error e =>
    have created : (createUser r token password).Blames (Error.Own settings) fun _ => False :=
      createUser_blames
    exact created

theorem ensure_blames : (ensure r).Blames (Error.Own settings) last := by
  refine .bind (.call _) fun there => ?_
  split
  · exact .own nofun
  · refine .bind ?_ fun _ => .own nofun
    refine .bind readCredentials_blames fun admin => .bind (.call _) fun token => ?_
    refine .bind ⟨.noPassword, fun _ => .own nofun⟩ fun password => ?_
    exact .bind upsertUser_blames fun _ => .call _

end Provision

variable [Party σ]

theorem Run.prepare_blames (settings : RunSettings) (image : String) :
    (prepare (σ := σ) settings image).Blames (Error.Own settings) := by
  have load : ∀ source g, (loadSite (σ := σ) source g).Blames (Error.Own settings) := by
    intro source g
    cases source with
    | cluster site => exact (Task.Blames.ask g _).bind fun object => .ofExcept fun _ => .site
    | file path => exact Task.Blames.session.bind fun s => .ofExcept fun _ => .siteFile
  refine .bind (.withCancel (.cancelled _) (load _ _)) fun site => ?_
  refine .bind (.ofExcept fun _ => .identity) fun request => ?_
  split
  · exact .fail .noImage
  refine .bind (.drawNames .noNames) fun names => .bind ?_ fun _ => .pure _
  cases request with
  | none => exact .pure _
  | some request =>
    exact .bind (.withCancel (.cancelled _) Provision.ensure_blames.perform) fun _ => .pure _

namespace Observe

variable {ns job pod : String}

theorem streamOutput_blames {E : Error → Prop} {settings : ObserverSettings} :
    (streamOutput (σ := σ) ns pod settings).Blames E := by
  intro s s' e failed
  by_cases cancelled : s.clock.cancelled = true
  · rw [streamOutput, if_pos cancelled] at failed
    cases failed
  · rw [streamOutput_eq cancelled] at failed
    cases asked : Task.ask _ (.followPodLogs ns pod) s with
    | mk ending s₁ =>
      rw [asked] at failed
      cases ending with
      | error e' =>
        dsimp only [report] at failed
        split at failed
        · cases failed
          exact Task.Blames.ask _ _ s s' e asked
        · cases failed
      | value | cancelled | expired | pending | crashed => cases failed

theorem observeJob_blames :
    (observeJob (σ := σ) ns job settings.observer).Blames (Error.Own settings) := by
  refine .bind (.lookup .noPod (.cancelled _)) fun pod => .bind streamOutput_blames fun _ => ?_
  refine .bind (.lookup .noVerdict (.cancelled _)) fun outcome => .ofExcept fun e same => ?_
  cases outcome <;> cases same
  exact .failed job

end Observe

theorem Run.runRemote_blames (settings : RunSettings) (image : String) (names : ResourceNames)
    (text : String) (available : Bool) :
    (runRemote (σ := σ) settings image names text available).Blames (Error.Own settings) := by
  refine .bind (.withCancel (.cancelled _) (.ask _ _)) fun _ => ?_
  refine .bind (.ofExcept fun _ => .job) fun job => ?_
  exact .bind (.withCancel (.cancelled _) (.ask _ _)) fun _ => Observe.observeJob_blames

end Parts

end Acceptance
