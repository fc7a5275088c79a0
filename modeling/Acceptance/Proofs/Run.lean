import Acceptance.Proofs.Wait
import Acceptance.Run

/-!
# The stages of a run

* `Call.stage`: the stage of a run that a call belongs to;
* `Run.prepare`, `Run.run_eq`: a remote run is its preparation, which changes nothing that has to be
  removed, then the job, then the removal;
* the `_confined` theorems: which calls each part asks, and how it can fail.
-/

namespace Acceptance

/-- The stages of a run, in their order. -/
inductive Stage where
  | lookup
  | identity
  | upload
  | submission
  | arrival
  | output
  | verdict
  | removal
  | suite
  deriving DecidableEq, Repr

def Call.stage : Call → Stage
  | getSite _ => .lookup
  | secretExists .. | getSecret .. | applySecret .. => .identity
  | adminToken .. | findUser .. | createUser .. | resetPassword .. => .identity
  | applyConfigMap .. => .upload
  | createJob .. => .submission
  | findJobPod .. => .arrival
  | followPodLogs .. => .output
  | jobStatus .. => .verdict
  | deleteJob .. | deleteConfigMap .. => .removal
  | runTests _ => .suite

/-- A call about the test user. -/
def Call.OnUser : Call → Prop
  | findUser .. | createUser .. | resetPassword .. => True
  | _ => False

theorem Call.OnUser.stage {call : Call} (h : call.OnUser) : call.stage = .identity := by
  cases call <;> first | rfl | exact h.elim

variable {σ α : Type}

namespace Run

/-- What a remote run knows when it starts to change the cluster. -/
structure Prepared where
  names : ResourceNames
  config : String
  credentialsAvailable : Bool

variable [Party σ]

/-- The part of a remote run before its first resource is made. -/
def prepare (settings : RunSettings) (image : String) : Task σ Prepared := do
  let site ← Task.withCancel "site lookup" (loadSite settings.site)
  let request ← Task.ofExcept (identityRequest site settings)
  if (Text.trimmed image).isEmpty then Task.fail (.config "remote runs need a test image")
  else do
    let names ← Task.drawNames (stem settings)
    let available ← provision request
    pure ⟨names, renderConfig site settings, available⟩

/-- A remote run prepares, runs its job and removes what it made. -/
theorem run_eq {settings : RunSettings} {image : String} (remote : settings.mode = .remote image) :
    run (σ := σ) settings = prepare settings image >>= fun p =>
      cleaningUp settings p.names
        (runRemote settings image p.names p.config p.credentialsAvailable) >>= fun _ =>
          pure .passed := by
  unfold run prepare
  rw [Task.bind_assoc, remote]
  refine congrArg (Bind.bind _) (funext fun site => ?_)
  dsimp only
  unfold execute
  rw [Task.bind_assoc, Task.bind_assoc, remote]
  refine congrArg (Bind.bind _) (funext fun request => ?_)
  dsimp only
  split
  · rfl
  · simp only [Task.bind_assoc]
    rfl

end Run

/-! ## How each part can fail -/

theorem Credentials.entry_error {secret key : String} {data : SecretData} {e : Error}
    (h : entry secret data key = .error e) : ∃ m, e = .config m := by
  unfold entry at h
  split at h
  · cases h; exact ⟨_, rfl⟩
  · cases h; exact ⟨_, rfl⟩
  · cases h

theorem Credentials.ofSecret_error {ns secret : String} {data : Option SecretData} {e : Error}
    (h : ofSecret ns secret data = .error e) : ∃ m, e = .config m := by
  cases data with
  | none => cases h; exact ⟨_, rfl⟩
  | some data =>
    simp only [ofSecret, ofData, Bind.bind, Except.bind] at h
    split at h
    · cases h
      exact entry_error ‹_›
    · split at h
      · cases h
        exact entry_error ‹_›
      · cases h

theorem Site.ofObject_error {object : Json} {e : Error} (h : ofObject object = .error e) :
    ∃ m, e = .config m := by
  unfold ofObject at h
  split at h
  · cases h; exact ⟨_, rfl⟩
  · split at h <;> cases h
    exact ⟨_, rfl⟩

theorem Site.identityProviderUrl_error {site : Site} {given : Option String} {e : Error}
    (h : site.identityProviderUrl given = .error e) : ∃ m, e = .config m := by
  unfold identityProviderUrl at h
  split at h
  · cases h
  · split at h <;> cases h
    exact ⟨_, rfl⟩

theorem Site.checkIdentityProvider_error {site : Site} {e : Error}
    (h : site.checkIdentityProvider = .error e) : ∃ m, e = .config m := by
  unfold checkIdentityProvider at h
  split at h
  · split at h <;> cases h
    exact ⟨_, rfl⟩
  · cases h

theorem TestJob.compile_error {d : JobDescriptor} {settings : JobSettings} {e : Error}
    (h : compile d settings = .error e) : ∃ m, e = .config m := by
  unfold compile at h
  split at h
  · cases h; exact ⟨_, rfl⟩
  · split at h <;> cases h
    exact ⟨_, rfl⟩

/-- A job that is compiled has what its descriptor says, whatever the settings are. -/
theorem TestJob.compile_ok {d : JobDescriptor} {settings : JobSettings} {job : TestJob}
    (h : compile d settings = .ok job) : job = {
      name := d.name
      namespaceName := d.namespaceName
      labels := labelsOf d.name
      deadlineSeconds := deadlineOf d.deadline
      image := d.image
      arguments := TestCommand.arguments configPath d.category
      exported := if d.credentialsAvailable then some (variablesOf d.credentialSecret) else none
      configMap := d.configMap
      settings } := by
  unfold compile at h
  split at h
  · cases h
  · split at h <;> cases h
    rfl

theorem TestJob.compile_name {d : JobDescriptor} {settings : JobSettings} {job : TestJob}
    (h : compile d settings = .ok job) : job.name = d.name := by
  rw [compile_ok h]

namespace Run

theorem readSiteFile_error {files : Files} {path : String} {e : Error}
    (h : readSiteFile files path = .error e) :
    (∃ m, e = .config m) ∨ ∃ m, e = .serialization m := by
  unfold readSiteFile at h
  split at h
  · unfold Site.ofManifest at h
    split at h
    · exact .inl (Site.ofObject_error h)
    · cases h; exact .inr ⟨_, rfl⟩
  · cases h; exact .inl ⟨_, rfl⟩

theorem identityRequest_error {site : Site} {settings : RunSettings} {e : Error}
    (h : identityRequest site settings = .error e) : ∃ m, e = .config m := by
  unfold identityRequest at h
  split at h
  · simp only [Bind.bind, Except.bind] at h
    split at h
    · cases h
      exact Site.checkIdentityProvider_error ‹_›
    · split at h
      · cases h
        exact Site.identityProviderUrl_error ‹_›
      · cases h
  · cases h

/-- A request says what the settings and the site say. -/
theorem identityRequest_some {site : Site} {settings : RunSettings} {request : IdentityRequest}
    (h : identityRequest site settings = .ok (some request)) :
    ∃ url, site.identityProviderUrl settings.identityProviderUrl = .ok url ∧
      request = ⟨settings.namespaceName, settings.adminSecret, settings.credentialSecret, url,
        realm site settings, settings.testUser⟩ := by
  unfold identityRequest at h
  split at h
  · simp only [Bind.bind, Except.bind] at h
    split at h
    · cases h
    · split at h
      · cases h
      · rename_i url found
        cases h
        exact ⟨url, found, rfl⟩
  · cases h

end Run

/-! ## The calls of each part -/

section Confined

variable {Q : Call → Prop} {F : Call → Error → Prop} {E : Error → Prop}

theorem readCredentials_confined {ns secret : String} (identity : Q (.getSecret ns secret))
    (answered : ∀ e, F (.getSecret ns secret) e → E e) (config : ∀ m, E (.config m)) :
    (readCredentials ns secret).Confined Q F E := by
  refine Procedure.Confined.bind (.call identity answered) fun data e h => ?_
  obtain ⟨m, rfl⟩ := Credentials.ofSecret_error h
  exact config m

namespace Provision

variable {r : IdentityRequest}

theorem upsertUser_confined (user : ∀ call : Call, call.OnUser → Q call)
    (answered : ∀ call : Call, call.OnUser → ∀ e, F call e → E e)
    (provider : ∀ m, E (.identityProvider "create user" m none))
    (token password : String) : (upsertUser r token password).Confined Q F E := by
  have reset : ∀ account, (resetPassword r token password account).Confined Q F E := fun account =>
    .call (user (.resetPassword ..) trivial) (answered (.resetPassword ..) trivial)
  have existing : (resetExisting r token password).Confined Q F E := by
    refine Procedure.Confined.bind
      (.call (user (findUser r token) trivial) (answered (findUser r token) trivial)) fun found => ?_
    cases found with
    | some account => exact reset account
    | none => exact fun e h => by cases h; exact provider _
  have create : (createUser r token password).Confined Q F E := by
    refine ⟨user _ trivial, fun answer fails => ?_⟩
    cases answer with
    | ok => exact fun e h => by cases h
    | error e =>
      dsimp only
      split
      · exact existing
      · exact fun e' h => by cases h; exact answered (.createUser ..) trivial _ (fails _ rfl)
  refine ⟨user _ trivial, fun answer _ => ?_⟩
  match answer with
  | .ok (some account) => exact reset account
  | .ok none => exact create
  | .error e => exact create

variable (identity : ∀ call, call.stage = .identity → Q call)
  (answered : ∀ call, call.stage = .identity → ∀ e, F call e → E e)

include identity answered

theorem ensure_confined (config : ∀ m, E (.config m))
    (provider : ∀ m, E (.identityProvider "create user" m none))
    (random : ∀ p, E (.random p)) : (ensure r).Confined Q F E := by
  refine Procedure.Confined.bind (.call (identity _ rfl) (answered _ rfl)) fun found => ?_
  split
  · exact fun e h => by cases h
  · refine Procedure.Confined.bind ?_ fun _ e h => by cases h
    refine .bind (readCredentials_confined (identity _ rfl) (answered _ rfl) config) fun admin => ?_
    refine .bind (.call (identity _ rfl) (answered _ rfl)) fun token => ?_
    refine .bind ⟨random _, fun p e h => by cases h⟩ fun password => ?_
    refine .bind (upsertUser_confined (fun call user => identity call user.stage)
      (fun call user => answered call user.stage) provider token password) fun _ => ?_
    exact .call (identity _ rfl) (answered _ rfl)

end Provision

variable [Party σ] (keeps : Party.Keeps σ F)

include keeps

namespace Run

theorem loadSite_confined {source : SiteSource} {g : Guard} (lookup : ∀ site, Q (.getSite site))
    (answered : ∀ site e, F (.getSite site) e → E e) (config : ∀ m, E (.config m))
    (serialization : ∀ m, E (.serialization m)) :
    Task.Confined (σ := σ) Q E (loadSite source g) := by
  cases source with
  | cluster site =>
    refine .bind (.ask keeps (lookup _) (answered _)) fun object => .ofExcept fun e h => ?_
    obtain ⟨m, rfl⟩ := Site.ofObject_error h
    exact config m
  | file path =>
    refine .bind .session fun s => .ofExcept fun e h => ?_
    rcases readSiteFile_error h with ⟨m, rfl⟩ | ⟨m, rfl⟩
    · exact config m
    · exact serialization m

/-- Before its first resource a run only looks up the site and sees to the test identity. -/
theorem prepare_confined {settings : RunSettings} {image : String}
    (asks : ∀ call, call.stage = .lookup ∨ call.stage = .identity → Q call)
    (answered : ∀ call, call.stage = .lookup ∨ call.stage = .identity → ∀ e, F call e → E e)
    (config : ∀ m, E (.config m)) (serialization : ∀ m, E (.serialization m))
    (provider : ∀ m, E (.identityProvider "create user" m none)) (random : ∀ p, E (.random p))
    (cancelled : ∀ stage, E (.cancelled stage)) :
    Task.Confined (σ := σ) Q E (prepare settings image) := by
  refine .bind (.withCancel (cancelled _) (loadSite_confined keeps (fun _ => asks _ (.inl rfl))
    (fun _ => answered _ (.inl rfl)) config serialization)) fun site => ?_
  refine .bind (.ofExcept fun e h => ?_) fun request => ?_
  · obtain ⟨m, rfl⟩ := identityRequest_error h
    exact config m
  split
  · exact .fail (config _)
  refine .bind (.drawNames (random _)) fun names => ?_
  refine .bind ?_ fun _ => .pure _
  cases request with
  | none => exact .pure _
  | some request =>
    refine .bind (.withCancel (cancelled _) ?_) fun _ => .pure _
    exact (Provision.ensure_confined (fun _ h => asks _ (.inr h)) (fun _ h => answered _ (.inr h))
      config provider random).perform keeps

end Run

namespace Observe

theorem awaitPod_confined {ns job : String} {settings : ObserverSettings}
    (arrival : Q (.findJobPod ns job)) (timeout : ∀ stage d, E (.timeout stage d))
    (cancelled : ∀ stage, E (.cancelled stage)) :
    Task.Confined (σ := σ) Q E (awaitPod ns job settings) :=
  .poll (lookup_confined keeps arrival) (timeout _ _) (cancelled _)

theorem streamOutput_confined {ns pod : String} {settings : ObserverSettings}
    (output : Q (.followPodLogs ns pod))
    (answered : ∀ e, F (.followPodLogs ns pod) e → e.isImagePull → E e) :
    Task.Confined (σ := σ) Q E (streamOutput ns pod settings) := by
  intro s
  unfold streamOutput
  split
  · exact ⟨.warn _ s, trivial⟩
  · have asked := Task.Confined.ask (E := F (.followPodLogs ns pod))
      (g := ⟨true, some (s.clock.now + settings.jobTimeout)⟩) keeps output (fun _ => id) s
    revert asked
    dsimp only
    cases Task.ask _ (.followPodLogs ns pod) s with
    | mk ending s' =>
      have warned : ∀ w, Session.Onward Q s s' →
          Session.Onward Q s (Task.warn w s').2 ∧ (Task.warn w s').1.FailsIn E :=
        fun w onward => ⟨onward.trans (.warn w s'), trivial⟩
      cases ending with
      | error e =>
        intro asked
        dsimp only
        split
        · exact ⟨asked.1, answered e asked.2 ‹_›⟩
        · exact warned _ asked.1
      | cancelled | expired => exact fun asked => warned _ asked.1
      | value | pending | crashed => exact fun asked => ⟨asked.1, trivial⟩

theorem awaitCompletion_confined {ns job : String} {settings : ObserverSettings}
    (verdict : Q (.jobStatus ns job)) (timeout : ∀ stage d, E (.timeout stage d))
    (cancelled : ∀ stage, E (.cancelled stage)) (failed : E (.jobFailed job)) :
    Task.Confined (σ := σ) Q E (awaitCompletion ns job settings) := by
  refine .bind (.poll (lookup_confined keeps verdict) (timeout _ _) (cancelled _)) fun outcome =>
    .ofExcept fun e h => ?_
  cases outcome <;> cases h
  exact failed

theorem observeJob_confined {ns job : String} {settings : ObserverSettings}
    (arrival : Q (.findJobPod ns job)) (output : ∀ pod, Q (.followPodLogs ns pod))
    (verdict : Q (.jobStatus ns job))
    (answered : ∀ pod e, F (.followPodLogs ns pod) e → e.isImagePull → E e)
    (timeout : ∀ stage d, E (.timeout stage d)) (cancelled : ∀ stage, E (.cancelled stage))
    (failed : E (.jobFailed job)) : Task.Confined (σ := σ) Q E (observeJob ns job settings) := by
  refine .bind (awaitPod_confined keeps arrival timeout cancelled) fun pod => ?_
  refine .bind (streamOutput_confined keeps (output pod) (answered pod)) fun _ => ?_
  exact awaitCompletion_confined keeps verdict timeout cancelled failed

end Observe

/-- Between its preparation and the removal a run publishes its configuration, submits its job and
observes it. -/
theorem Run.runRemote_confined {settings : RunSettings} {image text : String}
    {names : ResourceNames} {available : Bool}
    (upload : Q (.applyConfigMap settings.namespaceName names.configMap TestJob.configKey text))
    (submission : ∀ job, TestJob.compile (jobDescriptor settings image names available) settings.job
      = .ok job → Q (.createJob settings.namespaceName job))
    (arrival : Q (.findJobPod settings.namespaceName names.job))
    (output : ∀ pod, Q (.followPodLogs settings.namespaceName pod))
    (verdict : Q (.jobStatus settings.namespaceName names.job))
    (answered : ∀ call, call.stage = .upload ∨ call.stage = .submission ∨ call.stage = .output →
      ∀ e, F call e → E e)
    (rejected : ∀ e, TestJob.compile (jobDescriptor settings image names available) settings.job
      = .error e → E e) (timeout : ∀ stage d, E (.timeout stage d))
    (cancelled : ∀ stage, E (.cancelled stage)) (failed : E (.jobFailed names.job)) :
    Task.Confined (σ := σ) Q E (runRemote settings image names text available) := by
  refine .bind (.withCancel (cancelled _) (.ask keeps upload (answered _ (.inl rfl)))) fun _ => ?_
  refine .bind_ofExcept rejected fun job compiled => ?_
  refine .bind (.withCancel (cancelled _) (.ask keeps (submission job compiled)
    (answered _ (.inr (.inl rfl))))) fun _ => ?_
  exact Observe.observeJob_confined keeps arrival output verdict
    (fun pod e h _ => answered _ (.inr (.inr rfl)) e h) timeout cancelled failed

end Confined

namespace Run

variable [Party σ] {Q : Call → Prop} (settings : RunSettings) (image : String)

/-- What the preparation asks, however it ends. -/
theorem prepare_onward (asks : ∀ call, call.stage = .lookup ∨ call.stage = .identity → Q call)
    (s : Session σ) : Session.Onward Q s (prepare settings image s).2 := by
  have confined : Task.Confined (σ := σ) Q (fun _ => True) (prepare settings image) :=
    prepare_confined (F := fun _ _ => True) (fun _ _ _ _ => trivial) asks (fun _ _ _ => id)
      (fun _ => trivial) (fun _ => trivial) (fun _ => trivial) (fun _ => trivial) (fun _ => trivial)
  exact (confined s).1

variable (names : ResourceNames) (text : String) (available : Bool)

/-- What comes between the preparation and the removal asks, however it ends. -/
theorem runRemote_onward
    (upload : Q (.applyConfigMap settings.namespaceName names.configMap TestJob.configKey text))
    (submission : ∀ job : TestJob, job.name = names.job → Q (.createJob settings.namespaceName job))
    (arrival : Q (.findJobPod settings.namespaceName names.job))
    (output : ∀ pod, Q (.followPodLogs settings.namespaceName pod))
    (verdict : Q (.jobStatus settings.namespaceName names.job)) (s : Session σ) :
    Session.Onward Q s (runRemote settings image names text available s).2 := by
  have confined : Task.Confined (σ := σ) Q (fun _ => True)
      (runRemote settings image names text available) :=
    runRemote_confined (F := fun _ _ => True) (fun _ _ _ _ => trivial) upload
      (fun job compiled => submission job (TestJob.compile_name compiled)) arrival output verdict
      (fun _ _ _ => id) (fun _ _ => trivial) (fun _ _ => trivial) (fun _ => trivial) trivial
  exact (confined s).1

/-- Who looks on for ever does so all through the job. -/
theorem runRemote_watched {s : Session σ} (watched : s.clock.horizon = none) :
    (runRemote settings image names text available s).2.clock.horizon = none := by
  have onward : Session.Onward (fun _ => True) s
      (runRemote settings image names text available s).2 :=
    runRemote_onward settings image names text available trivial (fun _ _ => trivial) trivial
      (fun _ => trivial) trivial s
  exact onward.horizon.trans watched

end Run

/-! ## Collaborators that do what they are asked -/

/-- Collaborators that refuse nothing, and take as long as the stage of the run says. -/
structure Willing where
  lasts : Stage → Option Nat := fun _ => some 0

namespace Willing

/-- The suite runs in a pod, and passes. -/
def answer : (call : Call) → call.Answer
  | .getSite _ => .object [("spec", .object [])]
  | .applyConfigMap .. | .applySecret .. | .createJob .. | .followPodLogs .. => ()
  | .secretExists .. => false
  | .getSecret .. => some (Credentials.toData ⟨"admin", "secret"⟩)
  | .findJobPod .. => some "pod"
  | .jobStatus .. => ⟨.true, .unknown⟩
  | .deleteJob .. | .deleteConfigMap .. => ()
  | .adminToken .. => "token"
  | .findUser .. => none
  | .createUser .. | .resetPassword .. | .runTests _ => ()

instance : Party Willing where
  react p call := ({ answer := .ok (answer call), lasts := p.lasts call.stage }, p)

theorem keeps {F : Call → Error → Prop} : Party.Keeps Willing F := fun _ _ _ h => by cases h

/-- A remote run for a site without an identity provider. -/
def settings : RunSettings where
  deployment := "site"
  site := .cluster ⟨"vip.dev/v1", "Site", "site", "sites"⟩
  mode := .remote "image"

/-- The start of a run among them. -/
def start (p : Willing) : Session Willing where
  party := p
  entropy := List.replicate (2 * tokenBytes) 0

theorem fresh (p : Willing) : p.start.Fresh := ⟨rfl, rfl⟩

end Willing

end Acceptance
