import Acceptance.Proofs.Manifest
import Acceptance.Proofs.Turns
import Acceptance.Proofs.Uncancelled

/-!
# The order of a run

A remote run goes through its stages in one order, and comes to a stage only after the one before
has given what it needs. All that it makes, watches and removes goes by the names that it drew.

* `Observe.Observation`: the turns in which a job is observed;
* `Run.Stages`, `Run.InOrder`: the turns of a remote run, and what holds of each of its stages;
* `Run.in_order`: every remote run goes so, wherever it ends.
-/

namespace Acceptance

variable {σ α β : Type}

/-- Only calls of the kind `Q` were made. -/
def Turn.Only (Q : Call → Prop) (turns : List Turn) : Prop := ∀ x ∈ turns, Q x.call

namespace Turn.Only

variable {Q R : Call → Prop} {turns turns' : List Turn}

theorem nil : Only Q [] := List.forall_mem_nil _

theorem one {x : Turn} (h : Q x.call) : Only Q [x] := List.forall_mem_singleton.2 h

theorem append (h : Only Q turns) (h' : Only Q turns') : Only Q (turns ++ turns') :=
  List.forall_mem_append.2 ⟨h, h'⟩

theorem mono (weaker : ∀ call, Q call → R call) (h : Only Q turns) : Only R turns :=
  fun x hx => weaker _ (h x hx)

end Turn.Only

/-- At most one call was made, and it is of the kind `Q`. -/
structure Turn.Once (Q : Call → Prop) (turns : List Turn) : Prop where
  only : Turn.Only Q turns
  once : turns.length ≤ 1

namespace Turn.Once

variable {Q R : Call → Prop}

theorem nil : Once Q [] := ⟨.nil, Nat.zero_le _⟩

theorem one {x : Turn} (h : Q x.call) : Once Q [x] := ⟨.one h, Nat.le_refl _⟩

theorem mono {turns : List Turn} (weaker : ∀ call, Q call → R call) (h : Once Q turns) :
    Once R turns := ⟨h.only.mono weaker, h.once⟩

end Turn.Once

namespace Task.Does

variable {s : Session σ} {Q : Call → Prop}

/-- Two tasks keep to the calls that each keeps to. -/
theorem bind_only {t : Task σ α} {next : α → Task σ β} (ht : t.Does s fun new _ => Turn.Only Q new)
    (hn : ∀ a s', (next a).Does s' fun new _ => Turn.Only Q new) :
    (t >>= next).Does s fun new _ => Turn.Only Q new := by
  refine (ht.bind hn).mono fun new o course => ?_
  cases course with
  | both _ first second => exact first.append second
  | first only => exact only

/-- Two tasks that the record does not show. -/
theorem bind_still {t : Task σ α} {next : α → Task σ β} (ht : t.Does s fun new _ => new = [])
    (hn : ∀ a s', (next a).Does s' fun new _ => new = []) :
    (t >>= next).Does s fun new _ => new = [] := by
  refine (ht.bind hn).mono ?_
  rintro new o (⟨_, rfl, rfl⟩ | rfl)
  · rfl
  · rfl

/-- Another value in the place of that of a task. -/
theorem bind_pure {P : List Turn → Prop} {t : Task σ α} (ht : t.Does s fun new _ => P new) (b : β) :
    (t >>= fun _ => Pure.pure b).Does s fun new _ => P new := by
  refine (ht.bind fun _ s' => .pure b s').mono ?_
  rintro new o (⟨_, shape, rfl, _⟩ | shape)
  · exact (List.append_nil _).symm ▸ shape
  · exact shape

end Task.Does

/-- A call that is not made if the run is cancelled, and has a value only if that is its answer. -/
theorem Task.Does.callOnce [Party σ] (stage : String) (call : Call) (s : Session σ) :
    (Task.withCancel stage fun g => Task.ask g call).Does s fun new o =>
      Turn.Once (· = call) new ∧ (o ≠ none → ∃ y ∈ new, y.Ok) := by
  refine (Task.Does.ask { cancellable := true } call s).withCancel.mono ?_
  rintro new o (⟨answer, rfl, given⟩ | ⟨rfl, rfl⟩)
  · refine ⟨.one rfl, fun value => ?_⟩
    obtain ⟨a, rfl⟩ := Option.ne_none_iff_exists'.1 value
    exact ⟨_, List.mem_singleton_self _, a, given a rfl⟩
  · exact ⟨.nil, fun value => absurd rfl value⟩

theorem Task.drawNames_does (stem : String) (s : Session σ) :
    (drawNames stem).Does s fun new _ => new = [] := by
  have bytes : ∀ n purpose (s : Session σ), (drawBytes n purpose).Does s fun new _ => new = [] := by
    intro n purpose s
    refine .still ?_
    unfold drawBytes
    split <;> rfl
  refine .bind_still (bytes _ _ s) fun config s₁ => ?_
  refine .bind_still (bytes _ _ s₁) fun job s₂ => ?_
  exact .bind_still (.still rfl) fun _ _ => .still rfl

namespace Cleanup

/-- The calls of a removal. -/
def Deletes (ns : String) (names : ResourceNames) (call : Call) : Prop :=
  call = .deleteJob ns names.job ∨ call = .deleteConfigMap ns names.configMap

variable [Party σ]

theorem attempt_does (g : Guard) (call : Call) (warning : Error → Warning) (s : Session σ) :
    (attempt g call warning).Does s fun new _ => Turn.Only (· = call) new := by
  have asked := (Task.Does.ask g call s).isolate
  refine .bind_only (asked.mono ?_) fun answer s' => ?_
  · rintro new o ⟨_, answer, rfl, _⟩
    exact .one rfl
  · cases answer with
    | ok => exact (Task.Does.pure _ s').mono fun new o h => h.1 ▸ .nil
    | error => exact (Task.Does.warn _ s').mono fun new o h => h ▸ .nil

theorem run_does (ns : String) (names : ResourceNames) (timeout : Nat) (s : Session σ) :
    (run ns names timeout).Does s fun new _ => Turn.Only (Deletes ns names) new := by
  have deleted : (deletes { deadline := some (s.clock.now + timeout) } ns names).Does s
      fun new _ => Turn.Only (Deletes ns names) new := by
    refine .bind_only ((attempt_does _ _ _ s).mono fun new o only => ?_) fun _ s' => ?_
    · exact only.mono fun _ => .inl
    · exact (attempt_does _ _ _ s').mono fun new o only => only.mono fun _ => .inr
  obtain ⟨new, took, only⟩ := deleted
  refine ⟨new, ?_, only⟩
  unfold run
  revert took
  cases deletes { deadline := some (s.clock.now + timeout) } ns names s with
  | mk ending s₁ => cases ending <;> exact id

end Cleanup

namespace Observe

/-- What is done once a pod is there: its output is followed, then the verdict is waited for, but
not for an image that cannot be pulled. -/
structure Watched (ns job pod : String) (output verdict : List Turn) : Prop where
  follows : Turn.Once (· = .followPodLogs ns pod) output
  judges : Turn.Only (· = .jobStatus ns job) verdict
  judgesAfter : verdict ≠ [] → ∃ y ∈ output, ¬ y.ImagePull

/-- The turns in which a job is observed: its pod is waited for, then followed under the name that
was last found, then the verdict is waited for. -/
structure Observation (ns job : String) (arrival output verdict : List Turn) : Prop where
  waits : Turn.Only (· = .findJobPod ns job) arrival
  follows : Turn.Once (fun call => ∃ pod, call = .followPodLogs ns pod ∧
    arrival.getLast? = some ⟨.findJobPod ns job, some (.ok (some pod))⟩) output
  judges : Turn.Only (· = .jobStatus ns job) verdict
  judgesAfter : verdict ≠ [] → ∃ y ∈ output, ¬ y.ImagePull

theorem Observation.nothing {ns job : String} {arrival : List Turn}
    (waits : Turn.Only (· = .findJobPod ns job) arrival) : Observation ns job arrival [] [] where
  waits := waits
  follows := .nil
  judges := .nil
  judgesAfter judges := absurd rfl judges

variable [Party σ] {ns job pod : String} {settings : ObserverSettings} {s : Session σ}

theorem awaitCompletion_does :
    (awaitCompletion ns job settings).Does s fun new _ => Turn.Only (· = .jobStatus ns job) new := by
  have waited : ((verdictWait settings).poll (lookup (.jobStatus ns job) JobStatus.outcome
      (.statusUnreadable job))).Does s _ := Wait.poll_does _ s
  refine .bind_only (waited.mono fun new o asked => asked.1) fun outcome s' => ?_
  exact (Task.Does.ofExcept _ s').mono fun new o h => h.1 ▸ .nil

/-- Nobody is asked about a pod once the run is cancelled. -/
theorem watch_barred (cancelled : s.clock.cancelled = true) :
    (streamOutput ns pod settings >>= fun _ => awaitCompletion ns job settings).Does s
      fun new _ => new = [] := by
  have gaveUp : streamOutput ns pod settings s = Task.warn (.streamCancelled pod) s :=
    if_pos cancelled
  have left : (awaitCompletion ns job settings (Task.warn (.streamCancelled pod) s).2).2 =
      (Task.warn (.streamCancelled pod) s).2 := by
    have cancelled' : (Task.warn (.streamCancelled pod) s).2.clock.cancelled = true := cancelled
    rcases awaitCompletion_barred cancelled' with barred | crashed
    · rw [barred]
    · rw [crashed]
  refine ⟨[], ?_, rfl⟩
  simp only [Bind.bind, Task.bind, gaveUp]
  exact (Session.Took.warn _ s).quiet (congrArg Session.events left)

theorem streamOutput_does (live : s.clock.cancelled ≠ true) :
    (streamOutput ns pod settings).Does s fun new o =>
      ∃ x, new = [x] ∧ x.call = .followPodLogs ns pod ∧ (o ≠ none → ¬ x.ImagePull) := by
  have asked := Task.took_ask ⟨true, some (s.clock.now + settings.jobTimeout)⟩
    (.followPodLogs ns pod) s
  simp only [Task.Does, streamOutput_eq live]
  revert asked
  cases Task.ask _ (.followPodLogs ns pod) s with
  | mk ending s₁ =>
    intro asked
    cases ending with
    | value => exact ⟨_, asked, _, rfl, rfl, fun _ => by rintro ⟨e, told, _⟩; cases told⟩
    | error e =>
      dsimp only [report]
      split
      · exact ⟨_, asked, _, rfl, rfl, fun value => absurd rfl value⟩
      · rename_i other
        refine ⟨_, asked.trans (.warn _ s₁), _, rfl, rfl, ?_⟩
        rintro _ ⟨e', told, pulled⟩
        cases told
        exact other pulled
    | cancelled | expired =>
      refine ⟨_, asked.trans (.warn _ s₁), _, rfl, rfl, ?_⟩
      rintro _ ⟨e, told, _⟩
      cases told
    | pending | crashed => exact ⟨_, asked, _, rfl, rfl, fun value => absurd rfl value⟩

theorem watch_does :
    (streamOutput ns pod settings >>= fun _ => awaitCompletion ns job settings).Does s
      fun new _ => ∃ output verdict, new = output ++ verdict ∧ Watched ns job pod output verdict := by
  -- A run that is cancelled by now makes neither call; otherwise the output has its one turn.
  by_cases cancelled : s.clock.cancelled = true
  · refine (watch_barred cancelled).mono ?_
    rintro new o rfl
    exact ⟨[], [], rfl, .nil, .nil, fun judges => absurd rfl judges⟩
  · refine ((streamOutput_does cancelled).bind fun _ _ => awaitCompletion_does).mono ?_
    rintro new o (⟨_, ⟨x, rfl, follows, ended⟩, judges⟩ | ⟨x, rfl, follows, _⟩)
    · refine ⟨_, _, rfl, .one follows, judges, fun _ => ?_⟩
      exact ⟨x, List.mem_singleton_self x, ended (Option.some_ne_none _)⟩
    · exact ⟨_, [], rfl, .one follows, .nil, fun judges => absurd rfl judges⟩

theorem observeJob_does :
    (observeJob ns job settings).Does s fun new _ => ∃ arrival output verdict,
      new = arrival ++ (output ++ verdict) ∧ Observation ns job arrival output verdict := by
  have waited : (awaitPod ns job settings).Does s (Wait.Asked (.findJobPod ns job) id) :=
    Wait.poll_does _ s
  refine (waited.bind fun _ _ => watch_does).mono ?_
  rintro new o (⟨pod, ⟨waits, found⟩, output, verdict, rfl, watched⟩ | ⟨waits, _⟩)
  · obtain ⟨earlier, a, rfl, brings⟩ := found pod rfl
    obtain rfl : a = some pod := brings
    refine ⟨_, output, verdict, rfl, waits, watched.follows.mono ?_, watched.judges,
      watched.judgesAfter⟩
    exact fun call follows => ⟨pod, follows, List.getLast?_concat⟩
  · exact ⟨new, [], [], (List.append_nil _).symm, .nothing waits⟩

end Observe

namespace Run

/-- How the descriptor of a site was read, if it was. -/
inductive SiteRead (files : Files) : SiteSource → List Turn → Option Site → Prop where
  /-- The run was cancelled before, or the file cannot be read. -/
  | missing {source : SiteSource} : SiteRead files source [] none
  | file {path : String} {site : Site} (read : readSiteFile files path = .ok site) :
      SiteRead files (.file path) [] (some site)
  | asked {ref : SiteRef} {answer : Option (Except Error Json)} :
      SiteRead files (.cluster ref) [⟨.getSite ref, answer⟩] none
  | found {ref : SiteRef} {object : Json} {site : Site} (read : Site.ofObject object = .ok site) :
      SiteRead files (.cluster ref) [⟨.getSite ref, some (.ok object)⟩] (some site)

/-- The test user was seen to in these turns to the end, if the site has an identity provider. -/
def Provisioned (settings : RunSettings) (site : Site) (turns : List Turn) : Prop :=
  if site.identityProviderEnabled then
    ∃ request calls fresh, identityRequest site settings = .ok (some request) ∧
      calls ≠ [] ∧ turns = calls.map Answered.turn ∧
      (Provision.ensure request).Transcript calls (.ok fresh)
  else turns = []

/-- A job under the names of the run, in the document that the cluster takes. The credentials are
named in it only if there are any. -/
structure Submits (settings : RunSettings) (names : ResourceNames) (available : Bool)
    (job : TestJob) : Prop where
  name : job.toJson.at? ["metadata", "name"] = some (.string names.job)
  namespaceName : job.toJson.at? ["metadata", "namespace"] = some (.string settings.namespaceName)
  volumes : job.toJson.at? ["spec", "template", "spec", "volumes"] =
    some (.array [TestJob.volumeJson names.configMap])
  containers : job.toJson.at? ["spec", "template", "spec", "containers"] =
    some (.array [job.containerJson])
  env : job.containerJson.member? "env" = if available then
    some (.array ((TestJob.variablesOf settings.credentialSecret).map TestJob.variableJson)) else none

theorem submits_of_compile {settings : RunSettings} {image : String} {names : ResourceNames}
    {available : Bool} {job : TestJob}
    (h : TestJob.compile (jobDescriptor settings image names available) settings.job = .ok job) :
    Submits settings names available job := by
  have compiled := TestJob.compile_ok h
  constructor
  · rw [TestJob.toJson_name, compiled, jobDescriptor]
  · rw [TestJob.toJson_namespace, compiled, jobDescriptor]
  · rw [TestJob.toJson_volumes, compiled, jobDescriptor]
  · exact TestJob.toJson_containers job
  · rw [TestJob.containerJson_env, compiled, jobDescriptor]
    cases available <;> rfl

variable [Party σ] {s : Session σ}

theorem loadSite_does (source : SiteSource) (g : Guard) :
    (loadSite source g).Does s (SiteRead s.files source) := by
  cases source with
  | file path =>
    have same : loadSite (σ := σ) (.file path) g s =
        Task.ofExcept (readSiteFile s.files path) s := rfl
    simp only [Task.Does, same]
    refine ⟨[], .refl s, ?_⟩
    cases read : readSiteFile s.files path with
    | ok site => exact .file read
    | error e => exact .missing
  | cluster ref =>
    refine ((Task.Does.ask g (.getSite ref) s).bind fun object s' => Task.Does.ofExcept _ s').mono ?_
    rintro new o (⟨object, ⟨answer, rfl, given⟩, rfl, read⟩ | ⟨answer, rfl, _⟩)
    · rw [given _ rfl, List.append_nil]
      cases o with
      | none => exact .asked
      | some site => exact .found (read site rfl)
    · exact .asked

/-- The test user is seen to in these turns, and the value says that it was to the end. -/
structure Preparation (settings : RunSettings) (site : Site) (identity : List Turn)
    (o : Option Prepared) : Prop where
  asks : Turn.Only (·.stage = .identity) identity
  asksFor : identity ≠ [] → site.identityProviderEnabled = true
  provisioned : o ≠ none → Provisioned settings site identity
  config : ∀ p, o = some p → p.config = renderConfig site settings
  available : ∀ p, o = some p → p.credentialsAvailable = site.identityProviderEnabled

omit [Party σ] in
theorem Preparation.nothing {settings : RunSettings} {site : Site} :
    Preparation settings site [] none where
  asks := .nil
  asksFor asks := absurd rfl asks
  provisioned value := absurd rfl value
  config := nofun
  available := nofun

omit [Party σ] in
theorem ensure_asks {r : IdentityRequest} {calls : List Answered} {result : Except Error Bool}
    (h : (Provision.ensure r).Transcript calls result) : calls ≠ [] := by
  rcases Procedure.transcript_bind h with ⟨_, earlier, later, rfl, first, _⟩ | ⟨_, _, first⟩
  · rw [Procedure.transcript_call first]
    exact List.cons_ne_nil _ _
  · rw [Procedure.transcript_call first]
    exact List.cons_ne_nil _ _

theorem provision_does (request : IdentityRequest) :
    (provision (some request)).Does s fun new o => Turn.Only (·.stage = .identity) new ∧
      ∀ available, o = some available → available = true ∧ ∃ calls fresh,
        new = calls.map Answered.turn ∧
          (Provision.ensure request).Transcript calls (.ok fresh) := by
  have confined : (Provision.ensure request).Confined (·.stage = .identity) (fun _ _ => True)
      fun _ => True :=
    Provision.ensure_confined (fun _ => id) (fun _ _ _ => id) (fun _ => trivial) (fun _ => trivial)
      fun _ => trivial
  have ensured : (Task.withCancel "test identity provisioning" fun g =>
      (Provision.ensure request).perform g).Does s _ :=
    .withCancel (Procedure.perform_does (fun _ _ => trivial) confined _ s)
  refine (ensured.bind fun _ s' => Task.Does.pure true s').mono ?_
  rintro new o (⟨fresh, (⟨only, course⟩ | ⟨_, none⟩), rfl, rfl⟩ | (⟨only, _⟩ | ⟨rfl, _⟩))
  · rw [List.append_nil]
    refine ⟨only, fun available same => ⟨(Option.some.inj same).symm, ?_⟩⟩
    obtain ⟨calls, told, transcript⟩ := course fresh rfl
    exact ⟨calls, fresh, told, transcript⟩
  · cases none
  · exact ⟨only, nofun⟩
  · exact ⟨.nil, nofun⟩

omit [Party σ] in
theorem identityRequest_isSome {site : Site} {settings : RunSettings}
    {request : Option IdentityRequest} (h : identityRequest site settings = .ok request) :
    request.isSome = site.identityProviderEnabled := by
  unfold identityRequest at h
  split at h
  · rename_i enabled
    simp only [Bind.bind, Except.bind] at h
    split at h
    · cases h
    · split at h <;> cases h
      exact enabled.symm
  · rename_i disabled
    cases h
    exact (Bool.eq_false_iff.2 disabled).symm

/-- Seeing to the test user as the site calls for it. -/
theorem provision_provides {settings : RunSettings} {site : Site} {request : Option IdentityRequest}
    (requested : identityRequest site settings = .ok request) :
    (provision request).Does s fun new o => Turn.Only (·.stage = .identity) new ∧
      (new ≠ [] → site.identityProviderEnabled = true) ∧ ∀ available, o = some available →
        available = site.identityProviderEnabled ∧ Provisioned settings site new := by
  have enabled := identityRequest_isSome requested
  cases request with
  | none =>
    refine ⟨[], .refl s, .nil, fun asks => absurd rfl asks, ?_⟩
    rintro available ⟨⟩
    exact ⟨enabled, (if_neg (Bool.eq_false_iff.1 enabled.symm)).mpr rfl⟩
  | some request =>
    refine (provision_does request).mono ?_
    rintro new o ⟨only, ends⟩
    refine ⟨only, fun _ => enabled.symm, fun available value => ?_⟩
    obtain ⟨rfl, calls, fresh, rfl, transcript⟩ := ends available value
    exact ⟨enabled, (if_pos enabled.symm).mpr
      ⟨request, calls, fresh, requested, ensure_asks transcript, rfl, transcript⟩⟩

/-- What is left of the preparation once it is known what the test user needs. -/
theorem provision_prepares {settings : RunSettings} {site : Site} {names : ResourceNames}
    {request : Option IdentityRequest} (requested : identityRequest site settings = .ok request) :
    (provision request >>= fun available =>
      pure (⟨names, renderConfig site settings, available⟩ : Prepared)).Does s
        (Preparation settings site) := by
  refine ((provision_provides requested).bind fun available s' => Task.Does.pure _ s').mono ?_
  rintro new o (⟨available, ⟨only, asks, ends⟩, rfl, rfl⟩ | ⟨only, asks, -⟩)
  · obtain ⟨enabled, provided⟩ := ends available rfl
    rw [List.append_nil]
    refine ⟨only, asks, fun _ => provided, ?_, ?_⟩ <;> rintro p ⟨⟩
    · rfl
    · exact enabled
  · exact ⟨only, asks, fun value => absurd rfl value, nofun, nofun⟩

/-- What is left of the preparation once the site is read. -/
theorem prepare_site (settings : RunSettings) (image : String) (site : Site) :
    (Task.ofExcept (identityRequest site settings) >>= fun request =>
      if (Text.trimmed image).isEmpty then Task.fail (.config "remote runs need a test image")
      else Task.drawNames (stem settings) >>= fun names => provision request >>= fun available =>
        pure (⟨names, renderConfig site settings, available⟩ : Prepared)).Does s
      (Preparation settings site) := by
  cases requested : identityRequest site settings with
  | error e => exact ⟨[], .refl s, .nothing⟩
  | ok request =>
    -- From here on only the turns about the test user remain: names are drawn without a call.
    have drawn : (Task.drawNames (stem settings) >>= fun names => provision request >>=
        fun available => pure (⟨names, renderConfig site settings, available⟩ : Prepared)).Does s
        (Preparation settings site) := by
      have names := Task.drawNames_does (stem settings) s
      refine (names.bind fun names _ => provision_prepares requested).mono ?_
      rintro new o (⟨_, rfl, prepared⟩ | rfl)
      · exact prepared
      · exact .nothing
    simp only [Task.Does, Bind.bind, Task.bind, Task.ofExcept, Ending.ofExcept]
    split
    · exact ⟨[], .refl s, .nothing⟩
    · exact drawn

theorem prepare_does (settings : RunSettings) (image : String) :
    (prepare settings image).Does s fun new o => ∃ site lookup identity,
      new = lookup ++ identity ∧ SiteRead s.files settings.site lookup site ∧
        (site = none → identity = [] ∧ o = none) ∧
        ∀ found, site = some found → Preparation settings found identity o := by
  have read : (Task.withCancel "site lookup" (loadSite settings.site)).Does s _ :=
    .withCancel (loadSite_does settings.site _)
  refine (read.bind fun site _ => prepare_site settings image site).mono ?_
  rintro new o (⟨site, (read | ⟨_, none⟩), prepared⟩ | (read | ⟨rfl, _⟩))
  · refine ⟨some site, _, _, rfl, read, nofun, ?_⟩
    rintro found ⟨⟩
    exact prepared
  · cases none
  · exact ⟨none, new, [], (List.append_nil _).symm, read, fun _ => ⟨rfl, rfl⟩, nofun⟩
  · exact ⟨none, [], [], rfl, .missing, fun _ => ⟨rfl, rfl⟩, nofun⟩

/-- The turns in which a job is submitted, then observed. -/
structure Submission (settings : RunSettings) (names : ResourceNames) (available : Bool)
    (submission arrival output verdict : List Turn) : Prop where
  submits : Turn.Once (fun call => ∃ job, call = .createJob settings.namespaceName job ∧
    Submits settings names available job) submission
  observes : Observe.Observation settings.namespaceName names.job arrival output verdict
  observesAfter : arrival ≠ [] → ∃ y ∈ submission, y.Ok

/-- The turns between the preparation and the removal: the configuration is published under the
name of the config map, then the job is submitted and observed. -/
structure Execution (settings : RunSettings) (names : ResourceNames) (text : String)
    (available : Bool) (upload submission arrival output verdict : List Turn) : Prop
    extends Submission settings names available submission arrival output verdict where
  uploads : Turn.Once (· = .applyConfigMap settings.namespaceName names.configMap
    TestJob.configKey text) upload
  submitsAfter : submission ≠ [] → ∃ y ∈ upload, y.Ok

section

variable {settings : RunSettings} {image : String} {names : ResourceNames} {text : String}
  {available : Bool}

omit [Party σ] in
theorem Submission.nothing {submission : List Turn}
    (submits : Turn.Once (fun call => ∃ job, call = .createJob settings.namespaceName job ∧
      Submits settings names available job) submission) :
    Submission settings names available submission [] [] [] where
  submits := submits
  observes := .nothing .nil
  observesAfter observes := absurd rfl observes

theorem submit_does :
    (Task.ofExcept (TestJob.compile (jobDescriptor settings image names available) settings.job) >>=
      fun job => Task.withCancel "job submission"
        (fun g => Task.ask g (.createJob settings.namespaceName job)) >>= fun _ =>
          Observe.observeJob settings.namespaceName names.job settings.observer).Does s fun new _ =>
      ∃ submission arrival output verdict, new = submission ++ (arrival ++ (output ++ verdict)) ∧
        Submission settings names available submission arrival output verdict := by
  cases compiled : TestJob.compile (jobDescriptor settings image names available) settings.job with
  | error e => exact ⟨[], .refl s, [], [], [], [], rfl, .nothing .nil⟩
  | ok job =>
    have submits := submits_of_compile compiled
    have submitted := Task.Does.callOnce "job submission" (.createJob settings.namespaceName job) s
    refine Task.Does.mono (P := Task.Does.Then _ _)
      (submitted.bind fun _ _ => Observe.observeJob_does) ?_
    rintro new o (⟨_, ⟨once, ok⟩, arrival, output, verdict, rfl, observes⟩ | ⟨once, _⟩)
    · exact ⟨_, arrival, output, verdict, rfl, once.mono fun _ same => ⟨job, same, submits⟩,
        observes, fun _ => ok (Option.some_ne_none _)⟩
    · exact ⟨new, [], [], [], (List.append_nil _).symm,
        .nothing (once.mono fun _ same => ⟨job, same, submits⟩)⟩

theorem runRemote_does :
    (runRemote settings image names text available).Does s fun new _ =>
      ∃ upload submission arrival output verdict,
        new = upload ++ (submission ++ (arrival ++ (output ++ verdict))) ∧
          Execution settings names text available upload submission arrival output verdict := by
  have uploaded := Task.Does.callOnce "config upload"
    (.applyConfigMap settings.namespaceName names.configMap TestJob.configKey text) s
  refine (uploaded.bind fun _ _ => submit_does).mono ?_
  rintro new o (⟨_, ⟨once, ok⟩, submission, arrival, output, verdict, rfl, submits⟩ | ⟨once, _⟩)
  · exact ⟨_, submission, arrival, output, verdict, rfl, submits, once,
      fun _ => ok (Option.some_ne_none _)⟩
  · exact ⟨new, [], [], [], [], (List.append_nil _).symm, .nothing .nil, once,
      fun submits => absurd rfl submits⟩

variable (settings image names text available) in
theorem cleaningUp_does :
    (cleaningUp settings names (runRemote settings image names text available)).Does s fun new _ =>
      ∃ upload submission arrival output verdict removal,
        new = upload ++ (submission ++ (arrival ++ (output ++ (verdict ++ removal)))) ∧
          Execution settings names text available upload submission arrival output verdict ∧
          Turn.Only (Cleanup.Deletes settings.namespaceName names) removal := by
  have executed : (runRemote settings image names text available).isolate.Does s _ :=
    runRemote_does.isolate
  have removed : ∀ (result : Except Error Unit) (s' : Session σ),
      (Cleanup.run settings.namespaceName names settings.cleanupTimeout >>= fun _ =>
        Task.ofExcept result).Does s' fun new _ =>
          Turn.Only (Cleanup.Deletes settings.namespaceName names) new := by
    intro result s'
    refine .bind_only (Cleanup.run_does _ _ _ s') fun _ s'' => ?_
    exact (Task.Does.ofExcept result s'').mono fun new o h => h.1 ▸ .nil
  refine (executed.bind removed).mono ?_
  rintro new o (⟨_, ⟨_, upload, submission, arrival, output, verdict, rfl, executes⟩, removes⟩ |
    ⟨_, upload, submission, arrival, output, verdict, rfl, executes⟩)
  · refine ⟨upload, submission, arrival, output, verdict, _, ?_, executes, removes⟩
    simp only [List.append_assoc]
  · refine ⟨upload, submission, arrival, output, verdict, [], ?_, executes, .nil⟩
    rw [List.append_nil]

end

/-- The turns of a remote run, stage by stage. -/
structure Stages where
  lookup : List Turn := []
  identity : List Turn := []
  upload : List Turn := []
  submission : List Turn := []
  arrival : List Turn := []
  output : List Turn := []
  verdict : List Turn := []
  removal : List Turn := []

/-- All of them, in their order. -/
def Stages.turns (t : Stages) : List Turn :=
  t.lookup ++ (t.identity ++ (t.upload ++ (t.submission ++ (t.arrival ++ (t.output ++
    (t.verdict ++ t.removal))))))

/-- What a run does for a site. Nobody is asked about test users or secrets for a site without an
identity provider; with one, nothing is made before the test user is seen to. -/
structure OnSite (settings : RunSettings) (site : Site) (names : ResourceNames) (t : Stages) : Prop
    extends Execution settings names (renderConfig site settings) site.identityProviderEnabled
      t.upload t.submission t.arrival t.output t.verdict where
  asks : Turn.Only (·.stage = .identity) t.identity
  asksFor : t.identity ≠ [] → site.identityProviderEnabled = true
  executesAfter : t.upload ≠ [] → Provisioned settings site t.identity
  removes : Turn.Only (Cleanup.Deletes settings.namespaceName names) t.removal
  removesAfter : t.removal ≠ [] → Provisioned settings site t.identity

/-- What is done for a site if the preparation does not come to its end. -/
theorem OnSite.begun {settings : RunSettings} {site : Site} {lookup identity : List Turn}
    (h : Preparation settings site identity none) :
    OnSite settings site ⟨"", ""⟩ { lookup, identity } where
  toSubmission := .nothing .nil
  uploads := .nil
  submitsAfter submits := absurd rfl submits
  asks := h.asks
  asksFor := h.asksFor
  executesAfter executes := absurd rfl executes
  removes := .nil
  removesAfter removes := absurd rfl removes

/-- The turns of a remote run that started with these files. -/
inductive InOrder (settings : RunSettings) (files : Files) : Stages → Prop where
  | unread {lookup : List Turn} (looks : SiteRead files settings.site lookup none) :
      InOrder settings files { lookup }
  | read {t : Stages} {site : Site} {names : ResourceNames}
      (looks : SiteRead files settings.site t.lookup (some site))
      (follows : OnSite settings site names t) : InOrder settings files t

end Run

/-- Every remote run goes through its stages in order, whatever it is answered and whenever it is
cancelled: a stage is come to only once the one before has given what it needs. -/
theorem Run.in_order [Party σ] {settings : RunSettings} {image : String}
    (remote : settings.mode = .remote image) (s : Session σ) :
    ∃ t : Stages, s.Took (run settings s).2 t.turns ∧ InOrder settings s.files t := by
  have conducted : (run settings).Does s fun new _ =>
      ∃ t : Stages, new = t.turns ∧ InOrder settings s.files t := by
    rw [run_eq remote]
    refine ((prepare_does (s := s) settings image).bind fun p _ =>
      (cleaningUp_does settings image p.names p.config p.credentialsAvailable).bind_pure
        RunOutcome.passed).mono ?_
    -- Either the preparation came to its end, or nothing was made.
    rintro _ _ (⟨p, ⟨site, lookup, identity, rfl, looks, unread, read⟩, upload, submission,
        arrival, output, verdict, removal, rfl, executes, removes⟩ |
      ⟨site, lookup, identity, rfl, looks, unread, read⟩)
    · cases site with
      | none => cases (unread rfl).2
      | some site =>
        have prepared := read site rfl
        have seen := prepared.provisioned (Option.some_ne_none p)
        rw [prepared.config p rfl, prepared.available p rfl] at executes
        refine ⟨⟨lookup, identity, upload, submission, arrival, output, verdict, removal⟩, ?_, ?_⟩
        · exact List.append_assoc _ _ _
        · exact .read looks ⟨executes, prepared.asks, prepared.asksFor, fun _ => seen, removes,
            fun _ => seen⟩
    · cases site with
      | none =>
        obtain ⟨rfl, _⟩ := unread rfl
        exact ⟨{ lookup }, rfl, .unread looks⟩
      | some site =>
        have begun := read site rfl
        refine ⟨{ lookup, identity }, ?_, .read looks (.begun begun)⟩
        simp only [Stages.turns, List.append_nil]
  obtain ⟨_, took, t, rfl, order⟩ := conducted
  exact ⟨t, took, order⟩

/-- A run whose collaborators refuse nothing, for a site without an identity provider. -/
theorem Run.in_order_willing :
    (run Willing.settings (Willing.start {})).2.started.map Call.stage =
      [.lookup, .upload, .submission, .arrival, .output, .verdict, .removal, .removal] ∧
    ∃ t : Stages, (Willing.start {}).Took (run Willing.settings (Willing.start {})).2 t.turns ∧
      InOrder Willing.settings {} t :=
  ⟨by decide +kernel, Run.in_order rfl _⟩

end Acceptance
