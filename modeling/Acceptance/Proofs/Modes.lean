import Acceptance.Program
import Acceptance.Proofs.Delivery
import Acceptance.Proofs.Removal

/-!
# The modes of a run

Wherever it runs, the suite is given the same: the text that the site and the settings make, the same
arguments but for the path of that text, and the credentials that are in the secret.

* `Run.Emits`: how a rendered text is handed over;
* `Run.launch`, `Run.suite_handed`: what a run on this machine has done when it starts the suite, and
  what it hands to it;
* `Run.job_compiled`: what a remote run hands to it;
* `Run.modes_agree`: that is the same, and what a rendering hands over.
-/

namespace Acceptance

variable {σ α : Type}

theorem Session.mem_started {s : Session σ} {call : Call} (h : call ∈ s.started) :
    ∃ after t before, s.events = after ++ .asked t call :: before := by
  obtain ⟨x, there, same⟩ := List.mem_filterMap.1 (List.mem_reverse.1 h)
  obtain ⟨after, before, split⟩ := List.append_of_mem there
  cases x <;> cases same
  exact ⟨after, _, before, split⟩

namespace Credentials

theorem entry_ok {secret key value : String} {data : SecretData}
    (h : entry secret data key = .ok value) : data.get? key = some value := by
  unfold entry at h
  split at h
  · cases h
  · cases h
  · cases h
    assumption

theorem ofData_ok {secret : String} {data : SecretData} {c : Credentials}
    (h : ofData secret data = .ok c) :
    data.get? usernameKey = some c.username ∧ data.get? passwordKey = some c.password := by
  simp only [ofData, Bind.bind, Except.bind] at h
  split at h
  · cases h
  · split at h <;> cases h
    exact ⟨entry_ok ‹_›, entry_ok ‹_›⟩

end Credentials

/-- The document says that the container finds variables. -/
def Container.exports (job : Json) : Prop :=
  ∃ container, first? job = some container ∧ container.member? "env" ≠ none

namespace Run

/-- The site that a run with this session finds. -/
def Reads [Party σ] (source : SiteSource) (site : Site) (s : Session σ) : Prop :=
  ∃ s', Task.withCancel "site lookup" (loadSite source) s = (.value site, s')

/-! ## Rendering -/

/-- How a text is handed over: it comes back in the value, and goes into the file if one is given. -/
inductive Emits (output : Option String) (text : String) (files : Files) (value : α) :
    Ending α → Files → Prop where
  | returned (nowhere : output = none) : Emits output text files value (.value value) files
  | written {path : String} {files' : Files} (into : output = some path)
      (made : files.write path text = .ok files') :
      Emits output text files value (.value value) files'
  | refused {path : String} {fault : FileFault} (into : output = some path)
      (failed : files.write path text = .error fault) :
      Emits output text files value (.error (.io fault.message)) files

theorem emit_emits (output : Option String) (text : String) (value : α) (s : Session σ) :
    let r := (emit output text >>= fun _ => pure value) s
    Emits output text s.files value r.1 r.2.files := by
  intro r
  cases output with
  | none => exact .returned rfl
  | some path =>
    cases made : s.files.write path text with
    | ok files' =>
      have ended : r = (.value value, { s with files := files' }) := by
        simp only [r, emit, emitConfig, made, Bind.bind, Task.bind]
        rfl
      rw [ended]
      exact .written rfl made
    | error fault =>
      have ended : r = (.error (.io fault.message), s) := by
        simp only [r, emit, emitConfig, made, Bind.bind, Task.bind]
      rw [ended]
      exact .refused rfl made

variable [Party σ] {settings : RunSettings} {site : Site}

theorem render_emits (settings : RunSettings) {output : Option String}
    (rendering : settings.mode = .configOnly output) {s : Session σ} (reads : Reads settings.site site s) :
    Emits output (renderConfig site settings) s.files
      (RunOutcome.configRendered (renderConfig site settings))
      (run settings s).1 (run settings s).2.files := by
  obtain ⟨s', loaded⟩ := reads
  obtain ⟨-, -, files⟩ := loadSite_keeps loaded
  have same : run settings s = (emit output (renderConfig site settings) >>= fun _ =>
      pure (.configRendered (renderConfig site settings))) s' := by
    unfold run
    rw [rendering]
    simp only [Bind.bind, Task.bind, loaded]
  rw [same, ← files]
  exact emit_emits _ _ _ s'

/-- The program renders a site that it has in a file by itself. -/
theorem program_emits {κ ι ρ : Type} [Http.Transport κ] [Http.Transport ι] [Launcher ρ]
    {environment : CommandLine.Environment} {shared : SharedArguments} {a : RunArguments}
    {output : Option String} {path : String} (asked : a.settings = .ok settings)
    (rendering : settings.mode = .configOnly output) (inFile : settings.site = .file path)
    {s : Session (Collaborators κ ι ρ)} (read : readSiteFile s.files path = .ok site) :
    let r := Program.run environment shared a s
    Emits output (renderConfig site settings) s.files
      (if output = none then some (renderConfig site settings) else none) r.1 r.2.files := by
  have shown : Program.printed settings.mode (.configRendered (renderConfig site settings)) =
      if output = none then some (renderConfig site settings) else none := by
    rw [rendering]
    cases output <;> rfl
  have same : Program.run environment shared a s =
      (emit output (renderConfig site settings) >>= fun _ =>
        pure (if output = none then some (renderConfig site settings) else none)) s := by
    rw [← shown]
    simp only [Program.run, Program.renderFile, asked, rendering, inFile, Bind.bind, Task.bind,
      Task.ofExcept, Ending.ofExcept, Task.session, read]
  intro r
  rw [show r = _ from same]
  exact emit_emits _ _ _ s

/-! ## On this machine -/

theorem provision_value {request : Option IdentityRequest} {s s' : Session σ} {available : Bool}
    (h : provision request s = (.value available, s')) : available = request.isSome := by
  cases request with
  | none =>
    cases h
    rfl
  | some request =>
    obtain ⟨_, _, _, done⟩ := Task.bind_value h
    cases done
    rfl

/-- What a run on this machine does before its suite. -/
def prepareHere (settings : RunSettings) : Task σ (String × Bool) := do
  let site ← Task.withCancel "site lookup" (loadSite settings.site)
  let request ← Task.ofExcept (identityRequest site settings)
  let available ← provision request
  pure (renderConfig site settings, available)

theorem run_here (here : settings.mode = .here) :
    run (σ := σ) settings = prepareHere settings >>= fun p =>
      runLocal settings p.1 p.2 >>= fun _ => pure .passed := by
  unfold run prepareHere
  rw [Task.bind_assoc, here]
  refine congrArg (Bind.bind _) (funext fun site => ?_)
  simp only [execute, here, Task.bind_assoc]
  rfl

theorem run_here_ready (here : settings.mode = .here) {s s₁ : Session σ} {p : String × Bool}
    (made : prepareHere settings s = (.value p, s₁)) :
    (run settings s).2 = (runLocal settings p.1 p.2 s₁).2 := by
  simp only [run_here here, Bind.bind, Task.bind, made]
  cases runLocal settings p.1 p.2 s₁ with
  | mk ending s₂ => cases ending <;> rfl

theorem run_here_unready (here : settings.mode = .here) {s s₁ : Session σ}
    {ending : Ending (String × Bool)} (made : prepareHere settings s = (ending, s₁))
    (unready : ∀ p, ending ≠ .value p) : (run settings s).2 = s₁ := by
  simp only [run_here here, Bind.bind, Task.bind, made]
  cases ending with
  | value p => exact absurd rfl (unready p)
  | error | cancelled | expired | pending | crashed => rfl

theorem prepareHere_value {s s' : Session σ} {p : String × Bool}
    (h : prepareHere settings s = (.value p, s')) (reads : Reads settings.site site s) :
    p = (renderConfig site settings, site.identityProviderEnabled) := by
  obtain ⟨site', s₁, loaded, h⟩ := Task.bind_value h
  obtain ⟨request, s₂, requested, h⟩ := Task.bind_value h
  obtain ⟨available, s₃, provided, h⟩ := Task.bind_value h
  obtain ⟨_, found⟩ := reads
  cases loaded.symm.trans found
  cases h
  rw [provision_value provided, identityRequest_isSome (Task.ofExcept_value requested).1]

theorem prepareHere_onward (settings : RunSettings) (s : Session σ) :
    s.Onward (fun call => call.stage = .lookup ∨ call.stage = .identity)
      (prepareHere settings s).2 := by
  have confined : Task.Confined (σ := σ) (fun call => call.stage = .lookup ∨ call.stage = .identity)
      (fun _ => True) (prepareHere settings) := by
    have keeps : Party.Keeps σ fun _ _ => True := fun _ _ _ _ => trivial
    refine .bind (.withCancel trivial (loadSite_confined keeps (fun _ => .inl rfl)
      (fun _ _ => id) (fun _ => trivial) fun _ => trivial)) fun site => ?_
    refine .bind (.ofExcept fun _ _ => trivial) fun request => .bind ?_ fun _ => .pure _
    cases request with
    | none => exact .pure _
    | some request =>
      refine .bind (.withCancel trivial ?_) fun _ => .pure _
      exact (Provision.ensure_confined (fun _ => .inr) (fun _ _ _ => id) (fun _ => trivial)
        (fun _ => trivial) fun _ => trivial).perform keeps
  exact (confined s).1

/-- What the suite is handed on this machine after the events: the text in its file, and the
credentials that were read right before, if there are to be any. -/
structure Handed (settings : RunSettings) (text : String) (available : Bool)
    (i : LocalInvocation) (before : List Event) : Prop where
  config : i.config = some text
  category : i.category = settings.category
  without : available = false → i.credentials = none
  credentials : available = true → ∃ t data c, i.credentials = some c ∧
    before.head? = some (.answered t
      (.getSecret settings.namespaceName settings.credentialSecret) (.ok (some data))) ∧
    Credentials.ofData settings.credentialSecret data = .ok c

theorem readCredentials_value {ns secret : String} {g : Guard} {s s' : Session σ} {c : Credentials}
    (h : (readCredentials ns secret).perform g s = (.value c, s')) :
    ∃ t t₀ data, s'.events = .answered t (.getSecret ns secret) (.ok (some data)) ::
      .asked t₀ (.getSecret ns secret) :: s.events ∧ Credentials.ofData secret data = .ok c := by
  rw [readCredentials, Procedure.perform_bind, Procedure.perform_call] at h
  obtain ⟨data, s₁, asked, done⟩ := Task.bind_value h
  obtain ⟨read, rfl⟩ := Task.ofExcept_value done
  obtain ⟨t, t₀, events⟩ := Task.ask_value asked
  cases data with
  | none => cases read
  | some data => exact ⟨t, t₀, data, events, read⟩

theorem localCredentials_available {s s' : Session σ} {credentials : Option Credentials}
    (h : localCredentials settings true s = (.value credentials, s')) : ∃ t t₀ data c,
      s'.events = .answered t (.getSecret settings.namespaceName settings.credentialSecret)
        (.ok (some data)) ::
        .asked t₀ (.getSecret settings.namespaceName settings.credentialSecret) :: s.events ∧
      credentials = some c ∧ Credentials.ofData settings.credentialSecret data = .ok c := by
  obtain ⟨c, s₁, read, done⟩ := Task.bind_value h
  cases done
  obtain ⟨t, t₀, data, events, holds⟩ := readCredentials_value (Task.withCancel_value read)
  exact ⟨t, t₀, data, c, events, rfl, holds⟩

theorem localCredentials_value {available : Bool} {s s' : Session σ} {credentials : Option Credentials}
    (h : localCredentials settings available s = (.value credentials, s')) :
    ∃ new, s'.events = new ++ s.events ∧ (∀ x ∈ new, ¬ x.Starts .suite) ∧
      ∀ path text, Handed settings text available ⟨path, some text, settings.category, credentials⟩
        (new ++ s.events) := by
  cases available with
  | false =>
    cases h
    exact ⟨[], rfl, by simp, fun _ _ => ⟨rfl, rfl, fun _ => rfl, by simp⟩⟩
  | true =>
    obtain ⟨t, t₀, data, c, events, rfl, holds⟩ := localCredentials_available h
    refine ⟨[_, _], events, ?_, fun _ _ => ⟨rfl, rfl, by simp, fun _ => ⟨t, data, c, rfl, rfl, holds⟩⟩⟩
    rw [List.forall_mem_cons, List.forall_mem_singleton]
    constructor <;> rintro ⟨_, _, ⟨⟩, ⟨⟩⟩

theorem localCredentials_onward (settings : RunSettings) (available : Bool) (s : Session σ) :
    s.Onward (·.stage = .identity) (localCredentials settings available s).2 := by
  have confined : Task.Confined (σ := σ) (·.stage = .identity) (fun _ => True)
      (localCredentials settings available) := by
    have keeps : Party.Keeps σ fun _ _ => True := fun _ _ _ _ => trivial
    unfold localCredentials
    split
    · refine .bind (.withCancel trivial ?_) fun _ => .pure _
      have reading : (readCredentials settings.namespaceName settings.credentialSecret).Confined
          (·.stage = .identity) (fun _ _ => True) fun _ => True :=
        readCredentials_confined rfl (fun _ _ => trivial) fun _ => trivial
      exact reading.perform keeps
    · exact .pure _
  exact (confined s).1

theorem runTests_events (i : LocalInvocation) (s : Session σ) :
    ∃ ended, (∀ x ∈ ended, ¬ Event.Starts .suite x) ∧
      (runTests i s).2.events = ended ++ .asked s.clock.now (.runTests i) :: s.events := by
  have same : (runTests i s).2 = (Task.ask { cancellable := true } (.runTests i) s).2 := by
    unfold runTests
    cases Task.ask { cancellable := true } (.runTests i) s with
    | mk ending s' => cases ending <;> rfl
  rw [same]
  exact Task.ask_starts _ _ s .suite

/-- The suite is started at most once, with the credentials that were just read. -/
theorem runLocal_suite (settings : RunSettings) (text : String) (available : Bool) (s : Session σ) :
    (∃ new, (runLocal settings text available s).2.events = new ++ s.events ∧
      ∀ x ∈ new, ¬ x.Starts .suite) ∨
    ∃ later credentials s₁, (∀ x ∈ later, ¬ x.Starts .suite) ∧
      localCredentials settings available s = (.value credentials, s₁) ∧
      (runLocal settings text available s).2.events = later ++ .asked s₁.clock.now
        (.runTests ⟨s₁.temporaryPath, some text, settings.category, credentials⟩) :: s₁.events := by
  have quiet := (localCredentials_onward settings available s).not_starts .suite
    fun call stage => by rw [stage]; decide
  generalize looked : localCredentials settings available s = r at quiet
  obtain ⟨ending, s₁⟩ := r
  cases ending with
  | value credentials =>
    let path := s₁.temporaryPath
    let files := { s₁.files with temporary := s₁.files.temporary.insert path text }
    have holds : files.temporary.get? path = some text := by
      simp [files, Dict.get?, Dict.insert, entryAt?_insertEntry]
    let i : LocalInvocation := ⟨path, files.temporary.get? path, settings.category, credentials⟩
    obtain ⟨ended, later, started⟩ := runTests_events i { s₁ with files }
    have same : (runLocal settings text available s).2.events =
        (runTests i { s₁ with files }).2.events := by
      simp only [runLocal, Bind.bind, Task.bind, looked, writeTemporary, Task.session, Task.isolate]
      cases runTests i { s₁ with files } with
      | mk ending s₂ => cases ending <;> rfl
    refine .inr ⟨ended, credentials, s₁, later, rfl, ?_⟩
    rw [same, started, ← holds]
  | error | cancelled | expired | pending | crashed =>
    left
    simp only [runLocal, Bind.bind, Task.bind, looked]
    exact quiet

/-- By the time the suite is started on this machine, the run has got ready and has looked up the
credentials. -/
theorem launch (here : settings.mode = .here) {s : Session σ} (fresh : s.Fresh)
    {after before : List Event} {t : Nat} {i : LocalInvocation}
    (started : (run settings s).2.events = after ++ .asked t (.runTests i) :: before) :
    ∃ p s₁ credentials s₂, prepareHere settings s = (.value p, s₁) ∧
      localCredentials settings p.2 s₁ = (.value credentials, s₂) ∧
      i = ⟨s₂.temporaryPath, some p.1, settings.category, credentials⟩ ∧
      t = s₂.clock.now ∧ before = s₂.events := by
  obtain ⟨prepared, events, idle⟩ := (prepareHere_onward settings s).not_starts .suite
    fun call stage => by rcases stage with stage | stage <;> rw [stage] <;> decide
  rw [fresh.events, List.append_nil] at events
  have impossible := Session.not_idle started
  cases made : prepareHere settings s with
  | mk ending s₁ =>
    rw [made] at events
    dsimp only at events
    by_cases ready : ∃ p, ending = .value p
    · obtain ⟨p, rfl⟩ := ready
      rw [run_here_ready here made] at started impossible
      rcases runLocal_suite settings p.1 p.2 s₁ with
        ⟨new, added, none⟩ | ⟨later, credentials, s₂, following, looked, added⟩
      · rw [added, events] at impossible
        exact absurd (List.forall_mem_append.2 ⟨none, idle⟩) impossible
      · obtain ⟨new, earlier, none, -⟩ := localCredentials_value looked
        have idle' : ∀ x ∈ s₂.events, ¬ x.Starts .suite := by
          rw [earlier, events]
          exact List.forall_mem_append.2 ⟨none, idle⟩
        obtain ⟨same, rfl⟩ := split_unique (added.symm.trans started) following idle'
          ⟨t, _, rfl, rfl⟩
        cases same
        exact ⟨p, s₁, credentials, s₂, rfl, looked, rfl, rfl, rfl⟩
    · rw [run_here_unready here made (by simpa using ready), events] at impossible
      exact absurd idle impossible

/-- A run on this machine hands the suite the text that its site and its settings make. -/
theorem suite_handed (settings : RunSettings) (here : settings.mode = .here) {s : Session σ}
    (fresh : s.Fresh) (reads : Reads settings.site site s) {after before : List Event} {t : Nat}
    {i : LocalInvocation}
    (started : (run settings s).2.events = after ++ .asked t (.runTests i) :: before) :
    Handed settings (renderConfig site settings) site.identityProviderEnabled i before := by
  obtain ⟨p, s₁, credentials, s₂, made, looked, rfl, -, rfl⟩ := launch here fresh started
  obtain rfl := prepareHere_value made reads
  obtain ⟨new, events, -, handed⟩ := localCredentials_value looked
  rw [events]
  exact handed _ _

/-! ## In the cluster -/

theorem prepare_value {image : String} {s s' : Session σ} {p : Prepared}
    (h : prepare settings image s = (.value p, s')) (reads : Reads settings.site site s) :
    p.config = renderConfig site settings ∧
      p.credentialsAvailable = site.identityProviderEnabled := by
  obtain ⟨site', s₁, loaded, h⟩ := Task.bind_value h
  obtain ⟨request, s₂, requested, h⟩ := Task.bind_value h
  obtain ⟨_, found⟩ := reads
  cases loaded.symm.trans found
  split at h
  · cases h
  · obtain ⟨names, s₃, drawn, h⟩ := Task.bind_value h
    obtain ⟨available, s₄, provided, h⟩ := Task.bind_value h
    cases h
    refine ⟨rfl, ?_⟩
    rw [provision_value provided, identityRequest_isSome (Task.ofExcept_value requested).1]

theorem job_compiled (settings : RunSettings) {image : String}
    (remote : settings.mode = .remote image) {s : Session σ} (fresh : s.Fresh)
    (reads : Reads settings.site site s) {ns : String} {job : TestJob}
    (started : .createJob ns job ∈ (run settings s).2.started) :
    ∃ names, TestJob.compile (jobDescriptor settings image names site.identityProviderEnabled)
      settings.job = .ok job := by
  obtain ⟨after, t, before, split⟩ := Session.mem_started started
  obtain ⟨p, s₁, _, _, prepared, -, compiled, -⟩ := submission remote fresh split
  rw [(prepare_value prepared reads).2] at compiled
  exact ⟨p.names, compiled⟩

omit [Party σ] in
theorem exports_toJson (job : TestJob) : Container.exports job.toJson ↔ job.exported ≠ none := by
  simp only [Container.exports, TestJob.first?_toJson, Option.some.injEq, exists_eq_left',
    TestJob.containerJson_env]
  simp

/-! ## The same in every mode -/

/-- What a job and a suite that is started on this machine after the events have in common. -/
structure Matches (settings : RunSettings) (job : Json) (i : LocalInvocation)
    (before : List Event) : Prop where
  /-- Only the path of the configuration is another one. -/
  arguments : ∃ rest,
    Container.arguments? job = some ("--vip-config" :: TestJob.configPath :: rest) ∧
    ∀ program, (Launch.ofInvocation program i).arguments = "--vip-config" :: i.configPath :: rest
  /-- There are credentials for both or for neither. -/
  both : Container.exports job ↔ i.credentials ≠ none
  neither : i.credentials = none →
    (∀ program, (Launch.ofInvocation program i).exported = []) ∧
    ∀ r, Container.environment? r job = some []
  /-- From the secret that was read last, the container finds what the program on this machine does. -/
  environment : ∀ c, i.credentials = some c → ∃ t data,
    before.head? = some (.answered t (.getSecret settings.namespaceName settings.credentialSecret)
      (.ok (some data))) ∧
    (∀ program, (Launch.ofInvocation program i).exported =
      [("VIP_TEST_USERNAME", c.username), ("VIP_TEST_PASSWORD", c.password)]) ∧
    ∀ r : Resources, r.secrets settings.namespaceName settings.credentialSecret = some data →
      Container.environment? r job =
        some [("VIP_TEST_USERNAME", c.username), ("VIP_TEST_PASSWORD", c.password)]

omit [Party σ] in
theorem matches_of_handed (settings : RunSettings) {image text : String} {names : ResourceNames}
    {available : Bool} {job : TestJob} {i : LocalInvocation} {before : List Event}
    (compiled : TestJob.compile (jobDescriptor settings image names available) settings.job = .ok job)
    (handed : Handed settings text available i before) : Matches settings job.toJson i before := by
  obtain rfl := TestJob.compile_ok compiled
  constructor
  case arguments =>
    refine ⟨_, TestJob.arguments?_toJson _, fun program => ?_⟩
    rw [Launch.ofInvocation, handed.category]
    rfl
  case both =>
    rw [exports_toJson]
    cases available with
    | false => simp [jobDescriptor, handed.without rfl]
    | true =>
      obtain ⟨_, _, c, given, _⟩ := handed.credentials rfl
      simp [jobDescriptor, given]
  case neither =>
    intro given
    cases available with
    | true =>
      obtain ⟨_, _, c, given', _⟩ := handed.credentials rfl
      cases given.symm.trans given'
    | false =>
      constructor
      · intro program
        rw [Launch.ofInvocation, given]
        rfl
      · intro r
        rw [TestJob.environment?_toJson]
        rfl
  case environment =>
    intro c given
    cases available with
    | false => cases (handed.without rfl).symm.trans given
    | true =>
      obtain ⟨t, data, c', given', read, holds⟩ := handed.credentials rfl
      cases given.symm.trans given'
      obtain ⟨username, password⟩ := Credentials.ofData_ok holds
      refine ⟨t, data, read, fun program => ?_, fun r stored => ?_⟩
      · rw [Launch.ofInvocation, given]
        rfl
      · rw [TestJob.environment?_toJson]
        simp [jobDescriptor, TestJob.variablesOf, stored, username, password,
          TestCommand.usernameVariable, TestCommand.passwordVariable]

/-- What the suite is given by a rendering, a remote run and a run on this machine. -/
structure SameInputs {τ υ φ : Type} (settings : RunSettings) (site : Site) (output : Option String)
    (text : String) (files : Files) (rendered : Ending RunOutcome × Session τ)
    (remote : Session υ) (here : Session φ) : Prop where
  returned : Emits output text files (.configRendered text) rendered.1 rendered.2.files
  /-- The program prints or writes the text for the same site in a file. -/
  printed : ∀ (κ ι ρ : Type) [Http.Transport κ] [Http.Transport ι] [Launcher ρ]
    (environment : CommandLine.Environment) (shared : SharedArguments) (a : RunArguments)
    (path : String) (s : Session (Collaborators κ ι ρ)),
    a.settings = .ok { settings with mode := .configOnly output, site := .file path } →
    readSiteFile s.files path = .ok site →
    Emits output text s.files (if output = none then some text else none)
      (Program.run environment shared a s).1 (Program.run environment shared a s).2.files
  uploaded : ∀ call ∈ remote.started, call.Uploads text
  handed : ∀ i, .runTests i ∈ here.started → i.config = some text
  suits : ∀ ns job, .createJob ns job ∈ remote.started → ∀ after t i before,
    here.events = after ++ .asked t (.runTests i) :: before → Matches settings job.toJson i before

/-- Runs with settings that differ only in the mode, each of which finds the same site, give the
suite the same, whatever else they are answered. -/
theorem modes_agree {τ υ φ : Type} [Party τ] [Party υ] [Party φ] (settings : RunSettings)
    (site : Site) (image : String) (output : Option String) {rendering : Session τ}
    {far : Session υ} {near : Session φ} (freshFar : far.Fresh) (freshNear : near.Fresh)
    (reads : Reads settings.site site rendering) (readsFar : Reads settings.site site far)
    (readsNear : Reads settings.site site near) :
    SameInputs settings site output (renderConfig site settings) rendering.files
      (run { settings with mode := .configOnly output } rendering)
      (run { settings with mode := .remote image } far).2
      (run { settings with mode := .here } near).2 := by
  let farSettings := { settings with mode := .remote image }
  let nearSettings := { settings with mode := .here }
  constructor
  case returned => exact render_emits { settings with mode := .configOnly output } rfl reads
  case printed =>
    intro κ ι ρ _ _ _ environment shared a path s asked read
    exact program_emits asked rfl rfl read
  case uploaded =>
    refine run_uploads rfl freshFar fun p s₁ prepared => ?_
    exact (prepare_value prepared readsFar).1
  case handed =>
    intro i started
    obtain ⟨after, t, before, split⟩ := Session.mem_started started
    exact (suite_handed nearSettings rfl freshNear readsNear split).config
  case suits =>
    intro ns job submitted after t i before started
    obtain ⟨names, compiled⟩ := job_compiled farSettings rfl freshFar readsFar submitted
    have handed := suite_handed nearSettings rfl freshNear readsNear started
    exact matches_of_handed settings compiled
      ⟨handed.config, handed.category, handed.without, handed.credentials⟩

/-- Both suites run, and pass. -/
theorem modes_agree_trusting : ∃ site,
    (run { Trusting.settings with mode := .remote "image" } Trusting.start).1 = .value .passed ∧
    (run { Trusting.settings with mode := .here } Trusting.start).1 = .value .passed ∧
    SameInputs Trusting.settings site none (renderConfig site Trusting.settings) {}
      (run { Trusting.settings with mode := .configOnly none } Trusting.start)
      (run { Trusting.settings with mode := .remote "image" } Trusting.start).2
      (run { Trusting.settings with mode := .here } Trusting.start).2 := by
  have found : (Task.withCancel "site lookup" (loadSite Trusting.settings.site)
      Trusting.start).1.value?.isSome = true := by decide +kernel
  obtain ⟨site, read⟩ := Option.isSome_iff_exists.1 found
  have reads : Reads Trusting.settings.site site Trusting.start :=
    ⟨_, Prod.ext (Ending.value?_eq_some.1 read) rfl⟩
  refine ⟨site, by decide +kernel, by decide +kernel, ?_⟩
  exact modes_agree Trusting.settings site "image" none Trusting.fresh Trusting.fresh reads reads
    reads

end Run

end Acceptance
