import Acceptance.Proofs.Cleanup
import Acceptance.Proofs.Container
import Acceptance.Proofs.Order
import Acceptance.Proofs.Provision
import Acceptance.Proofs.Stores
import Acceptance.Proofs.SuiteConfig

/-!
# What a job finds

A job is submitted only when everything that it refers to is in the cluster, and says the same of the
test user as the run has told the identity provider.

* `Run.submission`: what has happened by the time a job is submitted;
* `Run.Resolved`: the document of a job, read in the cluster;
* `Run.job_resolves`: a submitted job finds its configuration and the credentials of the test user.
-/

namespace Acceptance

variable {σ α : Type}

/-! ## The submission in the record -/

/-- A call of this stage is started. -/
def Event.Starts (stage : Stage) (x : Event) : Prop := ∃ t call, x = .asked t call ∧ call.stage = stage

theorem Event.On.not_starts {Q : Call → Prop} {x : Event} {stage : Stage} (h : x.On Q)
    (other : ∀ call, Q call → call.stage ≠ stage) : ¬ x.Starts stage := by
  rintro ⟨t, call, rfl, same⟩
  exact other call h same

theorem Session.Onward.not_starts {Q : Call → Prop} {s s' : Session σ} (h : s.Onward Q s')
    (stage : Stage) (other : ∀ call, Q call → call.stage ≠ stage) :
    ∃ new, s'.events = new ++ s.events ∧ ∀ x ∈ new, ¬ x.Starts stage := by
  obtain ⟨new, events, on⟩ := h.record
  exact ⟨new, events, fun x hx => (on x hx).not_starts other⟩

/-- A call is started once, and its end starts none. -/
theorem Task.ask_starts [Party σ] (g : Guard) (call : Call) (s : Session σ) (stage : Stage) :
    ∃ ended, (∀ x ∈ ended, ¬ Event.Starts stage x) ∧
      (Task.ask g call s).2.events = ended ++ .asked s.clock.now call :: s.events := by
  refine ⟨_, fun x hx => ?_, rfl⟩
  rcases mem_endEvents hx with ⟨_, _, rfl⟩ | rfl | ⟨_, rfl⟩ <;> rintro ⟨_, _, ⟨⟩, _⟩

/-- A call that was started is in the record. -/
theorem Session.not_idle {s : Session σ} {after before : List Event} {t : Nat} {call : Call}
    (started : s.events = after ++ .asked t call :: before) :
    ¬ ∀ x ∈ s.events, ¬ x.Starts call.stage := by
  intro idle
  apply idle (.asked t call)
  · simp [started]
  · exact ⟨t, call, rfl, rfl⟩

/-- A list is split in only one way at the one event of a kind. -/
theorem split_unique {P : Event → Prop} {x y : Event} {after before after' before' : List Event}
    (same : after ++ x :: before = after' ++ y :: before') (later : ∀ z ∈ after, ¬ P z)
    (earlier : ∀ z ∈ before, ¬ P z) (hy : P y) : x = y ∧ before = before' := by
  rcases List.append_eq_append_iff.1 same with ⟨more, -, rest⟩ | ⟨more, rfl, rest⟩
  · cases more with
    | nil =>
      cases rest
      exact ⟨rfl, rfl⟩
    | cons z more =>
      cases rest
      exact absurd hy (earlier y (by simp))
  · cases more with
    | nil =>
      cases rest
      exact ⟨rfl, rfl⟩
    | cons z more =>
      cases rest
      exact absurd hy (later y (by simp))

namespace Run

variable [Party σ] {settings : RunSettings} {image : String}

/-- The upload of the configuration. -/
@[reducible]
def uploadCall (settings : RunSettings) (names : ResourceNames) (text : String) : Call :=
  .applyConfigMap settings.namespaceName names.configMap TestJob.configKey text

/-- The submission itself, and what follows it. -/
theorem submit_submission (ns name : String) (job : TestJob) (observer : ObserverSettings)
    (s : Session σ) :
    let r := (Task.withCancel "job submission" (fun g => Task.ask g (.createJob ns job)) >>=
      fun _ => Observe.observeJob ns name observer) s
    (∃ new, r.2.events = new ++ s.events ∧ ∀ x ∈ new, ¬ x.Starts .submission) ∨
    ∃ later t, (∀ x ∈ later, ¬ x.Starts .submission) ∧
      r.2.events = later ++ .asked t (.createJob ns job) :: s.events := by
  by_cases cancelled : s.clock.cancelled = true
  · simp only [Bind.bind, Task.bind, Task.withCancel_barred cancelled]
    exact .inl ⟨[], rfl, by simp⟩
  · have asked : (Task.withCancel "job submission"
        (fun g => Task.ask g (.createJob ns job)) s).2 = _ := Task.withCancel_session cancelled
    obtain ⟨ended, quiet, events⟩ :=
      Task.ask_starts { cancellable := true } (.createJob ns job) s .submission
    rw [← asked] at events
    right
    simp only [Bind.bind, Task.bind]
    revert events
    obtain ⟨ending, s₁⟩ := Task.withCancel "job submission"
      (fun g => Task.ask g (.createJob ns job)) s
    intro events
    cases ending with
    | value =>
      have confined : Task.Confined (σ := σ) (fun call => call.stage ≠ .submission) (fun _ => True)
          (Observe.observeJob ns name observer) :=
        Observe.observeJob_confined (F := fun _ _ => True) (fun _ _ _ _ => trivial)
          (by simp [Call.stage]) (by simp [Call.stage]) (by simp [Call.stage])
          (fun _ _ _ _ => trivial) (fun _ _ => trivial) (fun _ => trivial) trivial
      obtain ⟨new, events', later⟩ := (confined s₁).1.not_starts .submission fun _ => id
      refine ⟨new ++ ended, s.clock.now, List.forall_mem_append.2 ⟨later, quiet⟩, ?_⟩
      rw [List.append_assoc]
      exact events'.trans (congrArg _ events)
    | error | cancelled | expired | pending | crashed => exact ⟨ended, s.clock.now, quiet, events⟩

/-- No job is submitted, or one that was compiled, right after the upload of the configuration. -/
theorem runRemote_submission (settings : RunSettings) (image : String) (names : ResourceNames)
    (text : String) (available : Bool) (s : Session σ) :
    (∃ new, (runRemote settings image names text available s).2.events = new ++ s.events ∧
      ∀ x ∈ new, ¬ x.Starts .submission) ∨
    ∃ job later t t₁ t₂,
      TestJob.compile (jobDescriptor settings image names available) settings.job = .ok job ∧
      (∀ x ∈ later, ¬ x.Starts .submission) ∧
      (runRemote settings image names text available s).2.events =
        later ++ .asked t (.createJob settings.namespaceName job) ::
          .answered t₁ (uploadCall settings names text) (.ok ()) ::
          .asked t₂ (uploadCall settings names text) :: s.events := by
  have uploads : Task.Confined (σ := σ) (fun call => call.stage ≠ .submission) (fun _ => True)
      (Task.withCancel "config upload" fun g => Task.ask g (uploadCall settings names text)) :=
    .withCancel trivial (.ask (F := fun _ _ => True) (fun _ _ _ _ => trivial) (by simp [Call.stage])
      fun _ _ => trivial)
  have quiet := (uploads s).1.not_starts .submission fun _ => id
  simp only [runRemote, Bind.bind, Task.bind]
  generalize uploaded : Task.withCancel "config upload"
    (fun g => Task.ask g (uploadCall settings names text)) s = r at quiet
  obtain ⟨ending, s₁⟩ := r
  cases ending with
  | value =>
    obtain ⟨t₁, t₂, events⟩ := Task.ask_value (Task.withCancel_value uploaded)
    dsimp only
    cases compiled : TestJob.compile (jobDescriptor settings image names available) settings.job with
    | error e => exact .inl quiet
    | ok job =>
      have submitted := submit_submission settings.namespaceName names.job job settings.observer s₁
      rcases submitted with ⟨new, events', later⟩ | ⟨later, t, following, events'⟩
      · obtain ⟨first, added, none⟩ := quiet
        refine .inl ⟨new ++ first, ?_, List.forall_mem_append.2 ⟨later, none⟩⟩
        rw [List.append_assoc]
        exact events'.trans (congrArg _ added)
      · refine .inr ⟨job, later, t, t₁, t₂, rfl, following, ?_⟩
        exact events'.trans (congrArg (fun events => later ++ _ :: events) events)
  | error | cancelled | expired | pending | crashed => exact .inl quiet

/-- By the time a job is submitted, the run has got ready and uploaded the configuration. -/
theorem submission (remote : settings.mode = .remote image) {s : Session σ} (fresh : s.Fresh)
    {after before : List Event} {t : Nat} {ns : String} {job : TestJob}
    (submitted : (run settings s).2.events = after ++ .asked t (.createJob ns job) :: before) :
    ∃ p s₁ t₁ t₂, prepare settings image s = (.value p, s₁) ∧ ns = settings.namespaceName ∧
      TestJob.compile (jobDescriptor settings image p.names p.credentialsAvailable) settings.job
        = .ok job ∧
      before = .answered t₁ (uploadCall settings p.names p.config) (.ok ()) ::
        .asked t₂ (uploadCall settings p.names p.config) :: s₁.events := by
  have early : ∀ call : Call, call.stage = .lookup ∨ call.stage = .identity →
      call.stage ≠ .submission := by
    rintro call (stage | stage) <;> rw [stage] <;> decide
  have onward := prepare_onward settings image (fun _ => id) s
  obtain ⟨prepared, events, idle⟩ := onward.not_starts .submission early
  rw [fresh.events, List.append_nil] at events
  have watched := onward.horizon.trans fresh.watched
  have impossible := Session.not_idle submitted
  generalize made : prepare settings image s = r at events watched
  obtain ⟨ending, s₁⟩ := r
  dsimp only at events watched
  by_cases ready : ∃ p, ending = .value p
  · obtain ⟨p, rfl⟩ := ready
    have removes : ∀ call : Call, call.stage = .removal → call.stage ≠ .submission := by
      rintro call stage
      rw [stage]
      decide
    obtain ⟨removal, events', later⟩ :=
      (run_onward remote made watched).not_starts .submission removes
    rcases runRemote_submission settings image p.names p.config p.credentialsAvailable s₁ with
      ⟨new, added, none⟩ | ⟨job', following, t', t₁, t₂, compiled, none, added⟩
    · rw [events', added, events] at impossible
      exact absurd (List.forall_mem_append.2 ⟨later, List.forall_mem_append.2 ⟨none, idle⟩⟩) impossible
    · rw [added, ← List.append_assoc] at events'
      have earlier : ∀ x ∈ .answered t₁ (uploadCall settings p.names p.config) (.ok ()) ::
          .asked t₂ (uploadCall settings p.names p.config) :: s₁.events,
          ¬ Event.Starts .submission x := by
        rw [List.forall_mem_cons, List.forall_mem_cons, events]
        refine ⟨?_, ?_, idle⟩ <;> rintro ⟨_, _, ⟨⟩, ⟨⟩⟩
      obtain ⟨same, rfl⟩ := split_unique (events'.symm.trans submitted)
        (List.forall_mem_append.2 ⟨later, none⟩) earlier ⟨t, _, rfl, rfl⟩
      cases same
      exact ⟨p, s₁, t₁, t₂, rfl, rfl, compiled, rfl⟩
  · rw [run_unprepared remote made (by simpa using ready), events] at impossible
    exact absurd idle impossible

end Run

/-! ## What the provider has taken by then -/

/-- The provider has taken the name and the password for a user: it made the user with them, or has
set the password of a user that it knows by the name. -/
def Credentials.Accepted (url realm : String) (calls : List Answered) (c : Credentials) : Prop :=
  (∃ token, ⟨.createUser url token realm c.username c.password, .ok ()⟩ ∈ calls) ∨
  ∃ token user, ⟨.findUser url token realm c.username, .ok (some user)⟩ ∈ calls ∧
    ⟨.resetPassword url token realm user c.password, .ok ()⟩ ∈ calls

theorem Credentials.Accepted.mono {url realm : String} {calls more : List Answered} {c : Credentials}
    (h : c.Accepted url realm calls) (among : ∀ x ∈ calls, x ∈ more) : c.Accepted url realm more := by
  rcases h with ⟨token, made⟩ | ⟨token, user, found, reset⟩
  · exact .inl ⟨token, among _ made⟩
  · exact .inr ⟨token, user, among _ found, among _ reset⟩

namespace Provision

variable {r : IdentityRequest} {calls : List Answered}

theorem Upserted.accepted {token p : String} (h : Upserted r token p calls (.ok ())) :
    Credentials.Accepted r.providerUrl r.realm calls ⟨r.username, p⟩ := by
  generalize same : Except.ok () = result at h
  cases h with
  | @found user result =>
    cases same
    exact .inr ⟨token, user, by simp [findUser], by simp [resetCall]⟩
  | made =>
    cases same
    exact .inl ⟨token, by simp [createCall]⟩
  | lost => cases same
  | @shared search e user result missing conflict =>
    cases same
    exact .inr ⟨token, user, by simp [findUser], by simp [resetCall]⟩

/-- A course in which the secret was written: it is the last call, and what it holds is what the
provider has taken, and was told at all. -/
theorem Ensured.written {result : Except Error Bool} (h : Ensured r calls result) {ns name : String}
    {data : SecretData} (writes : ⟨.applySecret ns name data, .ok ()⟩ ∈ calls) :
    ∃ earlier p, calls = earlier ++ [⟨writeCall r p, .ok ()⟩] ∧
      Credentials.Accepted r.providerUrl r.realm calls ⟨r.username, p⟩ ∧
      ∀ x ∈ calls, ∀ q, x.call.password? = some q → q = p := by
  obtain ⟨p', given, holds⟩ := h.shape.password
  obtain ⟨token, p, written, same, -, before, user, rfl, upserted⟩ := h.shape.written writes rfl
  have last : (⟨.applySecret ns name data, .ok ()⟩ : Answered) = ⟨writeCall r p, .ok ()⟩ := by
    cases same
    rfl
  have both : writeCall r p = writeCall r p' := (congrArg Answered.call last).symm.trans
    (holds _ writes rfl)
  have password : p' = p := by
    simp only [writeCall, Call.applySecret.injEq, true_and] at both
    have stored := congrArg (Dict.get? · Credentials.passwordKey) both
    simpa [Stores.get?_password] using stored.symm
  rw [last] at given ⊢
  refine ⟨before ++ user, p, (List.append_assoc _ _ _).symm, upserted.accepted.mono ?_, password ▸ given⟩
  intro x hx
  simp [hx]

end Provision

/-- The call goes to this provider, and is about this realm and these credentials where it names
any. -/
def Call.About (url realm : String) (c : Credentials) : Call → Prop
  | .adminToken url' _ _ => url' = url
  | .findUser url' _ realm' user => url' = url ∧ realm' = realm ∧ user = c.username
  | .createUser url' _ realm' user password =>
    url' = url ∧ realm' = realm ∧ user = c.username ∧ password = c.password
  | .resetPassword url' _ realm' _ password => url' = url ∧ realm' = realm ∧ password = c.password
  | _ => True

theorem Provision.Addresses.about {r : IdentityRequest} {p : String} {call : Call}
    (h : Addresses r call) (given : ∀ q, call.password? = some q → q = p) :
    call.About r.providerUrl r.realm ⟨r.username, p⟩ := by
  cases call with
  | adminToken | findUser => exact h
  | createUser => exact ⟨h.1, h.2.1, h.2.2, given _ rfl⟩
  | resetPassword => exact ⟨h.1, h.2, given _ rfl⟩
  | _ => trivial

theorem Call.about_of_stage {url realm : String} {c : Credentials} {call : Call}
    (h : call.stage ≠ .identity) : call.About url realm c := by
  cases call <;> simp [About, stage] at h ⊢

/-- What the configuration says of the identity provider and of the test user. -/
theorem SuiteConfig.auth_of_render (site : Site) (context : RunContext) :
    ∃ tree entries : Toml.Tree, Toml.read? (render site context) = some tree ∧
      tree.get? "auth" = some (.table entries) ∧
      entries.get? "url" = some (.string (context.identityProviderUrl.getD "")) ∧
      entries.get? "realm" = some (.string context.realm) ∧
      entries.get? "username" = some (.string context.username) := by
  have text : (render site context).toList = (document site context).chars := by
    simp [render, Toml.Document.text]
  refine ⟨meaning site context, _, ?_, rfl, rfl, rfl, rfl⟩
  rw [Toml.read?, text, Toml.expressions?_chars (document_named site context), Option.bind_some]
  exact assemble?_document site context

/-- The configuration, if the call uploads it, is this text. -/
def Call.Uploads (text : String) : Call → Prop
  | .applyConfigMap _ _ _ data => data = text
  | _ => True

theorem Call.uploads_of_stage {text : String} {call : Call} (h : call.stage ≠ .upload) :
    call.Uploads text := by
  cases call <;> simp [Uploads, stage] at h ⊢

/-- The calls that were answered are of the kind of all of them. -/
theorem Turn.Only.answered {Q : Call → Prop} {turns : List Turn} (h : Turn.Only Q turns) :
    ∀ x ∈ turns.filterMap Turn.answered?, Q x.call := by
  intro x hx
  obtain ⟨turn, among, told⟩ := List.mem_filterMap.1 hx
  obtain ⟨_, _, rfl⟩ := Option.map_eq_some_iff.1 told
  exact h turn among

namespace Run

/-- The turns about a test user whose secret was written in them. -/
theorem Provisioned.written {settings : RunSettings} {site : Site} {turns : List Turn}
    (h : Provisioned settings site turns) {ns name : String} {data : SecretData}
    (writes : ⟨.applySecret ns name data, .ok ()⟩ ∈ turns.filterMap Turn.answered?) :
    site.identityProviderEnabled = true ∧ ∃ request earlier password,
      identityRequest site settings = .ok (some request) ∧
      turns.filterMap Turn.answered? =
        earlier ++ [⟨Provision.writeCall request password, .ok ()⟩] ∧
      Credentials.Accepted request.providerUrl request.realm (turns.filterMap Turn.answered?)
        ⟨request.username, password⟩ ∧
      ∀ x ∈ turns, x.call.About request.providerUrl request.realm ⟨request.username, password⟩ := by
  unfold Provisioned at h
  split at h
  · rename_i enabled
    obtain ⟨request, calls, new, requested, -, rfl, transcript⟩ := h
    rw [Answered.filterMap_turn] at writes ⊢
    have ensured := Provision.ensure_ensured transcript
    obtain ⟨earlier, password, course, accepted, given⟩ := ensured.written writes
    refine ⟨enabled, request, earlier, password, requested, course, accepted, fun x hx => ?_⟩
    obtain ⟨y, asked, rfl⟩ := List.mem_map.1 hx
    exact (ensured.addresses y asked).about (given y asked)
  · rw [h] at writes
    cases writes

theorem SiteRead.only {files : Files} {source : SiteSource} {turns : List Turn} {site : Option Site}
    (h : SiteRead files source turns site) : Turn.Only (·.stage = .lookup) turns := by
  cases h with
  | missing | file => exact .nil
  | asked | found => exact .one rfl

/-- The secret is not written where the site is looked up. -/
theorem written_later {lookup identity : List Turn} (looks : Turn.Only (·.stage = .lookup) lookup)
    {ns name : String} {data : SecretData} (writes : ⟨.applySecret ns name data, .ok ()⟩ ∈
      lookup.filterMap Turn.answered? ++ identity.filterMap Turn.answered?) :
    ⟨.applySecret ns name data, .ok ()⟩ ∈ identity.filterMap Turn.answered? := by
  refine (List.mem_append.1 writes).resolve_left fun there => ?_
  cases looks.answered _ there

/-- What a preparation leaves behind that has written the credential secret: its last call wrote
what the provider has taken, and all calls were about the identity that the configuration names. -/
structure Supplied (settings : RunSettings) (site : Site) (request : IdentityRequest)
    (password : String) (p : Prepared) (s : Session σ) : Prop where
  requested : identityRequest site settings = .ok (some request)
  config : p.config = renderConfig site settings
  available : p.credentialsAvailable = true
  written : ∃ earlier, s.answered = earlier ++ [⟨Provision.writeCall request password, .ok ()⟩]
  accepted : Credentials.Accepted request.providerUrl request.realm s.answered
    ⟨request.username, password⟩
  addresses : ∀ call ∈ s.started,
    call.About request.providerUrl request.realm ⟨request.username, password⟩

variable [Party σ] {settings : RunSettings} {image : String}

theorem prepare_supplied {s s₁ : Session σ} (fresh : s.Fresh) {p : Prepared}
    (prepared : prepare settings image s = (.value p, s₁)) {ns name : String} {data : SecretData}
    (provisioned : ⟨.applySecret ns name data, .ok ()⟩ ∈ s₁.answered) :
    ∃ site request password, Supplied settings site request password p s₁ := by
  obtain ⟨_, took, found, lookup, identity, rfl, looks, unread, read⟩ :=
    prepare_does (s := s) settings image
  rw [prepared] at took unread read
  have answered := took.answered
  rw [fresh.answered, List.nil_append, List.filterMap_append] at answered
  have started := took.started
  rw [fresh.started, List.nil_append, List.map_append] at started
  have writes := written_later looks.only (answered ▸ provisioned)
  cases found with
  | none => cases (unread rfl).2
  | some site =>
    have preparation := read site rfl
    have seen := preparation.provisioned (Option.some_ne_none p)
    obtain ⟨enabled, request, earlier, password, requested, same, accepted, about⟩ :=
      seen.written writes
    rw [same] at answered
    refine ⟨site, request, password, requested, preparation.config p rfl,
      (preparation.available p rfl).trans enabled,
      ⟨lookup.filterMap Turn.answered? ++ earlier, ?_⟩, ?_, ?_⟩
    · rw [answered, List.append_assoc]
    · rw [answered]
      exact accepted.mono fun x hx => List.mem_append_right _ (same ▸ hx)
    · intro call among
      rw [started] at among
      rcases List.mem_append.1 among with among | among
      · obtain ⟨turn, looked, rfl⟩ := List.mem_map.1 among
        exact Call.about_of_stage (by simp [looks.only turn looked])
      · obtain ⟨turn, asked, rfl⟩ := List.mem_map.1 among
        exact about turn asked

/-- What a prepared run asks from then on: nothing more about the identity, and no other text is
uploaded. -/
theorem run_afterwards (remote : settings.mode = .remote image) {s s₁ : Session σ} {p : Prepared}
    (prepared : prepare settings image s = (.value p, s₁)) (watched : s₁.clock.horizon = none) :
    s₁.Onward (fun call => call.stage ≠ .identity ∧ call.Uploads p.config) (run settings s).2 := by
  have removes : ∀ call : Call, call.stage = .removal →
      call.stage ≠ .identity ∧ call.Uploads p.config := by
    intro call stage
    refine ⟨by simp [stage], Call.uploads_of_stage (by simp [stage])⟩
  refine .trans ?_ ((run_onward remote prepared watched).mono removes)
  apply runRemote_onward settings image p.names p.config p.credentialsAvailable <;>
    simp [Call.stage, Call.Uploads]

/-- What is uploaded in a run is the text that it has prepared. -/
theorem run_uploads (remote : settings.mode = .remote image) {s : Session σ} (fresh : s.Fresh)
    {text : String} (rendered : ∀ p s₁, prepare settings image s = (.value p, s₁) → p.config = text) :
    ∀ call ∈ (run settings s).2.started, call.Uploads text := by
  have onward := prepare_onward (Q := fun call => call.stage = .lookup ∨ call.stage = .identity)
    settings image (fun _ => id) s
  obtain ⟨early, started, asks⟩ := onward.started
  rw [fresh.started, List.nil_append] at started
  have before : ∀ call ∈ early, call.Uploads text := by
    intro call among
    apply Call.uploads_of_stage
    rcases asks call among with stage | stage <;> rw [stage] <;> decide
  have watched := onward.horizon.trans fresh.watched
  generalize made : prepare settings image s = r at started watched
  obtain ⟨ending, s₁⟩ := r
  by_cases ready : ∃ p, ending = .value p
  · obtain ⟨p, rfl⟩ := ready
    obtain ⟨late, started', asks'⟩ := (run_afterwards remote made watched).started
    rw [started', started]
    intro call among
    rcases List.mem_append.1 among with among | among
    · exact before call among
    · exact rendered p s₁ made ▸ (asks' call among).2
  · rw [run_unprepared remote made (by simpa using ready)]
    exact started ▸ before

/-- What a job comes to: the file with its configuration, and the identity that both it and the
configuration name. -/
structure Delivery where
  path : String
  text : String
  url : String
  realm : String
  credentials : Credentials

/-- A job that finds all that it refers to: the document, read among the resources after the calls
that were answered by its submission, with regard to all the calls of the run. -/
structure Resolved (settings : RunSettings) (initial : Resources) (answers : List Answered)
    (calls : List Call) (job : Json) (d : Delivery) : Prop where
  namespaceName : job.textAt? ["metadata", "namespace"] = some settings.namespaceName
  /-- An empty category adds nothing, any other is one argument. -/
  arguments : Container.arguments? job = some (["--vip-config", d.path] ++
    if settings.category = "" then [] else ["-m", settings.category])
  /-- The text was uploaded, and no other text ever is. -/
  uploaded : ∃ name key,
    ⟨.applyConfigMap settings.namespaceName name key d.text, .ok ()⟩ ∈ answers
  uploads : ∀ call ∈ calls, call.Uploads d.text
  files : Container.files? (initial.after answers) job = some [(d.path, d.text)]
  /-- The configuration says where every call about the identity goes to, and whom it is about. -/
  auth : ∃ tree entries : Toml.Tree, Toml.read? d.text = some tree ∧
    tree.get? "auth" = some (.table entries) ∧ entries.get? "url" = some (.string d.url) ∧
    entries.get? "realm" = some (.string d.realm) ∧
    entries.get? "username" = some (.string d.credentials.username)
  addresses : ∀ call ∈ calls, call.About d.url d.realm d.credentials
  accepted : d.credentials.Accepted d.url d.realm answers
  environment : Container.environment? (initial.after answers) job = some
    [("VIP_TEST_USERNAME", d.credentials.username), ("VIP_TEST_PASSWORD", d.credentials.password)]

omit [Party σ] in
/-- What the resources are for a job whose submission comes right after the upload, in a run that
has written the credential secret. -/
theorem after_upload {site : Site} {request : IdentityRequest}
    {password : String} {p : Prepared} {s : Session σ}
    (supplied : Supplied settings site request password p s) (initial : Resources)
    (names : ResourceNames) (text : String) :
    let r := initial.after (s.answered ++ [⟨uploadCall settings names text, .ok ()⟩])
    r.configMaps settings.namespaceName names.configMap = some (.ofList [(TestJob.configKey, text)]) ∧
    r.secrets request.namespaceName request.credentialSecret =
      some (Credentials.toData ⟨request.username, password⟩) := by
  intro r
  obtain ⟨earlier, written⟩ := supplied.written
  constructor
  · simp [r, Resources.after_append, Resources.after, Resources.publish]
  · have kept : r.secrets = (initial.after s.answered).secrets := by
      simp only [r, Resources.after_append]
      exact Resources.after_secrets (by simp)
    rw [kept, written, Resources.after_append]
    simp [Resources.after, Resources.publish, Provision.writeCall]

omit [Party σ] in
/-- A job that is compiled for what the run has written, and submitted right after the upload. -/
theorem Supplied.resolves {site : Site} {request : IdentityRequest} {password : String}
    {p : Prepared} {s : Session σ} (supplied : Supplied settings site request password p s)
    {job : TestJob} (compiled : TestJob.compile
      (jobDescriptor settings image p.names p.credentialsAvailable) settings.job = .ok job)
    {calls : List Call} (uploads : ∀ call ∈ calls, call.Uploads p.config)
    (about : ∀ call ∈ calls,
      call.About request.providerUrl request.realm ⟨request.username, password⟩)
    (initial : Resources) :
    Resolved settings initial (s.answered ++ [⟨uploadCall settings p.names p.config, .ok ()⟩]) calls
      job.toJson ⟨TestJob.configPath, p.config, request.providerUrl, request.realm,
        ⟨request.username, password⟩⟩ := by
  obtain rfl := TestJob.compile_ok compiled
  obtain ⟨configMaps, secrets⟩ := after_upload supplied initial p.names p.config
  obtain ⟨url, resolved, rfl⟩ := identityRequest_some supplied.requested
  constructor
  case namespaceName => exact TestJob.namespace_toJson _
  case arguments =>
    rw [TestJob.arguments?_toJson]
    simp [TestCommand.arguments, jobDescriptor]
  case uploaded => exact ⟨_, _, List.mem_append_right _ (List.mem_singleton_self _)⟩
  case uploads => exact uploads
  case files =>
    rw [TestJob.files?_toJson]
    exact congrArg (Option.map _) configMaps
  case auth =>
    rw [supplied.config]
    have known : (context site settings).identityProviderUrl.getD "" = url := by
      simp [context, resolved, Except.toOption]
    obtain ⟨tree, entries, reads, table, urlEntry, others⟩ :=
      SuiteConfig.auth_of_render site (context site settings)
    rw [known] at urlEntry
    exact ⟨tree, entries, reads, table, urlEntry, others⟩
  case addresses => exact about
  case accepted => exact supplied.accepted.mono fun x hx => List.mem_append_left _ hx
  case environment =>
    rw [TestJob.environment?_toJson]
    simp [jobDescriptor, supplied.available, TestJob.variablesOf, secrets, Stores.get?_username,
      Stores.get?_password, TestCommand.usernameVariable, TestCommand.passwordVariable]

/-- Whatever is answered, a job that a run submits after it wrote the credential secret resolves to
what the run published, in any cluster. -/
theorem job_resolves (remote : settings.mode = .remote image) {s : Session σ}
    (fresh : s.Fresh) {after before : List Event} {t : Nat} {ns : String} {job : TestJob}
    (submitted : (run settings s).2.events = after ++ .asked t (.createJob ns job) :: before)
    {ns' name : String} {data : SecretData}
    (provisioned : ⟨.applySecret ns' name data, .ok ()⟩ ∈ (run settings s).2.answered)
    (initial : Resources) :
    ∃ d, Resolved settings initial (before.filterMap Event.answered?).reverse
      (run settings s).2.started job.toJson d := by
  obtain ⟨p, s₁, t₁, t₂, prepared, rfl, compiled, rfl⟩ := submission remote fresh submitted
  have onward := prepare_onward (Q := fun _ => True) settings image (fun _ _ => trivial) s
  rw [prepared] at onward
  have afterwards := run_afterwards remote prepared (onward.horizon.trans fresh.watched)
  obtain ⟨late, started, asked⟩ := afterwards.started
  obtain ⟨answers, answered, others⟩ := afterwards.answered
  -- The secret was written before the job was thought of.
  have writes : ⟨.applySecret ns' name data, .ok ()⟩ ∈ s₁.answered := by
    rw [answered] at provisioned
    exact (List.mem_append.1 provisioned).resolve_right fun there => (others _ there).1 rfl
  obtain ⟨site, request, password, supplied⟩ := prepare_supplied fresh prepared writes
  have uploads : ∀ call ∈ (run settings s).2.started, call.Uploads p.config := by
    refine run_uploads remote fresh fun p' s' same => ?_
    cases prepared.symm.trans same
    rfl
  have about : ∀ call ∈ (run settings s).2.started,
      call.About request.providerUrl request.realm ⟨request.username, password⟩ := by
    intro call among
    rw [started] at among
    rcases List.mem_append.1 among with among | among
    · exact supplied.addresses call among
    · exact Call.about_of_stage (asked call among).1
  have record : (List.filterMap Event.answered?
      (.answered t₁ (uploadCall settings p.names p.config) (.ok ()) ::
        .asked t₂ (uploadCall settings p.names p.config) :: s₁.events)).reverse =
      s₁.answered ++ [⟨uploadCall settings p.names p.config, .ok ()⟩] := by
    simp [Session.answered, List.filterMap_cons, Event.answered?]
  rw [record]
  exact ⟨_, supplied.resolves compiled uploads about initial⟩

end Run

/-- Collaborators that refuse nothing, for a site with an identity provider. -/
structure Trusting where

namespace Trusting

def answer : (call : Call) → call.Answer
  | .getSite _ => .object [("spec", .object [("domain", .string "example.org"),
      ("auth", .object [("enabled", .bool true)])])]
  | call => Willing.answer call

instance : Party Trusting where
  react p call := ({ answer := .ok (answer call) }, p)

/-- A remote run of one category of tests. -/
def settings : RunSettings := { Willing.settings with category := "smoke tests" }

def start : Session Trusting where
  party := {}
  entropy := List.replicate (2 * tokenBytes + Password.bufferSize) 0

theorem fresh : start.Fresh := ⟨rfl, rfl⟩

end Trusting

/-- The one job of a run for a site with an identity provider, in a cluster that was empty. -/
theorem Run.job_resolves_trusting : ∃ after t ns job before ns' name data d,
    (run Trusting.settings Trusting.start).2.events = after ++ .asked t (.createJob ns job) :: before ∧
    ⟨.applySecret ns' name data, .ok ()⟩ ∈ (run Trusting.settings Trusting.start).2.answered ∧
    Resolved Trusting.settings {} (before.filterMap Event.answered?).reverse
      (run Trusting.settings Trusting.start).2.started job.toJson d := by
  have writes : ((run Trusting.settings Trusting.start).2.answered.any fun x =>
      x.call.writes && x.error?.isNone) = true := by decide +kernel
  have submits : ((run Trusting.settings Trusting.start).2.events.any fun x =>
      (Event.started? x).any (·.stage == .submission)) = true := by decide +kernel
  obtain ⟨⟨call, answer⟩, among, written⟩ := List.any_eq_true.1 writes
  obtain ⟨x, there, submitted⟩ := List.any_eq_true.1 submits
  obtain ⟨after, before, split⟩ := List.append_of_mem there
  cases x with
  | asked t call' =>
    cases call' with
    | createJob ns job =>
      cases call with
      | applySecret ns' name data =>
        cases answer with
        | ok =>
          obtain ⟨d, resolved⟩ := job_resolves rfl Trusting.fresh split among {}
          exact ⟨after, t, ns, job, before, ns', name, data, d, split, among, resolved⟩
        | error => simp [Answered.error?] at written
      | _ => simp [Call.writes] at written
    | _ => simp [Event.started?, Call.stage] at submitted
  | _ => simp [Event.started?] at submitted

end Acceptance
