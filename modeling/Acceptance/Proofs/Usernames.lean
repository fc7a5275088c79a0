import Acceptance.Proofs.Modes

/-!
# The name of the test user

The suite hears it twice on this machine: in the configuration, which takes it from the settings, and
with the credentials, which come from the secret.

* `SuiteConfig.username?`: the name in a configuration;
* `LocalInvocation.OneUsername`: the suite hears the same name twice;
* `Run.Told`, `Run.suite_told`: when it does.
-/

namespace Acceptance

/-- The test user that a configuration names. -/
def SuiteConfig.username? (text : String) : Option String :=
  match (Toml.read? text).bind (·.get? "auth") with
  | some (.table entries) =>
    match Toml.Tree.get? entries "username" with
    | some (.string name) => some name
    | _ => none
  | _ => none

theorem SuiteConfig.username?_render (site : Site) (context : RunContext) :
    username? (render site context) = some context.username := by
  obtain ⟨tree, entries, reads, auth, -, -, username⟩ := auth_of_render site context
  simp only [username?, reads, Option.bind_some, auth, username]

/-- The credentials that the suite is handed are for the test user that its configuration names. -/
def LocalInvocation.OneUsername (i : LocalInvocation) : Prop :=
  ∃ name, i.credentials.map (·.username) = some name ∧
    i.config.bind SuiteConfig.username? = some name

namespace Run

variable {σ : Type} {settings : RunSettings} {site : Site}

/-- The name in the secret is all that counts: the one in the configuration is that of the settings. -/
theorem Handed.oneUsername_iff {i : LocalInvocation} {before : List Event}
    (handed : Handed settings (renderConfig site settings) true i before) :
    ∃ t data, before.head? = some (.answered t
        (.getSecret settings.namespaceName settings.credentialSecret) (.ok (some data))) ∧
      (i.OneUsername ↔ data.get? Credentials.usernameKey = some settings.testUser) := by
  obtain ⟨t, data, c, given, read, holds⟩ := handed.credentials rfl
  have named : i.config.bind SuiteConfig.username? = some settings.testUser := by
    rw [handed.config, Option.bind_some]
    exact SuiteConfig.username?_render site (context site settings)
  refine ⟨t, data, read, ?_⟩
  rw [(Credentials.ofData_ok holds).1, LocalInvocation.OneUsername, given, named]
  simp [eq_comm]

variable [Party σ] {s : Session σ}

/-- What is left of the preparation once the site is read. -/
theorem prepareHere_site (settings : RunSettings) (site : Site) :
    (Task.ofExcept (identityRequest site settings) >>= fun request => provision request >>=
      fun available => pure (renderConfig site settings, available)).Does s
        fun new o => o ≠ none → Provisioned settings site new := by
  cases requested : identityRequest site settings with
  | error e => exact ⟨[], .refl s, fun value => absurd rfl value⟩
  | ok request =>
    have provided := (provision_provides requested (s := s)).bind fun available s' =>
      Task.Does.pure (renderConfig site settings, available) s'
    refine provided.mono ?_
    rintro new o (⟨available, ⟨-, -, ends⟩, rfl, -⟩ | -) value
    · rw [List.append_nil]
      exact (ends available rfl).2
    · exact absurd rfl value

theorem prepareHere_does (settings : RunSettings) :
    (prepareHere settings).Does s fun new o => o ≠ none → ∃ site lookup identity,
      new = lookup ++ identity ∧ Turn.Only (·.stage = .lookup) lookup ∧
        Provisioned settings site identity := by
  have read : (Task.withCancel "site lookup" (loadSite settings.site)).Does s _ :=
    .withCancel (loadSite_does settings.site _)
  refine (read.bind fun site _ => prepareHere_site settings site).mono ?_
  rintro new o (⟨site, (looked | ⟨-, none⟩), provisioned⟩ | -) value
  · exact ⟨site, _, _, rfl, looked.only, provisioned value⟩
  · cases none
  · exact absurd rfl value

/-- If the preparation writes a secret, that is its last call, and puts the test user of the settings
into it. -/
theorem prepareHere_written (fresh : s.Fresh) {p : String × Bool} {s₁ : Session σ}
    (made : prepareHere settings s = (.value p, s₁)) {ns name : String} {data : SecretData}
    (writes : ⟨.applySecret ns name data, .ok ()⟩ ∈ s₁.answered) :
    ∃ earlier password, s₁.answered = earlier ++ [⟨.applySecret settings.namespaceName
      settings.credentialSecret (Credentials.toData ⟨settings.testUser, password⟩), .ok ()⟩] := by
  obtain ⟨new, took, shape⟩ := prepareHere_does (s := s) settings
  rw [made] at took shape
  obtain ⟨site, lookup, identity, rfl, looked, provisioned⟩ := shape (Option.some_ne_none p)
  have answered := took.answered
  rw [fresh.answered, List.nil_append, List.filterMap_append] at answered
  obtain ⟨-, request, earlier, password, requested, same, -⟩ :=
    provisioned.written (written_later looked (answered ▸ writes))
  obtain ⟨url, -, rfl⟩ := identityRequest_some requested
  refine ⟨lookup.filterMap Turn.answered? ++ earlier, password, ?_⟩
  rw [answered, same, List.append_assoc]

/-- How the suite hears of the test user that is started on this machine after the events, with this
in the credential secret. -/
structure Told (settings : RunSettings) (i : LocalInvocation) (before : List Event)
    (data : SecretData) : Prop where
  read : ∃ t, before.head? = some (.answered t
    (.getSecret settings.namespaceName settings.credentialSecret) (.ok (some data)))
  one_iff : i.OneUsername ↔ data.get? Credentials.usernameKey = some settings.testUser
  /-- If the run has written a secret, and the cluster has given back what it holds, it is one name. -/
  provisioned :
    (∃ ns name written, ⟨.applySecret ns name written, .ok ()⟩ ∈
      (before.filterMap Event.answered?).reverse) →
    ∀ initial : Resources,
      (initial.after (before.filterMap Event.answered?).reverse).secrets settings.namespaceName
        settings.credentialSecret = some data → i.OneUsername

/-- The suite hears one name exactly if the secret has the test user of the settings: always after a
run that wrote the secret itself, but not always after one that found it. -/
theorem suite_told (settings : RunSettings) (here : settings.mode = .here) (fresh : s.Fresh)
    (reads : Reads settings.site site s) (enabled : site.identityProviderEnabled = true)
    {after before : List Event} {t : Nat} {i : LocalInvocation}
    (started : (run settings s).2.events = after ++ .asked t (.runTests i) :: before) :
    ∃ data, Told settings i before data := by
  have handed := suite_handed settings here fresh reads started
  rw [enabled] at handed
  obtain ⟨t', data, read, one_iff⟩ := handed.oneUsername_iff
  refine ⟨data, ⟨t', read⟩, one_iff, ?_⟩
  rintro ⟨ns, name, written, writes⟩ initial stored
  obtain ⟨p, s₁, credentials, s₂, made, looked, -, -, rfl⟩ := launch here fresh started
  have available : p.2 = true := by rw [prepareHere_value made reads, enabled]
  rw [available] at looked
  obtain ⟨t₁, t₀, data', c, events, -, -⟩ := localCredentials_available looked
  rw [events] at read
  cases read
  -- The secret is read after it was written, and nothing else is asked in between.
  have answers : (s₂.events.filterMap Event.answered?).reverse = s₁.answered ++
      [⟨.getSecret settings.namespaceName settings.credentialSecret, .ok (some data)⟩] := by
    simp [events, Session.answered, List.filterMap_cons, Event.answered?]
  rw [answers] at writes stored
  have wrote := (List.mem_append.1 writes).resolve_right (by simp)
  obtain ⟨earlier, password, same⟩ := prepareHere_written fresh made wrote
  have holds : some (Credentials.toData ⟨settings.testUser, password⟩) = some data := by
    rw [← stored, same]
    simp [Resources.after, Resources.publish]
  cases holds
  exact one_iff.2 (Stores.get?_username _)

end Run

/-- Collaborators that refuse nothing, for a site with an identity provider, in a cluster that keeps
the credential secret. -/
structure Keeping where
  secret : Option SecretData := none

namespace Keeping

instance : Party Keeping where
  react p call :=
    match call with
    | .secretExists .. => ({ answer := .ok p.secret.isSome }, p)
    | .getSecret _ name =>
      ({ answer := .ok (if name = Trusting.settings.credentialSecret then p.secret
          else some (Credentials.toData ⟨"admin", "secret"⟩)) }, p)
    | .applySecret _ _ data => ({ answer := .ok () }, ⟨some data⟩)
    | call => ({ answer := .ok (Trusting.answer call) }, p)

def settings : RunSettings := { Trusting.settings with mode := .here }

def start (secret : Option SecretData) : Session Keeping where
  party := ⟨secret⟩
  entropy := List.replicate Password.bufferSize 0

theorem fresh (secret : Option SecretData) : (start secret).Fresh := ⟨rfl, rfl⟩

/-- Who the credentials of the suite are for that a run started among them. -/
def user? : Event → Option String
  | .asked _ (.runTests i) => i.credentials.map (·.username)
  | _ => none

/-- A run that starts the suite with credentials for this user. -/
theorem starts (secret : Option SecretData) (name : String)
    (heard : (Run.run settings (start secret)).2.events.filterMap user? = [name]) :
    ∃ site after t i before, Run.Reads settings.site site (start secret) ∧
      site.identityProviderEnabled = true ∧
      (Run.run settings (start secret)).2.events = after ++ .asked t (.runTests i) :: before ∧
      i.credentials.map (·.username) = some name := by
  have among : name ∈ (Run.run settings (start secret)).2.events.filterMap user? := by
    rw [heard]
    exact List.mem_singleton_self name
  obtain ⟨x, there, told⟩ := List.mem_filterMap.1 among
  obtain ⟨after, before, split⟩ := List.append_of_mem there
  cases x with
  | asked t call =>
    cases call with
    | runTests i => exact ⟨_, after, t, i, before, ⟨_, rfl⟩, rfl, split, told⟩
    | _ => cases told
  | _ => cases told

end Keeping

namespace Run

/-- A run that makes the test user starts the suite, which hears one name. -/
theorem suite_told_keeping : ∃ site after t i before data,
    Reads Keeping.settings.site site (Keeping.start none) ∧ site.identityProviderEnabled = true ∧
    (run Keeping.settings (Keeping.start none)).2.events = after ++ .asked t (.runTests i) :: before ∧
    Told Keeping.settings i before data ∧ i.credentials.map (·.username) = some "vip-tester" := by
  obtain ⟨site, after, t, i, before, reads, enabled, started, named⟩ :=
    Keeping.starts none "vip-tester" (by decide +kernel)
  obtain ⟨data, told⟩ :=
    suite_told Keeping.settings rfl (Keeping.fresh none) reads enabled started
  exact ⟨site, after, t, i, before, data, reads, enabled, started, told, named⟩

/-- A run that finds the secret of another test user starts the suite with both names. -/
theorem not_one_username : ¬ ∀ (settings : RunSettings) (s : Session Keeping) (site : Site)
    (after before : List Event) (t : Nat) (i : LocalInvocation), settings.mode = .here → s.Fresh →
    Reads settings.site site s → site.identityProviderEnabled = true →
    (run settings s).2.events = after ++ .asked t (.runTests i) :: before → i.OneUsername := by
  intro always
  let secret := Credentials.toData ⟨"alice", "password"⟩
  obtain ⟨site, after, t, i, before, reads, enabled, started, named⟩ :=
    Keeping.starts (some secret) "alice" (by decide +kernel)
  have fresh := Keeping.fresh (some secret)
  obtain ⟨name, given, configured⟩ :=
    always Keeping.settings _ site after before t i rfl fresh reads enabled started
  have handed := suite_handed Keeping.settings rfl fresh reads started
  rw [handed.config, Option.bind_some, renderConfig, SuiteConfig.username?_render] at configured
  rw [named] at given
  have both : some "vip-tester" = some "alice" := configured.trans given.symm
  revert both
  decide

end Run

end Acceptance
