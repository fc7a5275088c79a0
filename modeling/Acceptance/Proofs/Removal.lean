import Acceptance.Proofs.Agreement
import Acceptance.Proofs.Ends

/-!
# What a run leaves behind

Whatever a remote run makes it removes, unless it never comes to an end.

* `Run.Removed`: a run that made what has its own names, and then removed it;
* `Run.Unanswered`: a run that waits for ever for the answer to a call that makes something;
* `Run.removed_or_stuck`: every run that can make something is one of the two, unless it crashes,
  because the clock cannot show the end of a wait;
* `Run.removes_made`: that, and that the result does not depend on how the removal goes.
-/

namespace Acceptance

variable {σ α β : Type}

/-- The call removes nothing, and what it makes has one of the names. -/
def Call.Within (ns : String) (names : ResourceNames) : Call → Prop
  | .applyConfigMap ns' name .. => ns' = ns ∧ name = names.configMap
  | .createJob ns' job => ns' = ns ∧ job.name = names.job
  | .deleteJob .. | .deleteConfigMap .. => False
  | _ => True

theorem Call.within_of_stage {ns : String} {names : ResourceNames} {call : Call}
    (h : call.stage = .lookup ∨ call.stage = .identity) : call.Within ns names := by
  cases call <;> first | trivial | simp [Call.stage] at h

namespace Task

theorem drawBytes_value {n : Nat} {purpose : String} {s s' : Session σ} {bytes : List UInt8}
    (h : drawBytes n purpose s = (.value bytes, s')) :
    bytes = s.entropy.take n ∧ s' = { s with entropy := s.entropy.drop n } := by
  unfold drawBytes at h
  split at h <;> cases h
  exact ⟨rfl, rfl⟩

theorem drawNames_value {stem : String} {s s' : Session σ} {names : ResourceNames}
    (h : drawNames stem s = (.value names, s')) :
    names = .ofTokens stem (s.epoch + Duration.seconds s.clock.now) (s.entropy.take tokenBytes)
      ((s.entropy.drop tokenBytes).take tokenBytes) := by
  obtain ⟨configToken, s₁, drawn, h⟩ := bind_value h
  obtain ⟨jobToken, s₂, drawn', h⟩ := bind_value h
  obtain ⟨rfl, rfl⟩ := drawBytes_value drawn
  obtain ⟨rfl, rfl⟩ := drawBytes_value drawn'
  cases h
  rfl

end Task

namespace Run

variable [Party σ]

theorem loadSite_keeps {source : SiteSource} {s s' : Session σ} {ending : Ending Site}
    (h : Task.withCancel "site lookup" (loadSite source) s = (ending, s')) :
    s'.epoch = s.epoch ∧ s'.entropy = s.entropy ∧ s'.files = s.files := by
  have load : ∀ g, (loadSite source g s).2.epoch = s.epoch ∧
      (loadSite source g s).2.entropy = s.entropy ∧ (loadSite source g s).2.files = s.files := by
    intro g
    cases source with
    | file path => exact ⟨rfl, rfl, rfl⟩
    | cluster site =>
      have asked : (Task.ask g (.getSite site) s).2.epoch = s.epoch ∧
        (Task.ask g (.getSite site) s).2.entropy = s.entropy ∧
        (Task.ask g (.getSite site) s).2.files = s.files := ⟨rfl, rfl, rfl⟩
      simp only [loadSite, Bind.bind, Task.bind]
      revert asked
      cases Task.ask g (.getSite site) s with
      | mk ending s₁ => cases ending <;> exact id
  unfold Task.withCancel at h
  split at h
  · cases h
    exact ⟨rfl, rfl, rfl⟩
  · have loaded := load { cancellable := true }
    split at h <;> rename_i made
    · rw [made] at loaded
      cases h
      exact loaded
    · rw [h] at loaded
      exact loaded

/-- The names that a run draws for its resources if it does so at `t`. -/
def namesAt (settings : RunSettings) (s : Session σ) (t : Nat) : ResourceNames :=
  .ofTokens (stem settings) (s.epoch + Duration.seconds t) (s.entropy.take tokenBytes)
    ((s.entropy.drop tokenBytes).take tokenBytes)

theorem prepare_names {settings : RunSettings} {image : String} {s s' : Session σ} {p : Prepared}
    (h : prepare settings image s = (.value p, s')) : ∃ t, p.names = namesAt settings s t := by
  obtain ⟨site, s₁, loaded, h⟩ := Task.bind_value h
  obtain ⟨request, s₂, required, h⟩ := Task.bind_value h
  obtain ⟨epoch, entropy, _⟩ := loadSite_keeps loaded
  have same : s₂ = s₁ := (congrArg Prod.snd required).symm
  split at h
  · cases h
  · obtain ⟨names, s₃, drawn, h⟩ := Task.bind_value h
    obtain ⟨available, s₄, _, h⟩ := Task.bind_value h
    cases h
    refine ⟨s₂.clock.now, ?_⟩
    rw [namesAt, ← epoch, ← entropy, ← same]
    exact Task.drawNames_value drawn

/-- The last thing that happened was that a call to make something was made, and its answer never
came; nor will the run be cancelled. -/
def Unanswered (s : Session σ) : Prop :=
  ∃ (call : Call) (t t₀ : Nat) (before : Session σ),
    (call.stage = .upload ∨ call.stage = .submission) ∧
    (Party.react before.party call).1.lasts = none ∧ s.clock.cancelTime = none ∧
    s.events = .abandoned t call :: .asked t₀ call :: before.events

/-- Only for the answer to an upload or a submission does a run wait for ever, and only where the clock
cannot show the end of a wait does it crash. -/
theorem runRemote_ends (settings : RunSettings) (image : String) (names : ResourceNames)
    (text : String) (available : Bool) :
    (runRemote (σ := σ) settings image names text available).Ends Unanswered
      fun s => ¬ settings.observer.InReach s.clock := by
  refine .bind (Task.withCancel_ask_ends fun s s' lasts uncancelled asked => ?_) fun _ => ?_
  · obtain ⟨t, t₀, events⟩ := asked
    exact ⟨_, t, t₀, s, .inl rfl, lasts, uncancelled, events⟩
  refine .bind .ofExcept fun job => ?_
  refine .bind (Task.withCancel_ask_ends fun s s' lasts uncancelled asked => ?_) fun _ => ?_
  · obtain ⟨t, t₀, events⟩ := asked
    exact ⟨_, t, t₀, s, .inr rfl, lasts, uncancelled, events⟩
  exact Observe.observeJob_ends

/-- A run that made things under `names` until `began`, and then removed them: `s` is what is
left. -/
structure Removed (settings : RunSettings) (names : ResourceNames) (began s : Session σ) :
    Prop where
  before : ∀ call ∈ began.started, call.Within settings.namespaceName names
  removal : Cleanup.Removes settings.namespaceName names settings.cleanupTimeout began s

/-- A run that waits for ever, and so removes nothing. -/
structure Stuck (settings : RunSettings) (names : ResourceNames) (ending : Ending RunOutcome)
    (s : Session σ) : Prop where
  pending : ending = .pending
  unanswered : Unanswered s
  unremoved : ∀ call ∈ s.started, call.Within settings.namespaceName names

/-- A run that crashes, because the clock cannot show the end of a wait. -/
structure Crashed (settings : RunSettings) (ending : Ending RunOutcome) (s : Session σ) : Prop where
  crashed : ending = .crashed
  unshown : ¬ settings.observer.InReach s.clock

/-- What is known when a run has made what it makes. -/
theorem prepared_started {settings : RunSettings} {image : String} {s s₁ : Session σ} {p : Prepared}
    (fresh : s.Fresh) (prepared : prepare settings image s = (.value p, s₁)) :
    s₁.clock.horizon = none ∧ ∀ call ∈
      (runRemote settings image p.names p.config p.credentialsAvailable s₁).2.started,
        call.Within settings.namespaceName p.names := by
  have preparing : Session.Onward (Call.Within settings.namespaceName p.names) s _ :=
    prepare_onward settings image (fun _ => Call.within_of_stage) s
  have making : Session.Onward (Call.Within settings.namespaceName p.names) s₁ _ :=
    runRemote_onward settings image p.names p.config p.credentialsAvailable ⟨rfl, rfl⟩
      (fun _ named => ⟨rfl, named⟩) trivial (fun _ => trivial) trivial s₁
  rw [prepared] at preparing
  obtain ⟨calls, started, within⟩ := (preparing.trans making).started
  refine ⟨preparing.horizon.trans fresh.watched, ?_⟩
  rw [started, fresh.started, List.nil_append]
  exact within

/-- What a run does that got ready. -/
theorem removed_or_stuck {settings : RunSettings} {image : String} {s s₁ : Session σ} {p : Prepared}
    (remote : settings.mode = .remote image) (fresh : s.Fresh)
    (prepared : prepare settings image s = (.value p, s₁)) :
    Removed settings p.names (runRemote settings image p.names p.config p.credentialsAvailable s₁).2
        (run settings s).2 ∨
      Stuck settings p.names (run settings s).1 (run settings s).2 ∨
      Crashed settings (run settings s).1 (run settings s).2 := by
  obtain ⟨watched, within⟩ := prepared_started fresh prepared
  obtain ⟨watched', ends⟩ := runRemote_ends settings image p.names p.config
    p.credentialsAvailable s₁ watched
  generalize made : runRemote settings image p.names p.config p.credentialsAvailable s₁ = r
    at within watched' ends ⊢
  obtain ⟨ending, s₂⟩ := r
  rcases ends with finished | ⟨rfl, unanswered⟩ | ⟨rfl, unshown⟩
  · rw [run_over remote prepared made finished watched']
    exact .inl ⟨within, (Cleanup.run_removes _ _ _ watched').2⟩
  · rw [run_unended remote prepared made id]
    exact .inr (.inl ⟨rfl, unanswered, within⟩)
  · rw [run_unended remote prepared made id]
    exact .inr (.inr ⟨rfl, unshown⟩)

/-- The result of a run is that of what comes before the removal. -/
theorem run_result {settings : RunSettings} {image : String}
    (remote : settings.mode = .remote image) {s : Session σ} (fresh : s.Fresh) :
    (run settings s).1 = ((prepare settings image >>= fun p =>
      runRemote settings image p.names p.config p.credentialsAvailable) s).1.map
        fun _ => .passed := by
  simp only [Bind.bind, Task.bind]
  generalize prepared : prepare settings image s = r
  obtain ⟨ending, s₁⟩ := r
  cases ending with
  | value p =>
    have watched := (runRemote_ends settings image p.names p.config p.credentialsAvailable s₁
      (prepared_started fresh prepared).1).1
    dsimp only
    generalize made : runRemote settings image p.names p.config p.credentialsAvailable s₁ = r
      at watched ⊢
    obtain ⟨ending, s₂⟩ := r
    by_cases finished : ending.Over
    · rw [run_over remote prepared made finished watched]
    · rw [run_unended remote prepared made finished]
  | error | cancelled | expired | pending | crashed =>
    rw [run_unprepared remote prepared fun p h => by cases h]
    rfl

end Run

open Run in
/-- A remote run that gets ready makes things under the names that it drew, and then removes them,
unless it waits for ever, as long as the clock can show the ends of its waits. Any other run removes
nothing. How the collaborators react to the removal does not matter to the result. -/
theorem Run.removes_made [P : Party σ] {settings : RunSettings} {image : String}
    (remote : settings.mode = .remote image) {s : Session σ} (fresh : s.Fresh) :
    (∀ p s₁, prepare settings image s = (.value p, s₁) →
      (∃ t, p.names = namesAt settings s t) ∧
      (settings.observer.InReach (run settings s).2.clock →
        Removed settings p.names
            (runRemote settings image p.names p.config p.credentialsAvailable s₁).2
            (run settings s).2 ∨
          Stuck settings p.names (run settings s).1 (run settings s).2)) ∧
    ((∀ p, (prepare settings image s).1 ≠ .value p) →
      ∀ call ∈ (run settings s).2.started, call.stage = .lookup ∨ call.stage = .identity) ∧
    ∀ P' : Party σ, P.AgreeOn (fun call => call.stage ≠ .removal) P' →
      (@run σ P' settings s).1 = (@run σ P settings s).1 := by
  refine ⟨fun p s₁ prepared => ?_, fun unready => ?_, fun P' agree => ?_⟩
  · refine ⟨prepare_names prepared, fun reach => ?_⟩
    rcases removed_or_stuck remote fresh prepared with removed | stuck | crashed
    · exact .inl removed
    · exact .inr stuck
    · exact absurd reach crashed.unshown
  · have preparing :
        Session.Onward (fun call => call.stage = .lookup ∨ call.stage = .identity) s _ :=
      prepare_onward settings image (fun _ => id) s
    obtain ⟨calls, started, asked⟩ := preparing.started
    rw [run_unprepared remote (Prod.eta _).symm unready, started, fresh.started]
    exact asked
  · have preparing : @prepare σ P settings image = @prepare σ P' settings image :=
      prepare_agree agree (by rintro call (h | h) <;> simp [h])
    have making : ∀ names text available, @runRemote σ P settings image names text available =
        @runRemote σ P' settings image names text available :=
      fun _ _ _ => runRemote_agree agree fun _ => id
    rw [@run_result σ P' settings image remote s fresh,
      @run_result σ P settings image remote s fresh, preparing]
    simp only [making]

/-- Where removing takes for ever, a run still passes, and tries to remove what it made. -/
theorem Run.removes_made_willing :
    let s := Willing.start { lasts := fun stage => if stage = .removal then none else some 0 }
    (run Willing.settings s).1 = .value .passed ∧
      ∃ names began, Removed Willing.settings names began (run Willing.settings s).2 := by
  intro s
  have passed : (run Willing.settings s).1 = .value .passed := by decide +kernel
  have fresh : s.Fresh := Willing.fresh _
  obtain ⟨removes, idle, _⟩ :=
    removes_made (show Willing.settings.mode = .remote "image" from rfl) fresh
  have ready : ∃ p, (prepare Willing.settings "image" s).1 = .value p := by
    refine Classical.byContradiction fun unready => ?_
    have calls := idle fun p h => unready ⟨p, h⟩
    revert calls
    decide +kernel
  obtain ⟨p, ready⟩ := ready
  have reach : Willing.settings.observer.InReach (run Willing.settings s).2.clock := by
    constructor <;> decide +kernel
  rcases (removes p _ (Prod.ext ready rfl)).2 reach with removed | stuck
  · exact ⟨passed, _, _, removed⟩
  · cases stuck.pending.symm.trans passed

/-- If the upload hangs and nobody cancels the run, nothing is removed. -/
theorem Run.unremoved_of_hanging :
    let s := Willing.start { lasts := fun stage => if stage = .upload then none else some 0 }
    (∃ call ∈ (run Willing.settings s).2.started, call.stage = .upload) ∧
      ∀ call ∈ (run Willing.settings s).2.started, call.stage ≠ .removal := by
  decide +kernel

end Acceptance
