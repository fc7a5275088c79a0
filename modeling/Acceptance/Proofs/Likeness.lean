import Acceptance.Proofs.Cleanup

/-!
# Two runs side by side

Two runs go the same way as long as they start alike and are told alike. What it means to be alike is
left open: a relation between sessions that shows at least the clock and the files.

* `Relates`: two parts of a run that come to the same, and the relation that they leave;
* `Pairs`: two tasks whose values may differ in what the rest of the run does not show;
* `Session.Likeness`: what a relation between sessions has to keep;
* the `_relates` theorems: the parts of a remote run go the same way if their calls do.
-/

namespace Acceptance

variable {σ α β γ : Type}

/-- From sessions that `R` relates, `f'` comes to the same as `f` and leaves sessions that `R'`
relates. -/
def Relates (R R' : Session σ → Session σ → Prop) (f f' : Session σ → β × Session σ) : Prop :=
  ∀ s s', R s s' → (f' s').1 = (f s).1 ∧ R' (f s).2 (f' s').2

/-- A relation between sessions that shows the clock and the files, and that neither the passing of
time nor a warning ends. -/
structure Session.Likeness (R : Session σ → Session σ → Prop) : Prop where
  clock {s s' : Session σ} : R s s' → s'.clock = s.clock
  files {s s' : Session σ} : R s s' → s'.files = s.files
  moved {s s' : Session σ} (clock : Clock) : R s s' → R { s with clock } { s' with clock }
  warned {s s' : Session σ} (w : Warning) : R s s' → R (Task.warn w s).2 (Task.warn w s').2

/-- Two endings with values that `V` relates, or the same ending without a value. -/
inductive Ending.Paired (V : α → α → Prop) : Ending α → Ending α → Prop where
  | value {a a' : α} (related : V a a') : Paired V (.value a) (.value a')
  | same {ending : Ending α} (unvalued : ∀ a, ending ≠ .value a) : Paired V ending ending

/-- From sessions that `R` relates, two tasks end alike but for values that `V` relates, and leave
sessions that `R'` relates. -/
def Pairs (R R' : Session σ → Session σ → Prop) (V : α → α → Prop) (t t' : Task σ α) : Prop :=
  ∀ s s', R s s' → (t s).1.Paired V (t' s').1 ∧ R' (t s).2 (t' s').2

variable {R R₁ R' : Session σ → Session σ → Prop}

namespace Ending.Paired

variable {V : α → α → Prop} {ending ending' : Ending α}

theorem of_eq (same : ending' = ending) : Paired (fun a a' => a' = a) ending ending' := by
  subst same
  cases ending' with
  | value a => exact .value rfl
  | error | cancelled | expired | pending | crashed => exact .same (by simp)

theorem eq (h : Paired (fun a a' => a' = a) ending ending') : ending' = ending := by
  cases h with
  | value same => rw [same]
  | same => rfl

end Ending.Paired

namespace Pairs

variable {V : α → α → Prop} {W : β → β → Prop} {t t' : Task σ α}

theorem bind {next next' : α → Task σ β} (ht : Pairs R R₁ V t t')
    (hn : ∀ a a', V a a' → Pairs R₁ R' W (next a) (next' a')) (weaker : Subrelation R₁ R') :
    Pairs R R' W (t >>= next) (t' >>= next') := by
  intro s s' like
  have first := ht s s' like
  simp only [Bind.bind, Task.bind]
  revert first
  obtain ⟨ending, s₁⟩ := t s
  obtain ⟨ending', s₁'⟩ := t' s'
  rintro ⟨paired, like₁⟩
  cases paired with
  | value related => exact hn _ _ related s₁ s₁' like₁
  | same unvalued =>
    cases ending with
    | value a => exact absurd rfl (unvalued a)
    | error | cancelled | expired | pending | crashed => exact ⟨.same (by simp), weaker like₁⟩

theorem relates (ht : Pairs R R' (fun a a' => a' = a) t t') : Relates R R' t t' :=
  fun s s' like => ⟨(ht s s' like).1.eq, (ht s s' like).2⟩

theorem ofExcept {r r' : Except Error α} (h : (∃ a a', r = .ok a ∧ r' = .ok a' ∧ V a a') ∨
    ∃ e, r = .error e ∧ r' = .error e) (weaker : Subrelation R R') :
    Pairs (σ := σ) R R' V (Task.ofExcept r) (Task.ofExcept r') := by
  intro s s' like
  rcases h with ⟨a, a', rfl, rfl, related⟩ | ⟨e, rfl, rfl⟩
  · exact ⟨.value related, weaker like⟩
  · exact ⟨.same (by simp [Task.ofExcept, Ending.ofExcept]), weaker like⟩

end Pairs

namespace Relates

section Steps

variable {f f' : Session σ → β × Session σ}

theorem mono (h : Relates R R₁ f f') (weaker : Subrelation R₁ R') : Relates R R' f f' :=
  fun s s' like => ⟨(h s s' like).1, weaker (h s s' like).2⟩

/-- What leaves the session as it is. -/
theorem still (b : β) (weaker : Subrelation R R') :
    Relates (σ := σ) R R' (fun s => (b, s)) fun s => (b, s) :=
  fun _ _ like => ⟨rfl, weaker like⟩

/-- One after the other. -/
theorem seq (g g' : β × Session σ → γ × Session σ) (hf : Relates R R₁ f f')
    (hg : ∀ b, Relates R₁ R' (fun s => g (b, s)) fun s => g' (b, s)) :
    Relates R R' (fun s => g (f s)) fun s => g' (f' s) := by
  intro s s' like
  have first := hf s s' like
  dsimp only
  revert first
  obtain ⟨b, s₁⟩ := f s
  obtain ⟨b', s₁'⟩ := f' s'
  rintro ⟨rfl, like₁⟩
  exact hg b' s₁ s₁' like₁

variable (likeness : Session.Likeness R)

include likeness

/-- Both see the same time, and whether the run is cancelled. -/
theorem of_clock (f f' : Clock → Session σ → β × Session σ) (h : ∀ c, Relates R R' (f c) (f' c)) :
    Relates R R' (fun s => f s.clock s) fun s => f' s.clock s := by
  intro s s' like
  dsimp only
  rw [likeness.clock like]
  exact h s.clock s s' like

theorem ite {g g' : Session σ → β × Session σ} (hf : Relates R R' f f') (hg : Relates R R' g g') :
    Relates R R' (fun s => if s.clock.cancelled then f s else g s)
      fun s => if s.clock.cancelled then f' s else g' s := by
  apply of_clock likeness (fun c s => if c.cancelled then f s else g s)
    fun c s => if c.cancelled then f' s else g' s
  intro c
  by_cases cancelled : c.cancelled = true
  · simpa only [if_pos cancelled] using hf
  · simpa only [if_neg cancelled] using hg

end Steps

section Tasks

variable {t t' : Task σ α} {next next' : α → Task σ β}

theorem pairs (ht : Relates R R' t t') : Pairs R R' (fun a a' => a' = a) t t' :=
  fun s s' like => ⟨.of_eq (ht s s' like).1, (ht s s' like).2⟩

theorem bind_pairs {V : α → α → Prop} (ht : Pairs R R₁ V t t')
    (hn : ∀ a a', V a a' → Relates R₁ R' (next a) (next' a')) (weaker : Subrelation R₁ R') :
    Relates R R' (t >>= next) (t' >>= next') :=
  (ht.bind (fun a a' related => (hn a a' related).pairs) weaker).relates

theorem bind (ht : Relates R R₁ t t') (hn : ∀ a, Relates R₁ R' (next a) (next' a))
    (weaker : Subrelation R₁ R') : Relates R R' (t >>= next) (t' >>= next') := by
  refine .bind_pairs ht.pairs (fun a a' same => ?_) weaker
  subst same
  exact hn a'

theorem bind_ofExcept {r : Except Error α} (hn : ∀ a, r = .ok a → Relates R R' (next a) (next' a))
    (weaker : Subrelation R R') :
    Relates R R' (Task.ofExcept r >>= next) (Task.ofExcept r >>= next') := by
  cases r with
  | ok a => exact hn a rfl
  | error e => exact still (Ending.error e) weaker

theorem isolate (ht : Relates R R' t t') : Relates R R' t.isolate t'.isolate := by
  refine ht.seq (fun r => Task.isolate (fun _ => r) r.2) (fun r => Task.isolate (fun _ => r) r.2)
    fun ending => ?_
  cases ending <;> exact still _ id

theorem withCancel (likeness : Session.Likeness R) {stage : String} {step step' : Guard → Task σ α}
    (hs : Relates R R' (step { cancellable := true }) (step' { cancellable := true }))
    (weaker : Subrelation R R') :
    Relates R R' (Task.withCancel stage step) (Task.withCancel stage step') := by
  apply ite likeness (still _ weaker)
  intro s s' like
  have stepped := hs s s' like
  dsimp only
  revert stepped
  obtain ⟨ending, s₁⟩ := step { cancellable := true } s
  obtain ⟨ending', s₁'⟩ := step' { cancellable := true } s'
  rintro ⟨rfl, like₁⟩
  cases ending' <;> exact ⟨rfl, like₁⟩

variable (likeness : Session.Likeness R)

include likeness

theorem warn (w : Warning) : Relates R R (Task.warn w) (Task.warn w) :=
  fun _ _ like => ⟨rfl, likeness.warned w like⟩

theorem sleep (g : Guard) (d : Nat) : Relates R R (Task.sleep g d) (Task.sleep g d) := by
  intro s s' like
  unfold Task.sleep
  rw [likeness.clock like]
  exact ⟨rfl, likeness.moved _ like⟩

end Tasks

end Relates

/-! ## Waits -/

namespace Wait

variable {w : Wait} {check check' : Check σ α} (likeness : Session.Likeness R)

include likeness

theorem rest_relates (w : Wait) (deadline : Nat) :
    Relates R R (w.rest (α := α) deadline) (w.rest deadline) := by
  intro s s' like
  have slept := Relates.sleep likeness ⟨true, none⟩ (w.pause (deadline - s.clock.now)) s s' like
  unfold rest
  rw [likeness.clock like]
  by_cases late : deadline ≤ s.clock.now
  · rw [if_pos late, if_pos late]
    exact ⟨rfl, like⟩
  · rw [if_neg late, if_neg late]
    revert slept
    obtain ⟨ending, s₁⟩ := Task.sleep ⟨true, none⟩ (w.pause (deadline - s.clock.now)) s
    obtain ⟨ending', s₁'⟩ := Task.sleep ⟨true, none⟩ (w.pause (deadline - s.clock.now)) s'
    rintro ⟨rfl, like₁⟩
    cases ending' <;> exact ⟨rfl, like₁⟩

variable (hc : ∀ g, Relates R R (check.run g) (check'.run g))

include hc

theorem round_relates (w : Wait) (deadline : Nat) :
    Relates R R (w.round deadline check) (w.round deadline check') := by
  apply Relates.ite likeness (.still _ id)
  apply Relates.seq (w.conclude deadline) (w.conclude deadline) (hc _)
  intro ending
  cases ending with
  | value found =>
    cases found with
    | some a => exact .still _ id
    | none => exact rest_relates likeness w deadline
  | error | cancelled | expired | pending | crashed => exact .still _ id

theorem loop_relates (w : Wait) (deadline : Nat) :
    Relates R R (w.loop deadline check) (w.loop deadline check') := by
  intro s s' like
  have rounds := round_relates likeness hc w deadline
  let other := w.loop deadline check' s'
  -- Before each round the other wait has come to a session that is alike.
  apply loop_induction
    (I := fun s₁ => ∃ s₁' : Session σ, R s₁ s₁' ∧ other = w.loop deadline check' s₁')
    (P := fun ending s₁ => other.1 = ending ∧ R s₁ other.2)
  · rintro s₁ s₂ ⟨s₁', like, same⟩ made
    have step := rounds s₁ s₁' like
    cases made' : w.round deadline check' s₁' with
    | mk o s₂' =>
      rw [made, made'] at step
      obtain ⟨rfl, like'⟩ := step
      exact ⟨s₂', like', same.trans (loop_eq made')⟩
  · rintro s₁ ending s₂ ⟨s₁', like, same⟩ made
    have step := rounds s₁ s₁' like
    cases made' : w.round deadline check' s₁' with
    | mk o s₂' =>
      rw [made, made'] at step
      obtain ⟨rfl, like'⟩ := step
      rw [same, loop_ended made']
      exact ⟨rfl, like'⟩
  · exact ⟨s', like, rfl⟩

theorem poll_relates (w : Wait) : Relates R R (w.poll check) (w.poll check') := by
  intro s s' like
  have clock := likeness.clock like
  by_cases shown : s.clock.Shows w.timeout
  · have shown' : s'.clock.Shows w.timeout := clock ▸ shown
    rw [poll_eq shown, poll_eq shown', clock]
    exact loop_relates likeness hc w _ s s' like
  · have unshown : ¬ s'.clock.Shows w.timeout := clock ▸ shown
    rw [poll_crashed shown, poll_crashed unshown]
    exact ⟨rfl, like⟩

end Wait

/-! ## The parts of a remote run -/

section Parts

variable {P P' : Party σ} (likeness : Session.Likeness R)

include likeness

namespace Observe

variable {ns job pod : String} {settings : ObserverSettings}

theorem lookup_relates {call : Call} (value? : call.Answer → Option α) (warning : Error → Warning)
    {g : Guard} (asked : Relates R R (@Task.ask σ P g call) (@Task.ask σ P' g call)) :
    Relates R R ((@lookup σ α P call value? warning).run g)
      ((@lookup σ α P' call value? warning).run g) := by
  refine asked.isolate.bind (fun answer => ?_) id
  cases answer with
  | ok a => exact .still _ id
  | error e => exact (Relates.warn likeness _).bind (fun _ => .still _ id) id

theorem streamOutput_relates (asked : ∀ g, Relates R R (@Task.ask σ P g (.followPodLogs ns pod))
    (@Task.ask σ P' g (.followPodLogs ns pod))) :
    Relates R R (@streamOutput σ P ns pod settings) (@streamOutput σ P' ns pod settings) := by
  intro s s' like
  have clock := likeness.clock like
  by_cases cancelled : s.clock.cancelled = true
  · have stopped : s'.clock.cancelled = true := clock ▸ cancelled
    simp only [streamOutput, if_pos cancelled, if_pos stopped]
    exact Relates.warn likeness _ s s' like
  · have live : s'.clock.cancelled ≠ true := clock ▸ cancelled
    rw [@streamOutput_eq σ P _ _ _ _ cancelled, @streamOutput_eq σ P' _ _ _ _ live, clock]
    refine (asked _).seq (report pod settings) (report pod settings) (fun ending => ?_) s s' like
    cases ending with
    | error e =>
      by_cases imagePull : e.isImagePull = true
      · simpa only [report, if_pos imagePull] using Relates.still _ id
      · simpa only [report, if_neg imagePull] using Relates.warn likeness _
    | value | pending | crashed => exact .still _ id
    | cancelled | expired => exact Relates.warn likeness _

theorem observeJob_relates
    (pods : ∀ g, Relates R R
      ((@lookup σ _ P (.findJobPod ns job) id (.podLookupFailed job)).run g)
      ((@lookup σ _ P' (.findJobPod ns job) id (.podLookupFailed job)).run g))
    (output : ∀ pod, Relates R R (@streamOutput σ P ns pod settings)
      (@streamOutput σ P' ns pod settings))
    (verdicts : ∀ g, Relates R R
      ((@lookup σ _ P (.jobStatus ns job) JobStatus.outcome (.statusUnreadable job)).run g)
      ((@lookup σ _ P' (.jobStatus ns job) JobStatus.outcome (.statusUnreadable job)).run g)) :
    Relates R R (@observeJob σ P ns job settings) (@observeJob σ P' ns job settings) :=
  (Wait.poll_relates likeness pods _).bind (fun pod => (output pod).bind (fun _ =>
    (Wait.poll_relates likeness verdicts _).bind (fun _ => .still _ id) id) id) id

end Observe

namespace Cleanup

theorem attempt_relates {g : Guard} {call : Call} (warning : Error → Warning)
    (asked : Relates R R (@Task.ask σ P g call) (@Task.ask σ P' g call)) :
    Relates R R (@attempt σ P g call warning) (@attempt σ P' g call warning) := by
  refine asked.isolate.bind (fun answer => ?_) id
  cases answer with
  | ok a => exact .still _ id
  | error e => exact Relates.warn likeness _

theorem run_relates (removal : ∀ g call, call.stage = .removal →
      Relates R R (@Task.ask σ P g call) (@Task.ask σ P' g call))
    (ns : String) (names : ResourceNames) (timeout : Nat) :
    Relates R R (@run σ P ns names timeout) (@run σ P' ns names timeout) := by
  intro s s' like
  have deleted : Relates R R (@deletes σ P { deadline := some (s.clock.now + timeout) } ns names)
      (@deletes σ P' { deadline := some (s.clock.now + timeout) } ns names) :=
    (attempt_relates likeness _ (removal _ _ rfl)).bind (fun _ =>
      attempt_relates likeness _ (removal _ _ rfl)) id
  have removed := deleted s s' like
  unfold run
  rw [likeness.clock like]
  revert removed
  obtain ⟨ending, s₁⟩ := @deletes σ P _ ns names s
  obtain ⟨ending', s₁'⟩ := @deletes σ P' _ ns names s'
  rintro ⟨rfl, like₁⟩
  cases ending' with
  | expired => exact ⟨rfl, likeness.warned _ like₁⟩
  | value | error | cancelled | pending | crashed => exact ⟨rfl, like₁⟩

end Cleanup

namespace Run

variable {settings : RunSettings} {image : String}

theorem loadSite_relates {source : SiteSource} {g : Guard} (lookup : ∀ site,
      Relates R R (@Task.ask σ P g (.getSite site)) (@Task.ask σ P' g (.getSite site))) :
    Relates R R (@loadSite σ P source g) (@loadSite σ P' source g) := by
  cases source with
  | cluster site => exact (lookup site).bind (fun object => .still _ id) id
  | file path =>
    intro s s' like
    simp only [loadSite, Bind.bind, Task.bind, Task.session, likeness.files like]
    exact ⟨rfl, like⟩

/-- Up to the names of its resources a run may have to show more than after them, and up to the test
identity more than after that. -/
theorem prepare_relates (lookup : ∀ g, Relates R R (@loadSite σ P settings.site g)
      (@loadSite σ P' settings.site g))
    (names : Relates (σ := σ) R R₁ (Task.drawNames (stem settings)) (Task.drawNames (stem settings)))
    (provisioned : ∀ site request, identityRequest site settings = .ok request →
      Relates R₁ R' (@provision σ P request) (@provision σ P' request))
    (weaker : Subrelation R R') (weaker' : Subrelation R₁ R') :
    Relates R R' (@prepare σ P settings image) (@prepare σ P' settings image) := by
  refine (Relates.withCancel likeness (lookup _) id).bind (fun site => ?_) weaker
  refine Relates.bind_ofExcept (fun request found => ?_) weaker
  split
  · exact .still _ weaker
  · exact names.bind (fun names => (provisioned site request found).bind
      (fun _ => .still _ id) id) weaker'

theorem runRemote_relates {names : ResourceNames} {text : String} {available : Bool}
    (upload : ∀ g, Relates R R
      (@Task.ask σ P g
        (.applyConfigMap settings.namespaceName names.configMap TestJob.configKey text))
      (@Task.ask σ P' g
        (.applyConfigMap settings.namespaceName names.configMap TestJob.configKey text)))
    (submission : ∀ g job, Relates R R (@Task.ask σ P g (.createJob settings.namespaceName job))
      (@Task.ask σ P' g (.createJob settings.namespaceName job)))
    (observed : Relates R R
      (@Observe.observeJob σ P settings.namespaceName names.job settings.observer)
      (@Observe.observeJob σ P' settings.namespaceName names.job settings.observer)) :
    Relates R R (@runRemote σ P settings image names text available)
      (@runRemote σ P' settings image names text available) := by
  refine (Relates.withCancel likeness (upload _) id).bind (fun _ => ?_) id
  refine Relates.bind_ofExcept (fun job _ => ?_) id
  exact (Relates.withCancel likeness (submission _ job) id).bind (fun _ => observed) id

omit likeness in
theorem run_relates (remote : settings.mode = .remote image)
    (prepared : Relates R R' (@prepare σ P settings image) (@prepare σ P' settings image))
    (made : ∀ names text available, Relates R' R' (@runRemote σ P settings image names text available)
      (@runRemote σ P' settings image names text available))
    (removed : ∀ names, Relates R' R'
      (@Cleanup.run σ P settings.namespaceName names settings.cleanupTimeout)
      (@Cleanup.run σ P' settings.namespaceName names settings.cleanupTimeout)) :
    Relates R R' (@run σ P settings) (@run σ P' settings) := by
  rw [@run_eq σ P settings image remote, @run_eq σ P' settings image remote]
  refine prepared.bind (fun p => ?_) id
  refine Relates.bind ?_ (fun _ => .still _ id) id
  exact (made _ _ _).isolate.bind (fun result => (removed _).bind (fun _ => .still _ id) id) id

end Run

end Parts

end Acceptance
