import Acceptance.Proofs.Run

/-!
# Collaborators that agree

* `Party.AgreeOn`: collaborators that differ only in some calls;
* the `_agree` theorems: what does not ask those calls does not see the difference.
-/

namespace Acceptance

variable {σ α β : Type}

/-- The two kinds of collaborators react in the same way to the calls of a kind. -/
def Party.AgreeOn (K : Call → Prop) (P P' : Party σ) : Prop :=
  ∀ (p : σ) (call : Call), K call → P.react p call = P'.react p call

section Agreement

variable {K : Call → Prop} {P P' : Party σ} (agree : Party.AgreeOn K P P')

include agree

theorem Task.ask_agree (g : Guard) {call : Call} (hK : K call) :
    @Task.ask σ P g call = @Task.ask σ P' g call := by
  funext s
  simp only [Task.ask, agree s.party call hK]

theorem Procedure.perform_agree (g : Guard) {p : Procedure α} {F : Call → Error → Prop}
    {E : Error → Prop} (all : ∀ call e, F call e) (hp : p.Confined K F E) :
    @Procedure.perform α σ P g p = @Procedure.perform α σ P' g p := by
  induction p with
  | done result => rfl
  | ask call k ih =>
    funext s
    simp only [Procedure.perform, Task.ask_agree agree g hp.1]
    cases @Task.ask σ P' g call s with
    | mk ending s' =>
      cases ending with
      | value a => exact congrFun (ih (.ok a) (hp.2 _ fun e _ => all call e)) s'
      | error e => exact congrFun (ih (.error e) (hp.2 _ fun e _ => all call e)) s'
      | cancelled | expired | pending | crashed => rfl
  | warn w k ih => simp only [Procedure.perform, ih hp]
  | password k ih =>
    have next : ∀ p, @Procedure.perform α σ P g (k p) = @Procedure.perform α σ P' g (k p) :=
      fun p => ih p (hp.2 p)
    simp only [Procedure.perform, next]

namespace Observe

theorem lookup_agree {call : Call} (hK : K call) (value? : call.Answer → Option α)
    (warning : Error → Warning) :
    @lookup σ α P call value? warning = @lookup σ α P' call value? warning := by
  simp only [lookup, Task.ask_agree agree _ hK]

theorem awaitPod_agree {ns job : String} {settings : ObserverSettings}
    (hK : K (.findJobPod ns job)) :
    @awaitPod σ P ns job settings = @awaitPod σ P' ns job settings := by
  simp only [awaitPod, lookup_agree agree hK]

theorem streamOutput_agree {ns pod : String} {settings : ObserverSettings}
    (hK : K (.followPodLogs ns pod)) :
    @streamOutput σ P ns pod settings = @streamOutput σ P' ns pod settings := by
  funext s
  simp only [streamOutput, Task.ask_agree agree _ hK]

theorem awaitCompletion_agree {ns job : String} {settings : ObserverSettings}
    (hK : K (.jobStatus ns job)) :
    @awaitCompletion σ P ns job settings = @awaitCompletion σ P' ns job settings := by
  simp only [awaitCompletion, lookup_agree agree hK]

end Observe

namespace Run

theorem loadSite_agree {source : SiteSource} (hK : ∀ site, K (.getSite site)) :
    @loadSite σ P source = @loadSite σ P' source := by
  funext g
  cases source with
  | cluster site => simp only [loadSite, Task.ask_agree agree _ (hK site)]
  | file path => rfl

theorem provision_agree {request : Option IdentityRequest}
    (hK : ∀ call : Call, call.stage = .identity → K call) :
    @provision σ P request = @provision σ P' request := by
  cases request with
  | none => rfl
  | some request =>
    have asks : (Provision.ensure request).Confined K (fun _ _ => True) (fun _ => True) :=
      Provision.ensure_confined hK (fun _ _ _ => id) (fun _ => trivial) (fun _ => trivial)
        (fun _ => trivial)
    simp only [provision, Procedure.perform_agree agree _ (fun _ _ => trivial) asks]

theorem prepare_agree {settings : RunSettings} {image : String}
    (hK : ∀ call : Call, call.stage = .lookup ∨ call.stage = .identity → K call) :
    @prepare σ P settings image = @prepare σ P' settings image := by
  simp only [prepare, loadSite_agree agree fun site => hK (.getSite site) (.inl rfl),
    provision_agree agree fun call h => hK call (.inr h)]

theorem runRemote_agree {settings : RunSettings} {image text : String} {names : ResourceNames}
    {available : Bool} (hK : ∀ call : Call, call.stage ≠ .removal → K call) :
    @runRemote σ P settings image names text available =
      @runRemote σ P' settings image names text available := by
  have upload : ∀ g ns name key text, @Task.ask σ P g (.applyConfigMap ns name key text) =
      @Task.ask σ P' g (.applyConfigMap ns name key text) :=
    fun _ _ _ _ _ => Task.ask_agree agree _ (hK _ nofun)
  have submission : ∀ g ns job, @Task.ask σ P g (.createJob ns job) =
      @Task.ask σ P' g (.createJob ns job) := fun _ _ _ => Task.ask_agree agree _ (hK _ nofun)
  have pod : ∀ ns job settings, @Observe.awaitPod σ P ns job settings =
      @Observe.awaitPod σ P' ns job settings :=
    fun _ _ _ => Observe.awaitPod_agree agree (hK _ nofun)
  have output : ∀ ns pod settings, @Observe.streamOutput σ P ns pod settings =
      @Observe.streamOutput σ P' ns pod settings :=
    fun _ _ _ => Observe.streamOutput_agree agree (hK _ nofun)
  have completion : ∀ ns job settings, @Observe.awaitCompletion σ P ns job settings =
      @Observe.awaitCompletion σ P' ns job settings :=
    fun _ _ _ => Observe.awaitCompletion_agree agree (hK _ nofun)
  simp only [runRemote, Observe.observeJob, upload, submission, pod, output, completion]

end Run

end Agreement

end Acceptance
