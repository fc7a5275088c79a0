import Acceptance.Cluster.Pod
import Acceptance.Proofs.Manifest

/-!
# Which container decides

A pod is looked through for the first container that has started, or whose image cannot be pulled.
Where it has containers of both kinds, their order decides.

* `Cluster.PodStart.Mixed`: containers of both kinds;
* `Cluster.PodStart.listed`: a pod with its containers listed in another order;
* `Cluster.PodStart.unordered_iff`: the order does not matter exactly to pods that are not mixed.
-/

namespace Acceptance.Cluster.PodStart

/-! ## One container -/

/-- A container that runs, or has run. -/
def HasStarted (container : Json) : Prop :=
  ∃ state, container.present? "state" = some state ∧
    ((state.present? "running").isSome ∨ (state.present? "terminated").isSome)

/-- A container that waits for an image that cannot be pulled. -/
def Unpullable (container : Json) : Prop :=
  ∃ state waiting, container.present? "state" = some state ∧
    state.present? "running" = none ∧ state.present? "terminated" = none ∧
    state.present? "waiting" = some waiting ∧ ImagePull.isFailure (memberText "reason" waiting)

/-- What is said without the words of it. -/
def unworded : PodStart → PodStart
  | .imagePullFailed _ => .imagePullFailed ""
  | start => start

theorem ofContainer?_started {container : Json} (h : HasStarted container) :
    ofContainer? container = some .started := by
  obtain ⟨state, found, started⟩ := h
  simp [ofContainer?, found, started]

theorem ofContainer?_unpullable {container : Json} (h : Unpullable container) :
    ∃ reason, ofContainer? container = some (.imagePullFailed reason) := by
  obtain ⟨state, waiting, found, running, terminated, waits, failure⟩ := h
  refine ⟨memberText "reason" waiting ++ ": " ++ memberText "message" waiting, ?_⟩
  simp [ofContainer?, found, running, terminated, waits, failure]

/-- Any other container decides nothing. -/
theorem ofContainer?_other {container : Json} (unstarted : ¬ HasStarted container)
    (pullable : ¬ Unpullable container) : ofContainer? container = none := by
  cases found : container.present? "state" with
  | none => simp [ofContainer?, found]
  | some state =>
    have still : state.present? "running" = none ∧ state.present? "terminated" = none := by
      simpa [HasStarted, found] using unstarted
    cases waits : state.present? "waiting" with
    | none => simp [ofContainer?, found, still, waits]
    | some waiting =>
      have pulled : ¬ ImagePull.isFailure (memberText "reason" waiting) := fun failure =>
        pullable ⟨state, waiting, found, still.1, still.2, waits, failure⟩
      simp [ofContainer?, found, still, waits, pulled]

/-! ## All containers -/

def status (pod : Json) : Json := (pod.present? "status").getD .null

/-- The containers of a pod, as they are listed. -/
def containers (pod : Json) : List Json :=
  (((status pod).present? "containerStatuses").bind Json.items?).getD []

/-- One container has started, and the image of another cannot be pulled. -/
def Mixed (list : List Json) : Prop :=
  (∃ container ∈ list, HasStarted container) ∧ ∃ container ∈ list, Unpullable container

/-- What containers say together. -/
def ofContainers? (list : List Json) : Option PodStart := list.findSome? ofContainer?

theorem ofPod_eq (pod : Json) :
    ofPod pod =
      (ofContainers? (containers pod)).getD (ofPhase (memberText "phase" (status pod))) := by
  unfold ofPod ofContainers? containers status
  dsimp only
  cases List.findSome? ofContainer? _ <;> rfl

theorem ofContainers?_started {list : List Json} (started : ∃ c ∈ list, HasStarted c)
    (pullable : ∀ c ∈ list, ¬ Unpullable c) : ofContainers? list = some .started := by
  induction list with
  | nil => simp at started
  | cons c list ih =>
    obtain ⟨pullable, others⟩ := List.forall_mem_cons.1 pullable
    by_cases first : HasStarted c
    · rw [ofContainers?, List.findSome?_cons, ofContainer?_started first]
    · rw [ofContainers?, List.findSome?_cons, ofContainer?_other first pullable]
      exact ih (by simpa [first] using started) others

theorem ofContainers?_unpullable {list : List Json} (unpullable : ∃ c ∈ list, Unpullable c)
    (unstarted : ∀ c ∈ list, ¬ HasStarted c) :
    ∃ reason, ofContainers? list = some (.imagePullFailed reason) := by
  induction list with
  | nil => simp at unpullable
  | cons c list ih =>
    obtain ⟨unstarted, others⟩ := List.forall_mem_cons.1 unstarted
    by_cases first : Unpullable c
    · obtain ⟨reason, same⟩ := ofContainer?_unpullable first
      exact ⟨reason, by rw [ofContainers?, List.findSome?_cons, same]⟩
    · rw [ofContainers?, List.findSome?_cons, ofContainer?_other unstarted first]
      exact ih (by simpa [first] using unpullable) others

theorem ofContainers?_other {list : List Json} (unstarted : ∀ c ∈ list, ¬ HasStarted c)
    (pullable : ∀ c ∈ list, ¬ Unpullable c) : ofContainers? list = none :=
  List.findSome?_eq_none_iff.2 fun c mem => ofContainer?_other (unstarted c mem) (pullable c mem)

/-- The order of containers that are not mixed does not matter. -/
theorem ofContainers?_perm {list list' : List Json} (perm : list.Perm list')
    (unmixed : ¬ Mixed list) :
    (ofContainers? list).map unworded = (ofContainers? list').map unworded := by
  have same : ∀ {P : Json → Prop}, (∀ c ∈ list, P c) → ∀ c ∈ list', P c :=
    fun all c mem => all c (perm.mem_iff.2 mem)
  by_cases started : ∃ c ∈ list, HasStarted c
  · have pullable : ∀ c ∈ list, ¬ Unpullable c := fun c mem unpullable =>
      unmixed ⟨started, c, mem, unpullable⟩
    obtain ⟨c, mem, runs⟩ := started
    rw [ofContainers?_started ⟨c, mem, runs⟩ pullable,
      ofContainers?_started ⟨c, perm.mem_iff.1 mem, runs⟩ (same pullable)]
  · have unstarted : ∀ c ∈ list, ¬ HasStarted c := fun c mem runs => started ⟨c, mem, runs⟩
    by_cases unpullable : ∃ c ∈ list, Unpullable c
    · obtain ⟨c, mem, waits⟩ := unpullable
      obtain ⟨_, said⟩ := ofContainers?_unpullable ⟨c, mem, waits⟩ unstarted
      obtain ⟨_, said'⟩ := ofContainers?_unpullable ⟨c, perm.mem_iff.1 mem, waits⟩ (same unstarted)
      rw [said, said']
      rfl
    · have pullable : ∀ c ∈ list, ¬ Unpullable c := fun c mem waits => unpullable ⟨c, mem, waits⟩
      rw [ofContainers?_other unstarted pullable,
        ofContainers?_other (same unstarted) (same pullable)]

/-- Of mixed containers, either kind may be listed first. -/
theorem Mixed.perms {list : List Json} (h : Mixed list) :
    (∃ list', list'.Perm list ∧ ofContainers? list' = some .started) ∧
      ∃ list' reason, list'.Perm list ∧ ofContainers? list' = some (.imagePullFailed reason) := by
  obtain ⟨⟨c, mem, started⟩, d, mem', unpullable⟩ := h
  obtain ⟨reason, said⟩ := ofContainer?_unpullable unpullable
  obtain ⟨before, after, split⟩ := List.append_of_mem mem
  obtain ⟨before', after', split'⟩ := List.append_of_mem mem'
  constructor
  · refine ⟨c :: (before ++ after), split ▸ List.perm_middle.symm, ?_⟩
    rw [ofContainers?, List.findSome?_cons, ofContainer?_started started]
  · refine ⟨d :: (before' ++ after'), reason, split' ▸ List.perm_middle.symm, ?_⟩
    rw [ofContainers?, List.findSome?_cons, said]

/-! ## Another order -/

/-- A value with something else under a name, if it has the name at all. -/
def replace (name : String) (f : Json → Json) : Json → Json
  | .object members => .object (members.map fun m => if m.1 = name then (m.1, f m.2) else m)
  | value => value

/-- The pod with its containers listed otherwise, and all else as it is. -/
def listed (list : List Json) : Json → Json :=
  replace "status" (replace "containerStatuses" fun _ => .array list)

theorem member?_replace (name other : String) (f : Json → Json) (value : Json) :
    (replace name f value).member? other =
      if other = name then (value.member? other).map f else value.member? other := by
  cases value with
  | object members =>
    simp only [replace, Json.member?]
    induction members with
    | nil => simp [entryAt?_nil]
    | cons m members ih =>
      rw [List.map_cons, entryAt?_cons, entryAt?_cons, ih]
      split <;> split <;> split <;> simp_all
  | _ => simp [replace, Json.member?]

theorem status_listed (list : List Json) (pod : Json) :
    status (listed list pod) = replace "containerStatuses" (fun _ => .array list) (status pod) := by
  rw [status, status, listed, Json.present?, Json.present?, member?_replace, if_pos rfl]
  cases pod.member? "status" with
  | none => rfl
  | some value => cases value <;> rfl

theorem phase_listed (list : List Json) (pod : Json) :
    memberText "phase" (status (listed list pod)) = memberText "phase" (status pod) := by
  rw [status_listed, memberText, memberText, member?_replace, if_neg (by decide)]

theorem containers_listed {list : List Json} {pod : Json} (perm : list.Perm (containers pod)) :
    containers (listed list pod) = list := by
  rw [containers, status_listed, Json.present?, member?_replace, if_pos rfl]
  cases found : (status pod).member? "containerStatuses" with
  | none =>
    rw [containers, Json.present?, found] at perm
    exact perm.eq_nil.symm
  | some _ => rfl

/-- A pod that is listed in another order is looked at in that order. -/
theorem ofPod_listed {list : List Json} {pod : Json} (perm : list.Perm (containers pod)) :
    ofPod (listed list pod) =
      (ofContainers? list).getD (ofPhase (memberText "phase" (status pod))) := by
  rw [ofPod_eq, containers_listed perm, phase_listed]

/-- The order of the containers does not matter exactly if they are not mixed. -/
theorem unordered_iff (pod : Json) :
    (∀ list, list.Perm (containers pod) →
      (ofPod (listed list pod)).unworded = (ofPod pod).unworded) ↔ ¬ Mixed (containers pod) := by
  constructor
  · intro same mixed
    obtain ⟨⟨list, perm, started⟩, list', reason, perm', failed⟩ := mixed.perms
    have differ := (same list perm).trans (same list' perm').symm
    simp [ofPod_listed perm, ofPod_listed perm', started, failed, unworded] at differ
  · intro unmixed list perm
    have same := ofContainers?_perm perm.symm unmixed
    rw [ofPod_listed perm, ofPod_eq]
    cases first : ofContainers? (containers pod) <;> cases second : ofContainers? list <;>
      simp_all

end Acceptance.Cluster.PodStart
