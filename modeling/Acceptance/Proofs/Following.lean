import Acceptance.Cluster.Log
import Acceptance.Proofs.PodStart
import Acceptance.Proofs.Wire
import Mathlib.Data.List.Forall2
import Mathlib.Logic.Function.Iterate

/-!
# What becomes of following a pod

A pod is looked at until what is seen of it decides: it is given up, or its output is asked for.

* `Cluster.decision`: what a sequence of looks comes to;
* `Cluster.Client.followPodLogs_eq`: a pod is followed by deciding and carrying out the decision;
* `Cluster.unordered`: the order in which pods list their containers is of no account exactly if the
  first pod that does not wait is not mixed.
-/

namespace Acceptance.Cluster

open Http

/-- What is seen of a pod. -/
abbrev Look := Except Fault Json

/-- What looking at a pod comes to, by the number of looks before the last. -/
inductive Decision where
  /-- The pod waits at every look. -/
  | none (looks : Nat)
  | fault (before : Nat) (fault : Fault)
  | imagePull (before : Nat) (reason : String)
  | logs (before : Nat)
  deriving DecidableEq, Repr

/-- The decision after `before` looks, by those that follow. -/
def decision (before : Nat) : List Look → Decision
  | [] => .none before
  | .error fault :: _ => .fault before fault
  | .ok pod :: looks =>
    match PodStart.ofPod pod with
    | .started => .logs before
    | .imagePullFailed reason => .imagePull before reason
    | .waiting => decision (before + 1) looks

/-- The decision without the words of it. -/
def Decision.unworded : Decision → Decision
  | .imagePull before _ => .imagePull before ""
  | decision => decision

/-! ## The calls -/

namespace Client

variable {τ : Type} [Transport τ]

/-- The connection after some looks at a pod. -/
def looked (ns pod : String) (looks : Nat) : Connection τ → Connection τ :=
  (fun c => (get pods podKind.read? ns pod c).2)^[looks]

/-- What the looks at a pod show. -/
def looksAt (ns pod : String) : Nat → Connection τ → List Look
  | 0, _ => []
  | looks + 1, c =>
    let (look, c) := get pods podKind.read? ns pod c
    look :: looksAt ns pod looks c

/-- What is done about a decision. -/
def carryOut (ns pod : String) (c : Connection τ) : Decision → Reaction Unit × Connection τ
  | .none looks => ({ lasts := none, answer := .ok () }, looked ns pod looks c)
  | .fault before fault =>
    ({ lasts := some (before * lookInterval),
       answer := .error (fail "get pod" (place ns pod) fault) }, looked ns pod (before + 1) c)
  | .imagePull before reason =>
    ({ lasts := some (before * lookInterval), answer := .error (.imagePull pod reason) },
      looked ns pod (before + 1) c)
  | .logs before =>
    let (answer, c) := copyLogs ns pod (looked ns pod (before + 1) c)
    ({ lasts := some (before * lookInterval), answer }, c)

theorem looked_succ (ns pod : String) (looks : Nat) (c : Connection τ) :
    looked ns pod (looks + 1) c = (get pods podKind.read? ns pod (looked ns pod looks c)).2 :=
  Function.iterate_succ_apply' _ _ _

theorem follow_eq (ns pod : String) (c : Connection τ) (before looks : Nat) :
    follow ns pod (before * lookInterval) looks (looked ns pod before c) =
      carryOut ns pod c (decision before (looksAt ns pod looks (looked ns pod before c))) := by
  induction looks generalizing before with
  | zero => rfl
  | succ looks ih =>
    have after := looked_succ ns pod before c
    cases look : get pods podKind.read? ns pod (looked ns pod before c) with
    | mk seen c' =>
      rw [look] at after
      cases seen with
      | error fault =>
        have failed : lookAtPod ns pod (looked ns pod before c) =
            (.error (fail "get pod" (place ns pod) fault), c') := by
          rw [lookAtPod]
          exact Exchange.bind_error (by rw [Exchange.mapError, look]; rfl) _
        simp only [follow, failed, looksAt, look, decision, carryOut, after]
      | ok value =>
        have seen : lookAtPod ns pod (looked ns pod before c) = (.ok (.ofPod value), c') := by
          rw [lookAtPod]
          exact Exchange.bind_ok (by rw [Exchange.mapError, look]; rfl) _
        cases start : PodStart.ofPod value with
        | started => simp only [follow, seen, start, looksAt, look, decision, carryOut, after]
        | imagePullFailed reason =>
          simp only [follow, seen, start, looksAt, look, decision, carryOut, after]
        | waiting =>
          simp only [follow, seen, start, looksAt, look, decision]
          rw [← Nat.succ_mul, show c' = looked ns pod (before + 1) c from after.symm]
          exact ih (before + 1)

/-- A pod is followed by deciding and carrying out the decision. -/
theorem followPodLogs_eq (looks : Nat) (ns pod : String) (c : Connection τ) :
    followPodLogs looks ns pod c = carryOut ns pod c (decision 0 (looksAt ns pod looks c)) := by
  simpa [followPodLogs, looked] using follow_eq ns pod c 0 looks

end Client

/-! ## The order of containers -/

/-- Two looks that show the same pod with its containers in any order. -/
inductive Reordered : Look → Look → Prop where
  | same (look : Look) : Reordered look look
  | listed (pod : Json) {list : List Json} (perm : list.Perm (PodStart.containers pod)) :
      Reordered (.ok pod) (.ok (PodStart.listed list pod))

/-- A look that decides nothing. -/
def Waits (look : Look) : Prop := ∃ pod, look = .ok pod ∧ PodStart.ofPod pod = .waiting

/-- The first look that decides does not show a mixed pod. -/
def Unmixed (looks : List Look) : Prop :=
  ∀ waits pod later, looks = waits ++ .ok pod :: later → (∀ look ∈ waits, Waits look) →
    ¬ PodStart.Mixed (PodStart.containers pod)

theorem decision_cons_waits {look : Look} (waits : Waits look) (before : Nat)
    (looks : List Look) : decision before (look :: looks) = decision (before + 1) looks := by
  obtain ⟨pod, rfl, waits⟩ := waits
  rw [decision, waits]

theorem decision_append_waits {waits : List Look} (all : ∀ look ∈ waits, Waits look)
    (before : Nat) (looks : List Look) :
    decision before (waits ++ looks) = decision (before + waits.length) looks := by
  induction waits generalizing before with
  | nil => rfl
  | cons look waits ih =>
    obtain ⟨first, others⟩ := List.forall_mem_cons.1 all
    rw [List.cons_append, decision_cons_waits first, ih others, List.length_cons]
    congr 1
    omega

theorem Unmixed.tail {look : Look} {looks : List Look} (h : Unmixed (look :: looks))
    (waits : Waits look) : Unmixed looks := by
  rintro before pod later rfl all
  exact h (look :: before) pod later rfl (List.forall_mem_cons.2 ⟨waits, all⟩)

/-- A pod that is listed otherwise says the same if it is not mixed. -/
theorem Reordered.decides {look look' : Look} (h : Reordered look look') {looks looks' : List Look}
    (before : Nat) (unmixed : ∀ pod, look = .ok pod → ¬ PodStart.Mixed (PodStart.containers pod))
    (later : Waits look → (decision (before + 1) looks').unworded =
      (decision (before + 1) looks).unworded) :
    (decision before (look' :: looks')).unworded = (decision before (look :: looks)).unworded := by
  have step : ∀ pod pod', (PodStart.ofPod pod').unworded = (PodStart.ofPod pod).unworded →
      look = .ok pod → (decision before (.ok pod' :: looks')).unworded =
        (decision before (.ok pod :: looks)).unworded := by
    rintro pod pod' same rfl
    simp only [decision]
    cases start : PodStart.ofPod pod <;> cases start' : PodStart.ofPod pod' <;>
      simp only [start, start', PodStart.unworded, reduceCtorEq] at same ⊢
    · rfl
    · exact later ⟨pod, rfl, start⟩
  cases h with
  | same =>
    cases look with
    | error fault => rfl
    | ok pod => exact step pod pod rfl rfl
  | listed pod perm =>
    exact step pod _ ((PodStart.unordered_iff pod).2 (unmixed pod rfl) _ perm) rfl

theorem Unmixed.decision_reordered {looks looks' : List Look} (h : Unmixed looks)
    (reordered : List.Forall₂ Reordered looks looks') (before : Nat) :
    (decision before looks').unworded = (decision before looks).unworded := by
  induction reordered generalizing before with
  | nil => rfl
  | cons first _ ih =>
    refine first.decides before (fun pod shown => ?_) fun waits => ih (h.tail waits) _
    exact h [] pod _ (by rw [shown]; rfl) nofun

/-- The order of containers in the looks at a pod is of no account exactly if the first that decides
does not show a mixed pod. -/
theorem unmixed_iff (looks : List Look) (before : Nat) :
    (∀ looks', List.Forall₂ Reordered looks looks' →
      (decision before looks').unworded = (decision before looks).unworded) ↔ Unmixed looks := by
  constructor
  · rintro same waits pod later rfl all mixed
    obtain ⟨⟨list, perm, started⟩, list', reason, perm', failed⟩ := mixed.perms
    have reorder : ∀ {list : List Json} (perm : list.Perm (PodStart.containers pod)),
        List.Forall₂ Reordered (waits ++ .ok pod :: later)
          (waits ++ .ok (PodStart.listed list pod) :: later) := fun perm =>
      List.rel_append (List.forall₂_same.2 fun look _ => .same look)
        (.cons (.listed pod perm) (List.forall₂_same.2 fun look _ => .same look))
    have differ := (same _ (reorder perm)).trans (same _ (reorder perm')).symm
    rw [decision_append_waits all, decision_append_waits all] at differ
    simp [decision, PodStart.ofPod_listed perm, PodStart.ofPod_listed perm', started, failed,
      Decision.unworded] at differ
  · exact fun unmixed looks' reordered => unmixed.decision_reordered reordered before

/-- The order in which a pod lists its containers is of no account exactly if they are not mixed. In
the looks at a pod it has no part in whether its output is asked for exactly if the first look that
decides does not show mixed ones; and it is by its looks that a pod is followed. -/
theorem unordered (shown : Json) (looks : List Look) :
    ((∀ list, list.Perm (PodStart.containers shown) →
        (PodStart.ofPod (PodStart.listed list shown)).unworded = (PodStart.ofPod shown).unworded) ↔
      ¬ PodStart.Mixed (PodStart.containers shown)) ∧
    ((∀ looks', List.Forall₂ Reordered looks looks' →
        (decision 0 looks').unworded = (decision 0 looks).unworded) ↔ Unmixed looks) ∧
    ∀ (τ : Type) [Transport τ] (n : Nat) (ns pod : String) (c : Connection τ),
      Client.followPodLogs n ns pod c =
        Client.carryOut ns pod c (decision 0 (Client.looksAt ns pod n c)) :=
  ⟨PodStart.unordered_iff shown, unmixed_iff looks 0,
    fun _ _ n ns pod c => Client.followPodLogs_eq n ns pod c⟩

namespace PodStart

def sidecar : Json := .object [("state", .object [("running", .object [])])]

def suite : Json :=
  .object [("state", .object [("waiting", .object [("reason", .string "ImagePullBackOff")])])]

/-- A pod whose sidecar runs, and whose suite has no image. -/
def mixedPod : Json :=
  .object [("status", .object [("containerStatuses", .array [sidecar, suite])])]

end PodStart

open PodStart in
/-- The sidecar in front of the suite hides that the image cannot be pulled. -/
theorem not_unordered :
    [suite, sidecar].Perm (containers mixedPod) ∧
    ofPod mixedPod = .started ∧
    ofPod (listed [suite, sidecar] mixedPod) = .imagePullFailed "ImagePullBackOff: " ∧
    decision 0 [.ok mixedPod] = .logs 0 ∧
    decision 0 [.ok (listed [suite, sidecar] mixedPod)] = .imagePull 0 "ImagePullBackOff: " := by
  have listing : containers mixedPod = [sidecar, suite] := rfl
  refine ⟨listing ▸ .swap _ _ _, ?_, ?_, ?_, ?_⟩ <;> decide

end Acceptance.Cluster
