import Acceptance.Proofs.Manifest
import Acceptance.Proofs.Record

/-!
# What a job comes to in the cluster

The document of a job, read as the cluster reads it: the arguments that it has for its container, which
files and which variables the container finds.

* `Resources.publish`: what the cluster holds after an answered call;
* `Container.arguments?`, `Container.files?`, `Container.environment?`: a document among resources;
* `TestJob.arguments?_toJson`, `TestJob.files?_toJson`, `TestJob.environment?_toJson`: the same of the
  document of a test job.
-/

namespace Acceptance

/-- Config maps and secrets, by namespace and name. -/
structure Resources where
  configMaps : String → String → Option (Dict String) := fun _ _ => none
  secrets : String → String → Option SecretData := fun _ _ => none

namespace Resources

/-- What the cluster holds once a call has succeeded. -/
def publish (r : Resources) : Answered → Resources
  | ⟨.applyConfigMap ns name key data, .ok _⟩ =>
    { r with configMaps := fun ns' name' =>
        if ns' = ns ∧ name' = name then some (.ofList [(key, data)]) else r.configMaps ns' name' }
  | ⟨.applySecret ns name data, .ok _⟩ =>
    { r with secrets := fun ns' name' =>
        if ns' = ns ∧ name' = name then some data else r.secrets ns' name' }
  | ⟨.deleteConfigMap ns name, .ok _⟩ =>
    { r with configMaps := fun ns' name' =>
        if ns' = ns ∧ name' = name then none else r.configMaps ns' name' }
  | _ => r

/-- What the cluster holds after the calls, the first one first. -/
def after (r : Resources) (calls : List Answered) : Resources := calls.foldl publish r

theorem after_append (r : Resources) (earlier later : List Answered) :
    r.after (earlier ++ later) = (r.after earlier).after later := List.foldl_append

theorem publish_secrets {r : Resources} {x : Answered}
    (other : ∀ ns name data, x.call ≠ .applySecret ns name data) :
    (r.publish x).secrets = r.secrets := by
  obtain ⟨call, answer⟩ := x
  cases call <;> cases answer <;> first | rfl | exact absurd rfl (other _ _ _)

/-- Calls that write no secret leave the secrets as they are. -/
theorem after_secrets {r : Resources} {calls : List Answered}
    (other : ∀ x ∈ calls, ∀ ns name data, x.call ≠ .applySecret ns name data) :
    (r.after calls).secrets = r.secrets := by
  induction calls generalizing r with
  | nil => rfl
  | cons x calls ih =>
    obtain ⟨first, rest⟩ := List.forall_mem_cons.1 other
    change ((r.publish x).after calls).secrets = _
    rw [ih rest, publish_secrets first]

end Resources

namespace Json

/-- The text at the end of a path of members. -/
def textAt? (value : Json) (path : List String) : Option String := (value.at? path).bind text?

end Json

namespace Container

/-- The first container of the pod. -/
def first? (job : Json) : Option Json :=
  ((job.at? ["spec", "template", "spec", "containers"]).bind Json.items?).bind List.head?

/-- The arguments that the document has for the program in the container. The cluster puts the values
of variables in the place of `$(NAME)`, and `$` in that of `$$`, before it calls the program with them:
this is left out. -/
def arguments? (job : Json) : Option (List String) := do
  let container ← first? job
  let items ← (container.member? "args").bind Json.items?
  items.mapM Json.text?

/-- One variable, from the secret that it refers to. An optional reference is not followed. -/
def fromSecret? (r : Resources) (ns : String) (v : Json) : Option (String × String) := do
  let name ← v.textAt? ["name"]
  let reference ← v.at? ["valueFrom", "secretKeyRef"]
  match reference.member? "optional" with
  | some (.bool true) => none
  | _ => do
    let secret ← reference.textAt? ["name"]
    let key ← reference.textAt? ["key"]
    let data ← r.secrets ns secret
    let value ← data.get? key
    pure (name, value)

/-- The variables that the container finds, in the order of the document. -/
def environment? (r : Resources) (job : Json) : Option (List (String × String)) := do
  let ns ← job.textAt? ["metadata", "namespace"]
  let container ← first? job
  match container.member? "env" with
  | none => pure []
  | some env => do
    let items ← env.items?
    items.mapM (fromSecret? r ns)

/-- The files under one mount: one for each entry of the config map of the volume. -/
def mounted? (r : Resources) (ns : String) (volumes : List Json) (mount : Json) :
    Option (List (String × String)) := do
  let name ← mount.textAt? ["name"]
  let directory ← mount.textAt? ["mountPath"]
  let volume ← volumes.find? fun v => v.textAt? ["name"] == some name
  let configMap ← volume.textAt? ["configMap", "name"]
  let entries ← r.configMaps ns configMap
  pure (entries.entries.map fun e => (directory ++ "/" ++ e.1, e.2))

/-- The files that the container finds, each with what it holds. -/
def files? (r : Resources) (job : Json) : Option (List (String × String)) := do
  let ns ← job.textAt? ["metadata", "namespace"]
  let volumes ← (job.at? ["spec", "template", "spec", "volumes"]).bind Json.items?
  let container ← first? job
  let mounts ← (container.member? "volumeMounts").bind Json.items?
  let files ← mounts.mapM (mounted? r ns volumes)
  pure files.flatten

end Container

namespace TestJob

open Container

variable (job : TestJob) {r : Resources}

theorem namespace_toJson : job.toJson.textAt? ["metadata", "namespace"] = some job.namespaceName := by
  rw [Json.textAt?, toJson_namespace]
  rfl

theorem first?_toJson : first? job.toJson = some job.containerJson := by
  rw [first?, toJson_containers]
  rfl

theorem mapM_text (texts : List String) : texts.mapM (Json.text? ∘ Json.string) = some texts := by
  induction texts with
  | nil => rfl
  | cons t texts ih =>
    rw [List.mapM_cons, ih]
    rfl

theorem containerJson_args :
    job.containerJson.member? "args" = some (.array (job.arguments.map .string)) := by
  cases exported : job.exported <;>
    simp [containerJson, exported, Json.ofPresent, Json.member?_ofMembers, entryAt?_cons]

/-- The mount of the one volume. -/
def mountJson : Json :=
  .ofMembers [("name", .string volumeName), ("mountPath", .string mountDirectory),
    ("readOnly", .bool true)]

theorem containerJson_mounts :
    job.containerJson.member? "volumeMounts" = some (.array [mountJson]) := by
  cases exported : job.exported <;>
    simp [containerJson, exported, Json.ofPresent, Json.member?_ofMembers, entryAt?_cons, mountJson]

/-- The document has the arguments of the job. -/
theorem arguments?_toJson : arguments? job.toJson = some job.arguments := by
  simp [arguments?, first?_toJson, containerJson_args, Json.items?, mapM_text]

/-- A variable has the value that stands under its key in its secret. -/
theorem fromSecret?_variableJson (ns : String) (v : SecretVariable) :
    fromSecret? r ns (variableJson v) =
      ((r.secrets ns v.secret).bind fun data => data.get? v.key).map fun value => (v.name, value) := by
  cases stored : r.secrets ns v.secret with
  | none =>
    simp [fromSecret?, variableJson, Json.textAt?, Json.at?, Json.member?_ofMembers, entryAt?_cons,
      Json.text?, stored]
  | some data =>
    cases found : data.get? v.key <;>
      simp [fromSecret?, variableJson, Json.textAt?, Json.at?, Json.member?_ofMembers, entryAt?_cons,
        Json.text?, stored, found]

/-- The container finds the variables of the job, with their values. -/
theorem environment?_toJson : environment? r job.toJson = (job.exported.getD []).mapM fun v =>
    ((r.secrets job.namespaceName v.secret).bind fun data => data.get? v.key).map fun value =>
      (v.name, value) := by
  have each : fromSecret? r job.namespaceName ∘ variableJson = _ :=
    funext (fromSecret?_variableJson job.namespaceName)
  cases exported : job.exported with
  | none =>
    simp [environment?, namespace_toJson, first?_toJson, containerJson_env, exported]
  | some vs =>
    simp [environment?, namespace_toJson, first?_toJson, containerJson_env, exported, Json.items?, each]

theorem mounted?_mountJson (ns configMap : String) :
    mounted? r ns [volumeJson configMap] mountJson = (r.configMaps ns configMap).map
      fun entries => entries.entries.map fun e => (mountDirectory ++ "/" ++ e.1, e.2) := by
  cases published : r.configMaps ns configMap <;>
    simp [mounted?, volumeJson, mountJson, Json.textAt?, Json.at?, Json.member?_ofMembers,
      entryAt?_cons, Json.text?, published]

/-- The container finds the entries of the job's config map as files in one directory. -/
theorem files?_toJson : files? r job.toJson = (r.configMaps job.namespaceName job.configMap).map
    fun entries => entries.entries.map fun e => (mountDirectory ++ "/" ++ e.1, e.2) := by
  cases published : r.configMaps job.namespaceName job.configMap <;>
    simp [files?, namespace_toJson, first?_toJson, toJson_volumes, containerJson_mounts, Json.items?,
      mounted?_mountJson, published]

end TestJob

end Acceptance
