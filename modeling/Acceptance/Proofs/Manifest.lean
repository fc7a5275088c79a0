import Acceptance.TestJob

/-!
# Jobs as the cluster takes them

What of a job can be read in the document that is sent to the cluster.

* `Json.member?_ofMembers`: of the members with one name, the last one stands;
* `TestJob.toJson_volumes`, `TestJob.containerJson_env`: where the suite finds its configuration and
  its credentials.
-/

namespace Acceptance

variable {α : Type}

theorem entryAt?_nil (name : String) : entryAt? name ([] : List (String × α)) = none := rfl

theorem entryAt?_cons (name : String) (e : String × α) (entries : List (String × α)) :
    entryAt? name (e :: entries) = if name = e.1 then some e.2 else entryAt? name entries := by
  by_cases same : name = e.1
  · simp [entryAt?, same]
  · have other : e.1 ≠ name := fun h => same h.symm
    simp [entryAt?, same, other]

theorem entryAt?_append (name : String) (earlier later : List (String × α)) :
    entryAt? name (earlier ++ later) = (entryAt? name earlier).or (entryAt? name later) := by
  simp only [entryAt?, List.find?_append]
  cases earlier.find? (·.1 == name) <;> rfl

/-- An entry is found where it was put, and the others where they were. -/
theorem entryAt?_insertEntry (name key : String) (value : α) (entries : List (String × α)) :
    entryAt? name (insertEntry key value entries) =
      if name = key then some value else entryAt? name entries := by
  induction entries with
  | nil => exact entryAt?_cons name (key, value) []
  | cons head rest ih =>
    obtain ⟨k, v⟩ := head
    simp only [insertEntry]
    split
    · exact entryAt?_cons name (key, value) _
    · split
      · rename_i later
        have other : k ≠ key := fun h => String.lt_irrefl key (h ▸ later)
        rw [entryAt?_cons, entryAt?_cons, ih]
        grind
      · rename_i notFirst notLater
        have same : key = k := String.le_antisymm (String.not_lt.1 notLater) (String.not_lt.1 notFirst)
        rw [entryAt?_cons, entryAt?_cons]
        grind

namespace Json

theorem member?_ofMembers (name : String) (members : List (String × Json)) :
    (ofMembers members).member? name = entryAt? name members.reverse := by
  have folded : ∀ sorted : List (String × Json),
      entryAt? name (members.foldl (fun sorted m => insertEntry m.1 m.2 sorted) sorted) =
        (entryAt? name members.reverse).or (entryAt? name sorted) := by
    induction members with
    | nil => exact fun _ => rfl
    | cons m ms ih =>
      intro sorted
      rw [List.foldl_cons, ih, entryAt?_insertEntry, List.reverse_cons, entryAt?_append,
        entryAt?_cons, Option.or_assoc]
      by_cases same : name = m.1
      · simp [same]
      · simp [same, entryAt?_nil]
  rw [ofMembers, member?, folded, entryAt?_nil, Option.or_none]

/-- What stands at the end of a path of members. -/
def at? (value : Json) (path : List String) : Option Json :=
  path.foldlM (fun value name => value.member? name) value

end Json

namespace TestJob

variable (job : TestJob)

/-- The volume with the files of a config map. -/
def volumeJson (configMap : String) : Json :=
  .ofMembers [("name", .string volumeName), ("configMap", .ofMembers [("name", .string configMap)])]

theorem toJson_name : job.toJson.at? ["metadata", "name"] = some (.string job.name) := by
  simp [Json.at?, toJson, Json.member?_ofMembers, entryAt?_cons]

theorem toJson_namespace :
    job.toJson.at? ["metadata", "namespace"] = some (.string job.namespaceName) := by
  simp [Json.at?, toJson, Json.member?_ofMembers, entryAt?_cons]

/-- The only volume of the pod is that of the config map. -/
theorem toJson_volumes : job.toJson.at? ["spec", "template", "spec", "volumes"] =
    some (.array [volumeJson job.configMap]) := by
  cases account : job.settings.serviceAccount <;>
    simp [Json.at?, toJson, podJson, account, Json.ofPresent, Json.member?_ofMembers,
      entryAt?_cons, volumeJson]

theorem toJson_containers : job.toJson.at? ["spec", "template", "spec", "containers"] =
    some (.array [job.containerJson]) := by
  cases account : job.settings.serviceAccount <;>
    simp [Json.at?, toJson, podJson, account, Json.ofPresent, Json.member?_ofMembers,
      entryAt?_cons]

/-- The environment of the only container is what is exported to it. -/
theorem containerJson_env : job.containerJson.member? "env" =
    job.exported.map fun vs => .array (vs.map variableJson) := by
  cases exported : job.exported <;>
    simp [containerJson, exported, Json.ofPresent, Json.member?_ofMembers, entryAt?_cons, entryAt?_nil]

end TestJob

end Acceptance
