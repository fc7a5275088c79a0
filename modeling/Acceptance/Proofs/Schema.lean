import Acceptance.Cluster.Schema
import Acceptance.Proofs.Dictionaries
import Mathlib.Data.List.Forall2

/-!
# What a schema makes of a record

* `Cluster.Schema.own?`: what one field holds;
* `Cluster.Schema.read?_record`, `Cluster.Schema.isSome_read?_record`: a record is read field by field,
  and exactly if each of them is.
-/

namespace Acceptance.Cluster.Schema

/-- What a field holds, given the member of its name. -/
def own? (schema : Schema) : Option Json → Option (Option Json)
  | none | some .null => some schema.default?
  | some v => (schema.read? v).map some

variable {fields : List (String × Schema)} {members found : List (String × Json)}

theorem readField?_eq (field : String × Schema) (members : List (String × Json)) :
    readField? field members =
      (field.2.own? (entryAt? field.1 members)).map fun v => (v.map (field.1, ·)).toList := by
  obtain ⟨name, schema⟩ := field
  rw [readField?]
  split
  · rename_i absent
    rw [absent]
    rfl
  · rename_i null
    rw [null]
    rfl
  · rename_i v given present
    rw [present, own?]
    · cases schema.read? v <;> rfl
    · exact given

theorem readFields?_names (h : readFields? fields members = some found) :
    ∀ e ∈ found, e.1 ∈ fields.map (·.1) := by
  induction fields generalizing found with
  | nil =>
    cases h
    exact nofun
  | cons field fields ih =>
    simp only [readFields?, readField?_eq, Option.bind_eq_bind, Option.bind_eq_some_iff,
      Option.map_eq_some_iff, Option.some.injEq] at h
    obtain ⟨_, ⟨own, _, rfl⟩, others, readOthers, rfl⟩ := h
    intro e mem
    rcases List.mem_append.1 mem with mem | mem
    · obtain ⟨v, _, rfl⟩ := Option.map_eq_some_iff.1 (Option.mem_toList.1 mem)
      exact List.mem_cons_self
    · exact List.mem_cons_of_mem _ (ih readOthers e mem)

/-- Each field is found as it is read on its own. -/
theorem readFields?_found (h : readFields? fields members = some found)
    (distinct : (fields.map (·.1)).Nodup) :
    ∀ f ∈ fields, f.2.own? (entryAt? f.1 members) = some (entryAt? f.1 found.reverse) := by
  induction fields generalizing found with
  | nil => exact nofun
  | cons field fields ih =>
    rw [List.map_cons] at distinct
    obtain ⟨new, distinct⟩ := List.nodup_cons.1 distinct
    simp only [readFields?, readField?_eq, Option.bind_eq_bind, Option.bind_eq_some_iff,
      Option.map_eq_some_iff, Option.some.injEq] at h
    obtain ⟨_, ⟨own, readOwn, rfl⟩, others, readOthers, rfl⟩ := h
    have names := readFields?_names readOthers
    intro f mem
    rw [List.reverse_append, entryAt?_append]
    rcases List.mem_cons.1 mem with rfl | mem
    · have others : entryAt? f.1 others.reverse = none := entryAt?_eq_none fun e he same =>
        new (same ▸ names e (List.mem_reverse.1 he))
      rw [others, Option.none_or, readOwn]
      cases own <;> simp [entryAt?]
    · have other : f.1 ≠ field.1 := fun same =>
        new (List.mem_map.2 ⟨f, mem, same⟩)
      rw [ih readOthers distinct f mem]
      cases own <;> simp [entryAt?, Ne.symm other]

theorem isSome_readFields? (each : ∀ f ∈ fields, (f.2.own? (entryAt? f.1 members)).isSome) :
    (readFields? fields members).isSome := by
  induction fields with
  | nil => rfl
  | cons field fields ih =>
    obtain ⟨first, others⟩ := List.forall_mem_cons.1 each
    obtain ⟨own, readOwn⟩ := Option.isSome_iff_exists.1 first
    obtain ⟨more, readMore⟩ := Option.isSome_iff_exists.1 (ih others)
    simp [readFields?, readField?_eq, readOwn, readMore]

theorem read?_record {value read : Json} (h : (record fields).read? value = some read)
    (distinct : (fields.map (·.1)).Nodup) :
    ∀ f ∈ fields, f.2.own? (value.member? f.1) = some (read.member? f.1) := by
  simp only [read?, Option.bind_eq_bind, Option.bind_eq_some_iff, Option.some.injEq] at h
  obtain ⟨members, object, found, readFields, rfl⟩ := h
  cases value <;> cases object
  intro f mem
  rw [Json.member?_ofMembers]
  exact readFields?_found readFields distinct f mem

theorem isSome_read?_record {members : List (String × Json)}
    (each : ∀ f ∈ fields, (f.2.own? ((Json.object members).member? f.1)).isSome) :
    ((record fields).read? (.object members)).isSome := by
  obtain ⟨found, readFields⟩ := Option.isSome_iff_exists.1 (isSome_readFields? each)
  simp [read?, Json.members?, readFields]

theorem isSome_readValues? {read : Json → Option Json} {members : List (String × Json)}
    (each : ∀ m ∈ members, (read m.2).isSome) : (readValues? read members).isSome := by
  induction members with
  | nil => rfl
  | cons m members ih =>
    obtain ⟨first, others⟩ := List.forall_mem_cons.1 each
    obtain ⟨value, readValue⟩ := Option.isSome_iff_exists.1 first
    obtain ⟨more, readMore⟩ := Option.isSome_iff_exists.1 (ih others)
    simp [readValues?, readValue, readMore]

theorem readValues?_forall {read : Json → Option Json} {members values : List (String × Json)}
    (h : readValues? read members = some values) :
    List.Forall₂ (fun m v => m.1 = v.1 ∧ read m.2 = some v.2) members values := by
  induction members generalizing values with
  | nil =>
    cases h
    exact .nil
  | cons m members ih =>
    simp only [readValues?, Option.bind_eq_bind, Option.bind_eq_some_iff, Option.some.injEq] at h
    obtain ⟨value, readValue, others, readOthers, rfl⟩ := h
    exact .cons ⟨rfl, readValue⟩ (ih readOthers)

end Acceptance.Cluster.Schema
