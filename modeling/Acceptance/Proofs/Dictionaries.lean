import Acceptance.Proofs.Manifest

/-!
# What is found in a dictionary

* `foldl_insertEntry`: entries that ascend are put in as they stand;
* `Dict.ofList_entries`, `Dict.ofList_append`: a dictionary is made of its own entries, and of the
  entries of two dictionaries those of the second go over the others;
* `Dict.get?_overlay`: what is then found under a name;
* `Json.ofMembers_eq`: members that ascend are those of their object.
-/

namespace Acceptance

variable {α : Type}

theorem ascending_of_names (names : List String) {entries : List (String × α)}
    (named : entries.map Prod.fst = names) (sorted : names.Pairwise (· < ·)) : Ascending entries :=
  List.pairwise_map.1 (named ▸ sorted)

/-- An entry whose name comes after all others is put at the end. -/
theorem insertEntry_after {key : String} {value : α} {entries : List (String × α)}
    (after : ∀ e ∈ entries, e.1 < key) :
    insertEntry key value entries = entries ++ [(key, value)] := by
  induction entries with
  | nil => rfl
  | cons head rest ih =>
    obtain ⟨first, later⟩ := List.forall_mem_cons.1 after
    rw [insertEntry, if_neg (String.lt_asymm first), if_pos first, ih later, List.cons_append]

theorem foldl_insertEntry {before entries : List (String × α)}
    (ascending : Ascending (before ++ entries)) :
    entries.foldl (fun sorted e => insertEntry e.1 e.2 sorted) before = before ++ entries := by
  induction entries generalizing before with
  | nil => rw [List.foldl_nil, List.append_nil]
  | cons e rest ih =>
    have after : ∀ d ∈ before, d.1 < e.1 := fun d hd =>
      (List.pairwise_append.1 ascending).2.2 d hd e List.mem_cons_self
    rw [List.foldl_cons, insertEntry_after after, ih (by simpa using ascending),
      List.append_assoc, List.singleton_append]

theorem entryAt?_eq_none {key : String} {entries : List (String × α)}
    (absent : ∀ e ∈ entries, e.1 ≠ key) : entryAt? key entries = none := by
  rw [entryAt?, Option.map_eq_none_iff, List.find?_eq_none]
  exact fun e mem same => absent e mem (eq_of_beq same)

namespace Dict

theorem eq_of_entries {d d' : Dict α} (h : d.entries = d'.entries) : d = d' := by
  cases d
  cases d'
  cases h
  rfl

theorem entries_foldl_insert (d : Dict α) (entries : List (String × α)) :
    (entries.foldl (fun d e => d.insert e.1 e.2) d).entries =
      entries.foldl (fun sorted e => insertEntry e.1 e.2 sorted) d.entries := by
  induction entries generalizing d with
  | nil => rfl
  | cons e rest ih => exact ih (d.insert e.1 e.2)

/-- An entry is found under its name. -/
theorem get?_of_mem {d : Dict α} {e : String × α} (h : e ∈ d.entries) :
    d.get? e.1 = some e.2 := by
  have ascending := d.ascending
  unfold get? entryAt?
  generalize d.entries = entries at h ascending
  induction entries with
  | nil => cases h
  | cons first rest ih =>
    obtain ⟨below, tail⟩ := List.pairwise_cons.1 ascending
    rcases List.mem_cons.1 h with rfl | h
    · simp
    · have other : first.1 ≠ e.1 := String.ne_of_lt (below e h)
      simpa [other] using ih h tail

theorem mem_of_get? {d : Dict α} {key : String} {value : α} (h : d.get? key = some value) :
    (key, value) ∈ d.entries := by
  obtain ⟨e, found, rfl⟩ := Option.map_eq_some_iff.1 h
  have same : e.1 = key := by simpa using List.find?_some found
  subst same
  exact List.mem_of_find?_eq_some found

theorem ofList_entries (d : Dict α) : ofList d.entries = d := by
  refine eq_of_entries ?_
  rw [ofList, entries_foldl_insert]
  exact foldl_insertEntry d.ascending

theorem ofList_append (d more : Dict α) : ofList (d.entries ++ more.entries) = d.overlay more := by
  have first : d.entries.foldl (fun d e => d.insert e.1 e.2) empty = d := ofList_entries d
  rw [ofList, List.foldl_append, first, overlay]

theorem get?_insert (d : Dict α) (name key : String) (value : α) :
    (d.insert key value).get? name = if name = key then some value else d.get? name :=
  entryAt?_insertEntry name key value d.entries

/-- What lies over a dictionary goes first. -/
theorem get?_overlay (d more : Dict α) (name : String) :
    (d.overlay more).get? name = (more.get? name).or (d.get? name) := by
  obtain ⟨entries, ascending⟩ := more
  simp only [overlay, get?]
  induction entries generalizing d with
  | nil => rfl
  | cons e rest ih =>
    obtain ⟨below, tail⟩ := List.pairwise_cons.1 ascending
    have inserted := get?_insert d name e.1 e.2
    rw [List.foldl_cons, ih _ tail, entryAt?_cons]
    by_cases same : name = e.1
    · have last : entryAt? name rest = none := entryAt?_eq_none fun d mem repeated =>
        String.lt_irrefl name (by simpa [same, repeated] using below d mem)
      rw [last, Option.none_or, if_pos same, Option.some_or]
      exact inserted.trans (if_pos same)
    · rw [if_neg same]
      exact congrArg _ (inserted.trans (if_neg same))

end Dict

theorem Json.ofMembers_eq {members : List (String × Json)} (ascending : Ascending members) :
    ofMembers members = .object members :=
  congrArg object (foldl_insertEntry ascending)

end Acceptance
