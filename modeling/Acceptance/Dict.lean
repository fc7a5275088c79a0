/-!
# Dictionaries by name

A finite map from names to values, kept in ascending order of the names, so that a dictionary has
one form and is always listed in the same order.

* `insertEntry`: one entry put into a list in its place, over an older one of the same name;
* `Dict`: a list of entries whose names ascend strictly.
-/

namespace Acceptance

variable {α β : Type}

/-- Puts `value` under `key`, in place of what was there. -/
def insertEntry (key : String) (value : α) : List (String × α) → List (String × α)
  | [] => [(key, value)]
  | (k, v) :: rest =>
    if key < k then (key, value) :: (k, v) :: rest
    else if k < key then (k, v) :: insertEntry key value rest
    else (key, value) :: rest

def entryAt? (key : String) (entries : List (String × α)) : Option α :=
  (entries.find? (·.1 == key)).map (·.2)

/-- Entries whose names ascend strictly. -/
def Ascending (entries : List (String × α)) : Prop := entries.Pairwise (·.1 < ·.1)

theorem mem_insertEntry {key : String} {value : α} {entries : List (String × α)}
    {e : String × α} (h : e ∈ insertEntry key value entries) : e = (key, value) ∨ e ∈ entries := by
  induction entries with
  | nil => simpa [insertEntry] using h
  | cons head rest ih =>
    simp only [insertEntry] at h
    split at h
    · simpa using h
    · split at h
      · rcases List.mem_cons.1 h with h | h
        · exact .inr (by simp [h])
        · rcases ih h with h | h
          · exact .inl h
          · exact .inr (by simp [h])
      · rcases List.mem_cons.1 h with h | h
        · exact .inl h
        · exact .inr (by simp [h])

theorem ascending_insertEntry {key : String} {value : α} {entries : List (String × α)}
    (h : Ascending entries) : Ascending (insertEntry key value entries) := by
  induction entries with
  | nil => simp [insertEntry, Ascending]
  | cons head rest ih =>
    obtain ⟨below, tail⟩ := List.pairwise_cons.1 h
    simp only [insertEntry]
    split
    · rename_i first
      refine List.pairwise_cons.2 ⟨fun e he => ?_, h⟩
      rcases List.mem_cons.1 he with rfl | he
      · exact first
      · exact String.lt_trans first (below e he)
    · split
      · rename_i later
        refine List.pairwise_cons.2 ⟨fun e he => ?_, ih tail⟩
        rcases mem_insertEntry he with rfl | he
        · exact later
        · exact below e he
      · rename_i notFirst notLater
        have same : key = head.1 := String.le_antisymm (String.not_lt.1 notLater) (String.not_lt.1 notFirst)
        refine List.pairwise_cons.2 ⟨fun e he => ?_, tail⟩
        rw [same]
        exact below e he

/-- A finite map from names to values. -/
structure Dict (α : Type) where
  entries : List (String × α)
  ascending : Ascending entries
  deriving DecidableEq

namespace Dict

def empty : Dict α := ⟨[], List.Pairwise.nil⟩

instance : Inhabited (Dict α) := ⟨empty⟩

def insert (d : Dict α) (key : String) (value : α) : Dict α :=
  ⟨insertEntry key value d.entries, ascending_insertEntry d.ascending⟩

/-- The dictionary of some entries; of two with one name, the later stands. -/
def ofList (entries : List (String × α)) : Dict α :=
  entries.foldl (fun d e => d.insert e.1 e.2) empty

def get? (d : Dict α) (key : String) : Option α := entryAt? key d.entries

def keys (d : Dict α) : List String := d.entries.map (·.1)

/-- `d` with the entries of `more` put over it. -/
def overlay (d more : Dict α) : Dict α :=
  more.entries.foldl (fun d e => d.insert e.1 e.2) d

/-- `d` without what is under `key`. -/
def erase (d : Dict α) (key : String) : Dict α :=
  ⟨d.entries.filter (·.1 != key), d.ascending.filter _⟩

def map (f : String → α → β) (d : Dict α) : Dict β :=
  ⟨d.entries.map fun e => (e.1, f e.1 e.2), by
    have h := d.ascending
    simp only [Ascending, List.pairwise_map] at h ⊢
    exact h⟩

end Dict

end Acceptance
