import Acceptance.Proofs.Toml.RoundTrip

/-!
# The tree of a document

* `Tree.update?_update?`: two changes of one table are one change;
* `Table.assembled`: a table whose name is new gets its entries;
* `assembled_children`: so do tables under one name, each with a name of its own.
-/

namespace Acceptance.Toml

namespace Tree

variable {t : Tree} {key : String} {v w : Value}

theorem get?_cons (e : String × Value) :
    Tree.get? (e :: t) key = if e.1 = key then some e.2 else t.get? key := by
  by_cases same : e.1 = key <;> simp [Tree.get?, same]

theorem set_cons (e : String × Value) :
    Tree.set (e :: t) key w = (if e.1 = key then (key, w) else e) :: t.set key w := by
  simp [Tree.set]

theorem get?_concat (new : t.get? key = none) : Tree.get? (t ++ [(key, v)]) key = some v := by
  induction t with
  | nil => simp [get?_cons]
  | cons e t ih =>
    rw [get?_cons] at new
    split at new
    · cases new
    · rename_i other
      rw [List.cons_append, get?_cons, if_neg other]
      exact ih new

theorem set_concat (new : t.get? key = none) :
    Tree.set (t ++ [(key, v)]) key w = t ++ [(key, w)] := by
  induction t with
  | nil => simp [Tree.set]
  | cons e t ih =>
    rw [get?_cons] at new
    split at new
    · cases new
    · rename_i other
      rw [List.cons_append, set_cons, if_neg other, ih new]
      rfl

theorem get?_set (there : t.get? key = some v) : (t.set key w).get? key = some w := by
  induction t with
  | nil => cases there
  | cons e t ih =>
    rw [set_cons, get?_cons]
    by_cases same : e.1 = key
    · simp [same]
    · rw [get?_cons, if_neg same] at there
      rw [if_neg same, if_neg same]
      exact ih there

theorem set_set : (t.set key v).set key w = t.set key w := by
  induction t with
  | nil => rfl
  | cons e t ih =>
    rw [set_cons, set_cons, set_cons, ih]
    by_cases same : e.1 = key <;> simp [same]

/-- Two changes of the same table are one change. -/
theorem update?_update? (f g : Tree → Option Tree) (path : List String) (t : Tree) :
    (update? f path t).bind (update? g path) = update? (fun sub => (f sub).bind g) path t := by
  induction path generalizing t with
  | nil => rfl
  | cons key path ih =>
    simp only [update?]
    cases found : t.get? key with
    | none =>
      rw [← ih []]
      cases update? f path [] with
      | none => rfl
      | some sub => simp [get?_concat found, set_concat found]
    | some v =>
      cases v with
      | bool => rfl
      | string => rfl
      | table sub =>
        dsimp only
        rw [← ih sub]
        cases update? f path sub with
        | none => rfl
        | some sub' => simp [get?_set found, set_set]

/-- The table with all of the entries. -/
def fill? (entries : List (String × Scalar)) (t : Tree) : Option Tree :=
  entries.foldlM (fun t e => t.add? e.1 e.2.value) t

end Tree

/-- Entries as they stand in a tree. -/
def values (entries : List (String × Scalar)) : Tree := entries.map fun e => (e.1, e.2.value)

namespace Tree

theorem get?_eq_none {t : Tree} {key : String} : t.get? key = none ↔ key ∉ t.map (·.1) := by
  induction t with
  | nil => simp [Tree.get?]
  | cons e t ih =>
    rw [get?_cons]
    by_cases same : e.1 = key
    · simp [same]
    · simp [same, ih, Ne.symm same]

theorem fill?_eq {entries : List (String × Scalar)} {t : Tree}
    (distinct : (t.map (·.1) ++ entries.map (·.1)).Nodup) :
    fill? entries t = some (t ++ values entries) := by
  induction entries generalizing t with
  | nil => simp [fill?, values]
  | cons e entries ih =>
    have new : t.get? e.1 = none := get?_eq_none.2 fun there =>
      (List.nodup_append.1 distinct).2.2 _ there _ List.mem_cons_self rfl
    have next : Tree.fill? entries (t ++ [(e.1, e.2.value)]) =
        some (t ++ [(e.1, e.2.value)] ++ values entries) := ih (by simpa using distinct)
    have added : t.add? e.1 e.2.value = some (t ++ [(e.1, e.2.value)]) := by
      simp [Tree.add?, new]
    have step : fill? (e :: entries) t = (t.add? e.1 e.2.value).bind (fill? entries) := rfl
    rw [step, added, Option.bind_some, next, List.append_assoc]
    rfl

end Tree

/-- The entries of a table all go to that table. -/
theorem assembled_entries {f : Tree → Option Tree} {tree : Tree} {a : Assembly}
    (entries : List (String × Scalar)) (start : Tree.update? f a.here tree = some a.tree) :
    (entries.map fun e => Expression.entry e.1 e.2.value).foldlM Assembly.step? a =
      (Tree.update? (fun sub => (f sub).bind (Tree.fill? entries)) a.here tree).map
        fun tree => { a with tree } := by
  induction entries generalizing f a with
  | nil =>
    have unchanged : (fun sub => (f sub).bind (Tree.fill? [])) = f :=
      funext fun sub => Option.bind_fun_some (f sub)
    rw [unchanged, start]
    rfl
  | cons e entries ih =>
    have onward := Tree.update?_update? f (·.add? e.1 e.2.value) a.here tree
    rw [start, Option.bind_some] at onward
    have all : (fun sub => (f sub).bind (Tree.fill? (e :: entries))) =
        fun sub => ((f sub).bind (·.add? e.1 e.2.value)).bind (Tree.fill? entries) :=
      funext fun sub => (Option.bind_assoc ..).symm
    rw [all, ← Tree.update?_update?, ← onward]
    simp only [List.map_cons, List.foldlM_cons, Assembly.step?]
    cases added : Tree.update? (·.add? e.1 e.2.value) a.here a.tree with
    | none => rfl
    | some tree' =>
      have next := ih (f := fun sub => (f sub).bind (·.add? e.1 e.2.value))
        (a := { a with tree := tree' }) (onward.symm.trans added)
      rw [← Tree.update?_update?, ← onward, added] at next
      exact next

/-- A table that has no header yet gets its entries. -/
theorem assembled_table {t : Table} {a : Assembly} (new : t.path ∉ a.defined) :
    t.expressions.foldlM Assembly.step? a =
      (Tree.update? (Tree.fill? t.entries) t.path a.tree).map
        fun tree => ⟨tree, t.path :: a.defined, t.path⟩ := by
  have opened : Tree.update? (Tree.fill? t.entries) t.path a.tree =
      (Tree.update? some t.path a.tree).bind (Tree.update? (Tree.fill? t.entries) t.path) :=
    (Tree.update?_update? some (Tree.fill? t.entries) t.path a.tree).symm
  rw [opened]
  simp only [Table.expressions, List.foldlM_cons, Assembly.step?, if_neg new]
  cases made : Tree.update? some t.path a.tree with
  | none => rfl
  | some tree =>
    have filled := assembled_entries (f := some) (a := ⟨tree, t.path :: a.defined, t.path⟩)
      t.entries made
    simp only [Option.bind_some] at filled
    rw [opened, made] at filled
    exact filled

/-- A table of its own. -/
theorem assembled_single {key : String} {entries : List (String × Scalar)} {a : Assembly}
    (new : a.tree.get? key = none) (unnamed : [key] ∉ a.defined)
    (distinct : (entries.map (·.1)).Nodup) :
    (Table.expressions ⟨[key], entries⟩).foldlM Assembly.step? a =
      some ⟨a.tree ++ [(key, .table (values entries))], [key] :: a.defined, [key]⟩ := by
  have filled : Tree.fill? entries [] = some (values entries) := Tree.fill?_eq (by simpa using distinct)
  rw [assembled_table unnamed]
  simp [Tree.update?, new, filled]

/-- Tables under one name, each with its own name below that and its own entries. -/
abbrev Children := List (String × List (String × Scalar))

namespace Children

variable {key : String}

def expressions (key : String) (c : Children) : List Expression :=
  c.flatMap fun e => Table.expressions ⟨[key, e.1], e.2⟩

def tree (c : Children) : Tree := c.map fun e => (e.1, .table (values e.2))

/-- All names are different, and so are those of the entries of each table. -/
structure Distinct (c : Children) : Prop where
  names : (c.map (·.1)).Nodup
  entries : ∀ e ∈ c, (e.2.map (·.1)).Nodup

/-- A child in a table that has none of its name. -/
theorem update?_child {name : String} {entries : List (String × Scalar)} {t : Tree}
    (new : t.get? name = none) (distinct : (entries.map (·.1)).Nodup) :
    Tree.update? (Tree.fill? entries) [name] t =
      some (t ++ [(name, .table (values entries))]) := by
  have filled : Tree.fill? entries [] = some (values entries) :=
    Tree.fill?_eq (by simpa using distinct)
  simp [Tree.update?, new, filled]

/-- The first of some tables takes its own name only. -/
theorem unnamed_tail (above : List String) {e : String × List (String × Scalar)} {c : Children}
    {defined : List (List String)} (names : (e.1 :: c.map (·.1)).Nodup)
    (unnamed : ∀ e' ∈ c, above ++ [e'.1] ∉ defined) :
    ∀ e' ∈ c, above ++ [e'.1] ∉ (above ++ [e.1]) :: defined := by
  intro e' he' there
  rcases List.mem_cons.1 there with same | there
  · have name : e'.1 = e.1 := by simpa using same
    have known : e'.1 ∈ c.map (·.1) := List.mem_map_of_mem he'
    rw [name] at known
    exact (List.nodup_cons.1 names).1 known
  · exact unnamed e' he' there

/-- The children come after those that are there. -/
theorem assembled_more {c : Children} {a : Assembly} {others below : Tree}
    (tree : a.tree = others ++ [(key, .table below)]) (new : others.get? key = none)
    (names : (below.map (·.1) ++ c.map (·.1)).Nodup)
    (entries : ∀ e ∈ c, (e.2.map (·.1)).Nodup) (unnamed : ∀ e ∈ c, [key, e.1] ∉ a.defined) :
    ∃ b, (c.expressions key).foldlM Assembly.step? a = some b ∧
      b.tree = others ++ [(key, .table (below ++ c.tree))] ∧
      b.defined = (c.map fun e => [key, e.1]).reverse ++ a.defined := by
  induction c generalizing a below with
  | nil => exact ⟨a, rfl, by simpa [Children.tree] using tree, rfl⟩
  | cons e c ih =>
    obtain ⟨first, entries'⟩ := List.forall_mem_cons.1 entries
    obtain ⟨unnamed₁, unnamed'⟩ := List.forall_mem_cons.1 unnamed
    obtain ⟨_, tail, apart⟩ := List.nodup_append.1 names
    have absent : below.get? e.1 = none :=
      Tree.get?_eq_none.2 fun there => apart _ there _ List.mem_cons_self rfl
    let below' : Tree := below ++ [(e.1, .table (values e.2))]
    have names' : (below'.map (·.1) ++ c.map (·.1)).Nodup := by simpa [below'] using names
    have placed : Tree.update? (Tree.fill? e.2) [key, e.1] a.tree =
        some (others ++ [(key, .table below')]) := by
      rw [tree, Tree.update?, Tree.get?_concat new]
      simp only [update?_child absent first, Option.map_some, Tree.set_concat new, below']
    have made := assembled_table (t := ⟨[key, e.1], e.2⟩) unnamed₁
    rw [placed, Option.map_some] at made
    obtain ⟨b, rest, tree', defined⟩ :=
      ih (a := ⟨others ++ [(key, .table below')], [key, e.1] :: a.defined, [key, e.1]⟩) rfl names'
        entries' (unnamed_tail [key] tail unnamed')
    refine ⟨b, ?_, ?_, ?_⟩
    · have split : Children.expressions key (e :: c) =
        Table.expressions ⟨[key, e.1], e.2⟩ ++ Children.expressions key c := rfl
      rw [split, List.foldlM_append, made]
      exact rest
    · rw [tree', show below' ++ Children.tree c = below ++ Children.tree (e :: c) from
        List.append_assoc _ [_] _]
    · rw [defined]
      simp

/-- The tables under a name that is new, of which there is one at least. -/
theorem assembled {c : Children} {a : Assembly} (filled : c ≠ []) (distinct : c.Distinct)
    (new : a.tree.get? key = none) (unnamed : ∀ e ∈ c, [key, e.1] ∉ a.defined) :
    ∃ b, (c.expressions key).foldlM Assembly.step? a = some b ∧
      b.tree = a.tree ++ [(key, .table c.tree)] ∧
      b.defined = (c.map fun e => [key, e.1]).reverse ++ a.defined := by
  cases c with
  | nil => exact absurd rfl filled
  | cons e c =>
    obtain ⟨first, entries⟩ := List.forall_mem_cons.1 distinct.entries
    obtain ⟨unnamed₁, unnamed'⟩ := List.forall_mem_cons.1 unnamed
    let below : Tree := [(e.1, .table (values e.2))]
    have names : (below.map (·.1) ++ c.map (·.1)).Nodup := distinct.names
    have placed : Tree.update? (Tree.fill? e.2) [key, e.1] a.tree =
        some (a.tree ++ [(key, .table below)]) := by
      rw [Tree.update?, new]
      simp only [update?_child (t := []) rfl first, Option.map_some, List.nil_append, below]
    have made := assembled_table (t := ⟨[key, e.1], e.2⟩) unnamed₁
    rw [placed, Option.map_some] at made
    obtain ⟨b, rest, tree, defined⟩ := assembled_more (c := c)
      (a := ⟨a.tree ++ [(key, .table below)], [key, e.1] :: a.defined, [key, e.1]⟩) rfl new names
      entries (unnamed_tail [key] distinct.names unnamed')
    refine ⟨b, ?_, tree, ?_⟩
    · have split : Children.expressions key (e :: c) =
        Table.expressions ⟨[key, e.1], e.2⟩ ++ Children.expressions key c := rfl
      rw [split, List.foldlM_append, made]
      exact rest
    · rw [defined]
      simp

/-- Tables of their own, in a row. -/
theorem assembled_singles {c : Children} {a : Assembly}
    (names : (a.tree.map (·.1) ++ c.map (·.1)).Nodup)
    (entries : ∀ e ∈ c, (e.2.map (·.1)).Nodup) (unnamed : ∀ e ∈ c, [e.1] ∉ a.defined) :
    ∃ b, (c.flatMap fun e => Table.expressions ⟨[e.1], e.2⟩).foldlM Assembly.step? a = some b ∧
      b.tree = a.tree ++ c.tree := by
  induction c generalizing a with
  | nil => exact ⟨a, rfl, (List.append_nil _).symm⟩
  | cons e c ih =>
    obtain ⟨first, entries'⟩ := List.forall_mem_cons.1 entries
    obtain ⟨unnamed₁, unnamed'⟩ := List.forall_mem_cons.1 unnamed
    obtain ⟨_, tail, apart⟩ := List.nodup_append.1 names
    have new : a.tree.get? e.1 = none :=
      Tree.get?_eq_none.2 fun there => apart _ there _ List.mem_cons_self rfl
    have made := assembled_single new unnamed₁ first
    let tree' : Tree := a.tree ++ [(e.1, .table (values e.2))]
    have names' : (tree'.map (·.1) ++ c.map (·.1)).Nodup := by simpa [tree'] using names
    obtain ⟨b, rest, tree⟩ := ih (a := ⟨tree', [e.1] :: a.defined, [e.1]⟩) names' entries'
      (unnamed_tail [] tail unnamed')
    refine ⟨b, ?_, ?_⟩
    · rw [List.flatMap_cons, List.foldlM_append, made]
      exact rest
    · rw [tree, show tree' ++ Children.tree c = a.tree ++ Children.tree (e :: c) from
        List.append_assoc _ [_] _]

end Children

end Acceptance.Toml
