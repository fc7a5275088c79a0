import Acceptance.Proofs.Dictionaries
import Acceptance.Site.Form
import Mathlib.Data.List.Forall2
import Mathlib.Data.Option.Basic

/-!
# Descriptors that outlive what they know

A descriptor is read back as it was written, and what it does not know is not read.

* `Json.Parts.Extends`: a record with other members under names that are not its own;
* `Json.Reading.record_congr`: it is read the same, whatever is read of it;
* `Site.ofObject_kept`: both for the descriptor of a site, down to its products and blocks.
-/

namespace Acceptance

namespace Json

/-- How a value may change. -/
abbrev Change := Json → Json → Prop

/-- The parts of a record by their names, in their order, and how the value of each may change. -/
abbrev Parts := List (String × Change)

namespace Parts

variable (parts : Parts)

/-- The members under names of parts. -/
def known (members : List (String × Json)) : List (String × Json) :=
  members.filter fun m => parts.any (·.1 == m.1)

/-- A member and what it may have become. -/
structure Member (m m' : String × Json) : Prop where
  name : m.1 = m'.1
  value : ∀ p ∈ parts, p.1 = m.1 → p.2 m.2 m'.2

/-- The values of the parts in their order, and what they may have become. What comes after the last
part stays. -/
inductive Listed : Parts → List Json → List Json → Prop where
  | beyond {items : List Json} : Listed [] items items
  | done {parts : Parts} : Listed parts [] []
  | next {p : String × Change} {parts : Parts} {v v' : Json} {rest rest' : List Json}
      (value : p.2 v v') (others : Listed parts rest rest') :
      Listed (p :: parts) (v :: rest) (v' :: rest')

/-- What a record may become: members under names that are no parts come and go, and the parts
change as each may. -/
inductive Extends : Change where
  | same {v : Json} : Extends v v
  | object {members members' : List (String × Json)}
      (each : List.Forall₂ parts.Member (parts.known members) (parts.known members')) :
      Extends (.object members) (.object members')
  | array {items items' : List Json} (each : Listed parts items items') :
      Extends (.array items) (.array items')

end Parts

/-- The values of an object may change each in one way; its names stay. -/
inductive Each (change : Change) : Change where
  | same {v : Json} : Each change v v
  | object {members members' : List (String × Json)}
      (each : List.Forall₂ (fun m m' => m.1 = m'.1 ∧ change m.2 m'.2) members members') :
      Each change (.object members) (.object members')

namespace Reading

variable {α : Type}

/-- A field that does not notice how its part changes. -/
structure Covers (f : RecordField α) (p : String × Change) : Prop where
  name : f.name = p.1
  set : ∀ {v v'}, p.2 v v' → ∀ r, f.set r v = f.set r v'

theorem Covers.field {β : Type} {name : String} {read : Reading β} {put : α → β → α}
    {change : Change} (unnoticed : ∀ v v', change v v' → read v = read v') :
    Covers (Reading.field name read put) (name, change) where
  name := rfl
  set h r := congrArg (Except.map (put r)) (unnoticed _ _ h)

/-- A member that is new, and whose value is read, goes into the record. -/
theorem setMembers_field {β : Type} {fields : List (RecordField α)} {name : String}
    {read : Reading β} {put : α → β → α} {r : α} {given : List String} {v : Json} {b : β}
    {rest : List (String × Json)}
    (found : fields.find? (·.name == name) = some (Reading.field name read put))
    (new : given.contains name = false) (value : read v = .ok b) :
    setMembers fields r given ((name, v) :: rest) =
      setMembers fields (put r b) (name :: given) rest := by
  rw [setMembers, found]
  simp only [new, Reading.field, value]
  rfl

section

variable {fields : List (RecordField α)} {parts : Parts} (covers : List.Forall₂ Covers fields parts)

include covers

theorem isSome_find?_iff (name : String) :
    (fields.find? (·.name == name)).isSome = parts.any (·.1 == name) := by
  induction covers with
  | nil => rfl
  | cons first _ ih =>
    rw [List.find?_cons, List.any_cons, ← first.name, ← ih]
    split <;> simp [*]

/-- Only the members that are known are read. -/
theorem setMembers_known (r : α) (given : List String) (members : List (String × Json)) :
    setMembers fields r given members = setMembers fields r given (parts.known members) := by
  induction members generalizing r given with
  | nil => rfl
  | cons m rest ih =>
    have found := isSome_find?_iff covers m.1
    unfold Parts.known
    rw [List.filter_cons]
    cases named : fields.find? (·.name == m.1) with
    | none =>
      rw [named] at found
      rw [if_neg (by simp [← found]), setMembers, named]
      exact ih r given
    | some f =>
      rw [named] at found
      have part : parts.any (·.1 == m.1) = true := found.symm
      rw [if_pos part, setMembers, setMembers, named]
      simp only [ih]
      rfl

theorem covers_of_find? {name : String} {f : RecordField α}
    (found : fields.find? (·.name == name) = some f) :
    ∃ p ∈ parts, p.1 = name ∧ Covers f p := by
  induction covers with
  | nil => cases found
  | cons first _ ih =>
    rename_i g p gs ps _
    rw [List.find?_cons] at found
    split at found
    · rename_i here
      cases found
      exact ⟨p, List.mem_cons_self, first.name.symm.trans (eq_of_beq here), first⟩
    · obtain ⟨q, mem, same, covers⟩ := ih found
      exact ⟨q, List.mem_cons_of_mem _ mem, same, covers⟩

theorem setMembers_congr {members members' : List (String × Json)}
    (each : List.Forall₂ parts.Member members members') (r : α) (given : List String) :
    setMembers fields r given members = setMembers fields r given members' := by
  induction each generalizing r given with
  | nil => rfl
  | cons member _ ih =>
    rename_i m m' _ _ _
    rw [setMembers, setMembers, ← member.name]
    cases found : fields.find? (·.name == m.1) with
    | none => exact ih r given
    | some f =>
      obtain ⟨p, mem, same, covers⟩ := covers_of_find? covers found
      have set := covers.set (member.value p mem same) r
      simp only [set, ih]

theorem foldlM_congr {items items' : List Json} (each : Parts.Listed parts items items') (r : α) :
    (fields.zip items).foldlM (fun r f => f.1.set r f.2) r =
      (fields.zip items').foldlM (fun r f => f.1.set r f.2) r := by
  induction each generalizing fields r with
  | beyond | done => rfl
  | next value others ih =>
    cases covers with
    | cons first rest =>
      rw [List.zip_cons_cons, List.zip_cons_cons, List.foldlM_cons, List.foldlM_cons]
      rw [first.set value r]
      exact congrArg _ (funext fun r => ih rest r)

omit covers in
theorem length_of_listed {items items' : List Json} (each : Parts.Listed parts items items') :
    items.length = items'.length := by
  induction each with
  | beyond | done => rfl
  | next _ _ ih => exact congrArg (· + 1) ih

/-- A record is read the same when its parts change unnoticed. -/
theorem record_congr (title : String) (initial : α) {v v' : Json} (h : parts.Extends v v') :
    record title fields initial v = record title fields initial v' := by
  cases h with
  | same => rfl
  | object each =>
    rw [record, record, setMembers_known covers, setMembers_congr covers each,
      ← setMembers_known covers]
  | array each =>
    rw [record, record, foldlM_congr covers each, length_of_listed each]

end

theorem optional_congr {parts : Parts} {read : Reading α}
    (unnoticed : ∀ v v', parts.Extends v v' → read v = read v') (v v' : Json)
    (h : parts.Extends v v') : optional read v = optional read v' := by
  have same := unnoticed _ _ h
  cases h with
  | same => rfl
  | object | array => exact congrArg (Except.map some) same

theorem values_congr {read : Reading α} {change : Change}
    (unnoticed : ∀ v v', change v v' → read v = read v') {members members' : List (String × Json)}
    (each : List.Forall₂ (fun m m' => m.1 = m'.1 ∧ change m.2 m'.2) members members') :
    values read members = values read members' := by
  induction each with
  | nil => rfl
  | cons member _ ih => rw [values, values, member.1, unnoticed _ _ member.2, ih]

theorem dict_congr {read : Reading α} {change : Change}
    (unnoticed : ∀ v v', change v v' → read v = read v') (v v' : Json)
    (h : Each change v v') :
    dict read v = dict read v' := by
  cases h with
  | same => rfl
  | object each =>
    rw [dict, dict, values_congr unnoticed each]

/-- What is written of each value is read back. -/
theorem values_map {read : Reading α} {write : α → Json} (kept : ∀ a, read (write a) = .ok a)
    (entries : List (String × α)) :
    values read (entries.map fun e => (e.1, write e.2)) = .ok entries := by
  induction entries with
  | nil => rfl
  | cons e rest ih =>
    rw [List.map_cons, values, kept, ih]
    rfl

theorem dict_ofDict {read : Reading α} {write : α → Json} (kept : ∀ a, read (write a) = .ok a)
    (d : Dict α) : dict read (.ofDict write d) = .ok d := by
  have read' : dict read (.ofDict write d) =
      (values read (d.entries.map fun e => (e.1, write e.2))).map Dict.ofList := rfl
  rw [read', values_map kept, Except.map, Dict.ofList_entries]

end Reading

end Json

open Json Json.Reading

/-! ## Parts -/

namespace Product

def parts : Parts := [("enabled", Eq), ("host", Eq)]

theorem read_congr (v v' : Json) (h : parts.Extends v v') : Product.read v = Product.read v' :=
  record_congr (.cons (.field (fun _ _ => congrArg _)) (.cons (.field (fun _ _ => congrArg _)) .nil)) _ _ h

theorem read_toJson (p : Product) : Product.read p.toJson = .ok p := by
  obtain ⟨enabled, host⟩ := p
  rw [toJson, ofMembers_eq (ascending_of_names ["enabled", "host"] rfl (by decide))]
  cases host <;> rfl

end Product

namespace Auth

def parts : Parts := [("enabled", Eq), ("provider", Eq), ("realm", Eq), ("url", Eq)]

theorem read_congr (v v' : Json) (h : parts.Extends v v') : Auth.read v = Auth.read v' :=
  record_congr (.cons (.field fun _ _ => congrArg _) (.cons (.field fun _ _ => congrArg _)
    (.cons (.field fun _ _ => congrArg _) (.cons (.field fun _ _ => congrArg _) .nil)))) _ _ h

theorem read_toJson (a : Auth) : Auth.read a.toJson = .ok a := by
  obtain ⟨enabled, provider, realm, url⟩ := a
  rw [toJson, ofMembers_eq
    (ascending_of_names ["enabled", "provider", "realm", "url"] rfl (by decide))]
  cases realm <;> cases url <;> rfl

end Auth

def toggleParts : Parts := [("enabled", Eq)]

theorem readToggle_congr (v v' : Json) (h : toggleParts.Extends v v') :
    readToggle v = readToggle v' :=
  record_congr (.cons (.field fun _ _ => congrArg _) .nil) _ _ h

theorem readToggle_toggleJson (b : Option Bool) :
    optional readToggle (toggleJson "enabled" b) = .ok b := by
  cases b <;> rfl

def securityParts : Parts := [("policyEnforced", Eq)]

theorem readSecurity_congr (v v' : Json) (h : securityParts.Extends v v') :
    readSecurity v = readSecurity v' :=
  record_congr (.cons (.field fun _ _ => congrArg _) .nil) _ _ h

theorem readSecurity_toggleJson (b : Option Bool) :
    optional readSecurity (toggleJson "policyEnforced" b) = .ok b := by
  cases b <;> rfl

namespace Site

theorem nameOf_of_named {object : Json} {name : String}
    (named : object.at? ["metadata", "name"] = some (.string name)) : nameOf object = name := by
  have path : object.at? ["metadata", "name"] =
      (object.member? "metadata").bind fun m => (m.member? "name").bind some := rfl
  obtain ⟨metadata, there, named⟩ := Option.bind_eq_some_iff.1 (path.symm.trans named)
  have text : metadata.member? "name" = some (.string name) := by simpa using named
  rw [nameOf, there, Option.bind_some, text]
  rfl

/-- What a descriptor knows. -/
def parts : Parts := [
  ("domain", Eq), ("products", Each Product.parts.Extends), ("auth", Auth.parts.Extends),
  ("email", toggleParts.Extends), ("monitoring", toggleParts.Extends),
  ("security", securityParts.Extends)]

theorem covers : List.Forall₂ Covers fields parts :=
  .cons (.field fun _ _ => congrArg _) <|
  .cons (.field (dict_congr Product.read_congr)) <|
  .cons (.field (optional_congr Auth.read_congr)) <|
  .cons (.field (optional_congr readToggle_congr)) <|
  .cons (.field (optional_congr readToggle_congr)) <|
  .cons (.field (optional_congr readSecurity_congr)) .nil

theorem read_congr (v v' : Json) (h : parts.Extends v v') : Site.read v = Site.read v' :=
  record_congr covers _ _ h

theorem read_auth (auth : Option Auth) :
    optional Auth.read ((auth.map Auth.toJson).getD .null) = .ok auth := by
  cases auth with
  | none => rfl
  | some a => exact congrArg (Except.map some) (Auth.read_toJson a)

/-- A descriptor has all its fields, in the order of their names. -/
theorem spec_eq (s : Site) : s.spec = .object [
    ("auth", (s.auth.map Auth.toJson).getD .null), ("domain", .string s.domain),
    ("email", toggleJson "enabled" s.email), ("monitoring", toggleJson "enabled" s.monitoring),
    ("products", .ofDict Product.toJson s.products),
    ("security", toggleJson "policyEnforced" s.security)] := by
  simp only [spec, ofMembers, List.foldl_cons, List.foldl_nil, insertEntry, String.reduceLT,
    reduceIte]

theorem read_spec (s : Site) : Site.read s.spec = .ok { s with name := "" } := by
  rw [spec_eq, Site.read, record]
  rw [setMembers_field rfl rfl (read_auth s.auth)]
  rw [setMembers_field rfl rfl (rfl : string (.string s.domain) = .ok s.domain)]
  rw [setMembers_field rfl rfl (readToggle_toggleJson s.email)]
  rw [setMembers_field rfl rfl (readToggle_toggleJson s.monitoring)]
  rw [setMembers_field rfl rfl (dict_ofDict Product.read_toJson s.products)]
  rw [setMembers_field rfl rfl (readSecurity_toggleJson s.security)]
  rfl

/-- The descriptor in a resource with its name is read as it was written; and of a resource only
the metadata counts, and of its descriptor only what is known. -/
theorem ofObject_kept :
    (∀ (site : Site) (object : Json), object.at? ["metadata", "name"] = some (.string site.name) →
      object.member? "spec" = some site.spec → ofObject object = .ok site) ∧
    ∀ object object' : Json, object.member? "metadata" = object'.member? "metadata" →
      Option.Rel parts.Extends (object.member? "spec") (object'.member? "spec") →
      ofObject object = ofObject object' := by
  constructor
  · intro site object named written
    rw [ofObject, written]
    simp only [read_spec, nameOf_of_named named]
  · intro object object' metadata spec
    have name : nameOf object = nameOf object' := by rw [nameOf, nameOf, metadata]
    rw [ofObject, ofObject]
    generalize object.member? "spec" = given at spec
    generalize object'.member? "spec" = given' at spec
    cases spec with
    | none => rfl
    | some more => simp only [read_congr _ _ more, name]

/-- A site with one product, and with all the rest left as it is. -/
def small : Site where
  name := "acme"
  domain := "example.com"
  products := .ofList [("chat", { enabled := true })]
  auth := some {}

/-- A resource that describes a site, with some member of the descriptor, of its product and of its
provider besides those that are known. -/
def described (more : List (String × Json)) : Json := .object [
  ("metadata", .object [("name", .string "acme")]),
  ("spec", .object (more ++ [("auth", .object (more ++ [("enabled", .bool false)])),
    ("products", .object [("chat", .object (more ++ [("enabled", .bool true)]))])]))]

theorem ofObject_kept_small :
    ofObject (.object [("metadata", .object [("name", .string "acme")]), ("spec", small.spec)]) =
      .ok small ∧
    ofObject (described []) = ofObject (described [("name", .string "other"), ("tier", .null)]) := by
  have product : Product.parts.Extends (.object [("enabled", .bool true)])
      (.object [("name", .string "other"), ("tier", .null), ("enabled", .bool true)]) :=
    .object (.cons ⟨rfl, by simp [Product.parts]⟩ .nil)
  have auth : Auth.parts.Extends (.object [("enabled", .bool false)])
      (.object [("name", .string "other"), ("tier", .null), ("enabled", .bool false)]) :=
    .object (.cons ⟨rfl, by simp [Auth.parts]⟩ .nil)
  have products : Each Product.parts.Extends (.object [("chat", .object [("enabled", .bool true)])])
      (.object [("chat",
        .object [("name", .string "other"), ("tier", .null), ("enabled", .bool true)])]) :=
    .object (.cons ⟨rfl, product⟩ .nil)
  refine ⟨ofObject_kept.1 small _ rfl rfl, ofObject_kept.2 _ _ rfl (.some (.object ?_))⟩
  refine .cons ⟨rfl, ?_⟩ (.cons ⟨rfl, ?_⟩ .nil)
  · simpa [parts] using auth
  · simpa [parts] using products

end Site

end Acceptance
