import Acceptance.Proofs.Dictionaries
import Acceptance.Proofs.Toml.Assembly
import Acceptance.SuiteConfig

/-!
# What the configuration of the suite says

* `SuiteConfig.meaning`: the facts of a site and a run as a tree of tables;
* `SuiteConfig.read?_render`: the written configuration is read as this tree, whatever the texts in
  it.
-/

namespace Acceptance

theorem Dict.nodup_keys {α : Type} (d : Dict α) : (d.entries.map (·.1)).Nodup :=
  List.pairwise_map.2 (d.ascending.imp fun h => String.ne_of_lt h)

namespace SuiteConfig

open Toml

/-- Where a product is reached: at its own host, else by its name under the domain, if there is
one. -/
def address (domain name : String) (spec : Product) : Option String :=
  if spec.host.getD "" ≠ "" then some ("https://" ++ spec.host.getD "")
  else if domain ≠ "" then some ("https://" ++ name ++ "." ++ domain)
  else none

/-- What the configuration is to say of a product. -/
def productMeaning (domain name : String) (spec : Product) : Tree :=
  ("enabled", .bool spec.enabled) ::
    match address domain name spec with
    | some url => [("url", .string url)]
    | none => []

/-- What the configuration is to say. -/
def meaning (site : Site) (context : RunContext) : Tree := [
  ("general", .table [("deployment", .string context.deployment), ("site", .string site.name),
    ("namespace", .string context.namespaceName), ("domain", .string site.domain)]),
  ("products", .table (site.products.entries.map fun e =>
    (e.1, .table (productMeaning site.domain e.1 e.2)))),
  ("auth", .table [("enabled", .bool (site.auth.any (·.enabled))),
    ("provider", .string ((site.auth.map (·.provider)).getD "keycloak")),
    ("url", .string (context.identityProviderUrl.getD "")), ("realm", .string context.realm),
    ("username", .string context.username)]),
  ("email", .table [("enabled", .bool (site.email.getD false))]),
  ("monitoring", .table [("enabled", .bool (site.monitoring.getD false))]),
  ("security", .table [("policy_enforced", .bool (site.security.getD false))])]

theorem productUrl_eq {site : Site} {e : String × Product} (h : e ∈ site.products.entries) :
    site.productUrl e.1 = address site.domain e.1 e.2 := by
  have empty : ∀ s : String, nonempty? s = if s ≠ "" then some s else none := by
    intro s
    by_cases same : s = "" <;> simp [nonempty?, same]
  have host : e.2.host.bind nonempty? =
      if e.2.host.getD "" ≠ "" then some (e.2.host.getD "") else none := by
    cases e.2.host <;> simp [empty]
  unfold Site.productUrl address
  rw [Dict.get?_of_mem h]
  dsimp only
  rw [host, empty]
  by_cases own : e.2.host.getD "" = ""
  · by_cases domain : site.domain = "" <;> simp [own, domain, toString]
  · simp [own]

/-- The entries of the products, each under its name. -/
def productEntries (site : Site) : Children :=
  site.products.entries.map fun e => (e.1, (product site e.1 e.2).entries)

theorem productEntries_tree (site : Site) : (productEntries site).tree =
    site.products.entries.map fun e => (e.1, .table (productMeaning site.domain e.1 e.2)) := by
  unfold productEntries Children.tree
  rw [List.map_map]
  refine List.map_congr_left fun e he => ?_
  simp only [Function.comp, product, productMeaning, productUrl_eq he, values, List.map_cons]
  cases address site.domain e.1 e.2 <;> rfl

theorem productEntries_distinct (site : Site) : (productEntries site).Distinct where
  names := by
    have names : (productEntries site).map (·.1) = site.products.entries.map (·.1) := by
      simp [productEntries]
    rw [names]
    exact site.products.nodup_keys
  entries := by
    intro e he
    obtain ⟨e', _, rfl⟩ := List.mem_map.1 he
    simp only [product]
    cases site.productUrl e'.1 <;> simp

/-- The tables of the products come under one name. -/
theorem assembled_products (site : Site) {a : Assembly} (new : a.tree.get? "products" = none)
    (unnamed : ∀ path ∈ a.defined, path.head? ≠ some "products") :
    ∃ b, ((products site).flatMap Table.expressions).foldlM Assembly.step? a = some b ∧
      b.tree = a.tree ++ [("products", .table (productEntries site).tree)] ∧
      ∀ path ∈ b.defined, path ∈ a.defined ∨ path.head? = some "products" := by
  unfold products
  split
  · rename_i none
    have made : (Table.expressions ⟨["products"], []⟩).foldlM Assembly.step? a = some _ :=
      assembled_single new (fun there => unnamed _ there rfl) List.nodup_nil
    refine ⟨_, by simpa using made, ?_, ?_⟩
    · have empty : site.products.entries = [] := List.isEmpty_iff.1 none
      simp [productEntries, empty, Children.tree, values]
    · intro path there
      rcases List.mem_cons.1 there with rfl | there
      · exact .inr rfl
      · exact .inl there
  · rename_i there
    have filled : productEntries site ≠ [] := by
      simpa [productEntries, List.isEmpty_iff] using there
    obtain ⟨b, made, tree, defined⟩ := Children.assembled filled (productEntries_distinct site) new
      (fun e _ there => unnamed _ there rfl)
    refine ⟨b, ?_, tree, ?_⟩
    · simpa [Children.expressions, productEntries, List.flatMap_map, product] using made
    · intro path there
      rw [defined] at there
      rcases List.mem_append.1 there with there | there
      · obtain ⟨e, _, rfl⟩ := List.mem_map.1 (List.mem_reverse.1 there)
        exact .inr rfl
      · exact .inl there

/-- The tables that come after those of the products. -/
def services (site : Site) (context : RunContext) : Children := [
  ("auth", (auth site context).entries), ("email", (toggle "email" "enabled" site.email).entries),
  ("monitoring", (toggle "monitoring" "enabled" site.monitoring).entries),
  ("security", (toggle "security" "policy_enforced" site.security).entries)]

theorem document_expressions (site : Site) (context : RunContext) :
    (document site context).flatMap Table.expressions =
      Table.expressions (general site context) ++ ((products site).flatMap Table.expressions ++
        (services site context).flatMap fun e => Table.expressions ⟨[e.1], e.2⟩) := by
  simp [document, services, auth, toggle]

theorem document_named (site : Site) (context : RunContext) :
    ∀ t ∈ document site context, t.path ≠ [] := by
  have named : ∀ t ∈ products site, t.path ≠ [] := by
    unfold products
    split
    · simp
    · intro t ht
      obtain ⟨e, _, rfl⟩ := List.mem_map.1 ht
      exact nofun
  intro t ht
  simp only [document, List.mem_append, List.mem_cons, List.not_mem_nil, or_false] at ht
  rcases ht with (rfl | ht) | rfl | rfl | rfl | rfl
  · exact nofun
  · exact named t ht
  all_goals exact nofun

/-- The tables of the configuration make the tree that they are to make. -/
theorem assemble?_document (site : Site) (context : RunContext) :
    assemble? ((document site context).flatMap Table.expressions) = some (meaning site context) := by
  let a : Assembly :=
    ⟨[("general", .table (values (general site context).entries))], [["general"]], ["general"]⟩
  have first : (Table.expressions (general site context)).foldlM Assembly.step? {} = some a :=
    assembled_single rfl (by simp) (by simp)
  obtain ⟨b, second, tree, defined⟩ := assembled_products site (a := a) rfl (by simp [a])
  have unnamed : ∀ e ∈ services site context, [e.1] ∉ b.defined := by
    intro e he there
    have name : e.1 ≠ "general" ∧ e.1 ≠ "products" := by
      simp only [services, List.mem_cons, List.not_mem_nil, or_false] at he
      rcases he with rfl | rfl | rfl | rfl <;> simp
    rcases defined _ there with there | there
    · exact name.1 (by simpa [a] using there)
    · exact name.2 (by simpa using there)
  obtain ⟨c, third, tree'⟩ := Children.assembled_singles (c := services site context) (a := b)
    (by simp [tree, services, a]) (by simp [services, auth, toggle]) unnamed
  have all : ((document site context).flatMap Table.expressions).foldlM Assembly.step? {} =
      some c := by
    rw [document_expressions, List.foldlM_append, first, Option.bind_eq_bind, Option.bind_some,
      List.foldlM_append, second]
    exact third
  rw [assemble?, all, Option.map_some, tree', tree, productEntries_tree]
  rfl

/-- The configuration of the suite, read as TOML, says what it is to say, whatever texts the site
and the run have. -/
theorem read?_render (site : Site) (context : RunContext) :
    read? (render site context) = some (meaning site context) := by
  have text : (render site context).toList = (document site context).chars := by
    simp [render, Document.text]
  rw [read?, text, expressions?_chars (document_named site context), Option.bind_some]
  exact assemble?_document site context

end SuiteConfig

end Acceptance
