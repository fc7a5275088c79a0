import Acceptance.Site
import Acceptance.Toml

/-!
# Configuration of the test suite

What the suite is told about the site it runs against: one table for each concern, and one for each
product in the order of their names.
-/

namespace Acceptance

/-- What a run adds to the site's own facts. -/
structure RunContext where
  deployment : String
  namespaceName : String
  /-- Base URL of the identity provider, if there is one. -/
  identityProviderUrl : Option String
  realm : String
  username : String
  deriving DecidableEq, Repr

namespace SuiteConfig

def general (site : Site) (context : RunContext) : Toml.Table where
  path := ["general"]
  entries := [("deployment", .string context.deployment), ("site", .string site.name),
    ("namespace", .string context.namespaceName), ("domain", .string site.domain)]

def product (site : Site) (name : String) (spec : Product) : Toml.Table where
  path := ["products", name]
  entries := ("enabled", .bool spec.enabled) ::
    match site.productUrl name with
    | some url => [("url", .string url)]
    | none => []

/-- A table for each product; without products the table of products itself, so that it is there in
any case. -/
def products (site : Site) : List Toml.Table :=
  if site.products.entries.isEmpty then [⟨["products"], []⟩]
  else site.products.entries.map fun e => product site e.1 e.2

def auth (site : Site) (context : RunContext) : Toml.Table where
  path := ["auth"]
  entries := [("enabled", .bool site.identityProviderEnabled),
    ("provider", .string ((site.auth.map (·.provider)).getD supportedProvider)),
    ("url", .string (context.identityProviderUrl.getD "")),
    ("realm", .string context.realm), ("username", .string context.username)]

def toggle (title entry : String) (on : Option Bool) : Toml.Table :=
  ⟨[title], [(entry, .bool (on.getD false))]⟩

def document (site : Site) (context : RunContext) : Toml.Document :=
  general site context :: products site ++
    [auth site context, toggle "email" "enabled" site.email,
      toggle "monitoring" "enabled" site.monitoring,
      toggle "security" "policy_enforced" site.security]

/-- The text of the configuration. -/
def render (site : Site) (context : RunContext) : String := (document site context).text

end SuiteConfig

end Acceptance
