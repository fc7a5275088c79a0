import Acceptance.Site
import Acceptance.Json.Record

/-!
# Site descriptors as JSON

`Site.ofObject` reads the descriptor from a resource with `metadata` and `spec`; `Site.spec` is the
form in which a descriptor is written.
-/

namespace Acceptance

open Json.Reading

def Product.fields : List (RecordField Product) := [
  field "enabled" bool fun p b => { p with enabled := b },
  field "host" (optional string) fun p h => { p with host := h }]

def Product.read : Json.Reading Product := record "ProductSpec" fields {}

def Auth.fields : List (RecordField Auth) := [
  field "enabled" bool fun a b => { a with enabled := b },
  field "provider" string fun a p => { a with provider := p },
  field "realm" (optional string) fun a r => { a with realm := r },
  field "url" (optional string) fun a u => { a with url := u }]

def Auth.read : Json.Reading Auth := record "AuthSpec" fields {}

/-- A service that is only on or off. -/
def readToggle : Json.Reading Bool := record "ToggleSpec" [field "enabled" bool fun _ b => b] false

def readSecurity : Json.Reading Bool :=
  record "SecuritySpec" [field "policyEnforced" bool fun _ b => b] false

namespace Site

def fields : List (RecordField Site) := [
  field "domain" string fun s d => { s with domain := d },
  field "products" (dict Product.read) fun s p => { s with products := p },
  field "auth" (optional Auth.read) fun s a => { s with auth := a },
  field "email" (optional readToggle) fun s e => { s with email := e },
  field "monitoring" (optional readToggle) fun s m => { s with monitoring := m },
  field "security" (optional readSecurity) fun s p => { s with security := p }]

/-- The descriptor that a `spec` gives, without its name. -/
def read : Json.Reading Site := record "SiteDescriptor" fields {}

/-- The resource's name, empty if it has none. -/
def nameOf (object : Json) : String :=
  ((object.member? "metadata").bind fun m => (m.member? "name").bind Json.text?).getD ""

/-- Reads the descriptor from a resource. -/
def ofObject (object : Json) : Except Error Site :=
  match object.member? "spec" with
  | none => .error (.config "site resource has no spec")
  | some spec =>
    match read spec with
    | .ok site => .ok { site with name := nameOf object }
    | .error e => .error (.config ("invalid site spec: " ++ e.message))

end Site

def Product.toJson (p : Product) : Json :=
  .ofMembers [("enabled", .bool p.enabled), ("host", .ofOption p.host)]

def Auth.toJson (a : Auth) : Json :=
  .ofMembers [("enabled", .bool a.enabled), ("provider", .string a.provider),
    ("realm", .ofOption a.realm), ("url", .ofOption a.url)]

def toggleJson (name : String) : Option Bool → Json
  | some b => .ofMembers [(name, .bool b)]
  | none => .null

/-- The `spec` of a descriptor, with every field. -/
def Site.spec (s : Site) : Json :=
  .ofMembers [
    ("domain", .string s.domain),
    ("products", .ofDict Product.toJson s.products),
    ("auth", (s.auth.map Auth.toJson).getD .null),
    ("email", toggleJson "enabled" s.email),
    ("monitoring", toggleJson "enabled" s.monitoring),
    ("security", toggleJson "policyEnforced" s.security)]

end Acceptance
