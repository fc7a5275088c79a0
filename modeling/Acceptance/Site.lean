import Acceptance.Dict
import Acceptance.Error
import Acceptance.Text.Blank
import Acceptance.Text.Quoted

/-!
# Sites

A site is a deployment of products under one domain. Its descriptor says which products there are
and what the test suite has to know about the services that they share.

* `Site.productUrl`: where a product is reached;
* `Site.identityProviderUrl`: where users are managed;
* `Site.checkIdentityProvider`: whether test users can be made there at all.
-/

namespace Acceptance

/-- Where the descriptor of a site is kept in the cluster. -/
structure SiteRef where
  apiVersion : String := "vip.dev/v1"
  kind : String := "Site"
  name : String
  namespaceName : String
  deriving DecidableEq, Repr

/-- Group and version; core resources have an empty group. -/
def SiteRef.groupVersion (r : SiteRef) : String × String :=
  let cs := r.apiVersion.toList
  match cs.dropWhile (· != '/') with
  | [] => ("", r.apiVersion)
  | _ :: version => (String.ofList (cs.takeWhile (· != '/')), String.ofList version)

/-- A product deployed on a site. -/
structure Product where
  enabled : Bool := false
  /-- The host, where it is not the product's name under the site's domain. -/
  host : Option String := none
  deriving DecidableEq, Repr, Inhabited

/-- The one implementation of an identity provider in which test users can be made. -/
def supportedProvider : String := "keycloak"

/-- A site's identity provider. -/
structure Auth where
  enabled : Bool := false
  provider : String := supportedProvider
  realm : Option String := none
  url : Option String := none
  deriving DecidableEq, Repr, Inhabited

/-- The descriptor of a site. A block that is absent says that the service is off. -/
structure Site where
  name : String := ""
  domain : String := ""
  products : Dict Product := .empty
  auth : Option Auth := none
  /-- Whether outbound email is on. -/
  email : Option Bool := none
  /-- Whether monitoring is on. -/
  monitoring : Option Bool := none
  /-- Whether security policies are enforced. -/
  security : Option Bool := none
  deriving DecidableEq, Inhabited

def nonempty? (s : String) : Option String := if s.isEmpty then none else some s

/-- The text without slashes at its end. -/
def withoutEndSlashes (s : String) : String :=
  String.ofList (Text.dropEndWhile (· == '/') s.toList)

namespace Site

def identityProviderEnabled (s : Site) : Bool := s.auth.any (·.enabled)

/-- Where a product is reached: its own host, else its name under the domain. -/
def productUrl (s : Site) (product : String) : Option String :=
  match s.products.get? product with
  | none => none
  | some spec =>
    match spec.host.bind nonempty? with
    | some host => some ("https://" ++ host)
    | none => (nonempty? s.domain).map fun domain => s!"https://{product}.{domain}"

/-- The realm that the site declares, if it does. -/
def declaredRealm (s : Site) : Option String := s.auth.bind fun a => a.realm.bind nonempty?

/-- Base URL of the identity provider. A URL given for the run goes before the one that the site
declares, and an empty one hides it; without either the provider lives under the domain. -/
def identityProviderUrl (s : Site) (given : Option String) : Except Error String :=
  match (given <|> s.auth.bind (·.url)).bind nonempty? with
  | some url => .ok (withoutEndSlashes url)
  | none =>
    if s.domain.isEmpty then
      .error (.config s!"site {s.name} has no domain; pass an identity provider URL override")
    else .ok ("https://auth." ++ s.domain)

/-- Letters in lower case; only the letters of ASCII have two forms here. -/
def lowered (s : String) : List Char := s.toList.map Char.toLower

/-- A site with an identity provider is fit for runs only if the provider is supported. -/
def checkIdentityProvider (s : Site) : Except Error Unit :=
  match s.auth.filter (·.enabled) with
  | some auth =>
    if lowered auth.provider = supportedProvider.toList then .ok ()
    else .error (.config (s!"site {s.name} uses identity provider " ++ Text.quoted auth.provider ++
      "; test users can only be provisioned in " ++ supportedProvider))
  | none => .ok ()

end Site

end Acceptance
