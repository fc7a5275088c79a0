import Acceptance.Http.Form
import Acceptance.Site

/-!
# Paths of resources

Where the cluster's API keeps resources of a kind. Names are put into a path as they are; a path
that the request line cannot hold is refused.
-/

namespace Acceptance.Cluster

/-- A kind of resource as the API addresses it. -/
structure ResourceType where
  /-- Empty for the core group. -/
  group : String
  version : String
  plural : String
  deriving DecidableEq, Repr

def configMaps : ResourceType := ⟨"", "v1", "configmaps"⟩

def secrets : ResourceType := ⟨"", "v1", "secrets"⟩

def pods : ResourceType := ⟨"", "v1", "pods"⟩

def jobs : ResourceType := ⟨"batch", "v1", "jobs"⟩

/-- Kinds whose plural follows no rule. -/
def irregularPlurals : List (String × String) := [
  ("endpoints", "endpoints"), ("endpointslices", "endpointslices"), ("nodemetrics", "nodes"),
  ("podmetrics", "pods")]

def endsWith (ending : String) (word : List Char) : Bool :=
  ending.toList.isSuffixOf word

/-- Whether a word on `y` keeps it. The letter before the `y` is looked for by the length in
bytes. -/
def keepsY (word : List Char) : Bool :=
  let size := (String.ofList word).utf8ByteSize
  if size < 2 then true
  else match word[size - 2]? with
    | some c => ['a', 'e', 'i', 'o', 'u'].contains c
    | none => true

/-- The plural of a kind, in lower case. -/
def plural (kind : String) : String :=
  let word := kind.toList.map Char.toLower
  match irregularPlurals.find? (·.1 == String.ofList word) with
  | some (_, irregular) => irregular
  | none =>
    if ["s", "x", "z", "ch", "sh"].any (endsWith · word) then String.ofList (word ++ ['e', 's'])
    else if endsWith "y" word && !keepsY word then String.ofList (word.dropLast ++ ['i', 'e', 's'])
    else String.ofList (word ++ ['s'])

def siteType (site : SiteRef) : ResourceType :=
  ⟨site.groupVersion.1, site.groupVersion.2, plural site.kind⟩

/-- The path of the resources of a type within a namespace. -/
def collection (t : ResourceType) (namespaceName : String) : String :=
  if t.group.isEmpty then s!"/api/{t.version}/namespaces/{namespaceName}/{t.plural}"
  else s!"/apis/{t.group}/{t.version}/namespaces/{namespaceName}/{t.plural}"

/-- Why there is no request. -/
inductive RequestFault where
  | emptyName
  | invalidCharacter
  | tooLong
  deriving DecidableEq, Repr

def RequestFault.message : RequestFault → String
  | .emptyName => "failed to validate request: A non-empty name is required"
  | .invalidCharacter => "failed to build request: invalid uri character"
  | .tooLong => "failed to build request: uri too long"

def isPathChar (c : Char) : Bool :=
  let n := c.toNat
  n == 0x21 || n == 0x22 || (0x24 ≤ n && n ≤ 0x3B) || n == 0x3D || (0x40 ≤ n && n ≤ 0x5F) ||
  (0x61 ≤ n && n ≤ 0x7E) || 0x7F ≤ n

def isQueryChar (c : Char) : Bool :=
  let n := c.toNat
  n == 0x21 || (0x24 ≤ n && n ≤ 0x3B) || n == 0x3D || 0x3F ≤ n

/-- How many bytes the target of a request may have. -/
def maxTarget : Nat := 65534

/-- The target as it is sent, without what follows a `#`. -/
def target (s : String) : Except RequestFault String :=
  let cs := s.toList
  let path := cs.takeWhile fun c => c != '?' && c != '#'
  let rest := cs.drop path.length
  let query := match rest with
    | '?' :: query => query.takeWhile (· != '#')
    | _ => []
  if s.utf8ByteSize > maxTarget then .error .tooLong
  else if !path.all isPathChar || !query.all isQueryChar then .error .invalidCharacter
  else .ok (String.ofList (path ++ if rest.head? == some '?' then '?' :: query else []))

/-- The target for one resource. -/
def named (t : ResourceType) (namespaceName name ending : String) : Except RequestFault String :=
  if name.isEmpty then .error .emptyName
  else target (collection t namespaceName ++ "/" ++ name ++ ending)

end Acceptance.Cluster
