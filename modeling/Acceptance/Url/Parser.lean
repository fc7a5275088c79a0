import Acceptance.Url

/-!
# Reading URLs

Reading is lenient: blanks around a URL and line breaks within it do not count, backslashes stand for
slashes where the scheme is a well-known one, and dots as segments are resolved.
-/

namespace Acceptance.Url

/-- The text without control characters and blanks at its ends, and without line breaks and tabs. -/
def clean (s : List Char) : List Char :=
  let isOuter (c : Char) : Bool := c.toNat ≤ 0x20
  ((s.dropWhile isOuter).reverse.dropWhile isOuter).reverse.filter fun c => !isIgnored c

/-- The scheme in lower case, and what follows its colon. -/
def splitScheme? (s : List Char) : Option (String × List Char) :=
  let inScheme (c : Char) : Bool := c.isAlphanum || c == '+' || c == '-' || c == '.'
  let name := s.takeWhile inScheme
  match name.head?, s.drop name.length with
  | some first, ':' :: rest =>
    if first.isAlpha then some (String.ofList (name.map Char.toLower), rest) else none
  | _, _ => none

def isSlash (special : Bool) (c : Char) : Bool := c == '/' || (special && c == '\\')

def endsPath (c : Char) : Bool := c == '?' || c == '#'

/-- The part before the last `@`, if there is one, and the rest. -/
def splitUser (s : List Char) : Option (List Char) × List Char :=
  let after := (s.reverse.takeWhile (· != '@')).reverse
  if after.length = s.length then (none, s) else (some (s.take (s.length - after.length - 1)), after)

/-- The host at the start of an authority: up to a colon outside brackets. -/
def takeHost (inside : Bool) : List Char → List Char
  | [] => []
  | c :: rest =>
    if c == ':' && !inside then []
    else c :: takeHost (if c == '[' then true else if c == ']' then false else inside) rest

/-- A port. That of the scheme is left out, and so is an empty one. -/
def readPort (scheme : String) (s : List Char) : Except Fault (Option Nat) :=
  let n := s.foldl (fun n c => n * 10 + (c.toNat - 0x30)) 0
  if !s.all Char.isDigit || n > 65535 then .error .port
  else if s.isEmpty || ports.contains (scheme, n) then .ok none
  else .ok (some n)

/-- One segment of a path as it is read, after those that stand before it. -/
def readSegment (last : Bool) (path : List String) (segment : List Char) : List String :=
  let shown := escape pathEscapes segment
  let closing := if last then [""] else []
  let plain := shown.toList.map Char.toLower
  if plain == ['.'] || plain == "%2e".toList then path ++ closing
  else if ["..", ".%2e", "%2e.", "%2e%2e"].any (·.toList == plain) then path.dropLast ++ closing
  else path ++ [shown]

def readSegments (path : List String) : List (List Char) → List String
  | [] => path
  | [last] => readSegment true path last
  | segment :: rest => readSegments (readSegment false path segment) rest

/-- A path from what follows the authority. -/
def readPath (special : Bool) (s : List Char) : List String :=
  let s := s.map fun c => if isSlash special c then '/' else c
  match s with
  | [] => if special then [""] else []
  | '/' :: rest => readSegments [] (Text.split '/' rest)
  | s => readSegments [] (Text.split '/' s)

/-- Puts query and fragment, which follow the path, into a URL. -/
def readRest (u : Url) (s : List Char) : Url :=
  let query := (s.drop 1).takeWhile (· != '#')
  let (query, rest) := match s with
    | '?' :: _ => (some (escape (queryEscapes (isSpecial u.scheme)) query), s.drop (query.length + 1))
    | _ => (none, s)
  let fragment := match rest with
    | '#' :: f => some (escape fragmentEscapes f)
    | _ => none
  { u with query, fragment }

/-- A path, and query and fragment after it. -/
def readTail (u : Url) (s : List Char) : Url :=
  let path := s.takeWhile fun c => !endsPath c
  readRest { u with path := some (readPath (isSpecial u.scheme) path) } (s.drop path.length)

/-- Name and password before the host. -/
def readUser (u : Url) : Option (List Char) → Url
  | none => u
  | some user =>
    let name := user.takeWhile (· != ':')
    let password := user.drop (name.length + 1)
    { u with
      username := escape userinfoEscapes name
      password := if password.isEmpty then none else some (escape userinfoEscapes password) }

def readHost (special : Bool) (s : List Char) : Except Fault Host :=
  if special then (if s.isEmpty then .error .emptyHost else Host.parse s) else Host.parseOpaque s

/-- What follows the slashes after the scheme: an authority, and then a path. -/
def readAuthority (scheme : String) (s : List Char) : Except Fault Url := do
  let special := isSpecial scheme
  let authority := s.takeWhile fun c => !isSlash special c && !endsPath c
  let (user, place) := splitUser authority
  let hostText := takeHost false place
  if hostText.isEmpty && (user.isSome || place != []) then .error .emptyHost
  else
    let host ← readHost special hostText
    -- a backslash ends a port under any scheme
    let portText := (place.drop (hostText.length + 1)).takeWhile (· != '\\')
    let port ← readPort scheme portText
    let behind := place.drop (hostText.length + 1 + portText.length)
    .ok (readTail (readUser { scheme, host := some host, port, path := none } user)
      (behind ++ s.drop authority.length))

/-- A URL of a file, whose host may be left out. -/
def readFile (s : List Char) : Except Fault Url := do
  let slashes := (s.takeWhile (isSlash true)).length
  let rest := if slashes ≥ 2 then s.drop 2 else s
  let hostText := if slashes ≥ 2 then rest.takeWhile fun c => !isSlash true c && !endsPath c else []
  let host ← if hostText.isEmpty then .ok none else do
    let host ← Host.parse hostText
    .ok (if host == .name "localhost" then none else some host)
  let u := readTail { scheme := "file", host, path := none } (rest.drop hostText.length)
  .ok { u with path := u.path.map fun p =>
    let q := p.dropWhile (· == "")
    if q.isEmpty then [""] else q }

def parse (s : String) : Except Fault Url :=
  match splitScheme? (clean s.toList) with
  | none => .error .relative
  | some (scheme, rest) =>
    if scheme == "file" then readFile rest
    else if isSpecial scheme then readAuthority scheme (rest.dropWhile (isSlash true))
    else match rest with
      | '/' :: '/' :: rest => readAuthority scheme rest
      | '/' :: _ => .ok (readTail { scheme, host := none, path := none } rest)
      | _ => .ok { scheme, host := none, path := none }

end Acceptance.Url
