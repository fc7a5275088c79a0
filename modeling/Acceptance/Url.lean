import Acceptance.Url.Host

/-!
# URLs

A URL in its parts, each as it is written. The segments of a path are kept apart, so that another
one can be put after them whatever it holds.

* `Url.push`: one more segment;
* `Url.addQuery`: more pairs in the query;
* `Url.text`: the whole URL.
-/

namespace Acceptance

structure Url where
  scheme : String
  username : String := ""
  password : Option String := none
  /-- Absent in a URL that names no place in a network. -/
  host : Option Url.Host
  port : Option Nat := none
  /-- `none` where the scheme takes what follows for something other than a path. -/
  path : Option (List String)
  query : Option String := none
  fragment : Option String := none
  deriving DecidableEq, Repr

namespace Url

/-- Schemes with a host in every URL, and their ports. -/
def ports : List (String × Nat) := [("ftp", 21), ("http", 80), ("https", 443), ("ws", 80), ("wss", 443)]

/-- Whether the scheme has rules of its own. -/
def isSpecial (scheme : String) : Bool := scheme == "file" || ports.any (·.1 == scheme)

def userinfoText (u : Url) : String :=
  let password := match u.password with
    | some p => ":" ++ p
    | none => ""
  if u.username.isEmpty && password.isEmpty then "" else u.username ++ password ++ "@"

def authorityText (u : Url) : String :=
  match u.host with
  | none => if u.scheme == "file" then "//" else ""
  | some host =>
    let port := match u.port with
      | some p => s!":{p}"
      | none => ""
    "//" ++ u.userinfoText ++ host.text ++ port

def pathText (u : Url) : String := String.join ((u.path.getD []).map ("/" ++ ·))

def text (u : Url) : String :=
  let query := match u.query with
    | some q => "?" ++ q
    | none => ""
  let fragment := match u.fragment with
    | some f => "#" ++ f
    | none => ""
  u.scheme ++ ":" ++ u.authorityText ++ u.pathText ++ query ++ fragment

/-- Characters that are left out of a URL wherever they stand. -/
def isIgnored (c : Char) : Bool := c == '\t' || c == '\n' || c == '\r'

/-- A path without the empty segment at its end. The path with one empty segment is as good as
none. -/
def dropEmptyEnd (path : List String) : List String :=
  let path := if path.length > 1 && path.getLast? == some "" then path.dropLast else path
  if path == [""] then [] else path

/-- Puts a segment after the path. A segment of one or two dots would say something about the others,
and is passed over. -/
def pushSegment (special : Bool) (path : List String) (segment : String) : List String :=
  if segment == "." || segment == ".." then path
  else
    let cs := segment.toList.filter fun c => !isIgnored c
    if cs == ['.'] then path ++ [""]
    else if cs == ['.', '.'] then path.dropLast ++ [""]
    else path ++ [escape (segmentEscapes special) cs]

/-- The URL of something below this one; `none` if there is nothing below it. -/
def below? (u : Url) (segments : List String) : Option Url :=
  u.path.map fun path => { u with
    path := some (segments.foldl (pushSegment (isSpecial u.scheme)) (dropEmptyEnd path)) }

/-- The URL with more pairs in its query. -/
def addQuery (u : Url) (pairs : List (String × String)) : Url :=
  let more := Http.form pairs
  { u with query := match u.query with
    | none | some "" => some more
    | some q => some (q ++ "&" ++ more) }

/-- The URL without the credentials in it. -/
def withoutUser (u : Url) : Url := { u with username := "", password := none }

end Url

end Acceptance
