import Acceptance.Error
import Acceptance.Http
import Acceptance.Http.Status
import Acceptance.Json.Printer
import Acceptance.Json.Reader
import Acceptance.Json.Record
import Acceptance.Url.Parser

/-!
# Calls to the identity provider

The requests by which the calls to the identity provider are made, and what is made of the responses.
Realms and users are segments of the path, so that a slash in the name of one leads to no other place.
-/

namespace Acceptance.Identity

open Http

/-- Why there is no response to a request. -/
inductive Obstacle where
  /-- The token cannot stand in a header. -/
  | token
  /-- The URL names nothing that can be asked. -/
  | scheme
  | unreachable
  deriving DecidableEq, Repr

/-- The URL shown last is the one that was asked, without credentials. -/
def Obstacle.message (u : Url) : Obstacle → String
  | .token => "builder error"
  | .scheme => s!"builder error for url ({u.text})"
  | .unreachable => s!"error sending request for url ({u.withoutUser.text})"

namespace Client

/-- The URL of something below the provider's. -/
def endpoint (base : String) (segments : List String) : Except Error Url :=
  match Url.parse base with
  | .error fault => .error (.config s!"invalid identity provider URL {base}: {fault.message}")
  | .ok url =>
    match url.below? segments with
    | some url => .ok url
    | none => .error (.config s!"identity provider URL {base} cannot be a base")

def tokenEndpoint (base : String) : Except Error Url :=
  endpoint base ["realms", "master", "protocol", "openid-connect", "token"]

def usersEndpoint (base realm : String) : Except Error Url :=
  endpoint base ["admin", "realms", realm, "users"]

def passwordEndpoint (base realm user : String) : Except Error Url :=
  endpoint base ["admin", "realms", realm, "users", user, "reset-password"]

/-- Whether a text can stand in a header. -/
def isHeaderText (s : String) : Bool :=
  s.toList.all fun c => c == '\t' || (0x20 ≤ c.toNat && c.toNat != 0x7F)

/-- What keeps a request from being sent. -/
def obstacle? (url : Url) (token : Option String) : Option Obstacle :=
  if url.host.isNone then some .scheme
  else if !(token.all isHeaderText) then some .token
  else if url.scheme != "http" && url.scheme != "https" then some .scheme
  else none

/-- What a request is for, and what is sent. -/
structure Inquiry where
  operation : String
  method : Method
  url : Url
  token : Option String := none
  body : Option Body := none

namespace Inquiry

def request (i : Inquiry) : Request where
  method := i.method
  target := i.url.withoutUser.text
  authorization := i.token.map ("Bearer " ++ ·)
  body := i.body

def fail (i : Inquiry) (o : Obstacle) : Error :=
  .identityProvider i.operation (i.url.text ++ ": " ++ o.message i.url) none

/-- The response, unless its status says that the request failed. -/
def accepted (i : Inquiry) (response : Response) : Except Error Response :=
  if isSuccess response.status then .ok response
  else .error (.identityProvider i.operation
    (statusText response.status ++ ": " ++ Text.Utf8.decodeLossy response.body) (some response.status))

variable {τ : Type} [Transport τ]

def send (i : Inquiry) : Exchange τ Error Response := do
  match obstacle? i.url i.token with
  | some o => .ofExcept (.error (i.fail o))
  | none => do
    let response ← (Exchange.send i.request).mapError fun _ => i.fail .unreachable
    .ofExcept (i.accepted response)

/-- Sends, and reads the response; `title` says in errors what it should have been. -/
def receive {α : Type} (i : Inquiry) (title : String) (read : Json → Option α) :
    Exchange τ Error α := do
  let response ← i.send
  match ((Text.Utf8.decode? response.body).bind Json.parseAsWritten?).bind read with
  | some a => pure a
  | none => .ofExcept (.error
      (.identityProvider i.operation s!"invalid {title}: error decoding response body" none))

end Inquiry

/-- The text of a member that is given once. -/
def givenText? (members : List (String × Json)) (name : String) : Option String :=
  match members.filter (·.1 == name) with
  | [(_, value)] => value.text?
  | _ => none

/-- A record whose members are all texts that must be there. -/
def texts? (names : List String) (value : Json) : Option (List String) :=
  match value with
  | .object members => names.mapM (givenText? members)
  | .array items => if items.length = names.length then items.mapM Json.text? else none
  | _ => none

def token? (value : Json) : Option String := do
  match ← texts? ["access_token"] value with
  | [token] => some token
  | _ => none

/-- A user in a list of them. -/
structure User where
  id : String
  name : String
  deriving DecidableEq, Repr

def user? (value : Json) : Option User := do
  match ← texts? ["id", "username"] value with
  | [id, name] => some ⟨id, name⟩
  | _ => none

def users? (value : Json) : Option (List User) := do
  (← value.items?).mapM user?

def lowered (s : String) : List Char := s.toList.map Char.toLower

/-- The first user of a name, up to the case of ASCII letters. -/
def named? (name : String) (users : List User) : Option User :=
  users.find? fun u => lowered u.name == lowered name

variable {τ : Type} [Transport τ]

def tokenInquiry (username password : String) (url : Url) : Inquiry where
  operation := "admin token"
  method := .post
  url
  body := some ⟨"application/x-www-form-urlencoded", form [
    ("grant_type", "password"), ("client_id", "admin-cli"), ("username", username),
    ("password", password)]⟩

def adminToken (base username password : String) : Exchange τ Error String := do
  let url ← .ofExcept (tokenEndpoint base)
  (tokenInquiry username password url).receive "token response" token?

def searchInquiry (token username : String) (url : Url) : Inquiry where
  operation := "find user"
  method := .get
  url := url.addQuery [("username", username), ("exact", "true")]
  token := some token

/-- The id of the user of a name. -/
def findUser (base token realm username : String) : Exchange τ Error (Option String) := do
  let url ← .ofExcept (usersEndpoint base realm)
  let users ← (searchInquiry token username url).receive "user list" users?
  pure ((named? username users).map User.id)

/-- A password as the provider takes it, to be kept. -/
def passwordJson (password : String) : Json :=
  .ofMembers [("type", .string "password"), ("value", .string password), ("temporary", .bool false)]

def userJson (username password : String) : Json :=
  .ofMembers [("username", .string username), ("enabled", .bool true), ("emailVerified", .bool true),
    ("credentials", .array [passwordJson password])]

def jsonBody (value : Json) : Body := ⟨"application/json", value.text⟩

def createUser (base token realm username password : String) : Exchange τ Error Unit := do
  let url ← .ofExcept (usersEndpoint base realm)
  let inquiry : Inquiry := {
    operation := "create user", method := .post, url, token := some token
    body := some (jsonBody (userJson username password)) }
  let _ ← inquiry.send

def resetPassword (base token realm user password : String) : Exchange τ Error Unit := do
  let url ← .ofExcept (passwordEndpoint base realm user)
  let inquiry : Inquiry := {
    operation := "reset password", method := .put, url, token := some token
    body := some (jsonBody (passwordJson password)) }
  let _ ← inquiry.send

end Client

end Acceptance.Identity
