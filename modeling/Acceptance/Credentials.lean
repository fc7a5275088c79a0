import Acceptance.Dict
import Acceptance.Error
import Acceptance.Text.Quoted

/-!
# Credentials

A name and a password, as a secret of the cluster holds them. What is shown of a pair in a log
leaves the password out.
-/

namespace Acceptance

/-- The data of a secret, decoded. -/
abbrev SecretData := Dict String

structure Credentials where
  username : String
  password : String
  deriving DecidableEq

namespace Credentials

def usernameKey : String := "username"

def passwordKey : String := "password"

/-- The text under a key. An empty text counts as none. -/
def entry (secret : String) (data : SecretData) (key : String) : Except Error String :=
  match data.get? key with
  | some "" | none => .error (.config s!"secret {secret} has no {key} key")
  | some value => .ok value

/-- Reads a pair; `secret` names the secret in errors. -/
def ofData (secret : String) (data : SecretData) : Except Error Credentials := do
  let username ← entry secret data usernameKey
  let password ← entry secret data passwordKey
  .ok ⟨username, password⟩

def toData (c : Credentials) : SecretData :=
  .ofList [(usernameKey, c.username), (passwordKey, c.password)]

/-- Reads a pair from a secret that may be missing. -/
def ofSecret (namespaceName secret : String) : Option SecretData → Except Error Credentials
  | some data => ofData secret data
  | none => .error (.config s!"secret {namespaceName}/{secret} not found")

/-- What may be shown of a pair. -/
def shown (c : Credentials) : String :=
  "CredentialSecret \x7b username: " ++ Text.quoted c.username ++
    ", password: \"<redacted>\" \x7d"

end Credentials

end Acceptance
