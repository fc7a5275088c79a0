import Acceptance.Procedure

/-!
# Provisioning of the test identity

Once the credential secret exists it is the truth, and the provider is left alone. Otherwise the
test user is made, or gets a new password, and the pair goes into the secret.

* `Provision.ensure`: the whole procedure; its value says whether the identity is new.
-/

namespace Acceptance

/-- Everything that has to be known of a test identity. -/
structure IdentityRequest where
  namespaceName : String
  /-- The secret with the administrator's credentials. -/
  adminSecret : String := "keycloak-initial-admin"
  /-- The secret for the test user's credentials. -/
  credentialSecret : String := "vip-test-credentials"
  providerUrl : String
  realm : String := "vip"
  username : String := "vip-tester"
  deriving DecidableEq, Repr

/-- Reads the credentials in a secret that must be there. -/
def readCredentials (namespaceName secret : String) : Procedure Credentials := do
  let data ← .call (.getSecret namespaceName secret)
  .done (Credentials.ofSecret namespaceName secret data)

namespace Provision

def findUser (r : IdentityRequest) (token : String) : Call :=
  .findUser r.providerUrl token r.realm r.username

def resetPassword (r : IdentityRequest) (token password user : String) : Procedure Unit :=
  .call (.resetPassword r.providerUrl token r.realm user password)

/-- The user was made by somebody else at the same time: it is looked up again. -/
def resetExisting (r : IdentityRequest) (token password : String) : Procedure Unit := do
  match ← .call (findUser r token) with
  | some user => resetPassword r token password user
  | none => .done (.error (.identityProvider "create user"
      s!"user {r.username} reported as existing in realm {r.realm} but not found" none))

def createUser (r : IdentityRequest) (token password : String) : Procedure Unit :=
  .ask (.createUser r.providerUrl token r.realm r.username password) fun
    | .ok () => .done (.ok ())
    | .error e => if e.isConflict then resetExisting r token password else .done (.error e)

/-- Gives the test user the password. A search that fails does not keep the user from being made. -/
def upsertUser (r : IdentityRequest) (token password : String) : Procedure Unit :=
  .ask (findUser r token) fun
    | .ok (some user) => resetPassword r token password user
    | .ok none => createUser r token password
    | .error e => .warn (.userSearchFailed r.username e) (createUser r token password)

/-- Makes the identity and writes its credentials into the secret. -/
def create (r : IdentityRequest) : Procedure Unit := do
  let admin ← readCredentials r.namespaceName r.adminSecret
  let token ← .call (.adminToken r.providerUrl admin.username admin.password)
  let password ← .newPassword
  upsertUser r token password
  .call (.applySecret r.namespaceName r.credentialSecret (Credentials.toData ⟨r.username, password⟩))

/-- Makes sure that the identity and its secret exist; says whether they are new. -/
def ensure (r : IdentityRequest) : Procedure Bool := do
  if ← .call (.secretExists r.namespaceName r.credentialSecret) then pure false
  else do
    create r
    pure true

end Provision

end Acceptance
