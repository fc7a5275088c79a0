import Acceptance.Proofs.Provision

/-!
# What is shared by those who provision at the same time

The secrets of a cluster and the accounts of identity providers. Every call reads or overwrites them
at once.

* `Stores.Serves`, `Stores.Served`: one call and a series of calls, whoever makes them;
* `Stores.serve`: one way to serve every call;
* `Stores.stored?`, `Stores.current?`: the password that the secret of a request holds, and the one
  that its provider knows; what the calls of a series leave of either.
-/

namespace Acceptance

/-- A user at an identity provider. -/
structure Account where
  id : String
  password : String
  deriving DecidableEq

structure Stores where
  /-- By namespace and name. -/
  secrets : String → String → Option SecretData
  /-- By provider, realm and name of the user. -/
  accounts : String → String → String → Option Account

namespace Stores

def putSecret (w : Stores) (ns name : String) (data : SecretData) : Stores :=
  { w with
    secrets := fun ns' name' =>
      if ns' = ns ∧ name' = name then some data else w.secrets ns' name' }

def putAccount (w : Stores) (url realm user : String) (a : Account) : Stores :=
  { w with accounts := fun url' realm' user' =>
      if url' = url ∧ realm' = realm ∧ user' = user then some a else w.accounts url' realm' user' }

/-- Overwrites the password of the account with the id. -/
def setPassword (w : Stores) (url realm id password : String) : Stores :=
  { w with accounts := fun url' realm' user => (w.accounts url' realm' user).map fun a =>
      if url' = url ∧ realm' = realm ∧ a.id = id then { a with password } else a }

/-- A call with the answer that it gets, and what it leaves. -/
inductive Serves (w : Stores) : Answered → Stores → Prop where
  | secretExists {ns name : String} :
      Serves w ⟨.secretExists ns name, .ok (w.secrets ns name).isSome⟩ w
  | getSecret {ns name : String} : Serves w ⟨.getSecret ns name, .ok (w.secrets ns name)⟩ w
  | applySecret {ns name : String} {data : SecretData} :
      Serves w ⟨.applySecret ns name data, .ok ()⟩ (w.putSecret ns name data)
  | adminToken {url user password token : String} :
      Serves w ⟨.adminToken url user password, .ok token⟩ w
  | findUser {url token realm user : String} :
      Serves w ⟨.findUser url token realm user, .ok ((w.accounts url realm user).map (·.id))⟩ w
  | createUser {url token realm user password id : String}
      (absent : w.accounts url realm user = none) :
      Serves w ⟨.createUser url token realm user password, .ok ()⟩
        (w.putAccount url realm user ⟨id, password⟩)
  | conflict {url token realm user password : String} {e : Error} (conflict : e.isConflict)
      (present : w.accounts url realm user ≠ none) :
      Serves w ⟨.createUser url token realm user password, .error e⟩ w
  | resetPassword {url token realm id password : String} :
      Serves w ⟨.resetPassword url token realm id password, .ok ()⟩
        (w.setPassword url realm id password)
  /-- Any call may fail, and then does nothing. -/
  | refuse {call : Call} {e : Error} (ordinary : ¬ e.isConflict) : Serves w ⟨call, .error e⟩ w

/-- What a call gets, and leaves, where nothing fails. Users are known by their names. -/
def serve (w : Stores) : (call : Call) → Except Error call.Answer × Stores
  | .secretExists ns name => (.ok (w.secrets ns name).isSome, w)
  | .getSecret ns name => (.ok (w.secrets ns name), w)
  | .applySecret ns name data => (.ok (), w.putSecret ns name data)
  | .adminToken .. => (.ok "token", w)
  | .findUser url _ realm user => (.ok ((w.accounts url realm user).map (·.id)), w)
  | .createUser url _ realm user password =>
    if w.accounts url realm user = none then (.ok (), w.putAccount url realm user ⟨user, password⟩)
    else (.error (.identityProvider "create user" "user exists" (some 409)), w)
  | .resetPassword url _ realm id password => (.ok (), w.setPassword url realm id password)
  | _ => (.error (.controlPlane "call" "not served"), w)

theorem serves_serve (w : Stores) (call : Call) :
    w.Serves ⟨call, (w.serve call).1⟩ (w.serve call).2 := by
  cases call with
  | secretExists => exact .secretExists
  | getSecret => exact .getSecret
  | applySecret => exact .applySecret
  | adminToken => exact .adminToken
  | findUser => exact .findUser
  | createUser =>
    simp only [serve]
    split
    · exact .createUser ‹_›
    · exact .conflict rfl ‹_›
  | resetPassword => exact .resetPassword
  | _ => exact .refuse nofun

/-- A series of calls. -/
inductive Served : Stores → List Answered → Stores → Prop where
  | nil {w : Stores} : Served w [] w
  | cons {w w' w'' : Stores} {x : Answered} {calls : List Answered} (serves : Serves w x w')
      (rest : Served w' calls w'') : Served w (x :: calls) w''

theorem Served.split {w w' : Stores} {earlier later : List Answered}
    (h : Served w (earlier ++ later) w') : ∃ w₁, Served w earlier w₁ ∧ Served w₁ later w' := by
  induction earlier generalizing w with
  | nil => exact ⟨w, .nil, h⟩
  | cons x earlier ih =>
    cases h with
    | cons serves rest =>
      obtain ⟨w₁, first, second⟩ := ih rest
      exact ⟨w₁, .cons serves first, second⟩

/-- What every call keeps a series keeps. -/
theorem Served.keeps {I : Stores → Prop} {w w' : Stores} {calls : List Answered}
    (h : Served w calls w') (step : ∀ {w w'}, ∀ x ∈ calls, Serves w x w' → I w → I w')
    (start : I w) : I w' := by
  induction h with
  | nil => exact start
  | cons serves rest ih =>
    exact ih (fun x hx => step x (List.mem_cons_of_mem _ hx))
      (step _ List.mem_cons_self serves start)

variable {w w' : Stores} {x : Answered} {r : IdentityRequest}

/-- Only a secret that is written changes. -/
theorem Serves.secrets (h : Serves w x w') (unwritten : ¬ (x.call.writes ∧ x.error? = none)) :
    w'.secrets = w.secrets := by
  cases h with
  | applySecret => exact absurd ⟨rfl, rfl⟩ unwritten
  | _ => rfl

/-- Only an account that gets a password changes. -/
theorem Serves.accounts (h : Serves w x w') (unset : ¬ x.Sets) : w'.accounts = w.accounts := by
  cases h with
  | createUser | resetPassword => exact absurd ⟨nofun, rfl⟩ unset
  | _ => rfl

/-- The password in the secret of the request. -/
def stored? (w : Stores) (r : IdentityRequest) : Option String :=
  (w.secrets r.namespaceName r.credentialSecret).bind (·.get? Credentials.passwordKey)

/-- The password of the test user of the request. -/
def current? (w : Stores) (r : IdentityRequest) : Option String :=
  (w.accounts r.providerUrl r.realm r.username).map (·.password)

/-- The test user of the request has the id. -/
def HasId (r : IdentityRequest) (id : String) (w : Stores) : Prop :=
  ∃ a, w.accounts r.providerUrl r.realm r.username = some a ∧ a.id = id

/-- A secret that is found is there. -/
theorem Serves.known {ns name : String} (h : Serves w ⟨.secretExists ns name, .ok true⟩ w') :
    w.secrets ns name ≠ none := by
  generalize same : (⟨.secretExists ns name, .ok true⟩ : Answered) = x at h
  cases h with
  | secretExists =>
    injection same with calls answers
    cases calls
    intro absent
    simp [absent] at answers
  | _ => cases same

/-- Accounts keep their ids. -/
theorem Serves.hasId {id : String} (h : Serves w x w') (has : HasId r id w) : HasId r id w' := by
  obtain ⟨a, account, rfl⟩ := has
  cases h with
  | createUser absent =>
    refine ⟨a, ?_, rfl⟩
    simp only [putAccount]
    split
    · rename_i same
      obtain ⟨rfl, rfl, rfl⟩ := same
      cases absent.symm.trans account
    · exact account
  | resetPassword =>
    simp only [HasId, setPassword, account, Option.map_some, Option.some.injEq, exists_eq_left']
    split <;> rfl
  | _ => exact ⟨a, account, rfl⟩

/-- Who is found is there. -/
theorem Serves.found {id : String} (h : Serves w x w') (asked : Provision.Addresses r x.call)
    (found : x.found? = some id) : HasId r id w' := by
  cases h with
  | findUser =>
    obtain ⟨rfl, rfl, rfl⟩ := asked
    obtain ⟨a, account, rfl⟩ := Option.map_eq_some_iff.1 found
    exact ⟨a, account, rfl⟩
  | @refuse call => cases call <;> cases found
  | _ => cases found

/-- After a password was set, it is the one of the test user. -/
theorem Serves.current {p : String} (h : Serves w x w') (asked : Provision.Addresses r x.call)
    (sets : x.Sets) (given : x.call.password? = some p)
    (known : ∀ id, x.call.reset? = some id → HasId r id w) : w'.current? r = some p := by
  cases h with
  | createUser =>
    obtain ⟨rfl, rfl, rfl⟩ := asked
    cases given
    simp [current?, putAccount]
  | resetPassword =>
    obtain ⟨rfl, rfl⟩ := asked
    cases given
    obtain ⟨a, account, rfl⟩ := known _ rfl
    simp [current?, setPassword, account]
  | conflict | refuse => cases sets.2
  | _ => exact absurd rfl sets.1

theorem get?_password (c : Credentials) :
    c.toData.get? Credentials.passwordKey = some c.password := by
  have order : Credentials.passwordKey < Credentials.usernameKey := by decide
  simp [Credentials.toData, Dict.ofList, Dict.insert, Dict.empty, Dict.get?, insertEntry, entryAt?,
    order]

theorem get?_username (c : Credentials) :
    c.toData.get? Credentials.usernameKey = some c.username := by
  have order : Credentials.passwordKey < Credentials.usernameKey := by decide
  have other : Credentials.passwordKey ≠ Credentials.usernameKey := by decide
  simp [Credentials.toData, Dict.ofList, Dict.insert, Dict.empty, Dict.get?, insertEntry, entryAt?,
    order, other]

/-- After the secret was written, it holds the password. -/
theorem Serves.stored {p : String} (h : Serves w x w') (writes : x.call = Provision.writeCall r p)
    (accepted : x.error? = none) : w'.stored? r = some p := by
  cases h with
  | applySecret =>
    cases writes
    simp [stored?, putSecret, get?_password]
  | refuse => cases accepted
  | _ => cases writes

end Stores

end Acceptance
