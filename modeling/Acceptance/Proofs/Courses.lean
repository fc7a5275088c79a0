import Acceptance.Proofs.Transcript
import Acceptance.Provision

/-!
# The courses of provisioning

* `Provision.Upserted`, `Provision.upsertUser_upserted`: every course that giving the test user a
  password takes;
* `Provision.Ensured`, `Provision.ensure_ensured`: the same of provisioning as a whole.
-/

namespace Acceptance

namespace Provision

open Procedure

variable {r : IdentityRequest}

/-- What is wrong when a user that exists is not found. -/
def unfound (r : IdentityRequest) : Error :=
  .identityProvider "create user"
    s!"user {r.username} reported as existing in realm {r.realm} but not found" none

def createCall (r : IdentityRequest) (token password : String) : Call :=
  .createUser r.providerUrl token r.realm r.username password

def resetCall (r : IdentityRequest) (token password user : String) : Call :=
  .resetPassword r.providerUrl token r.realm user password

/-- The courses of giving the test user the password. -/
inductive Upserted (r : IdentityRequest) (token p : String) :
    List Answered → Except Error Unit → Prop where
  | found {user : String} {result : Except Error Unit} :
      Upserted r token p [⟨findUser r token, .ok (some user)⟩, ⟨resetCall r token p user, result⟩]
        result
  /-- The user is not found, whether or not the search failed, and is made, or cannot be made. -/
  | made {search : Except Error (Option String)} {result : Except Error Unit}
      (missing : ∀ user, search ≠ .ok (some user))
      (final : ∀ e, result = .error e → ¬ e.isConflict) :
      Upserted r token p [⟨findUser r token, search⟩, ⟨createCall r token p, result⟩] result
  /-- The user has been made by somebody else, and is not found even so. -/
  | lost {search again : Except Error (Option String)} {e e' : Error}
      (missing : ∀ user, search ≠ .ok (some user)) (conflict : e.isConflict)
      (still : again = .error e' ∨ (again = .ok none ∧ e' = unfound r)) :
      Upserted r token p [⟨findUser r token, search⟩, ⟨createCall r token p, .error e⟩,
        ⟨findUser r token, again⟩] (.error e')
  | shared {search : Except Error (Option String)} {e : Error} {user : String}
      {result : Except Error Unit} (missing : ∀ user, search ≠ .ok (some user))
      (conflict : e.isConflict) :
      Upserted r token p [⟨findUser r token, search⟩, ⟨createCall r token p, .error e⟩,
        ⟨findUser r token, .ok (some user)⟩, ⟨resetCall r token p user, result⟩] result

theorem createUser_upserted {token p : String} {search : Except Error (Option String)}
    {calls : List Answered} {result : Except Error Unit}
    (missing : ∀ user, search ≠ .ok (some user))
    (h : Transcript (createUser r token p) calls result) :
    Upserted r token p (⟨findUser r token, search⟩ :: calls) result := by
  obtain ⟨answer, rest, rfl, told⟩ := transcript_ask h
  cases answer with
  | ok done =>
    obtain ⟨rfl, rfl⟩ := transcript_done told
    exact .made missing nofun
  | error e =>
    dsimp only at told
    split at told
    · rename_i conflict
      rcases transcript_bind told with ⟨again, _, _, rfl, asked, reset⟩ | ⟨e', rfl, asked⟩
      · cases transcript_call asked
        cases again with
        | none =>
          obtain ⟨rfl, rfl⟩ := transcript_done reset
          exact .lost missing conflict (.inr ⟨rfl, rfl⟩)
        | some user =>
          cases transcript_call reset
          exact .shared missing conflict
      · cases transcript_call asked
        exact .lost missing conflict (.inl rfl)
    · obtain ⟨rfl, rfl⟩ := transcript_done told
      exact .made missing fun _ h => by cases h; assumption

theorem upsertUser_upserted {token p : String} {calls : List Answered} {result : Except Error Unit}
    (h : Transcript (upsertUser r token p) calls result) : Upserted r token p calls result := by
  obtain ⟨search, rest, rfl, told⟩ := transcript_ask h
  match search with
  | .ok (some user) =>
    cases transcript_call told
    exact .found
  | .ok none => exact createUser_upserted nofun told
  | .error e => exact createUser_upserted nofun (transcript_warn told)

/-- The calls up to the token of the administrator. -/
def opening (r : IdentityRequest) (data : Option SecretData) (admin : Credentials)
    (token : Except Error String) : List Answered :=
  [⟨.secretExists r.namespaceName r.credentialSecret, .ok false⟩,
    ⟨.getSecret r.namespaceName r.adminSecret, .ok data⟩,
    ⟨.adminToken r.providerUrl admin.username admin.password, token⟩]

@[reducible]
def writeCall (r : IdentityRequest) (p : String) : Call :=
  .applySecret r.namespaceName r.credentialSecret (Credentials.toData ⟨r.username, p⟩)

/-- The courses of provisioning. -/
inductive Ensured (r : IdentityRequest) : List Answered → Except Error Bool → Prop where
  | unknown {e : Error} :
      Ensured r [⟨.secretExists r.namespaceName r.credentialSecret, .error e⟩] (.error e)
  /-- The identity exists. -/
  | known : Ensured r [⟨.secretExists r.namespaceName r.credentialSecret, .ok true⟩] (.ok false)
  | unread {answer : Except Error (Option SecretData)} {e : Error}
      (unusable : answer = .error e ∨
        ∃ data, answer = .ok data ∧
          Credentials.ofSecret r.namespaceName r.adminSecret data = .error e) :
      Ensured r [⟨.secretExists r.namespaceName r.credentialSecret, .ok false⟩,
        ⟨.getSecret r.namespaceName r.adminSecret, answer⟩] (.error e)
  | refused {data : Option SecretData} {admin : Credentials} {e : Error} :
      Ensured r (opening r data admin (.error e)) (.error e)
  /-- There is no password to give. -/
  | exhausted {data : Option SecretData} {admin : Credentials} {token : String} :
      Ensured r (opening r data admin (.ok token)) (.error (.random "test user password"))
  | unset {data : Option SecretData} {admin : Credentials} {token p : String}
      {calls : List Answered} {e : Error} (upserted : Upserted r token p calls (.error e)) :
      Ensured r (opening r data admin (.ok token) ++ calls) (.error e)
  | set {data : Option SecretData} {admin : Credentials} {token p : String}
      {calls : List Answered} {written : Except Error Unit} (drawn : Drawn p)
      (upserted : Upserted r token p calls (.ok ())) :
      Ensured r (opening r data admin (.ok token) ++ (calls ++ [⟨writeCall r p, written⟩]))
        (written.map fun _ => true)

theorem readCredentials_transcript {ns secret : String} {calls : List Answered}
    {result : Except Error Credentials} (h : Transcript (readCredentials ns secret) calls result) :
    ∃ answer, calls = [⟨.getSecret ns secret, answer⟩] ∧
      ((∃ e, answer = .error e ∧ result = .error e) ∨
        ∃ data, answer = .ok data ∧ result = Credentials.ofSecret ns secret data) := by
  rcases transcript_bind h with ⟨data, _, _, rfl, asked, told⟩ | ⟨e, rfl, asked⟩
  · cases transcript_call asked
    obtain ⟨rfl, rfl⟩ := transcript_done told
    exact ⟨.ok data, rfl, .inr ⟨data, rfl, rfl⟩⟩
  · exact ⟨.error e, transcript_call asked, .inl ⟨e, rfl, rfl⟩⟩

theorem create_transcript {calls : List Answered} {result : Except Error Unit}
    (h : Transcript (create r) calls result) :
    Ensured r (⟨.secretExists r.namespaceName r.credentialSecret, .ok false⟩ :: calls)
      (result.map fun _ => true) := by
  rcases transcript_bind h with ⟨admin, _, _, rfl, read, told⟩ | ⟨e, rfl, read⟩
  · obtain ⟨_, rfl, ⟨e, rfl, wrong⟩ | ⟨data, rfl, right⟩⟩ := readCredentials_transcript read
    · cases wrong
    rcases transcript_bind told with ⟨token, _, _, rfl, asked, told'⟩ | ⟨e, rfl, asked⟩
    · cases transcript_call asked
      rcases transcript_bind told' with ⟨p, _, _, rfl, draws, told''⟩ | ⟨e, rfl, draws⟩
      · rcases transcript_password draws with ⟨p', drawn, done⟩ | ⟨_, impossible⟩
        · obtain ⟨rfl, same⟩ := transcript_done done
          cases same
          rcases transcript_bind told'' with ⟨_, _, _, rfl, upsert, writes⟩ | ⟨e, rfl, upsert⟩
          · cases transcript_call writes
            exact .set drawn (upsertUser_upserted upsert)
          · exact .unset (upsertUser_upserted upsert)
        · cases impossible
      · rcases transcript_password draws with ⟨p', drawn, done⟩ | ⟨rfl, same⟩
        · cases (transcript_done done).2
        · cases same
          exact .exhausted
    · cases transcript_call asked
      exact .refused
  · obtain ⟨answer, rfl, ⟨e', rfl, same⟩ | ⟨data, rfl, same⟩⟩ := readCredentials_transcript read
    · cases same
      exact .unread (.inl rfl)
    · exact .unread (.inr ⟨data, rfl, same.symm⟩)

theorem ensure_ensured {calls : List Answered} {result : Except Error Bool}
    (h : Transcript (ensure r) calls result) : Ensured r calls result := by
  rcases transcript_bind h with ⟨found, _, _, rfl, asked, told⟩ | ⟨e, rfl, asked⟩
  · cases transcript_call asked
    cases found with
    | true =>
      obtain ⟨rfl, rfl⟩ := transcript_done told
      exact .known
    | false =>
      rcases transcript_bind told with ⟨_, _, _, rfl, makes, done⟩ | ⟨e, rfl, makes⟩
      · obtain ⟨rfl, rfl⟩ := transcript_done done
        rw [List.append_nil]
        exact create_transcript makes
      · exact create_transcript makes
  · cases transcript_call asked
    exact .unknown

end Provision

end Acceptance
