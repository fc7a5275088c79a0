import Acceptance.Proofs.Stores

/-!
# What provisioning leaves to later runs

A run that makes the test identity writes its credentials into the secret, and later runs read them
from there.

* `Password.ne_empty_of_drawn`: no password is empty;
* `Credentials.ofData_toData`: which pairs can be read back;
* `Provision.Handover`: what provisioning hands to the provider and to the secret;
* `Provision.recalled_iff`: whether later runs can read it.
-/

namespace Acceptance

namespace Password

/-- Filling ends only with all characters. -/
theorem length_le_of_fillFrom {out : List Char} {entropy rest : List UInt8} {p : List Char}
    (h : fillFrom out entropy = some (p, rest)) : length ≤ p.length := by
  induction out, entropy using fillFrom.induct with
  | case1 out entropy full =>
    rw [fillFrom, if_pos full] at h
    cases h
    exact full
  | case2 out entropy short exhausted =>
    rw [fillFrom, if_neg short, if_pos exhausted] at h
    cases h
  | case3 out entropy short enough ih =>
    rw [fillFrom, if_neg short, if_neg enough] at h
    exact ih h

theorem ne_empty_of_drawn {p : String} (h : Procedure.Drawn p) : p ≠ "" := by
  obtain ⟨entropy, rest, generated⟩ := h
  obtain ⟨⟨chars, rest'⟩, filled, same⟩ := Option.map_eq_some_iff.1 generated
  cases same
  have long := length_le_of_fillFrom filled
  rintro empty
  obtain rfl : chars = [] := by simpa using empty
  exact absurd long (by decide)

end Password

namespace Credentials

/-- What is wrong with a secret without a text under the key. -/
def missing (secret key : String) : Error := .config s!"secret {secret} has no {key} key"

theorem entry_eq {secret key value : String} {data : SecretData}
    (h : data.get? key = some value) :
    entry secret data key = if value = "" then .error (missing secret key) else .ok value := by
  unfold entry
  rw [h]
  split
  · rename_i empty
    cases empty
    rfl
  · rename_i none
    cases none
  · rename_i something same
    cases same
    rw [if_neg something]

/-- A pair can be read back if neither of its texts is empty. -/
theorem ofData_toData (secret : String) (c : Credentials) : ofData secret c.toData =
    if c.username = "" then .error (missing secret usernameKey)
    else if c.password = "" then .error (missing secret passwordKey)
    else .ok c := by
  simp only [ofData, entry_eq (Stores.get?_username c), entry_eq (Stores.get?_password c)]
  split
  · rfl
  · split <;> rfl

end Credentials

variable {σ : Type} [Party σ]

/-- Who is given the secret reads its data. -/
theorem readCredentials_given {ns secret : String} {data : SecretData} {g : Guard}
    {s s' : Session σ} (given : Task.ask g (.getSecret ns secret) s = (.value (some data), s')) :
    ((readCredentials ns secret).perform g s).1 = .ofExcept (Credentials.ofData secret data) := by
  simp only [readCredentials, Bind.bind, Procedure.call, Procedure.bind, Procedure.perform, given]
  rfl

namespace Provision

open Procedure

/-- With these calls the provider accepted one password and got no other, and these data were
written into the secret, and no others. -/
structure Handover (r : IdentityRequest) (calls : List Answered) (p : String) (data : SecretData) :
    Prop where
  accepted : ∃ x ∈ calls, x.Sets ∧ x.call.password? = some p
  password : ∀ x ∈ calls, ∀ q, x.call.password? = some q → q = p
  written : ⟨.applySecret r.namespaceName r.credentialSecret data, .ok ()⟩ ∈ calls
  writes : ∀ x ∈ calls, x.call.writes →
    x = ⟨.applySecret r.namespaceName r.credentialSecret data, .ok ()⟩

/-- In the course that makes the identity only the last call writes, and the provider is given one
password. -/
theorem Ensured.handover {r : IdentityRequest} {calls : List Answered} {result : Except Error Bool}
    (h : Ensured r calls result) (made : result = .ok true) :
    ∃ p, p ≠ "" ∧ Handover r calls p (Credentials.toData ⟨r.username, p⟩) := by
  cases h with
  | set drawn upserted =>
    rename_i data admin token p user written
    cases written with
    | error => cases made
    | ok =>
      have once : ∀ x ∈ opening r data admin (.ok token) ++ (user ++ [⟨writeCall r p, .ok ()⟩]),
          (∀ q, x.call.password? = some q → q = p) ∧
            (x.call.writes → x = ⟨writeCall r p, .ok ()⟩) := by
        intro x hx
        rcases List.mem_append.1 hx with hx | hx
        · obtain ⟨aloof, unwritten⟩ := opening_aloof x hx
          simp [aloof.password, unwritten]
        · rcases List.mem_append.1 hx with hx | hx
          · refine ⟨upserted.password x hx, fun writes => ?_⟩
            simp [upserted.unwritten x hx] at writes
          · cases List.mem_singleton.1 hx
            exact ⟨nofun, fun _ => rfl⟩
      obtain ⟨x, hx, sets⟩ := upserted.sets_iff.2 rfl
      obtain ⟨q, given⟩ := Option.ne_none_iff_exists'.1 sets.1
      refine ⟨p, Password.ne_empty_of_drawn drawn, ⟨x, ?_, sets, ?_⟩, fun x hx => (once x hx).1,
        ?_, fun x hx => (once x hx).2⟩
      · exact List.mem_append_right _ (List.mem_append_left _ hx)
      · rw [given, upserted.password x hx q given]
      · exact List.mem_append_right _ (List.mem_append_right _ (List.mem_singleton_self _))
  | _ => cases made

theorem handover_of_made {r : IdentityRequest} {g : Guard} {s : Session σ}
    (made : ((ensure r).perform g s).1 = .value true) : ∃ calls p, p ≠ "" ∧
      ((ensure r).perform g s).2.answered = s.answered ++ calls ∧
      Handover r calls p (Credentials.toData ⟨r.username, p⟩) := by
  rcases perform_transcript (ensure r) g s with ⟨calls, result, performed⟩ | ⟨_, _, interrupted⟩
  · have same : result = .ok true := by
      have ending := made.symm.trans performed.ending
      cases result <;> cases ending
      rfl
    obtain ⟨p, password, handover⟩ := (ensure_ensured performed.transcript).handover same
    exact ⟨calls, p, password, performed.answered, handover⟩
  · have cut := interrupted.cut
    rw [made] at cut
    cases cut

/-- What is left when an identity has been made can be read back if and only if the test user has a
name; later runs then read that name, with the password that the provider accepted. Without a name
every reading of the secret ends in an error. -/
theorem recalled_iff (r : IdentityRequest) (g : Guard) (s : Session σ)
    (made : ((ensure r).perform g s).1 = .value true) :
    ∃ calls p data, ((ensure r).perform g s).2.answered = s.answered ++ calls ∧
      Handover r calls p data ∧
      (∀ secret, Credentials.ofData secret data = .ok ⟨r.username, p⟩ ↔ r.username ≠ "") ∧
      ∀ (τ : Type) [Party τ] (g' : Guard) (t t' : Session τ),
        Task.ask g' (.getSecret r.namespaceName r.credentialSecret) t = (.value (some data), t') →
        ((readCredentials r.namespaceName r.credentialSecret).perform g' t).1 =
          if r.username = "" then
            .error (Credentials.missing r.credentialSecret Credentials.usernameKey)
          else .value ⟨r.username, p⟩ := by
  obtain ⟨calls, p, password, answered, handover⟩ := handover_of_made made
  have read : ∀ secret, Credentials.ofData secret (Credentials.toData ⟨r.username, p⟩) =
      if r.username = "" then .error (Credentials.missing secret Credentials.usernameKey)
      else .ok ⟨r.username, p⟩ := by
    intro secret
    rw [Credentials.ofData_toData, if_neg password]
  refine ⟨calls, p, _, answered, handover, fun secret => ?_, fun τ _ g' t t' given => ?_⟩
  · rw [read]
    split <;> simp [*]
  · rw [readCredentials_given given, read]
    split <;> rfl

/-- The identity of a test user. -/
def tester (username : String) : IdentityRequest where
  namespaceName := "default"
  providerUrl := "https://id.example"
  username

/-- Nothing is refused, and there are random bytes for a password. -/
def ready : Session Willing where
  party := {}
  entropy := List.replicate Password.bufferSize 0

/-- The usual test user has a name. -/
theorem recalled_iff_willing : ∃ calls p data,
    ((ensure (tester "vip-tester")).perform {} ready).2.answered = calls ∧
      Handover (tester "vip-tester") calls p data ∧
      Credentials.ofData "vip-test-credentials" data = .ok ⟨"vip-tester", p⟩ := by
  obtain ⟨calls, p, data, answered, handover, read, -⟩ :=
    recalled_iff (tester "vip-tester") {} ready (by decide +kernel)
  exact ⟨calls, p, data, answered, handover, (read _).2 (by decide)⟩

/-- A test user whose name is empty is made, and nobody can read its secret. -/
theorem not_recalled : ¬ ∀ (r : IdentityRequest) (g : Guard) (s : Session Willing)
    (calls : List Answered) (p : String) (data : SecretData),
    ((ensure r).perform g s).1 = .value true →
    ((ensure r).perform g s).2.answered = s.answered ++ calls → Handover r calls p data →
    Credentials.ofData r.credentialSecret data = .ok ⟨r.username, p⟩ := by
  intro recalled
  have made : ((ensure (tester "")).perform {} ready).1 = .value true := by decide +kernel
  obtain ⟨calls, p, -, answered, handover⟩ := handover_of_made made
  have read := recalled _ {} _ calls p _ made answered handover
  simp [Credentials.ofData_toData, tester] at read

end Provision

end Acceptance
