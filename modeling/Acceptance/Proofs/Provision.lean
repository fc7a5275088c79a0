import Acceptance.Proofs.Courses
import Acceptance.Proofs.Run
import Mathlib.Data.List.Chain

/-!
# What provisioning promises

* `Provision.Provisioned`: what holds of the calls and the result of every course: the secret gets
  the password that the provider accepted;
* `Provision.ensure_provisions`: provisioning keeps it, unless it is left without an answer.
-/

namespace Acceptance

namespace Call

/-- The password that a call gives the test user. -/
def password? : Call → Option String
  | createUser _ _ _ _ password | resetPassword _ _ _ _ password => some password
  | _ => none

/-- The user whose password a call resets. -/
def reset? : Call → Option String
  | resetPassword _ _ _ user _ => some user
  | _ => none

def finds : Call → Bool
  | findUser .. => true
  | _ => false

def creates : Call → Bool
  | createUser .. => true
  | _ => false

def writes : Call → Bool
  | applySecret .. => true
  | _ => false

end Call

namespace Answered

def error? (x : Answered) : Option Error :=
  match x.answer with
  | .ok _ => none
  | .error e => some e

/-- The provider accepted a password for the test user. -/
def Sets (x : Answered) : Prop := x.call.password? ≠ none ∧ x.error? = none

/-- The test user exists already. -/
def Conflicts (x : Answered) : Prop := x.call.creates ∧ ∃ e, x.error? = some e ∧ e.isConflict

/-- The user that a search found. -/
def found? : Answered → Option String
  | ⟨.findUser .., .ok user⟩ => user
  | _ => none

end Answered

namespace Provision

open Procedure

variable {r : IdentityRequest}

/-- What is asked of whom: the request's provider, about its user, and its two secrets. -/
def Addresses (r : IdentityRequest) : Call → Prop
  | .secretExists ns name | .applySecret ns name _ =>
    ns = r.namespaceName ∧ name = r.credentialSecret
  | .getSecret ns name => ns = r.namespaceName ∧ name = r.adminSecret
  | .adminToken url _ _ => url = r.providerUrl
  | .findUser url _ realm user | .createUser url _ realm user _ =>
    url = r.providerUrl ∧ realm = r.realm ∧ user = r.username
  | .resetPassword url _ realm _ _ => url = r.providerUrl ∧ realm = r.realm
  | _ => False

/-- The last call is to blame for the error: it failed, or what it brought is of no use, or no
password could be drawn after it. -/
def Blames (r : IdentityRequest) (e : Error) : Answered → Prop
  | ⟨_, .error e'⟩ => e' = e
  | ⟨.getSecret .., .ok data⟩ => Credentials.ofSecret r.namespaceName r.adminSecret data = .error e
  | ⟨.adminToken .., .ok _⟩ => e = .random "test user password"
  | ⟨.findUser .., .ok user⟩ => user = none ∧ e = unfound r
  | _ => False

namespace Upserted

variable {token p : String} {calls : List Answered} {result : Except Error Unit}

section

attribute [local simp] findUser createCall resetCall Call.password? Call.reset? Call.finds
  Call.creates Call.writes Answered.error? Answered.found?

theorem found?_of_missing (r : IdentityRequest) (token : String)
    {search : Except Error (Option String)} (missing : ∀ user, search ≠ .ok (some user)) :
    Answered.found? ⟨findUser r token, search⟩ = none := by
  match search with
  | .ok none | .error _ => rfl
  | .ok (some user) => exact absurd rfl (missing user)

theorem sets_iff (h : Upserted r token p calls result) :
    (∃ x ∈ calls, x.Sets) ↔ result = .ok () := by
  cases h with
  | found | made | shared => cases result <;> simp [Answered.Sets]
  | lost => simp [Answered.Sets]

theorem unwritten (h : Upserted r token p calls result) : ∀ x ∈ calls, x.call.writes = false := by
  cases h <;> simp

theorem password (h : Upserted r token p calls result) :
    ∀ x ∈ calls, ∀ q, x.call.password? = some q → q = p := by
  cases h <;> simp [eq_comm]

theorem creates_iff (h : Upserted r token p calls result) : (∃ x ∈ calls, x.call.creates) ↔
    ∃ x, calls.find? (·.call.finds) = some x ∧ x.found? = none := by
  cases h with
  | found => simp
  | made missing | lost missing | shared missing =>
    simpa using found?_of_missing r token missing

theorem searches (h : Upserted r token p calls result) : calls.countP (·.call.finds) ≤ 2 ∧
    (calls.countP (·.call.finds) = 2 ↔ ∃ x ∈ calls, x.Conflicts) := by
  cases h with
  | found => simp [Answered.Conflicts]
  | made missing final =>
    cases result with
    | ok => simp [Answered.Conflicts]
    | error e => simpa [Answered.Conflicts] using final
  | lost missing conflict | shared missing conflict => simp [Answered.Conflicts, conflict]

theorem resets (h : Upserted r token p calls result) :
    calls.countP (·.call.reset?.isSome) ≤ 1 ∧
    calls.IsChain fun x y => ∀ user, y.call.reset? = some user → x.found? = some user := by
  cases h <;> simp

theorem fails {e : Error} (h : Upserted r token p calls (.error e)) :
    ∃ x, calls.getLast? = some x ∧ Blames r e x := by
  generalize same : Except.error e = result at h
  cases h with
  | found | made | shared => simp [← same, Blames]
  | lost _ _ still =>
    cases same
    rcases still with rfl | ⟨rfl, rfl⟩ <;> simp [Blames]

theorem tolerates (h : Upserted r token p calls result) :
    ∀ x ∈ calls.dropLast, x.error? ≠ none → x.call.finds ∨ x.Conflicts := by
  cases h with
  | found | made => simp
  | lost missing conflict | shared missing conflict => simp [Answered.Conflicts, conflict]

theorem succeeds (h : Upserted r token p calls result) (success : result = .ok ()) :
    ∀ x ∈ calls, x.error? ≠ none → x.call.finds ∨ x.Conflicts := by
  subst success
  generalize same : Except.ok () = result at h
  cases h with
  | found | made => simp [← same]
  | lost => cases same
  | shared missing conflict => simp [← same, Answered.Conflicts, conflict]

theorem addresses (h : Upserted r token p calls result) : ∀ x ∈ calls, Addresses r x.call := by
  cases h <;> simp [Addresses]

end

theorem begins (h : Upserted r token p calls result) :
    ∃ search rest, calls = ⟨findUser r token, search⟩ :: rest := by
  cases h <;> exact ⟨_, _, rfl⟩

end Upserted

/-- What holds of the calls and the result of provisioning. -/
structure Provisioned (r : IdentityRequest) (calls : List Answered) (result : Except Error Bool) :
    Prop where
  /-- An identity that exists is left alone. -/
  checks : ∃ answer rest,
    calls = ⟨.secretExists r.namespaceName r.credentialSecret, answer⟩ :: rest ∧
    (result = .ok false ↔ answer = .ok true) ∧ (answer = .ok true → rest = [])
  addresses : ∀ x ∈ calls, Addresses r x.call
  /-- The secret is written if the provider accepted a password, -/
  writes_iff : (∃ x ∈ calls, x.call.writes) ↔ ∃ x ∈ calls, x.Sets
  /-- once and at the end, -/
  writes_last : ∀ x ∈ calls.dropLast, x.call.writes = false
  /-- with that password; there is no other. -/
  password : ∃ p, (∀ x ∈ calls, ∀ q, x.call.password? = some q → q = p) ∧
    ∀ x ∈ calls, x.call.writes → x.call = writeCall r p
  /-- The user is made if the first search did not find one. -/
  creates_iff : (∃ x ∈ calls, x.call.creates) ↔
    ∃ x, calls.find? (·.call.finds) = some x ∧ x.found? = none
  /-- There is a second search if somebody else made the user meanwhile, and never a third. -/
  searches : calls.countP (·.call.finds) ≤ 2 ∧
    (calls.countP (·.call.finds) = 2 ↔ ∃ x ∈ calls, x.Conflicts)
  /-- At most one password is reset, that of a user who was found just before. -/
  resets : calls.countP (·.call.reset?.isSome) ≤ 1 ∧
    calls.IsChain fun x y => ∀ user, y.call.reset? = some user → x.found? = some user
  true_iff : result = .ok true ↔ ∃ x ∈ calls, x.call.writes ∧ x.error? = none
  /-- Only the last call makes provisioning fail; -/
  fails : ∀ e, result = .error e → ∃ x, calls.getLast? = some x ∧ Blames r e x
  /-- of the others, a search may fail, and the making of a user who exists. -/
  tolerates : ∀ x ∈ calls.dropLast, x.error? ≠ none → x.call.finds ∨ x.Conflicts

/-- A call that does not concern the test user. -/
structure Aloof (x : Answered) : Prop where
  password : x.call.password? = none
  reset : x.call.reset? = none
  finds : x.call.finds = false
  creates : x.call.creates = false

namespace Aloof

variable {before calls after : List Answered} (first : ∀ x ∈ before, Aloof x)
  (last : ∀ x ∈ after, Aloof x)

theorem unset {x : Answered} (h : Aloof x) : ¬ x.Sets := fun sets => sets.1 h.password

theorem unconflicting {x : Answered} (h : Aloof x) : ¬ x.Conflicts := fun conflicts => by
  simpa [h.creates] using conflicts.1

include first last

theorem exists_iff {P : Answered → Prop} (hP : ∀ x, Aloof x → ¬ P x) :
    (∃ x ∈ before ++ (calls ++ after), P x) ↔ ∃ x ∈ calls, P x := by
  constructor
  · rintro ⟨x, hx, holds⟩
    rcases List.mem_append.1 hx with hx | hx
    · exact absurd holds (hP x (first x hx))
    · rcases List.mem_append.1 hx with hx | hx
      · exact ⟨x, hx, holds⟩
      · exact absurd holds (hP x (last x hx))
  · rintro ⟨x, hx, holds⟩
    exact ⟨x, List.mem_append_right _ (List.mem_append_left _ hx), holds⟩

theorem countP {f : Answered → Bool} (hf : ∀ x, Aloof x → f x = false) :
    (before ++ (calls ++ after)).countP f = calls.countP f := by
  have zero : ∀ l : List Answered, (∀ x ∈ l, Aloof x) → l.countP f = 0 := fun l h =>
    List.countP_eq_zero.2 fun x hx => by simp [hf x (h x hx)]
  rw [List.countP_append, List.countP_append, zero before first, zero after last]
  omega

theorem find? {f : Answered → Bool} (hf : ∀ x, Aloof x → f x = false) :
    (before ++ (calls ++ after)).find? f = calls.find? f := by
  have none : ∀ l : List Answered, (∀ x ∈ l, Aloof x) → l.find? f = none := fun l h =>
    List.find?_eq_none.2 fun x hx => by simp [hf x (h x hx)]
  rw [List.find?_append, List.find?_append, none before first, none after last, Option.none_or,
    Option.or_none]

theorem isChain {R : Answered → Answered → Prop} (hR : ∀ x y, Aloof y → R x y)
    (between : calls.IsChain R) (start : ∀ x, ∀ y ∈ calls.head?, R x y) :
    (before ++ (calls ++ after)).IsChain R := by
  have chain : ∀ l : List Answered, (∀ x ∈ l, Aloof x) → l.IsChain R := fun l h =>
    (List.pairwise_of_forall_mem_list fun x _ y hy => hR x y (h y hy)).isChain
  have end' : ∀ x, ∀ y ∈ after.head?, R x y := fun x y hy =>
    hR x y (last y (List.mem_of_mem_head? hy))
  refine (chain before first).append (between.append (chain after last) fun x _ => end' x) ?_
  intro x _ y hy
  rw [List.head?_append] at hy
  cases head : calls.head? with
  | none => exact end' x y (by simpa [head] using hy)
  | some z => exact start x y (by simpa [head] using hy)

end Aloof

theorem opening_aloof {data : Option SecretData} {admin : Credentials}
    {token : Except Error String} :
    ∀ x ∈ opening r data admin token, Aloof x ∧ x.call.writes = false := by
  intro x hx
  simp only [opening, List.mem_cons, List.not_mem_nil, or_false] at hx
  rcases hx with rfl | rfl | rfl <;> exact ⟨⟨rfl, rfl, rfl, rfl⟩, rfl⟩

theorem written_aloof {p : String} {written : Except Error Unit} :
    ∀ x ∈ [(⟨writeCall r p, written⟩ : Answered)], Aloof x := by
  intro x hx
  cases List.mem_singleton.1 hx
  exact ⟨rfl, rfl, rfl, rfl⟩

/-- A course: nothing about the test user, then something or nothing, and the writing of the secret
if the test user has got a password. -/
inductive Shape (r : IdentityRequest) : List Answered → Except Error Bool → Prop where
  | aloof {calls : List Answered} {result : Except Error Bool}
      (quiet : ∀ x ∈ calls, Aloof x ∧ x.call.writes = false) (old : result ≠ .ok true) :
      Shape r calls result
  | unset {before user : List Answered} {token p : String} {e : Error}
      (quiet : ∀ x ∈ before, Aloof x ∧ x.call.writes = false)
      (upserted : Upserted r token p user (.error e)) : Shape r (before ++ (user ++ [])) (.error e)
  | set {before user : List Answered} {token p : String} {written : Except Error Unit}
      (quiet : ∀ x ∈ before, Aloof x ∧ x.call.writes = false)
      (upserted : Upserted r token p user (.ok ())) :
      Shape r (before ++ (user ++ [⟨writeCall r p, written⟩])) (written.map fun _ => true)

theorem Ensured.shape {calls : List Answered} {result : Except Error Bool}
    (h : Ensured r calls result) : Shape r calls result := by
  cases h with
  | unknown | known =>
    refine .aloof (fun x hx => ?_) nofun
    cases List.mem_singleton.1 hx
    exact ⟨⟨rfl, rfl, rfl, rfl⟩, rfl⟩
  | unread =>
    refine .aloof (fun x hx => ?_) nofun
    simp only [List.mem_cons, List.not_mem_nil, or_false] at hx
    rcases hx with rfl | rfl <;> exact ⟨⟨rfl, rfl, rfl, rfl⟩, rfl⟩
  | refused | exhausted => exact .aloof opening_aloof nofun
  | unset upserted =>
    rename_i calls _
    rw [← List.append_nil calls]
    exact .unset opening_aloof upserted
  | set drawn upserted => exact .set opening_aloof upserted

namespace Shape

variable {calls : List Answered} {result : Except Error Bool}

/-- What is done about the test user stands between calls that do not concern it. -/
theorem core (h : Shape r calls result) : ∃ before user after, calls = before ++ (user ++ after) ∧
    (∀ x ∈ before, Aloof x) ∧ (∀ x ∈ after, Aloof x) ∧
    (user = [] ∨ ∃ token p result, Upserted r token p user result) := by
  cases h with
  | aloof quiet => exact ⟨calls, [], [], by simp, fun x hx => (quiet x hx).1, by simp, .inl rfl⟩
  | unset quiet upserted =>
    exact ⟨_, _, _, rfl, fun x hx => (quiet x hx).1, by simp, .inr ⟨_, _, _, upserted⟩⟩
  | set quiet upserted =>
    exact ⟨_, _, _, rfl, fun x hx => (quiet x hx).1, written_aloof, .inr ⟨_, _, _, upserted⟩⟩

theorem creates_iff (h : Shape r calls result) : (∃ x ∈ calls, x.call.creates) ↔
    ∃ x, calls.find? (·.call.finds) = some x ∧ x.found? = none := by
  obtain ⟨before, user, after, rfl, first, last, upserted⟩ := h.core
  rw [Aloof.exists_iff first last fun x hx => by simp [hx.creates],
    Aloof.find? first last fun x hx => hx.finds]
  rcases upserted with rfl | ⟨_, _, _, upserted⟩
  · simp
  · exact upserted.creates_iff

theorem searches (h : Shape r calls result) : calls.countP (·.call.finds) ≤ 2 ∧
    (calls.countP (·.call.finds) = 2 ↔ ∃ x ∈ calls, x.Conflicts) := by
  obtain ⟨before, user, after, rfl, first, last, upserted⟩ := h.core
  rw [Aloof.exists_iff first last fun x => Aloof.unconflicting,
    Aloof.countP first last fun x hx => hx.finds]
  rcases upserted with rfl | ⟨_, _, _, upserted⟩
  · simp
  · exact upserted.searches

theorem resets (h : Shape r calls result) :
    calls.countP (·.call.reset?.isSome) ≤ 1 ∧
    calls.IsChain fun x y => ∀ user, y.call.reset? = some user → x.found? = some user := by
  obtain ⟨before, user, after, rfl, first, last, upserted⟩ := h.core
  rw [Aloof.countP first last fun x hx => by simp [hx.reset]]
  refine ⟨?_, Aloof.isChain first last (fun x y hy user h => by simp [hy.reset] at h) ?_ ?_⟩ <;>
    rcases upserted with rfl | ⟨_, _, _, upserted⟩
  · simp
  · exact upserted.resets.1
  · simp
  · exact upserted.resets.2
  · simp
  · obtain ⟨search, rest, rfl⟩ := upserted.begins
    rintro x y hy
    cases hy
    exact nofun

/-- Only in a course that gives the test user a password is the secret written. -/
theorem written {x : Answered} (h : Shape r calls result) (hx : x ∈ calls)
    (writes : x.call.writes) :
    ∃ token p written, x = ⟨writeCall r p, written⟩ ∧ (result = written.map fun _ => true) ∧
      ∃ before user, calls = before ++ (user ++ [x]) ∧ Upserted r token p user (.ok ()) := by
  cases h with
  | aloof quiet => simp [(quiet x hx).2] at writes
  | unset quiet upserted =>
    rw [List.append_nil] at hx
    rcases List.mem_append.1 hx with hx | hx
    · simp [(quiet x hx).2] at writes
    · simp [upserted.unwritten x hx] at writes
  | set quiet upserted =>
    rcases List.mem_append.1 hx with hx | hx
    · simp [(quiet x hx).2] at writes
    · rcases List.mem_append.1 hx with hx | hx
      · simp [upserted.unwritten x hx] at writes
      · cases List.mem_singleton.1 hx
        exact ⟨_, _, _, rfl, rfl, _, _, rfl, upserted⟩

theorem writes_iff (h : Shape r calls result) :
    (∃ x ∈ calls, x.call.writes) ↔ ∃ x ∈ calls, x.Sets := by
  constructor
  · rintro ⟨x, hx, writes⟩
    obtain ⟨_, _, _, _, _, before, user, rfl, upserted⟩ := h.written hx writes
    obtain ⟨y, hy, sets⟩ := upserted.sets_iff.2 rfl
    exact ⟨y, List.mem_append_right _ (List.mem_append_left _ hy), sets⟩
  · intro sets
    cases h with
    | aloof quiet =>
      obtain ⟨x, hx, sets⟩ := sets
      exact absurd sets (quiet x hx).1.unset
    | unset quiet upserted =>
      rw [Aloof.exists_iff (fun x hx => (quiet x hx).1) (by simp) fun x => Aloof.unset,
        upserted.sets_iff] at sets
      cases sets
    | set quiet upserted =>
      exact ⟨_, List.mem_append_right _ (List.mem_append_right _ (List.mem_singleton_self _)), rfl⟩

theorem writes_last (h : Shape r calls result) : ∀ x ∈ calls.dropLast, x.call.writes = false := by
  cases h with
  | aloof quiet => exact fun x hx => (quiet x (List.dropLast_subset _ hx)).2
  | unset quiet upserted =>
    intro x hx
    rcases List.mem_append.1 (List.dropLast_subset _ hx) with hx | hx
    · exact (quiet x hx).2
    · rw [List.append_nil] at hx
      exact upserted.unwritten x hx
  | set quiet upserted =>
    rw [← List.append_assoc, List.dropLast_concat]
    intro x hx
    rcases List.mem_append.1 hx with hx | hx
    · exact (quiet x hx).2
    · exact upserted.unwritten x hx

theorem passwords (h : Shape r calls result) :
    ∃ p, ∀ x ∈ calls, ∀ q, x.call.password? = some q → q = p := by
  obtain ⟨before, user, after, rfl, first, last, upserted⟩ := h.core
  have aloof : ∀ {p : String} {x : Answered}, Aloof x → ∀ q, x.call.password? = some q → q = p :=
    fun hx q h => by simp [hx.password] at h
  rcases upserted with rfl | ⟨_, p, _, upserted⟩
  · refine ⟨"", fun x hx => ?_⟩
    exact (List.mem_append.1 hx).elim (fun hx => aloof (first x hx)) fun hx => aloof (last x hx)
  · refine ⟨p, fun x hx => ?_⟩
    rcases List.mem_append.1 hx with hx | hx
    · exact aloof (first x hx)
    · exact (List.mem_append.1 hx).elim (upserted.password x) fun hx => aloof (last x hx)

theorem password (h : Shape r calls result) :
    ∃ p, (∀ x ∈ calls, ∀ q, x.call.password? = some q → q = p) ∧
      ∀ x ∈ calls, x.call.writes → x.call = writeCall r p := by
  obtain ⟨p, all⟩ := h.passwords
  refine ⟨p, all, fun x hx writes => ?_⟩
  obtain ⟨_, p', _, rfl, _, before, user, rfl, upserted⟩ := h.written hx writes
  obtain ⟨y, hy, sets⟩ := upserted.sets_iff.2 rfl
  obtain ⟨q, given⟩ := Option.ne_none_iff_exists'.1 sets.1
  have same : p' = p := (upserted.password y hy q given).symm.trans
    (all y (List.mem_append_right _ (List.mem_append_left _ hy)) q given)
  exact congrArg (writeCall r) same

/-- The identity is new exactly if its secret was written. -/
theorem true_iff (h : Shape r calls result) :
    result = .ok true ↔ ∃ x ∈ calls, x.call.writes ∧ x.error? = none := by
  constructor
  · intro made
    cases h with
    | aloof quiet old => exact absurd made old
    | unset => cases made
    | set quiet upserted =>
      rename_i before user token p written
      refine ⟨⟨writeCall r p, written⟩, by simp, rfl, ?_⟩
      cases written with
      | ok => rfl
      | error e => cases made
  · rintro ⟨x, hx, writes, accepted⟩
    obtain ⟨_, _, written, rfl, rfl, _⟩ := h.written hx writes
    cases written with
    | ok => rfl
    | error e => cases accepted

end Shape

namespace Ensured

variable {calls : List Answered} {result : Except Error Bool}

theorem checks (h : Ensured r calls result) : ∃ answer rest,
    calls = ⟨.secretExists r.namespaceName r.credentialSecret, answer⟩ :: rest ∧
      (result = .ok false ↔ answer = .ok true) ∧ (answer = .ok true → rest = []) := by
  cases h with
  | unknown | unread | refused | exhausted | unset => exact ⟨_, _, rfl, by simp, by simp⟩
  | known => exact ⟨_, _, rfl, by simp, fun _ => rfl⟩
  | set =>
    rename_i written _ _
    exact ⟨_, _, rfl, by cases written <;> simp [Except.map], by simp⟩

theorem addresses (h : Ensured r calls result) : ∀ x ∈ calls, Addresses r x.call := by
  have opens : ∀ {data admin token}, ∀ x ∈ opening r data admin token, Addresses r x.call := by
    simp [opening, Addresses]
  cases h with
  | unknown | known | unread => simp [Addresses]
  | refused | exhausted => exact opens
  | unset upserted => exact List.forall_mem_append.2 ⟨opens, upserted.addresses⟩
  | set drawn upserted =>
    intro x hx
    rcases List.mem_append.1 hx with hx | hx
    · exact opens x hx
    · rcases List.mem_append.1 hx with hx | hx
      · exact upserted.addresses x hx
      · cases List.mem_singleton.1 hx
        exact ⟨rfl, rfl⟩

theorem fails (h : Ensured r calls result) :
    ∀ e, result = .error e → ∃ x, calls.getLast? = some x ∧ Blames r e x := by
  rintro e rfl
  generalize same : Except.error e = result at h
  cases h with
  | unknown | refused =>
    cases same
    exact ⟨_, rfl, rfl⟩
  | known => cases same
  | unread unusable =>
    cases same
    rcases unusable with rfl | ⟨data, rfl, wrong⟩
    · exact ⟨_, rfl, rfl⟩
    · exact ⟨_, rfl, wrong⟩
  | exhausted =>
    cases same
    exact ⟨_, rfl, rfl⟩
  | unset upserted =>
    cases same
    obtain ⟨x, last, blames⟩ := upserted.fails
    exact ⟨x, by rw [List.getLast?_append, last, Option.some_or], blames⟩
  | set =>
    rename_i data admin token p user written drawn upserted
    refine ⟨⟨writeCall r p, written⟩, by rw [← List.append_assoc, List.getLast?_concat], ?_⟩
    cases written with
    | ok => cases same
    | error =>
      cases same
      rfl

theorem tolerates (h : Ensured r calls result) :
    ∀ x ∈ calls.dropLast, x.error? ≠ none → x.call.finds ∨ x.Conflicts := by
  have opens : ∀ {data admin token}, ∀ x ∈ opening r data admin (.ok token), x.error? = none := by
    simp [opening, Answered.error?]
  cases h with
  | unknown | known => simp
  | unread => simp [Answered.error?]
  | refused | exhausted => simp [opening, Answered.error?]
  | unset upserted =>
    obtain ⟨search, rest, rfl⟩ := upserted.begins
    rw [List.dropLast_append_of_ne_nil (by simp)]
    intro x hx failed
    rcases List.mem_append.1 hx with hx | hx
    · exact absurd (opens x hx) failed
    · exact upserted.tolerates x hx failed
  | set drawn upserted =>
    rw [← List.append_assoc, List.dropLast_concat]
    intro x hx failed
    rcases List.mem_append.1 hx with hx | hx
    · exact absurd (opens x hx) failed
    · exact upserted.succeeds rfl x hx failed

/-- The promises hold of every course. -/
theorem provisioned (h : Ensured r calls result) : Provisioned r calls result where
  checks := h.checks
  addresses := h.addresses
  writes_iff := h.shape.writes_iff
  writes_last := h.shape.writes_last
  password := h.shape.password
  creates_iff := h.shape.creates_iff
  searches := h.shape.searches
  resets := h.shape.resets
  true_iff := h.shape.true_iff
  fails := h.fails
  tolerates := h.tolerates

end Ensured

/-- Among any collaborators, provisioning keeps its promises and has a result, unless it is left
without an answer. -/
theorem ensure_provisions {σ : Type} [Party σ] (r : IdentityRequest) (g : Guard) (s : Session σ) :
    (∃ calls result, ((ensure r).perform g s).1 = .ofExcept result ∧
      ((ensure r).perform g s).2.started = s.started ++ calls.map (·.call) ∧
      ((ensure r).perform g s).2.answered = s.answered ++ calls ∧
      Provisioned r calls result) ∨
    ∃ calls call, Interrupted g s calls call ((ensure r).perform g s) := by
  rcases perform_transcript (ensure r) g s with ⟨calls, result, performed⟩ | interrupted
  · exact .inl ⟨calls, result, performed.ending, performed.started, performed.answered,
      (ensure_ensured performed.transcript).provisioned⟩
  · exact .inr interrupted

/-- Where nothing is refused, the identity is made. -/
theorem ensure_provisions_willing :
    let r : IdentityRequest := { namespaceName := "default", providerUrl := "https://id.example" }
    let s : Session Willing := { party := {}, entropy := List.replicate Password.bufferSize 0 }
    ∃ calls, ((ensure r).perform {} s).2.answered = calls ∧ Provisioned r calls (.ok true) := by
  intro r s
  have made : ((ensure r).perform {} s).1 = .value true := by decide +kernel
  rcases ensure_provisions r {} s with
    ⟨calls, result, ending, _, answered, provisioned⟩ | ⟨_, _, interrupted⟩
  · cases result with
    | ok new =>
      cases made.symm.trans ending
      exact ⟨calls, answered, provisioned⟩
    | error e => cases made.symm.trans ending
  · have cut := interrupted.cut
    rw [made] at cut
    cases cut

end Provision

end Acceptance
