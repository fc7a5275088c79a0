import Acceptance.Collaborators
import Acceptance.Proofs.Labels
import Acceptance.Proofs.Run
import Acceptance.Proofs.Wire
import Mathlib.Data.List.Forall2

/-!
# What the identity provider is sent

Every call to the identity provider comes to one request at most. What it brings is in the response to
that request.

* `Identity.FirstAlike`: the user of a name in a list, up to the case of ASCII letters;
* `Identity.Asks`: the request for a call;
* `Identity.Told`: what the call brings, given what was sent;
* `Collaborators.react_reacts`, `Collaborators.Reacts.exchanged`: what one call sends over the network.
-/

namespace Acceptance.Identity

open Http

/-! ## Users of a name -/

/-- A capital among the ASCII letters, and the small one. -/
def Cases (capital small : Char) : Prop :=
  'A' ≤ capital ∧ capital ≤ 'Z' ∧ small.toNat = capital.toNat + 32

/-- The same character, or the two cases of one letter. -/
def SameLetter (c d : Char) : Prop := c = d ∨ Cases c d ∨ Cases d c

/-- The same text, up to the case of ASCII letters. -/
def Alike (s t : String) : Prop := List.Forall₂ SameLetter s.toList t.toList

/-- The first user whose name is alike gives the id, if there is one. -/
inductive FirstAlike (name : String) : List Client.User → Option String → Prop where
  | none : FirstAlike name [] none
  | here {u : Client.User} {rest : List Client.User} (alike : Alike u.name name) :
      FirstAlike name (u :: rest) (some u.id)
  | later {u : Client.User} {rest : List Client.User} {user : Option String}
      (other : ¬ Alike u.name name) (next : FirstAlike name rest user) :
      FirstAlike name (u :: rest) user

theorem cases_iff {c d : Char} :
    Cases c d ↔ (65 ≤ c.toNat ∧ c.toNat ≤ 90) ∧ d.toNat = c.toNat + 32 := by
  rw [Cases, ← and_assoc, le_and_le_iff]
  rfl

theorem sameLetter_iff {c d : Char} : SameLetter c d ↔ c.toLower = d.toLower := by
  rw [SameLetter, cases_iff, cases_iff, ← Char.toNat_inj, ← Char.toNat_inj, toNat_toLower,
    toNat_toLower]
  split <;> split <;> omega

theorem alike_iff {s t : String} : Alike s t ↔ Client.lowered s = Client.lowered t := by
  have letters : SameLetter = fun c d => c.toLower = d.toLower := by
    funext c d
    exact propext sameLetter_iff
  rw [Alike, letters, Client.lowered, Client.lowered, ← List.forall₂_eq_eq_eq,
    List.forall₂_map_left_iff, List.forall₂_map_right_iff]

theorem firstAlike_iff {name : String} {users : List Client.User} {user : Option String} :
    FirstAlike name users user ↔ (Client.named? name users).map Client.User.id = user := by
  induction users with
  | nil =>
    constructor
    · intro h
      cases h
      rfl
    · rintro rfl
      exact .none
  | cons u rest ih =>
    rw [Client.named?]
    by_cases alike : Alike u.name name
    · rw [List.find?_cons_of_pos (by simpa using alike_iff.1 alike)]
      constructor
      · intro h
        cases h with
        | here => rfl
        | later other => exact absurd alike other
      · rintro rfl
        exact .here alike
    · rw [List.find?_cons_of_neg (by simpa using fun same => alike (alike_iff.2 same)),
        ← Client.named?, ← ih]
      constructor
      · intro h
        cases h with
        | here same => exact absurd same alike
        | later _ next => exact next
      · exact .later alike

theorem firstAlike_none {name : String} {users : List Client.User}
    (others : ∀ u ∈ users, ¬ Alike u.name name) : FirstAlike name users none := by
  induction users with
  | nil => exact .none
  | cons u rest ih =>
    obtain ⟨other, others⟩ := List.forall_mem_cons.1 others
    exact .later other (ih others)

/-! ## Requests and responses -/

open Client in
/-- The request that is sent for a call, if one is. -/
inductive Asks : Call → Request → Prop where
  | token {base username password : String} {url : Url} (endpoint : tokenEndpoint base = .ok url) :
      Asks (.adminToken base username password) (tokenInquiry username password url).request
  | search {base token realm username : String} {url : Url}
      (endpoint : usersEndpoint base realm = .ok url) :
      Asks (.findUser base token realm username) (searchInquiry token username url).request
  | create {base token realm username password : String} {url : Url}
      (endpoint : usersEndpoint base realm = .ok url) :
      Asks (.createUser base token realm username password)
        ⟨.post, url.withoutUser.text, some ("Bearer " ++ token),
          some (jsonBody (userJson username password))⟩
  | reset {base token realm user password : String} {url : Url}
      (endpoint : passwordEndpoint base realm user = .ok url) :
      Asks (.resetPassword base token realm user password)
        ⟨.put, url.withoutUser.text, some ("Bearer " ++ token),
          some (jsonBody (passwordJson password))⟩

/-- The response is a success, and its text reads as `a`. -/
def Gives {α : Type} (read : Json → Option α) (e : Sent) (a : α) : Prop :=
  ∃ response, e.answer = .ok response ∧ isSuccess response.status ∧
    ((Text.Utf8.decode? response.body).bind Json.parseAsWritten?).bind read = some a

/-- What a call brings: a token, or the user of the name in the list that was given. -/
def Told : (call : Call) → Except Error call.Answer → List Sent → Prop
  | .adminToken .., answer, part =>
    ∀ token, answer = .ok token ↔ ∃ e, part = [e] ∧ Gives Client.token? e token
  | .findUser _ _ _ username, answer, part =>
    ∀ user, answer = .ok user ↔
      ∃ e users, part = [e] ∧ Gives Client.users? e users ∧ FirstAlike username users user
  | _, _, _ => True

/-- A call with its answer, and what was sent for it. -/
structure Exchanged (call : Call) (answer : Except Error call.Answer) (part : List Sent) : Prop where
  few : part.length ≤ 1
  asks : ∀ e ∈ part, Asks call e.request
  told : Told call answer part

namespace Client

variable {τ : Type} [Transport τ]

/-- What an inquiry sends, and when it has a response. -/
structure Inquiry.Sends (i : Inquiry) (w w' : Wire τ) (result : Except Error Response)
    (part : List Sent) : Prop where
  log : w'.log = w.log ++ part
  few : part.length ≤ 1
  request : ∀ e ∈ part, e.request = i.request
  accepted : ∀ response, result = .ok response ↔
    ∃ e, part = [e] ∧ e.answer = .ok response ∧ isSuccess response.status

theorem Inquiry.send_sends (i : Inquiry) (w : Wire τ) :
    ∃ part, i.Sends w (i.send w).2 (i.send w).1 part := by
  cases blocked : obstacle? i.url i.token with
  | some o =>
    have sent : i.send w = (.error (i.fail o), w) := by
      rw [Inquiry.send, blocked]
      rfl
    rw [sent]
    exact ⟨[], (List.append_nil _).symm, Nat.zero_le _, List.forall_mem_nil _, by simp⟩
  | none =>
    cases answered : Transport.send w.carrier i.request with
    | mk answer carrier =>
      have sent : i.send w = ((answer.mapError fun _ => i.fail .unreachable).bind i.accepted,
          ⟨carrier, w.log ++ [⟨i.request, answer⟩]⟩) := by
        rw [Inquiry.send, blocked]
        simp only [bind, Exchange.bind, Exchange.ofExcept, Exchange.mapError, Exchange.send,
          Transport.send, answered]
        cases answer <;> rfl
      rw [sent]
      refine ⟨[⟨i.request, answer⟩], rfl, Nat.le_refl _, by simp, fun response => ?_⟩
      cases answer with
      | error message => simp [Except.mapError, Except.bind]
      | ok given =>
        simp only [Except.mapError, Except.bind, Inquiry.accepted]
        split
        · rename_i success
          constructor
          · rintro ⟨⟩
            exact ⟨_, rfl, rfl, success⟩
          · rintro ⟨_, ⟨⟩, ⟨⟩, _⟩
            rfl
        · rename_i failure
          constructor
          · rintro ⟨⟩
          · rintro ⟨_, ⟨⟩, ⟨⟩, success⟩
            exact absurd success failure

variable {α : Type}

/-- The same of an inquiry whose response is read. -/
structure Inquiry.Receives (i : Inquiry) (read : Json → Option α) (w w' : Wire τ)
    (result : Except Error α) (part : List Sent) : Prop where
  log : w'.log = w.log ++ part
  few : part.length ≤ 1
  request : ∀ e ∈ part, e.request = i.request
  given : ∀ a, result = .ok a ↔ ∃ e, part = [e] ∧ Gives read e a

theorem Inquiry.receive_receives (i : Inquiry) (title : String) (read : Json → Option α)
    (w : Wire τ) :
    ∃ part, i.Receives read w (i.receive title read w).2 (i.receive title read w).1 part := by
  obtain ⟨part, sends⟩ := i.send_sends w
  cases sent : i.send w with
  | mk result w' =>
    rw [sent] at sends
    cases result with
    | error e =>
      have received : i.receive title read w = (.error e, w') := Exchange.bind_error sent _
      rw [received]
      refine ⟨part, sends.log, sends.few, sends.request, fun a => ?_⟩
      constructor
      · rintro ⟨⟩
      · rintro ⟨x, one, response, answer, success, _⟩
        cases (sends.accepted response).2 ⟨x, one, answer, success⟩
    | ok response =>
      obtain ⟨x, one, answer, success⟩ := (sends.accepted response).1 rfl
      have given : ∀ a, Gives read x a ↔
          ((Text.Utf8.decode? response.body).bind Json.parseAsWritten?).bind read = some a := by
        intro a
        constructor
        · rintro ⟨_, same, _, reads⟩
          cases answer.symm.trans same
          exact reads
        · exact fun reads => ⟨response, answer, success, reads⟩
      have received : i.receive title read w =
          ((((Text.Utf8.decode? response.body).bind Json.parseAsWritten?).bind read).elim
            (.error (.identityProvider i.operation
              s!"invalid {title}: error decoding response body" none)) .ok, w') := by
        rw [receive, Exchange.bind_ok sent]
        cases ((Text.Utf8.decode? response.body).bind Json.parseAsWritten?).bind read <;> rfl
      rw [received]
      refine ⟨part, sends.log, sends.few, sends.request, fun a => ?_⟩
      simp only [one, List.cons.injEq, and_true, exists_eq_left', given]
      cases ((Text.Utf8.decode? response.body).bind Json.parseAsWritten?).bind read <;> simp

/-- A call that fails before anything is sent for it. -/
theorem exchanged_nothing (call : Call) (e : Error) : Exchanged call (.error e) [] where
  few := Nat.zero_le _
  asks := nofun
  told := by cases call <;> simp [Told]

/-- A call that sends one request at most, and brings what is in the response. -/
def Carries (call : Call) (x : Exchange (Wire τ) Error call.Answer) : Prop :=
  ∀ w, ∃ part, (x w).2.log = w.log ++ part ∧ Exchanged call (x w).1 part

omit [Transport τ] in
/-- A call for which there is no URL. -/
theorem carries_nothing (call : Call) {x : Exchange (Wire τ) Error call.Answer} {w : Wire τ}
    {e : Error} (h : x w = (.error e, w)) :
    ∃ part, (x w).2.log = w.log ++ part ∧ Exchanged call (x w).1 part := by
  rw [h]
  exact ⟨[], (List.append_nil _).symm, exchanged_nothing call e⟩

theorem adminToken_carries (base username password : String) :
    Carries (τ := τ) (.adminToken base username password) (adminToken base username password) := by
  intro w
  cases endpoint : tokenEndpoint base with
  | error e =>
    have failed : adminToken base username password w = (.error e, w) := by
      rw [adminToken, endpoint]
      rfl
    exact carries_nothing (.adminToken base username password) failed
  | ok url =>
    obtain ⟨part, receives⟩ := (tokenInquiry username password url).receive_receives
      "token response" token? w
    have sent : adminToken base username password w =
        (tokenInquiry username password url).receive "token response" token? w := by
      rw [adminToken, endpoint]
      rfl
    rw [sent]
    refine ⟨part, receives.log, receives.few, fun e mem => ?_, receives.given⟩
    rw [receives.request e mem]
    exact .token endpoint

theorem map_eq_ok_iff {ε α β : Type} {f : α → β} {x : Except ε α} {b : β} :
    x.map f = .ok b ↔ ∃ a, x = .ok a ∧ f a = b := by
  cases x <;> simp [Except.map]

theorem findUser_carries (base token realm username : String) :
    Carries (τ := τ) (.findUser base token realm username) (findUser base token realm username) := by
  intro w
  cases endpoint : usersEndpoint base realm with
  | error e =>
    have failed : findUser base token realm username w = (.error e, w) := by
      rw [findUser, endpoint]
      rfl
    exact carries_nothing (.findUser base token realm username) failed
  | ok url =>
    obtain ⟨part, receives⟩ := (searchInquiry token username url).receive_receives "user list"
      users? w
    have sent : findUser base token realm username w =
        (((searchInquiry token username url).receive "user list" users? w).1.map
            fun users => (named? username users).map User.id,
          ((searchInquiry token username url).receive "user list" users? w).2) := by
      rw [findUser, endpoint]
      change ((searchInquiry token username url).receive "user list" users? >>= fun users =>
        pure ((named? username users).map User.id)) w = _
      cases received : (searchInquiry token username url).receive "user list" users? w with
      | mk result w' =>
        cases result with
        | ok users => exact Exchange.bind_ok received _
        | error e => exact Exchange.bind_error received _
    rw [sent]
    refine ⟨part, receives.log, receives.few, fun e mem => ?_, fun user => ?_⟩
    · rw [receives.request e mem]
      exact .search endpoint
    · rw [map_eq_ok_iff]
      constructor
      · rintro ⟨users, listed, first⟩
        obtain ⟨e, one, gives⟩ := (receives.given users).1 listed
        exact ⟨e, users, one, gives, firstAlike_iff.2 first⟩
      · rintro ⟨e, users, one, gives, first⟩
        exact ⟨users, (receives.given users).2 ⟨e, one, gives⟩, firstAlike_iff.1 first⟩

/-- A request whose response brings nothing. -/
theorem carries_of_sends (call : Call) {x : Exchange (Wire τ) Error call.Answer} {w : Wire τ}
    (i : Inquiry) (same : (x w).2 = (i.send w).2) (asks : Asks call i.request)
    (told : ∀ answer part, Told call answer part) :
    ∃ part, (x w).2.log = w.log ++ part ∧ Exchanged call (x w).1 part := by
  obtain ⟨part, sends⟩ := i.send_sends w
  rw [same]
  exact ⟨part, sends.log, sends.few, fun e mem => (sends.request e mem).symm ▸ asks, told _ _⟩

theorem createUser_carries (base token realm username password : String) :
    Carries (τ := τ) (.createUser base token realm username password)
      (createUser base token realm username password) := by
  intro w
  cases endpoint : usersEndpoint base realm with
  | error e =>
    have failed : createUser base token realm username password w = (.error e, w) := by
      rw [createUser, endpoint]
      rfl
    exact carries_nothing (.createUser base token realm username password) failed
  | ok url =>
    let inquiry : Inquiry := {
      operation := "create user", method := .post, url, token := some token
      body := some (jsonBody (userJson username password)) }
    refine carries_of_sends (.createUser base token realm username password) inquiry ?_
      (.create endpoint) fun _ _ => trivial
    rw [createUser, endpoint]
    exact Exchange.bind_still inquiry.send (fun _ => pure ()) (fun _ _ => rfl) w

theorem resetPassword_carries (base token realm user password : String) :
    Carries (τ := τ) (.resetPassword base token realm user password)
      (resetPassword base token realm user password) := by
  intro w
  cases endpoint : passwordEndpoint base realm user with
  | error e =>
    have failed : resetPassword base token realm user password w = (.error e, w) := by
      rw [resetPassword, endpoint]
      rfl
    exact carries_nothing (.resetPassword base token realm user password) failed
  | ok url =>
    let inquiry : Inquiry := {
      operation := "reset password", method := .put, url, token := some token
      body := some (jsonBody (passwordJson password)) }
    refine carries_of_sends (.resetPassword base token realm user password) inquiry ?_
      (.reset endpoint) fun _ _ => trivial
    rw [resetPassword, endpoint]
    exact Exchange.bind_still inquiry.send (fun _ => pure ()) (fun _ _ => rfl) w

end Client

/-- A provider that lists a stranger before the user. -/
structure Listing where

instance : Transport Listing where
  send l request := (.ok (match request.method with
    | .post => ⟨200, Text.Utf8.encode "\x7b\"access_token\":\"t\"\x7d"⟩
    | .get => ⟨200, Text.Utf8.encode
        "[\x7b\"id\":\"1\",\"username\":\"vip\"\x7d,\x7b\"id\":\"2\",\"username\":\"VIP-Tester\"\x7d]"⟩
    | _ => ⟨204, []⟩), l)

end Acceptance.Identity

namespace Acceptance

open Http Identity

variable {κ τ ρ : Type}

/-! ## One call -/

namespace Collaborators

variable {c : Collaborators κ (Wire τ) ρ}

/-- How a call comes to what it brings: by a request to the provider, by one to the cluster, or in
another way, which takes no part in providing the identity. -/
inductive Reacts (c : Collaborators κ (Wire τ) ρ) (call : Call) :
    Reaction call.Answer × Collaborators κ (Wire τ) ρ → Prop where
  | provider {outcome : Reaction call.Answer × Collaborators κ (Wire τ) ρ}
      (x : Exchange (Wire τ) Error call.Answer) (same : outcome = overIdentity x c)
      (carries : Client.Carries call x) : Reacts c call outcome
  | cluster {outcome : Reaction call.Answer × Collaborators κ (Wire τ) ρ}
      (x : Exchange (Cluster.Connection κ) Error call.Answer) (same : outcome = overCluster x c)
      (untold : ∀ answer, Told call answer []) : Reacts c call outcome
  | other {outcome : Reaction call.Answer × Collaborators κ (Wire τ) ρ}
      (same : outcome.2.identity = c.identity) (untold : ∀ answer, Told call answer [])
      (stage : call.stage ≠ .identity) : Reacts c call outcome

namespace Reacts

variable {call : Call} {outcome : Reaction call.Answer × Collaborators κ (Wire τ) ρ}

/-- Each call sends what it is to send to the provider, and brings what is in the response. -/
theorem exchanged (h : c.Reacts call outcome) :
    ∃ part, outcome.2.identity.log = c.identity.log ++ part ∧
      Exchanged call outcome.1.answer part := by
  cases h with
  | provider x same carries =>
    rw [same]
    exact carries c.identity
  | cluster x same untold =>
    rw [same]
    exact ⟨[], (List.append_nil _).symm, Nat.zero_le _, nofun, untold _⟩
  | other same untold =>
    exact ⟨[], by rw [same, List.append_nil], Nat.zero_le _, nofun, untold _⟩

/-- There is no waiting in what provides the identity. -/
theorem instant (h : c.Reacts call outcome) (identity : call.stage = .identity) :
    outcome.1.lasts = some 0 := by
  cases h with
  | provider x same | cluster x same =>
    rw [same]
    rfl
  | other _ _ stage => exact absurd identity stage

end Reacts

theorem followLogs_identity [Transport κ] (ns pod : String) :
    (followLogs ns pod c).2.identity = c.identity := rfl

theorem runTests_identity [Launcher ρ] (i : LocalInvocation) :
    (runTests i c).2.identity = c.identity := rfl

theorem react_reacts [Transport κ] [Transport τ] [Launcher ρ] (c : Collaborators κ (Wire τ) ρ)
    (call : Call) : c.Reacts call (Party.react c call) := by
  cases call with
  | adminToken url username password =>
    exact .provider (Client.adminToken url username password) rfl
      (Client.adminToken_carries url username password)
  | findUser url token realm username =>
    exact .provider (Client.findUser url token realm username) rfl
      (Client.findUser_carries url token realm username)
  | createUser url token realm username password =>
    exact .provider (Client.createUser url token realm username password) rfl
      (Client.createUser_carries url token realm username password)
  | resetPassword url token realm user password =>
    exact .provider (Client.resetPassword url token realm user password) rfl
      (Client.resetPassword_carries url token realm user password)
  | followPodLogs ns pod => exact .other (followLogs_identity ns pod) (fun _ => trivial) nofun
  | runTests i => exact .other (runTests_identity i) (fun _ => trivial) nofun
  | getSite site => exact .cluster (Cluster.Client.getSite site) rfl fun _ => trivial
  | applyConfigMap ns name key data =>
    exact .cluster (Cluster.Client.applyConfigMap ns name key data) rfl fun _ => trivial
  | secretExists ns name => exact .cluster (Cluster.Client.secretExists ns name) rfl fun _ => trivial
  | getSecret ns name => exact .cluster (Cluster.Client.getSecret ns name) rfl fun _ => trivial
  | applySecret ns name data =>
    exact .cluster (Cluster.Client.applySecret ns name data) rfl fun _ => trivial
  | createJob ns job => exact .cluster (Cluster.Client.createJob ns job.toJson) rfl fun _ => trivial
  | findJobPod ns job => exact .cluster (Cluster.Client.findJobPod ns job) rfl fun _ => trivial
  | jobStatus ns job => exact .cluster (Cluster.Client.getJobStatus ns job) rfl fun _ => trivial
  | deleteJob ns name => exact .cluster (Cluster.Client.deleteJob ns name) rfl fun _ => trivial
  | deleteConfigMap ns name =>
    exact .cluster (Cluster.Client.deleteConfigMap ns name) rfl fun _ => trivial

end Collaborators

/-- Nothing is started. -/
structure Idle where

instance : Launcher Idle where
  start l _ := (.error "", l)

end Acceptance
