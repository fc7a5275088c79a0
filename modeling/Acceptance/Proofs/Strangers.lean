import Acceptance.Proofs.Provider
import Acceptance.Proofs.Provision

/-!
# Whose password is reset

A provider lists whom it likes when it is asked for a user. Provisioning resets the password of none
but the first user in the list whose name is that of the request.

* `Procedure.perform_carried`: what a procedure sends in all;
* `Provision.resets_warranted`: before the request to reset a password stands the search that found
  its user, and before that the grant of the token.
-/

namespace Acceptance

open Http Identity

variable {κ τ ρ α : Type}

/-! ## A procedure -/

/-- What was sent for some calls, all in all. -/
inductive Carried : List Answered → List Sent → Prop where
  | nil : Carried [] []
  | cons {x : Answered} {calls : List Answered} {part sent : List Sent}
      (first : Exchanged x.call x.answer part) (rest : Carried calls sent) :
      Carried (x :: calls) (part ++ sent)

namespace Carried

variable {calls others : List Answered} {sent : List Sent}

theorem of_append (h : Carried (calls ++ others) sent) :
    ∃ early late, sent = early ++ late ∧ Carried calls early ∧ Carried others late := by
  induction calls generalizing sent with
  | nil => exact ⟨[], sent, rfl, .nil, h⟩
  | cons x calls ih =>
    cases h with
    | cons first rest =>
      obtain ⟨early, late, rfl, carried, carried'⟩ := ih rest
      exact ⟨_ ++ early, late, (List.append_assoc ..).symm, .cons first carried, carried'⟩

/-- What was sent was sent for one of the calls. -/
theorem exchanged (h : Carried calls sent) {e : Sent} (mem : e ∈ sent) :
    ∃ x ∈ calls, ∃ part, Exchanged x.call x.answer part ∧ e ∈ part := by
  induction h with
  | nil => cases mem
  | cons first rest ih =>
    rcases List.mem_append.1 mem with mem | mem
    · exact ⟨_, List.mem_cons_self, _, first, mem⟩
    · obtain ⟨x, hx, exchanged⟩ := ih mem
      exact ⟨x, List.mem_cons_of_mem _ hx, exchanged⟩

theorem asks (h : Carried calls sent) {e : Sent} (mem : e ∈ sent) :
    ∃ x ∈ calls, Asks x.call e.request := by
  obtain ⟨x, hx, part, exchanged, mem⟩ := h.exchanged mem
  exact ⟨x, hx, exchanged.asks e mem⟩

end Carried

variable [Transport κ] [Transport τ] [Launcher ρ]

/-- A procedure that asks for nothing but the identity ends, and what it sends is what its calls
send. -/
theorem Procedure.perform_carried (p : Procedure α)
    (confined : p.Confined (·.stage = .identity) (fun _ _ => True) fun _ => True) (g : Guard)
    (s : Session (Collaborators κ (Wire τ) ρ)) :
    ∃ calls result sent, Performed p s calls result (p.perform g s) ∧ Carried calls sent ∧
      (p.perform g s).2.party.identity.log = s.party.identity.log ++ sent := by
  induction p generalizing s with
  | done result =>
    refine ⟨[], result, [], ⟨.done, rfl, ?_, ?_⟩, .nil, ?_⟩ <;> exact (List.append_nil _).symm
  | ask call next ih =>
    obtain ⟨identity, confined⟩ := confined
    have reacts := s.party.react_reacts call
    obtain ⟨part, log, exchanged⟩ := reacts.exchanged
    have asked : Task.ask g call s =
        (.ofExcept (Party.react s.party call).1.answer, (Task.ask g call s).2) := by
      refine Prod.ext ?_ rfl
      change (s.clock.await g (Party.react s.party call).1).1 = _
      rw [Clock.await_eq, if_pos (reacts.instant identity)]
    have party : (Task.ask g call s).2.party = (Party.react s.party call).2 := rfl
    obtain ⟨calls, result, sent, performed, carried, log'⟩ :=
      ih _ (confined (Party.react s.party call).1.answer fun _ _ => trivial) (Task.ask g call s).2
    rw [perform_ask_of_answered next asked]
    refine ⟨_ :: calls, result, part ++ sent, .ask _ asked performed, .cons exchanged carried, ?_⟩
    rw [log', party, log, List.append_assoc]
  | warn w next ih =>
    obtain ⟨calls, result, sent, performed, carried, log⟩ := ih confined (Task.warn w s).2
    refine ⟨calls, result, sent, ⟨.step .warn performed.transcript, performed.ending, ?_, ?_⟩, carried, log⟩
    · exact performed.started.trans (by rw [Task.started_warn])
    · exact performed.answered.trans (by rw [Task.answered_warn])
  | password next ih =>
    cases drawn : Password.generate s.entropy with
    | none =>
      have ended : (password next).perform g s = (.error (.random "test user password"), s) := by
        simp only [perform, Bind.bind, Task.bind, Task.drawPassword, drawn]
      rw [ended]
      refine ⟨[], .error (.random "test user password"), [], ⟨.step .exhaust .done, rfl, ?_, ?_⟩,
        .nil, ?_⟩ <;> exact (List.append_nil _).symm
    | some drawing =>
      obtain ⟨p, entropy⟩ := drawing
      have goes : (password next).perform g s = (next p).perform g { s with entropy } := by
        simp only [perform, Bind.bind, Task.bind, Task.drawPassword, drawn]
      rw [goes]
      obtain ⟨calls, result, sent, performed, carried, log⟩ := ih p (confined.2 p) { s with entropy }
      exact ⟨calls, result, sent, ⟨.step (.draw ⟨_, _, drawn⟩) performed.transcript,
        performed.ending, performed.started, performed.answered⟩, carried, log⟩

/-! ## Provisioning -/

theorem Identity.Asks.reset_of_put {call : Call} {request : Request} (h : Asks call request)
    (put : request.method = .put) : call.reset?.isSome := by
  cases h with
  | reset => rfl
  | token | search | create => cases put

theorem Carried.ne_put {calls : List Answered} {sent : List Sent} (h : Carried calls sent)
    (none : ∀ x ∈ calls, x.call.reset? = none) : ∀ e ∈ sent, e.request.method ≠ .put := by
  intro e mem put
  obtain ⟨x, hx, asks⟩ := h.asks mem
  simpa [none x hx] using asks.reset_of_put put

namespace Provision

variable {r : IdentityRequest} {calls : List Answered}

theorem Upserted.reset_cases {token p : String} {result : Except Error Unit}
    (h : Upserted r token p calls result) :
    (∀ x ∈ calls, x.call.reset? = none) ∨ ∃ before user,
      calls = before ++ [⟨findUser r token, .ok (some user)⟩, ⟨resetCall r token p user, result⟩] ∧
        ∀ x ∈ before, x.call.reset? = none := by
  cases h with
  | found => exact .inr ⟨[], _, rfl, List.forall_mem_nil _⟩
  | made => exact .inl (by simp [findUser, createCall, Call.reset?])
  | lost => exact .inl (by simp [findUser, createCall, Call.reset?])
  | shared => exact .inr ⟨[_, _], _, rfl, by simp [findUser, createCall, Call.reset?]⟩

/-- A course in which a password is reset. -/
structure Resets (r : IdentityRequest) (calls : List Answered) : Prop where
  course : ∃ first before after username secret token user p answer,
    calls = first ++ ⟨.adminToken r.providerUrl username secret, .ok token⟩ :: (before ++
      ⟨findUser r token, .ok (some user)⟩ :: ⟨resetCall r token p user, answer⟩ :: after) ∧
    (∀ x ∈ first, x.call.reset? = none) ∧ (∀ x ∈ before, x.call.reset? = none) ∧
    ∀ x ∈ after, x.call.reset? = none

theorem Ensured.reset_cases {result : Except Error Bool} (h : Ensured r calls result) :
    (∀ x ∈ calls, x.call.reset? = none) ∨ Resets r calls := by
  have opens : ∀ {data admin token}, ∀ x ∈ opening r data admin token, x.call.reset? = none :=
    fun x hx => (opening_aloof x hx).1.reset
  cases h with
  | unknown | known | unread => exact .inl (by simp [Call.reset?])
  | refused | exhausted => exact .inl opens
  | unset upserted =>
    rcases upserted.reset_cases with none | ⟨before, user, rfl, none⟩
    · exact .inl (List.forall_mem_append.2 ⟨opens, none⟩)
    · exact .inr ⟨[_, _], before, [], _, _, _, user, _, _, rfl, by simp [Call.reset?], none,
        List.forall_mem_nil _⟩
  | set drawn upserted =>
    rcases upserted.reset_cases with none | ⟨before, user, rfl, none⟩
    · refine .inl (List.forall_mem_append.2 ⟨opens, List.forall_mem_append.2 ⟨none, ?_⟩⟩)
      simp [Call.reset?]
    · rw [List.append_assoc]
      refine .inr ⟨[_, _], before, [_], _, _, _, user, _, _, rfl, ?_, none, ?_⟩ <;>
        simp [Call.reset?]

/-- What stands before a request to reset a password: the search that found its user and, before it,
the grant of the token. -/
structure Warranted (r : IdentityRequest) (earlier : List Sent) (request : Request) : Prop where
  search : ∃ before search token users user password, earlier = before ++ [search] ∧
    Asks (findUser r token) search.request ∧ Gives Client.users? search users ∧
    FirstAlike r.username users (some user) ∧
    (∃ grant ∈ before, ∃ username secret,
      Asks (.adminToken r.providerUrl username secret) grant.request ∧
        Gives Client.token? grant token) ∧
    Asks (resetCall r token password user) request

theorem Resets.warranted (h : Resets r calls) {sent : List Sent} (carried : Carried calls sent)
    {earlier later : List Sent} {reset : Sent} (split : sent = earlier ++ reset :: later)
    (put : reset.request.method = .put) : Warranted r earlier reset.request := by
  obtain ⟨first, before, after, username, secret, token, user, p, answer, rfl, none, none', none''⟩ :=
    h.course
  obtain ⟨early, _, rfl, opened, granting⟩ := carried.of_append
  cases granting with
  | cons grants rest =>
    obtain ⟨grant, rfl, gives⟩ := (grants.told token).1 rfl
    obtain ⟨middle, _, rfl, between, searching⟩ := rest.of_append
    cases searching with
    | cons searches resetting =>
      obtain ⟨search, users, rfl, lists, alike⟩ := (searches.told (some user)).1 rfl
      cases resetting with
      | @cons _ _ part final resets ending =>
        have granted := grants.asks grant List.mem_cons_self
        have searched := searches.asks search List.mem_cons_self
        have aside : ∀ e ∈ early ++ grant :: (middle ++ [search]), e.request.method ≠ .put := by
          have aloof := opened.ne_put none
          have aloof' := between.ne_put none'
          have post := granted.reset_of_put
          have get := searched.reset_of_put
          simp only [List.mem_append, List.mem_cons, List.not_mem_nil, or_false]
          rintro e (mem | rfl | mem | rfl) put
          · exact aloof e mem put
          · cases post put
          · exact aloof' e mem put
          · cases get put
        have after := ending.ne_put none''
        cases part with
        | nil =>
          have mem : reset ∈ earlier ++ reset :: later := by simp
          have mem' : reset ∈ (early ++ grant :: (middle ++ [search])) ++ final := by
            simpa [← split] using mem
          exact absurd put (List.forall_mem_append.2 ⟨aside, after⟩ reset mem')
        | cons e more =>
          cases List.length_eq_zero_iff.1 (Nat.le_zero.1 (Nat.le_of_succ_le_succ resets.few))
          have same : (early ++ grant :: (middle ++ [search])) ++ e :: final =
              earlier ++ reset :: later := by
            rw [← split]
            simp
          obtain ⟨rfl, rfl, rfl⟩ := (List.append_cons_inj_of_notMem
            (fun mem => aside _ mem put) fun mem => after _ mem put).1 same
          exact ⟨early ++ grant :: middle, search, token, users, user, p, by simp, searched, lists,
            alike, ⟨grant, by simp, username, secret, granted, gives⟩,
            resets.asks e List.mem_cons_self⟩

/-- A search that lists no such user brings none. -/
theorem searched_none (addresses : ∀ x ∈ calls, Addresses r x.call) {sent : List Sent}
    (carried : Carried calls sent) {search : Sent} (mem : search ∈ sent)
    (get : search.request.method = .get) {users : List Client.User}
    (lists : Gives Client.users? search users) (others : ∀ u ∈ users, ¬ Alike u.name r.username) :
    ∃ token, (⟨findUser r token, .ok none⟩ : Answered) ∈ calls := by
  obtain ⟨⟨call, answer⟩, hx, part, exchanged, mem⟩ := carried.exchanged mem
  have asks := exchanged.asks search mem
  have addressed := addresses _ hx
  have one : part = [search] := by
    obtain ⟨e, rfl⟩ := List.length_eq_one_iff.1
      (Nat.le_antisymm exchanged.few (List.length_pos_of_mem mem))
    rw [List.mem_singleton.1 mem]
  generalize search.request = request at asks get
  cases asks with
  | search =>
    obtain ⟨rfl, rfl, rfl⟩ := addressed
    have told : answer = .ok none :=
      (exchanged.told none).2 ⟨search, users, one, lists, firstAlike_none others⟩
    subst told
    exact ⟨_, hx⟩
  | token | create | reset => cases get

/-- Whatever the provider answers, a request to reset a password is warranted by what stands before
it. A search that lists no user of the name, up to the case of ASCII letters, counts as no user.

The log holds the requests as the client sends them. Where the provider answers with a redirect, the
transport repeats the request elsewhere (see `Http.Transport`), and that is not in the log. -/
theorem resets_warranted (r : IdentityRequest) (g : Guard)
    (s : Session (Collaborators κ (Wire τ) ρ)) :
    ∃ calls sent, ((ensure r).perform g s).2.answered = s.answered ++ calls ∧
      ((ensure r).perform g s).2.party.identity.log = s.party.identity.log ++ sent ∧
      Carried calls sent ∧
      (∀ earlier reset later, sent = earlier ++ reset :: later → reset.request.method = .put →
        Warranted r earlier reset.request) ∧
      ∀ search ∈ sent, search.request.method = .get → ∀ users, Gives Client.users? search users →
        (∀ u ∈ users, ¬ Alike u.name r.username) →
          ∃ token, (⟨findUser r token, .ok none⟩ : Answered) ∈ calls := by
  have confined : (ensure r).Confined (·.stage = .identity) (fun _ _ => True) fun _ => True :=
    ensure_confined (fun _ h => h) (fun _ _ _ _ => trivial) (fun _ => trivial) (fun _ => trivial)
      fun _ => trivial
  obtain ⟨calls, result, sent, performed, carried, log⟩ := (ensure r).perform_carried confined g s
  have ensured := ensure_ensured performed.transcript
  refine ⟨calls, sent, performed.answered, log, carried, fun earlier reset later split put => ?_,
    fun search mem get users lists others => searched_none ensured.addresses carried mem get lists others⟩
  rcases ensured.reset_cases with none | resets
  · exact absurd put (carried.ne_put none reset (by simp [split]))
  · exact resets.warranted carried split put

/-- A cluster that holds the credentials of the administrator, and keeps nothing. -/
structure Holder where
  asked : Bool := false

instance : Transport Holder where
  send h request := (.ok (match request.method, h.asked with
    | .get, false => ⟨404, []⟩
    | .get, true => ⟨200, Text.Utf8.encode
        "\x7b\"data\":\x7b\"password\":\"cA==\",\"username\":\"YQ==\"\x7d\x7d"⟩
    | _, _ => ⟨200, Text.Utf8.encode "\x7b\x7d"⟩), ⟨true⟩)

/-- The stranger is passed over. -/
theorem resets_warranted_listing :
    let r : IdentityRequest := { namespaceName := "default", providerUrl := "http://id.example" }
    let s : Session (Collaborators Holder (Wire Listing) Idle) := {
      party := ⟨⟨⟨false⟩, []⟩, ⟨⟨⟩, []⟩, ⟨⟩, "pytest", 0⟩
      entropy := List.replicate Password.bufferSize 0 }
    ∃ earlier reset, ((ensure r).perform {} s).2.party.identity.log = earlier ++ [reset] ∧
      reset.request.method = .put ∧ Warranted r earlier reset.request := by
  intro r s
  have methods : ((ensure r).perform {} s).2.party.identity.log.map (·.request.method) =
      [.post, .get, .put] := by decide +kernel
  obtain ⟨calls, sent, -, log, -, warranted, -⟩ := resets_warranted r {} s
  rw [log] at methods ⊢
  obtain ⟨grant, _, rfl, -, methods⟩ := List.map_eq_cons_iff.1 methods
  obtain ⟨search, _, rfl, -, methods⟩ := List.map_eq_cons_iff.1 methods
  obtain ⟨reset, rfl, put⟩ := List.map_eq_singleton_iff.1 methods
  exact ⟨[grant, search], reset, rfl, put, warranted [grant, search] reset [] rfl put⟩

end Provision

end Acceptance
