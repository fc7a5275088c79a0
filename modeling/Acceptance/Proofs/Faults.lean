import Acceptance.Proofs.Stores

/-!
# Provisioning where anything may go wrong

Any call may fail, with or without having had its effect, and whoever waits for its answer may be
cancelled.

* `Stores.Tries`: what may become of a call;
* `Procedure.Withstands`: what a procedure keeps at each of its steps, read off its tree;
* `Provision.ensure_withstands`: at each step of provisioning the secret, if it exists, holds the
  password that the provider knows.
-/

namespace Acceptance

namespace Stores

/-- What may become of a call: the answer that it gets, or `none` if its caller is cancelled before,
and what it leaves. -/
inductive Tries (w : Stores) (call : Call) : Option (Except Error call.Answer) → Stores → Prop where
  | answered {answer : Except Error call.Answer} {w' : Stores} (serves : w.Serves ⟨call, answer⟩ w') :
      Tries w call (some answer) w'
  | failed (e : Error) : Tries w call (some (.error e)) w
  /-- It has its effect, and an error is reported all the same. -/
  | misreported {answer : Except Error call.Answer} {w' : Stores} (e : Error)
      (serves : w.Serves ⟨call, answer⟩ w') : Tries w call (some (.error e)) w'
  | cancelled : Tries w call none w
  /-- It has its effect, and nobody waits for the answer any more. -/
  | unheard {answer : Except Error call.Answer} {w' : Stores} (serves : w.Serves ⟨call, answer⟩ w') :
      Tries w call none w'

variable {w w' : Stores} {call : Call} {r : IdentityRequest}

namespace Tries

/-- Only what was done is reported as done. -/
theorem serves {a : call.Answer} (h : w.Tries call (some (.ok a)) w') :
    w.Serves ⟨call, .ok a⟩ w' := by
  cases h with
  | answered serves => exact serves

/-- Whoever tries either does nothing or is served. -/
theorem eq_or_serves {answer? : Option (Except Error call.Answer)} (h : w.Tries call answer? w') :
    w' = w ∨ ∃ answer, w.Serves ⟨call, answer⟩ w' := by
  cases h with
  | failed | cancelled => exact .inl rfl
  | answered serves | misreported _ serves | unheard serves => exact .inr ⟨_, serves⟩

/-- What was tried may as well have been tried by somebody who was cancelled. -/
theorem unanswered {answer? : Option (Except Error call.Answer)} (h : w.Tries call answer? w') :
    w.Tries call none w' := by
  rcases h.eq_or_serves with rfl | ⟨answer, serves⟩
  · exact .cancelled
  · exact .unheard serves

theorem secrets {answer? : Option (Except Error call.Answer)} (h : w.Tries call answer? w')
    (unwritten : call.writes = false) : w'.secrets = w.secrets := by
  rcases h.eq_or_serves with rfl | ⟨answer, serves⟩
  · rfl
  · apply serves.secrets
    rintro ⟨writes, _⟩
    rw [unwritten] at writes
    cases writes

theorem accounts {answer? : Option (Except Error call.Answer)} (h : w.Tries call answer? w')
    (unset : call.password? = none) : w'.accounts = w.accounts := by
  rcases h.eq_or_serves with rfl | ⟨answer, serves⟩
  · rfl
  · apply serves.accounts
    rintro ⟨sets, _⟩
    exact sets unset

end Tries

/-- The secret of the request does not exist. -/
def Absent (r : IdentityRequest) (w : Stores) : Prop :=
  w.secrets r.namespaceName r.credentialSecret = none

/-- If the secret of the request exists, it holds the name of the test user and the password that
the provider knows. -/
def Sound (r : IdentityRequest) (w : Stores) : Prop :=
  ∀ data, w.secrets r.namespaceName r.credentialSecret = some data →
    ∃ p, data = Credentials.toData ⟨r.username, p⟩ ∧ w.current? r = some p

theorem Absent.sound (h : Absent r w) : Sound r w := by
  intro data stored
  rw [h] at stored
  cases stored

theorem Absent.tries {answer? : Option (Except Error call.Answer)} (h : Absent r w)
    (tries : w.Tries call answer? w') (unwritten : call.writes = false) : Absent r w' := by
  rw [Absent, tries.secrets unwritten]
  exact h

theorem Sound.tries {answer? : Option (Except Error call.Answer)} (h : Sound r w)
    (tries : w.Tries call answer? w') (unwritten : call.writes = false)
    (unset : call.password? = none) : Sound r w' := by
  intro data stored
  rw [tries.secrets unwritten] at stored
  obtain ⟨p, same, current⟩ := h data stored
  refine ⟨p, same, ?_⟩
  rw [current?, tries.accounts unset]
  exact current

/-- Whatever becomes of the writing of the secret, no other password gets into it. -/
theorem Absent.written {p : String}
    {answer? : Option (Except Error (Provision.writeCall r p).Answer)} (absent : Absent r w)
    (current : w.current? r = some p) (tries : w.Tries (Provision.writeCall r p) answer? w') :
    Sound r w' := by
  have kept : w'.current? r = some p := by
    rw [current?, tries.accounts rfl]
    exact current
  rcases tries.eq_or_serves with rfl | ⟨answer, serves⟩
  · exact absent.sound
  · cases serves with
    | applySecret =>
      intro data stored
      simp only [putSecret, and_self, if_true, Option.some.injEq] at stored
      exact ⟨p, stored.symm, kept⟩
    | refuse => exact absent.sound

theorem Serves.exists {ns name : String} {found : Bool}
    (h : w.Serves ⟨.secretExists ns name, .ok found⟩ w') :
    found = (w.secrets ns name).isSome := by
  generalize same : (⟨.secretExists ns name, .ok found⟩ : Answered) = x at h
  cases h with
  | secretExists =>
    injection same with calls answers
    cases calls
    cases answers
    rfl
  | _ => cases same

end Stores

namespace Procedure

open Stores

variable {α β : Type}

/-- `I` holds at every step of the procedure that starts at `w`, whatever becomes of its calls, and
if it comes to its end, `Q` holds of the result and of what is left. -/
def Withstands (I : Stores → Prop) (Q : Except Error α → Stores → Prop) :
    Procedure α → Stores → Prop
  | done result, w => I w ∧ Q result w
  | ask call next, w => I w ∧ (∀ w', w.Tries call none w' → I w') ∧
      ∀ answer w', w.Tries call (some answer) w' → (next answer).Withstands I Q w'
  | warn _ next, w => next.Withstands I Q w
  | password next, w => I w ∧ Q (.error (.random "test user password")) w ∧
      ∀ p, Drawn p → (next p).Withstands I Q w

namespace Withstands

variable {I I' : Stores → Prop} {Q Q' : Except Error α → Stores → Prop} {w : Stores}

theorem holds {p : Procedure α} (h : p.Withstands I Q w) : I w := by
  induction p with
  | done => exact h.1
  | ask => exact h.1
  | warn _ next ih => exact ih h
  | password => exact h.1

theorem mono {p : Procedure α} (h : p.Withstands I Q w) (hI : ∀ w, I w → I' w)
    (hQ : ∀ result w, I w → Q result w → Q' result w) : p.Withstands I' Q' w := by
  induction p generalizing w with
  | done => exact ⟨hI w h.1, hQ _ w h.1 h.2⟩
  | ask call next ih =>
    obtain ⟨now, cut, onward⟩ := h
    exact ⟨hI w now, fun w' tries => hI w' (cut w' tries),
      fun answer w' tries => ih answer (onward answer w' tries)⟩
  | warn _ next ih => exact ih h
  | password next ih =>
    obtain ⟨now, exhausted, onward⟩ := h
    exact ⟨hI w now, hQ _ w now exhausted, fun p drawn => ih p (onward p drawn)⟩

theorem bind {p : Procedure α} {next : α → Procedure β} {Q : Except Error β → Stores → Prop}
    (h : p.Withstands I (fun result w =>
      (∀ a, result = .ok a → (next a).Withstands I Q w) ∧ ∀ e, result = .error e → Q (.error e) w) w) :
    (p >>= next).Withstands I Q w := by
  simp only [Bind.bind]
  induction p generalizing w with
  | done result =>
    cases result with
    | ok a => exact h.2.1 a rfl
    | error e => exact ⟨h.1, h.2.2 e rfl⟩
  | ask call k ih =>
    obtain ⟨now, cut, onward⟩ := h
    exact ⟨now, cut, fun answer w' tries => ih answer (onward answer w' tries)⟩
  | warn _ k ih => exact ih h
  | password k ih =>
    obtain ⟨now, exhausted, onward⟩ := h
    exact ⟨now, exhausted.2 _ rfl, fun p drawn => ih p (onward p drawn)⟩

/-- A call that keeps `I` whatever becomes of it. -/
theorem ask {call : Call} {next : Except Error call.Answer → Procedure α} (now : I w)
    (keeps : ∀ answer? w', w.Tries call answer? w' → I w')
    (onward : ∀ answer w', w.Tries call (some answer) w' → I w' → (next answer).Withstands I Q w') :
    (Procedure.ask call next).Withstands I Q w :=
  ⟨now, fun w' => keeps none w',
    fun answer w' tries => onward answer w' tries (keeps (some answer) w' tries)⟩

/-- Every step of the procedure leads to one that withstands as much. -/
theorem step {p q : Procedure α} {call : Option Answered} (h : p.Withstands I Q w)
    (step : p.Step call q) :
    (call = none → q.Withstands I Q w) ∧
      ∀ x w', call = some x → w.Tries x.call (some x.answer) w' → q.Withstands I Q w' := by
  have never : ∀ (x : Answered) (w' : Stores), none = some x →
      w.Tries x.call (some x.answer) w' → q.Withstands I Q w' := fun _ _ same => by cases same
  cases step with
  | ask answer =>
    refine ⟨nofun, fun x w' same tries => ?_⟩
    cases same
    exact h.2.2 answer w' tries
  | warn => exact ⟨fun _ => h, never⟩
  | draw drawn => exact ⟨fun _ => h.2.2 _ drawn, never⟩
  | exhaust => exact ⟨fun _ => ⟨h.1, h.2.1⟩, never⟩

end Withstands

end Procedure

namespace Provision

open Procedure Stores

variable {r : IdentityRequest} {w : Stores} {token p : String}

/-! ## Before the secret is written -/

/-- The test user has the password, if all went well. -/
def Upserts (r : IdentityRequest) (p : String) (result : Except Error Unit) (w : Stores) : Prop :=
  result = .ok () → w.current? r = some p

theorem resetPassword_withstands {user : String} (absent : Absent r w) (known : HasId r user w) :
    (resetPassword r token p user).Withstands (Absent r) (Upserts r p) w := by
  refine .ask absent (fun answer? w' tries => absent.tries tries rfl) ?_
  intro answer w' tries absent'
  refine ⟨absent', ?_⟩
  rintro rfl
  refine tries.serves.current ⟨rfl, rfl⟩ ⟨nofun, rfl⟩ rfl ?_
  intro id reset
  cases reset
  exact known

/-- Whoever a search finds is there. -/
theorem hasId_of_find {user : String} {w' : Stores}
    (tries : w.Tries (findUser r token) (some (.ok (some user))) w') : HasId r user w' :=
  tries.serves.found ⟨rfl, rfl, rfl⟩ rfl

theorem resetExisting_withstands (absent : Absent r w) :
    (resetExisting r token p).Withstands (Absent r) (Upserts r p) w := by
  refine .bind (.ask absent (fun answer? w' tries => absent.tries tries rfl) ?_)
  intro answer w' tries absent'
  refine ⟨absent', ?_, nofun⟩
  rintro (_ | user) rfl
  · exact ⟨absent', nofun⟩
  · exact resetPassword_withstands absent' (hasId_of_find tries)

theorem createUser_withstands (absent : Absent r w) :
    (createUser r token p).Withstands (Absent r) (Upserts r p) w := by
  refine .ask absent (fun answer? w' tries => absent.tries tries rfl) ?_
  intro answer w' tries absent'
  cases answer with
  | ok made =>
    refine ⟨absent', fun _ => ?_⟩
    exact tries.serves.current ⟨rfl, rfl, rfl⟩ ⟨nofun, rfl⟩ rfl nofun
  | error e =>
    dsimp only
    split
    · exact resetExisting_withstands absent'
    · exact ⟨absent', nofun⟩

theorem upsertUser_withstands (absent : Absent r w) :
    (upsertUser r token p).Withstands (Absent r) (Upserts r p) w := by
  refine .ask absent (fun answer? w' tries => absent.tries tries rfl) ?_
  intro answer w' tries absent'
  match answer with
  | .ok (some user) => exact resetPassword_withstands absent' (hasId_of_find tries)
  | .ok none => exact createUser_withstands absent'
  | .error e => exact createUser_withstands absent'

/-! ## The whole invocation -/

/-- The secret exists, if all went well. -/
def Leaves {α : Type} (r : IdentityRequest) (result : Except Error α) (w : Stores) : Prop :=
  ∀ a, result = .ok a → w.secrets r.namespaceName r.credentialSecret ≠ none

theorem write_withstands (absent : Absent r w) (current : w.current? r = some p) :
    (Procedure.call (writeCall r p)).Withstands (Sound r) (Leaves r) w := by
  refine .ask absent.sound (fun answer? w' tries => absent.written current tries) ?_
  intro answer w' tries sound
  refine ⟨sound, ?_⟩
  rintro a rfl
  have stored := tries.serves.stored rfl rfl
  intro none
  rw [stored?, none] at stored
  cases stored

theorem create_withstands (absent : Absent r w) :
    (create r).Withstands (Sound r) (Leaves r) w := by
  -- Nothing before the user is searched for changes anything, and nothing before the end the secret.
  have quiet : ∀ {w} (call : Call), Absent r w → call.writes = false → ∀ answer? w',
      w.Tries call answer? w' → Absent r w' := fun call absent unwritten _ _ tries =>
    absent.tries tries unwritten
  refine .bind (.bind (.ask absent.sound (fun _ _ h => (quiet _ absent rfl _ _ h).sound) ?_))
  intro data w₁ tries _
  have absent₁ := quiet _ absent rfl _ _ tries
  refine ⟨absent₁.sound, fun found _ => ?_, fun e _ => ⟨nofun, nofun⟩⟩
  refine ⟨absent₁.sound, fun admin _ => ?_, fun e _ => nofun⟩
  refine .bind (.ask absent₁.sound (fun _ _ h => (quiet _ absent₁ rfl _ _ h).sound) ?_)
  intro token w₂ tries _
  have absent₂ := quiet _ absent₁ rfl _ _ tries
  refine ⟨absent₂.sound, fun token _ => ?_, fun e _ => nofun⟩
  refine .bind ⟨absent₂.sound, ⟨nofun, fun e _ => nofun⟩, fun p _ => ⟨absent₂.sound, ?_, nofun⟩⟩
  rintro _ ⟨⟩
  refine .bind ((upsertUser_withstands absent₂).mono (fun _ => Absent.sound) ?_)
  intro result w₃ absent₃ upserts
  refine ⟨?_, fun e _ => nofun⟩
  rintro ⟨⟩ rfl
  exact write_withstands absent₃ (upserts rfl)

/-- Provisioning keeps the secret sound, whatever goes wrong, and leaves it there if all went
well. -/
theorem ensure_withstands (sound : Sound r w) : (ensure r).Withstands (Sound r) (Leaves r) w := by
  refine .bind (.ask sound (fun answer? w' tries => sound.tries tries rfl rfl) ?_)
  intro answer w' tries sound'
  refine ⟨sound', ?_, fun e _ => nofun⟩
  rintro found rfl
  have there : found = (w'.secrets r.namespaceName r.credentialSecret).isSome := by
    rw [tries.secrets rfl]
    exact tries.serves.exists
  cases found with
  | true =>
    refine ⟨sound', ?_⟩
    intro a _ none
    simp [none] at there
  | false =>
    have absent : Absent r w' := by simpa [Absent] using there.symm
    refine .bind ((create_withstands absent).mono (fun _ => id) ?_)
    intro result w'' sound'' leaves
    refine ⟨fun _ made => ⟨sound'', fun _ _ => leaves _ made⟩, fun e _ => nofun⟩

end Provision

end Acceptance
