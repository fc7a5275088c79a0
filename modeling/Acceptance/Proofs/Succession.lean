import Acceptance.Proofs.Faults
import Mathlib.Logic.Relation

/-!
# Provisioning again and again

Invocations follow each other, and any of them may fail or be cancelled at any of its calls.

* `Succession.Step`: what can happen next where invocations follow each other;
* `Provision.ensure_reaches`: carrying out an invocation in a session is a series of such steps;
* `Provision.secret_current`: the secret never holds anything but the password that the provider
  knows, and is there after every success.
-/

namespace Acceptance

/-- What invocations share, and what the one that is under way, if any, has still to do. -/
structure Succession where
  stores : Stores
  run : Option (Procedure Bool)

namespace Succession

open Procedure

variable {r : IdentityRequest}

/-- What can happen next. -/
inductive Step (r : IdentityRequest) : Succession → Succession → Prop where
  | start {w : Stores} : Step r ⟨w, none⟩ ⟨w, some (Provision.ensure r)⟩
  | silent {w : Stores} {p q : Procedure Bool} (step : p.Step none q) :
      Step r ⟨w, some p⟩ ⟨w, some q⟩
  | call {w w' : Stores} {p q : Procedure Bool} {x : Answered} (step : p.Step (some x) q)
      (tries : w.Tries x.call (some x.answer) w') : Step r ⟨w, some p⟩ ⟨w', some q⟩
  /-- The invocation is cancelled while it waits for an answer. -/
  | cancel {w w' : Stores} {call : Call} {next : Except Error call.Answer → Procedure Bool}
      (tries : w.Tries call none w') : Step r ⟨w, some (.ask call next)⟩ ⟨w', none⟩
  | finish {w : Stores} {result : Except Error Bool} : Step r ⟨w, some (.done result)⟩ ⟨w, none⟩

abbrev Reaches (r : IdentityRequest) : Succession → Succession → Prop :=
  Relation.ReflTransGen (Step r)

/-- The secret is sound, and the invocation that is under way keeps it so to its end. -/
def Safe (r : IdentityRequest) (s : Succession) : Prop :=
  s.stores.Sound r ∧ ∀ p, s.run = some p →
    p.Withstands (Stores.Sound r) (Provision.Leaves r) s.stores

theorem Step.safe {s s' : Succession} (h : Step r s s') (safe : Safe r s) : Safe r s' := by
  obtain ⟨sound, withstands⟩ := safe
  cases h with
  | start =>
    refine ⟨sound, ?_⟩
    rintro p ⟨⟩
    exact Provision.ensure_withstands sound
  | silent step =>
    refine ⟨sound, ?_⟩
    rintro q ⟨⟩
    exact ((withstands _ rfl).step step).1 rfl
  | call step tries =>
    have onward := ((withstands _ rfl).step step).2 _ _ rfl tries
    refine ⟨onward.holds, ?_⟩
    rintro q ⟨⟩
    exact onward
  | cancel tries => exact ⟨(withstands _ rfl).2.1 _ tries, nofun⟩
  | finish => exact ⟨sound, nofun⟩

theorem Reaches.safe {s s' : Succession} (h : Reaches r s s') (safe : Safe r s) : Safe r s' := by
  induction h with
  | refl => exact safe
  | tail _ step ih => exact step.safe ih

end Succession

/-! ## Invocations in sessions -/

/-- The collaborators keep these stores, and whatever they are asked becomes of it what may become
of a call. -/
def Party.Keeping {σ : Type} [Party σ] (stores : σ → Stores) : Prop :=
  ∀ (p : σ) (call : Call), (stores p).Tries call (some (Party.react p call).1.answer)
    (stores (Party.react p call).2)

theorem Ending.Over.eq_ofExcept {α : Type} {ending : Ending α} (h : ending.Over) :
    ∃ result, ending = .ofExcept result := by
  cases ending with
  | value a => exact ⟨.ok a, rfl⟩
  | error e => exact ⟨.error e, rfl⟩
  | cancelled | expired | pending | crashed => exact h.elim

theorem Ending.ofExcept_inj {α : Type} {a b : Except Error α} (h : ofExcept a = ofExcept b) :
    a = b := by
  cases a <;> cases b <;> cases h <;> rfl

/-- A wait that is over ended with the answer. -/
theorem Clock.await_over {α : Type} {g : Guard} {r : Reaction α} {c : Clock}
    {answer : Except Error α} (h : (await g r c).1 = .ofExcept answer) : answer = r.answer := by
  have waited := awaited g r c
  generalize (await g r c).1 = ending at h waited
  cases waited with
  | answered => exact Ending.ofExcept_inj h.symm
  | expired | cancelled | pending => cases answer <;> cases h

namespace Procedure

variable {σ α : Type} [Party σ] {stores : σ → Stores} {r : IdentityRequest}

/-- What a session does when it carries out the rest of an invocation can happen next. It leaves the
invocation with its result, or none if that was cut short. -/
theorem perform_reaches (keeping : Party.Keeping stores) (p : Procedure Bool) (g : Guard)
    (s : Session σ) :
    (∃ result, (p.perform g s).1 = .ofExcept result ∧ Succession.Reaches r ⟨stores s.party, some p⟩
      ⟨stores (p.perform g s).2.party, some (.done result)⟩) ∨
    ¬ (p.perform g s).1.Over ∧ Succession.Reaches r ⟨stores s.party, some p⟩
      ⟨stores (p.perform g s).2.party, none⟩ := by
  induction p generalizing s with
  | done result => exact .inl ⟨result, rfl, .refl⟩
  | ask call next ih =>
    have tries := keeping s.party call
    have told : ∀ answer, (Task.ask g call s).1 = .ofExcept answer →
        answer = (Party.react s.party call).1.answer := fun answer => Clock.await_over
    change (stores s.party).Tries call _ (stores (Task.ask g call s).2.party) at tries
    generalize asked : Task.ask g call s = r at tries told
    obtain ⟨ending, s'⟩ := r
    by_cases finished : ending.Over
    · obtain ⟨answer, rfl⟩ := finished.eq_ofExcept
      rw [← told answer rfl] at tries
      rw [perform_ask_of_answered next asked]
      have step : Succession.Step r ⟨stores s.party, some (.ask call next)⟩
          ⟨stores s'.party, some (next answer)⟩ := .call (x := ⟨call, answer⟩) (.ask answer) tries
      rcases ih answer s' with ⟨result, ended, reaches⟩ | ⟨unended, reaches⟩
      · exact .inl ⟨result, ended, .head step reaches⟩
      · exact .inr ⟨unended, .head step reaches⟩
    · obtain ⟨unended, left⟩ := perform_ask_of_cut next asked finished
      rw [left]
      exact .inr ⟨unended, .single (.cancel tries.unanswered)⟩
  | warn w next ih =>
    have step : Succession.Step r ⟨stores s.party, some (.warn w next)⟩
        ⟨stores (Task.warn w s).2.party, some next⟩ := .silent .warn
    rcases ih (Task.warn w s).2 with ⟨result, ended, reaches⟩ | ⟨unended, reaches⟩
    · exact .inl ⟨result, ended, .head step reaches⟩
    · exact .inr ⟨unended, .head step reaches⟩
  | password next ih =>
    simp only [perform, Bind.bind, Task.bind, Task.drawPassword]
    cases drawn : Password.generate s.entropy with
    | none => exact .inl ⟨_, rfl, .single (.silent .exhaust)⟩
    | some drawing =>
      obtain ⟨password, entropy⟩ := drawing
      have step : Succession.Step r ⟨stores s.party, some (.password next)⟩
          ⟨stores s.party, some (next password)⟩ := .silent (.draw ⟨_, _, drawn⟩)
      rcases ih password { s with entropy } with ⟨result, ended, reaches⟩ | ⟨unended, reaches⟩
      · exact .inl ⟨result, ended, .head step reaches⟩
      · exact .inr ⟨unended, .head step reaches⟩

end Procedure

namespace Provision

/-- Carrying out an invocation in a session is a series of steps from nothing under way to nothing
under way. -/
theorem ensure_reaches {σ : Type} [Party σ] {stores : σ → Stores} (keeping : Party.Keeping stores)
    (r : IdentityRequest) (g : Guard) (s : Session σ) : Succession.Reaches r ⟨stores s.party, none⟩
      ⟨stores ((ensure r).perform g s).2.party, none⟩ := by
  refine .head .start ?_
  rcases Procedure.perform_reaches keeping (ensure r) g s with ⟨result, _, reaches⟩ | ⟨_, reaches⟩
  · exact reaches.tail .finish
  · exact reaches

/-- However many invocations follow each other, and whatever goes wrong: if the secret exists, it
holds the test user's name and the password that the provider knows, and after an invocation that
succeeded the secret exists. -/
theorem secret_current {r : IdentityRequest} {w : Stores}
    (unknown : w.secrets r.namespaceName r.credentialSecret = none) {s : Succession}
    (reached : Succession.Reaches r ⟨w, none⟩ s) :
    (∀ data, s.stores.secrets r.namespaceName r.credentialSecret = some data →
      data.get? Credentials.usernameKey = some r.username ∧
      ∃ p, data.get? Credentials.passwordKey = some p ∧ s.stores.current? r = some p) ∧
    ∀ new, s.run = some (.done (.ok new)) →
      s.stores.secrets r.namespaceName r.credentialSecret ≠ none := by
  have start : Succession.Safe r ⟨w, none⟩ := ⟨Stores.Absent.sound unknown, nofun⟩
  obtain ⟨sound, withstands⟩ := reached.safe start
  constructor
  · intro data stored
    obtain ⟨p, rfl, current⟩ := sound data stored
    exact ⟨Stores.get?_username _, p, Stores.get?_password _, current⟩
  · intro new ended
    exact (withstands _ ended).2 new rfl

end Provision

/-! ## An invocation that is tried three times -/

/-- How it goes wrong with a call. -/
inductive Fault where
  | none
  /-- It has its effect, and an error is reported. -/
  | misreported
  /-- It has its effect, and is never answered. -/
  | unheard
  deriving DecidableEq, Repr

/-- Collaborators with a fault for each of the next calls. Later calls go well. -/
structure Flaky where
  stores : Stores
  faults : List Fault

namespace Flaky

def error : Error := .controlPlane "call" "connection reset"

instance : Party Flaky where
  react p call :=
    let (answer, w) := p.stores.serve call
    match p.faults.headD .none with
    | .none => ({ answer }, ⟨w, p.faults.tail⟩)
    | .misreported => ({ answer := .error error }, ⟨w, p.faults.tail⟩)
    | .unheard => ({ answer, lasts := none }, ⟨w, p.faults.tail⟩)

theorem keeping : Party.Keeping Flaky.stores := by
  intro p call
  have serves := p.stores.serves_serve call
  simp only [Party.react]
  split
  · exact .answered serves
  · exact .misreported _ serves
  · exact .answered serves

def request : IdentityRequest := { namespaceName := "default", providerUrl := "https://id.example" }

/-- Only the administrator is known. The first invocation gets as far as making the user, the second
as far as writing the secret. -/
def start : Flaky where
  stores := {
    secrets := fun _ name =>
      if name = request.adminSecret then some (Credentials.toData ⟨"admin", "secret"⟩) else none
    accounts := fun _ _ _ => none }
  faults := List.replicate 4 .none ++ [.unheard] ++ List.replicate 5 .none ++ [.misreported]

/-- A session that is soon cancelled, with copies of one byte for a password. -/
def session (p : Flaky) (byte : UInt8) : Session Flaky where
  clock := { cancelAt := some 1 }
  party := p
  entropy := List.replicate Password.bufferSize byte

def attempt (p : Flaky) (byte : UInt8) : Ending Bool × Session Flaky :=
  (Provision.ensure request).perform { cancellable := true } (p.session byte)

theorem attempt_reaches (p : Flaky) (byte : UInt8) :
    Succession.Reaches request ⟨p.stores, none⟩ ⟨(p.attempt byte).2.party.stores, none⟩ :=
  Provision.ensure_reaches keeping request _ (p.session byte)

def first : Ending Bool × Session Flaky := start.attempt 0

def second : Ending Bool × Session Flaky := first.2.party.attempt 1

def third : Ending Bool × Session Flaky := second.2.party.attempt 2

end Flaky

open Flaky in
/-- The first invocation is cancelled while it makes the user, the second sets another password and
takes the writing of the secret to have failed, the third finds the secret. -/
theorem Provision.secret_current_retried :
    first.1 = .cancelled ∧ second.1 = .error Flaky.error ∧ third.1 = .value false ∧
    ∃ data p, third.2.party.stores.secrets request.namespaceName request.credentialSecret
        = some data ∧
      data.get? Credentials.usernameKey = some request.username ∧
      data.get? Credentials.passwordKey = some p ∧
      third.2.party.stores.current? request = some p := by
  have reached : Succession.Reaches request ⟨start.stores, none⟩ ⟨third.2.party.stores, none⟩ :=
    (start.attempt_reaches 0).trans
      ((first.2.party.attempt_reaches 1).trans (second.2.party.attempt_reaches 2))
  obtain ⟨current, _⟩ := secret_current (w := start.stores) rfl reached
  have stored : (third.2.party.stores.secrets request.namespaceName
      request.credentialSecret).isSome := by decide +kernel
  obtain ⟨data, found⟩ := Option.isSome_iff_exists.1 stored
  obtain ⟨username, p, password, known⟩ := current data found
  exact ⟨by decide +kernel, by decide +kernel, by decide +kernel, data, p, found, username,
    password, known⟩

end Acceptance
