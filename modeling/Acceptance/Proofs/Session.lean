import Acceptance.Procedure
import Acceptance.Proofs.Clock
import Acceptance.Wait

/-!
# What a part of a run does to its session

Every part of a run only adds to the record, and most parts ask calls of few kinds and fail in few
ways. A task that is `Confined` to a kind of calls and a kind of errors never leaves them, whatever
the collaborators answer and whenever the run is cancelled.

* `Session.Onward`: what came of a session, with calls of one kind only;
* `Task.Confined`: what every task of a run is, and what `bind`, `isolate` and `ask` keep;
* `Procedure.Confined`, `Procedure.Confined.perform`: the same, read off the tree of a procedure.
-/

namespace Acceptance

/-- An event about a call of the kind `Q`, or about none. -/
def Event.On (Q : Call → Prop) : Event → Prop
  | .asked _ call | .answered _ call _ | .abandoned _ call => Q call
  | .warned .. => True

theorem Event.On.mono {Q R : Call → Prop} (h : ∀ call, Q call → R call) {e : Event}
    (he : e.On Q) : e.On R := by
  cases e with
  | warned => trivial
  | _ => exact h _ he

/-- An answer that is no error. -/
def Event.Succeeds : Event → Prop
  | .answered _ _ (.ok _) => True
  | _ => False

variable {σ α β : Type}

/-- What came of a session `s` through calls of the kind `Q`. -/
structure Session.Onward (Q : Call → Prop) (s s' : Session σ) : Prop where
  record : ∃ new, s'.events = new ++ s.events ∧ ∀ e ∈ new, e.On Q
  now_le : s.clock.now ≤ s'.clock.now
  horizon : s'.clock.horizon = s.clock.horizon
  origin : s'.clock.origin = s.clock.origin

namespace Session.Onward

variable {Q R : Call → Prop} {s s' s'' : Session σ}

/-- A change that the record and the clock do not show. -/
theorem still (events : s'.events = s.events) (clock : s'.clock = s.clock) : Onward Q s s' where
  record := ⟨[], events, by simp⟩
  now_le := Nat.le_of_eq (by rw [clock])
  horizon := by rw [clock]
  origin := by rw [clock]

theorem refl (s : Session σ) : Onward Q s s := still rfl rfl

theorem trans (h : Onward Q s s') (h' : Onward Q s' s'') : Onward Q s s'' where
  record := by
    obtain ⟨new, added, on⟩ := h.record
    obtain ⟨more, added', on'⟩ := h'.record
    refine ⟨more ++ new, by rw [added', added, List.append_assoc], fun e he => ?_⟩
    rcases List.mem_append.1 he with he | he
    · exact on' e he
    · exact on e he
  now_le := Nat.le_trans h.now_le h'.now_le
  horizon := h'.horizon.trans h.horizon
  origin := h'.origin.trans h.origin

theorem mono (h : ∀ call, Q call → R call) (hs : Onward Q s s') : Onward R s s' where
  record := by
    obtain ⟨new, added, on⟩ := hs.record
    exact ⟨new, added, fun e he => (on e he).mono h⟩
  now_le := hs.now_le
  horizon := hs.horizon
  origin := hs.origin

theorem warn (w : Warning) (s : Session σ) : Onward Q s (Task.warn w s).2 where
  record := ⟨[.warned s.clock.now w], rfl, by simp [Event.On]⟩
  now_le := Nat.le_refl _
  horizon := rfl
  origin := rfl

/-- The events that were added are of the kind, however they are found. -/
theorem on_of_events (h : Onward Q s s') {new : List Event} (events : s'.events = new ++ s.events) :
    ∀ e ∈ new, e.On Q := by
  obtain ⟨new', added, on⟩ := h.record
  cases List.append_cancel_right (events.symm.trans added)
  exact on

end Session.Onward

/-- A session at the start of a run, to one who looks on for ever. -/
structure Session.Fresh (s : Session σ) : Prop where
  events : s.events = []
  watched : s.clock.horizon = none

/-- If this is an error, it is one of the kind `E`. -/
def Ending.FailsIn (E : Error → Prop) : Ending α → Prop
  | .error e => E e
  | _ => True

theorem Ending.failsIn_ofExcept {E : Error → Prop} {r : Except Error α}
    (h : ∀ e, r = .error e → E e) : (Ending.ofExcept r).FailsIn E := by
  cases r with
  | ok => trivial
  | error e => exact h e rfl

namespace Ending

/-- A value or an error, so that what comes next is reached. -/
def Over : Ending α → Prop
  | .value _ | .error _ => True
  | _ => False

theorem over_ofExcept (r : Except Error α) : (Ending.ofExcept r).Over := by
  cases r <;> trivial

/-- The same ending with another value. -/
def map {α β : Type} (f : α → β) : Ending α → Ending β
  | .value a => .value (f a)
  | .error e => .error e
  | .cancelled => .cancelled
  | .expired => .expired
  | .pending => .pending
  | .crashed => .crashed

end Ending

/-- The collaborators answer a call with an error only as `F` allows. -/
def Party.Keeps (σ : Type) [Party σ] (F : Call → Error → Prop) : Prop :=
  ∀ (p : σ) (call : Call) (e : Error), (Party.react p call).1.answer = .error e → F call e

theorem Clock.await_horizon (g : Guard) (r : Reaction α) (c : Clock) :
    (await g r c).2.horizon = c.horizon := by
  rw [await_eq]
  split
  · exact started_horizon
  · split <;> exact started_horizon

theorem Clock.await_origin (g : Guard) (r : Reaction α) (c : Clock) :
    (await g r c).2.origin = c.origin := by
  rw [await_eq]
  split
  · exact started_origin
  · split <;> exact started_origin

/-- A wait ends with an error only if that is the answer. -/
theorem Clock.await_error {g : Guard} {r : Reaction α} {c : Clock} {e : Error}
    (h : (await g r c).1 = .error e) : r.answer = .error e := by
  have ended := awaited g r c
  generalize (await g r c).1 = ending at h ended
  cases ended with
  | answered =>
    cases answer : r.answer with
    | ok => simp [answer, Ending.ofExcept] at h
    | error e' => simpa [answer, Ending.ofExcept] using h
  | expired | cancelled | pending => cases h

namespace Task

@[simp]
theorem endEvents_ofExcept (call : Call) (t : Nat) (ws : List Warning)
    (answer : Except Error call.Answer) :
    endEvents call t ws (.ofExcept answer) = [.answered t call answer] := by
  cases answer <;> rfl

/-- A call that is answered leaves its answer as the last event. -/
theorem ask_over [Party σ] {g : Guard} {call : Call} {s s' : Session σ}
    {answer : Except Error call.Answer} (h : ask g call s = (.ofExcept answer, s')) :
    ∃ t t₀, s'.events = .answered t call answer :: .asked t₀ call :: s.events := by
  have ended : (s.clock.await g (Party.react s.party call).1).1 = .ofExcept answer :=
    congrArg Prod.fst h
  have left := congrArg (fun r : Ending call.Answer × Session σ => r.2.events) h
  simp only [ask, ended, endEvents_ofExcept, List.singleton_append] at left
  exact ⟨_, _, left.symm⟩

theorem ask_value [Party σ] {g : Guard} {call : Call} {s s' : Session σ} {a : call.Answer}
    (h : ask g call s = (.value a, s')) :
    ∃ t t₀, s'.events = .answered t call (.ok a) :: .asked t₀ call :: s.events :=
  ask_over (show ask g call s = (.ofExcept (.ok a), s') from h)

theorem ask_error [Party σ] {g : Guard} {call : Call} {s s' : Session σ} {e : Error}
    (h : ask g call s = (.error e, s')) :
    ∃ t t₀, s'.events = .answered t call (.error e) :: .asked t₀ call :: s.events :=
  ask_over (show ask g call s = (.ofExcept (.error e), s') from h)

/-- A call ends with its answer, or is given up, which may give rise to warnings. -/
theorem mem_endEvents {call : Call} {t : Nat} {ws : List Warning} {ending : Ending call.Answer}
    {e : Event} (h : e ∈ endEvents call t ws ending) :
    (∃ answer, ending = .ofExcept answer ∧ e = .answered t call answer) ∨
      e = .abandoned t call ∨ ∃ w, e = .warned t w := by
  cases ending with
  | value a => exact .inl ⟨.ok a, rfl, List.mem_singleton.1 h⟩
  | error err => exact .inl ⟨.error err, rfl, List.mem_singleton.1 h⟩
  | expired | pending | crashed => exact .inr (.inl (List.mem_singleton.1 h))
  | cancelled =>
    rcases List.mem_append.1 h with h | h
    · obtain ⟨w, _, rfl⟩ := List.mem_map.1 (List.mem_reverse.1 h)
      exact .inr (.inr ⟨w, rfl⟩)
    · exact .inr (.inl (List.mem_singleton.1 h))

/-- A call that is not answered well leaves no good answer. -/
theorem ask_unanswered [Party σ] {g : Guard} {call : Call} {s s' : Session σ}
    {ending : Ending call.Answer} (h : ask g call s = (ending, s'))
    (unanswered : ∀ a, ending ≠ .value a) :
    ∃ new, s'.events = new ++ s.events ∧ ∀ e ∈ new, ¬ e.Succeeds := by
  have same : (s.clock.await g (Party.react s.party call).1).1 = ending := congrArg Prod.fst h
  have left := congrArg (fun r : Ending call.Answer × Session σ => r.2.events) h
  simp only [ask, same] at left
  refine ⟨_, left.symm.trans (List.append_assoc _ [_] _).symm, fun e he => ?_⟩
  rcases List.mem_append.1 he with he | he
  · rcases mem_endEvents he with ⟨answer, rfl, rfl⟩ | rfl | ⟨w, rfl⟩
    · cases answer with
      | ok a => exact absurd rfl (unanswered a)
      | error => exact id
    · exact id
    · exact id
  · cases List.mem_singleton.1 he
    exact id

theorem bind_assoc {γ : Type} (t : Task σ α) (f : α → Task σ β) (g : β → Task σ γ) :
    t >>= f >>= g = t >>= fun a => f a >>= g := by
  funext s
  simp only [Bind.bind, Task.bind]
  cases t s with
  | mk ending s' => cases ending <;> rfl

theorem bind_value {t : Task σ α} {next : α → Task σ β} {s s' : Session σ} {b : β}
    (h : (t >>= next) s = (.value b, s')) :
    ∃ a s₁, t s = (.value a, s₁) ∧ next a s₁ = (.value b, s') := by
  simp only [Bind.bind, Task.bind] at h
  revert h
  cases t s with
  | mk ending s₁ =>
    intro h
    cases ending with
    | value a => exact ⟨a, s₁, rfl, h⟩
    | error | cancelled | expired | pending | crashed => cases h

theorem ofExcept_value {r : Except Error α} {s s' : Session σ} {a : α}
    (h : Task.ofExcept r s = (.value a, s')) : r = .ok a ∧ s' = s := by
  cases r <;> cases h
  exact ⟨rfl, rfl⟩

/-- Whatever becomes of the ending, the session is that of the task. -/
theorem isolate_session (t : Task σ α) (s : Session σ) : (isolate t s).2 = (t s).2 := by
  simp only [isolate]
  cases t s with
  | mk ending s' => cases ending <;> rfl

theorem withCancel_barred {stage : String} {step : Guard → Task σ α} {s : Session σ}
    (cancelled : s.clock.cancelled = true) :
    withCancel stage step s = (.error (.cancelled stage), s) := if_pos cancelled

theorem withCancel_session {stage : String} {step : Guard → Task σ α} {s : Session σ}
    (live : s.clock.cancelled ≠ true) :
    (withCancel stage step s).2 = (step { cancellable := true } s).2 := by
  unfold withCancel
  rw [if_neg live]
  cases step { cancellable := true } s with
  | mk ending s' => cases ending <;> rfl

theorem withCancel_value {stage : String} {step : Guard → Task σ α} {s s' : Session σ} {a : α}
    (h : withCancel stage step s = (.value a, s')) :
    step { cancellable := true } s = (.value a, s') := by
  unfold withCancel at h
  split at h
  · cases h
  · split at h
    · cases h
    · exact h

theorem withCancel_live {stage : String} {step : Guard → Task σ α} {s s' : Session σ} {a : α}
    (h : withCancel stage step s = (.value a, s')) : s.clock.cancelled = false := by
  refine Bool.eq_false_iff.2 fun cancelled => ?_
  rw [withCancel_barred cancelled] at h
  cases h

/-- Whatever session it is started in, the task asks only calls of the kind `Q` and fails only with
errors of the kind `E`. -/
def Confined (Q : Call → Prop) (E : Error → Prop) (t : Task σ α) : Prop :=
  ∀ s, Session.Onward Q s (t s).2 ∧ (t s).1.FailsIn E

namespace Confined

variable {Q R : Call → Prop} {E E' : Error → Prop}

theorem pure (a : α) : Confined (σ := σ) Q E (Pure.pure a) := fun s => ⟨.refl s, trivial⟩

theorem fail {e : Error} (h : E e) : Confined (σ := σ) (α := α) Q E (Task.fail e) :=
  fun s => ⟨.refl s, h⟩

theorem ofExcept {r : Except Error α} (h : ∀ e, r = .error e → E e) :
    Confined (σ := σ) Q E (Task.ofExcept r) :=
  fun s => ⟨.refl s, Ending.failsIn_ofExcept h⟩

theorem session : Confined (σ := σ) Q E Task.session := fun s => ⟨.refl s, trivial⟩

theorem mono {t : Task σ α} (ht : Confined Q E t) (hQ : ∀ call, Q call → R call)
    (hE : ∀ e, E e → E' e) : Confined R E' t := by
  intro s
  have fails := (ht s).2
  refine ⟨(ht s).1.mono hQ, ?_⟩
  revert fails
  cases (t s).1 with
  | error e => exact hE e
  | value | cancelled | expired | pending | crashed => exact id

theorem bind {t : Task σ α} {next : α → Task σ β} (ht : Confined Q E t)
    (hn : ∀ a, Confined Q E (next a)) : Confined Q E (t >>= next) := by
  intro s
  have started := ht s
  simp only [Bind.bind, Task.bind]
  revert started
  cases t s with
  | mk ending s' =>
    cases ending with
    | value a => exact fun started => ⟨started.1.trans (hn a s').1, (hn a s').2⟩
    | _ => exact fun started => started

theorem bind_ofExcept {r : Except Error α} {next : α → Task σ β} (hr : ∀ e, r = .error e → E e)
    (hn : ∀ a, r = .ok a → Confined Q E (next a)) : Confined Q E (Task.ofExcept r >>= next) := by
  cases r with
  | error e => exact fail (hr e rfl)
  | ok a => exact hn a rfl

theorem isolate {t : Task σ α} (ht : Confined Q E t) : Confined Q E' t.isolate := by
  intro s
  have done := (ht s).1
  simp only [Task.isolate]
  revert done
  cases t s with
  | mk ending s' => cases ending <;> exact fun done => ⟨done, trivial⟩

/-- What comes after an isolated task knows with which errors that may have ended. -/
theorem isolate_bind {t : Task σ α} {next : Except Error α → Task σ β} (ht : Confined Q E' t)
    (hn : ∀ result, (∀ e, result = .error e → E' e) → Confined Q E (next result)) :
    Confined Q E (t.isolate >>= next) := by
  intro s
  have made := ht s
  simp only [Bind.bind, Task.bind, Task.isolate]
  revert made
  cases t s with
  | mk ending s₁ =>
    intro made
    cases ending with
    | value a =>
      have rest := hn (.ok a) (by simp) s₁
      exact ⟨made.1.trans rest.1, rest.2⟩
    | error e =>
      have rest := hn (.error e) (fun _ same => by cases same; exact made.2) s₁
      exact ⟨made.1.trans rest.1, rest.2⟩
    | cancelled | expired | pending | crashed => exact ⟨made.1, trivial⟩

theorem warn (w : Warning) : Confined (σ := σ) Q E (Task.warn w) := fun s =>
  ⟨.warn w s, trivial⟩

theorem drawBytes {n : Nat} {purpose : String} (h : E (.random purpose)) :
    Confined (σ := σ) Q E (Task.drawBytes n purpose) := by
  intro s
  unfold Task.drawBytes
  split
  · exact ⟨.refl s, h⟩
  · exact ⟨.still rfl rfl, trivial⟩

theorem drawPassword (h : E (.random "test user password")) :
    Confined (σ := σ) Q E Task.drawPassword := by
  intro s
  unfold Task.drawPassword
  split
  · exact ⟨.still rfl rfl, trivial⟩
  · exact ⟨.refl s, h⟩

theorem drawNames {stem : String} (h : E (.random "resource name suffix")) :
    Confined (σ := σ) Q E (Task.drawNames stem) :=
  (drawBytes h).bind fun _ => (drawBytes h).bind fun _ => session.bind fun _ => pure _

theorem sleep {g : Guard} {d : Nat} : Confined (σ := σ) Q E (Task.sleep g d) := by
  intro s
  let r : Reaction Unit := { lasts := some d, answer := .ok () }
  refine ⟨⟨⟨[], rfl, by simp⟩, Clock.now_le_await g r _, Clock.await_horizon g r _,
    Clock.await_origin g r _⟩, ?_⟩
  have never : ∀ e, (s.clock.await g r).1 ≠ .error e := fun e h => by cases Clock.await_error h
  revert never
  simp only [Task.sleep, r]
  cases (s.clock.await g _).1 with
  | error e => exact fun never => absurd rfl (never e)
  | _ => exact fun _ => trivial

theorem withCancel {stage : String} {step : Guard → Task σ α} (h : E (.cancelled stage))
    (hs : Confined Q E (step { cancellable := true })) :
    Confined Q E (Task.withCancel stage step) := by
  intro s
  unfold Task.withCancel
  split
  · exact ⟨.refl s, h⟩
  · have stepped := hs s
    revert stepped
    cases step { cancellable := true } s with
    | mk ending s' =>
      cases ending with
      | cancelled => exact fun stepped => ⟨stepped.1, h⟩
      | _ => exact id

variable [Party σ] {F : Call → Error → Prop}

theorem endEvents_on {call : Call} (hQ : Q call) {t : Nat} {ws : List Warning}
    {ending : Ending call.Answer} : ∀ e ∈ endEvents call t ws ending, e.On Q := by
  intro e he
  rcases mem_endEvents he with ⟨answer, _, rfl⟩ | rfl | ⟨w, rfl⟩
  · exact hQ
  · exact hQ
  · trivial

theorem ask {g : Guard} {call : Call} (keeps : Party.Keeps σ F) (hQ : Q call)
    (hE : ∀ e, F call e → E e) : Confined (σ := σ) Q E (Task.ask g call) := by
  intro s
  refine ⟨⟨⟨_, (List.append_assoc _ [_] _).symm, fun e he => ?_⟩, now_le_ask g call s,
    Clock.await_horizon g _ _, Clock.await_origin g _ _⟩, ?_⟩
  · rcases List.mem_append.1 he with he | he
    · exact endEvents_on hQ e he
    · cases List.mem_singleton.1 he
      exact hQ
  · have fails : ∀ e, (s.clock.await g (Party.react s.party call).1).1 = .error e → E e :=
      fun e h => hE e (keeps _ _ _ (Clock.await_error h))
    revert fails
    simp only [Task.ask]
    cases (s.clock.await g (Party.react s.party call).1).1 with
    | error e => exact fun fails => fails e rfl
    | _ => exact fun _ => trivial

end Confined

end Task

namespace Procedure

/-- The same of a procedure, whose calls are answered with an error only as `F` allows. -/
def Confined (Q : Call → Prop) (F : Call → Error → Prop) (E : Error → Prop) : Procedure α → Prop
  | done result => ∀ e, result = .error e → E e
  | ask call next =>
    Q call ∧ ∀ answer, (∀ e, answer = .error e → F call e) → (next answer).Confined Q F E
  | warn _ next => next.Confined Q F E
  | password next => E (.random "test user password") ∧ ∀ p, (next p).Confined Q F E

variable {Q : Call → Prop} {F : Call → Error → Prop} {E : Error → Prop}

theorem Confined.call {c : Call} (hQ : Q c) (hE : ∀ e, F c e → E e) :
    (Procedure.call c).Confined Q F E :=
  ⟨hQ, fun _ fails e h => hE e (fails e h)⟩

theorem Confined.bind {p : Procedure α} {next : α → Procedure β} (hp : p.Confined Q F E)
    (hn : ∀ a, (next a).Confined Q F E) : (p >>= next).Confined Q F E := by
  simp only [Bind.bind]
  induction p with
  | done result =>
    cases result with
    | ok a => exact hn a
    | error e =>
      intro e' same
      cases same
      exact hp e rfl
  | ask call k ih => exact ⟨hp.1, fun answer fails => ih answer (hp.2 answer fails)⟩
  | warn w k ih => exact ih hp
  | password k ih => exact ⟨hp.1, fun p => ih p (hp.2 p)⟩

/-- An answer is handed on whatever it is. -/
theorem perform_ask [Party σ] (g : Guard) (call : Call)
    (next : Except Error call.Answer → Procedure α) : (ask call next).perform (σ := σ) g =
      (Task.ask g call).isolate >>= fun answer => (next answer).perform g := by
  funext s
  simp only [perform, Bind.bind, Task.bind, Task.isolate]
  cases Task.ask g call s with
  | mk ending s' => cases ending <;> rfl

/-- A procedure keeps to its calls when it is carried out. -/
theorem Confined.perform [Party σ] (keeps : Party.Keeps σ F) {g : Guard} {p : Procedure α}
    (hp : p.Confined Q F E) : Task.Confined (σ := σ) Q E (p.perform g) := by
  induction p with
  | done result => exact .ofExcept hp
  | ask call k ih =>
    rw [perform_ask]
    have asked : Task.Confined (σ := σ) Q (F call) (Task.ask g call) := .ask keeps hp.1 fun _ h => h
    exact asked.isolate_bind fun answer fails => ih answer (hp.2 answer fails)
  | warn w k ih => exact (Task.Confined.warn w).bind fun _ => ih hp
  | password k ih => exact (Task.Confined.drawPassword hp.1).bind fun p => ih p (hp.2 p)

/-- Procedures are carried out one after the other. -/
theorem perform_bind [Party σ] (g : Guard) (p : Procedure α) (next : α → Procedure β) :
    (p >>= next).perform (σ := σ) g = p.perform g >>= fun a => (next a).perform g := by
  induction p with
  | done result => cases result <;> rfl
  | ask call k ih =>
    show (ask call fun answer => k answer >>= next).perform g = _
    rw [perform_ask, perform_ask, Task.bind_assoc]
    exact congrArg (Bind.bind _) (funext ih)
  | warn w k ih =>
    show (Task.warn w >>= fun _ => (k >>= next).perform g) = _
    rw [ih, ← Task.bind_assoc]
    rfl
  | password k ih =>
    show (Task.drawPassword >>= fun p => (k p >>= next).perform g) = _
    simp only [ih, ← Task.bind_assoc]
    rfl

theorem perform_call [Party σ] (g : Guard) (c : Call) :
    (Procedure.call c).perform (σ := σ) g = Task.ask g c := by
  rw [call, perform_ask]
  funext s
  simp only [Bind.bind, Task.bind, Task.isolate]
  cases Task.ask g c s with
  | mk ending s' => cases ending <;> rfl

section Asked

variable [Party σ] {g : Guard} {s s' : Session σ} {call : Call}
  (next : Except Error call.Answer → Procedure α)

/-- A procedure goes on with the answer to its call. -/
theorem perform_ask_of_answered {answer : Except Error call.Answer}
    (asked : Task.ask g call s = (.ofExcept answer, s')) :
    (ask call next).perform g s = (next answer).perform g s' := by
  simp only [perform_ask, Bind.bind, Task.bind, Task.isolate, asked]
  cases answer <;> rfl

theorem perform_ask_of_cut {ending : Ending call.Answer} (asked : Task.ask g call s = (ending, s'))
    (unfinished : ¬ ending.Over) :
    ¬ ((ask call next).perform g s).1.Over ∧ ((ask call next).perform g s).2 = s' := by
  simp only [perform_ask, Bind.bind, Task.bind, Task.isolate, asked]
  cases ending with
  | value | error => exact absurd trivial unfinished
  | cancelled | expired | pending | crashed => exact ⟨id, rfl⟩

end Asked

end Procedure

end Acceptance
