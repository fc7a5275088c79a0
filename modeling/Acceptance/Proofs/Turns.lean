import Acceptance.Proofs.Transcript
import Acceptance.Proofs.Wait

/-!
# The record as a list of turns

A run makes its calls in turn: each is answered, or given up without an answer, before the next one
is made. What a part of a run does is told by these turns and by the value that it ends with.

* `Turn`, `Session.Took`: a call with its answer, and what came of a session through such turns;
* `Task.Does`: which turns a task takes, and with which value it ends;
* `Procedure.perform_does`, `Wait.poll_does`: the turns of a procedure and of a wait.
-/

namespace Acceptance

/-- A call with its answer, if it got one. -/
structure Turn where
  call : Call
  answer : Option (Except Error call.Answer)

/-- What the record tells of the order of the calls. -/
inductive Moment where
  | start (call : Call)
  | finish (turn : Turn)

def Event.moment? : Event → Option Moment
  | .asked _ call => some (.start call)
  | .answered _ call answer => some (.finish ⟨call, some answer⟩)
  | .abandoned _ call => some (.finish ⟨call, none⟩)
  | .warned .. => none

def Moment.started? : Moment → Option Call
  | .start call => some call
  | .finish _ => none

namespace Turn

/-- The call was answered, and without an error. -/
def Ok (x : Turn) : Prop := ∃ a, x.answer = some (.ok a)

/-- The answer says that the image of the pod cannot be pulled. -/
def ImagePull (x : Turn) : Prop := ∃ e, x.answer = some (.error e) ∧ e.isImagePull

def moments (x : Turn) : List Moment := [.start x.call, .finish x]

theorem started_moments (turns : List Turn) :
    (turns.flatMap moments).filterMap Moment.started? = turns.map (·.call) := by
  induction turns with
  | nil => rfl
  | cons x xs ih =>
    have first : x.moments.filterMap Moment.started? = [x.call] := rfl
    rw [List.flatMap_cons, List.filterMap_append, first, ih, List.map_cons, List.singleton_append]

end Turn

def Answered.turn (x : Answered) : Turn := ⟨x.call, some x.answer⟩

namespace Ending

variable {α : Type}

/-- What answer an ending is. -/
def answer? : Ending α → Option (Except Error α)
  | .value a => some (.ok a)
  | .error e => some (.error e)
  | _ => none

def value? : Ending α → Option α
  | .value a => some a
  | _ => none

theorem value?_eq_some {ending : Ending α} {a : α} : ending.value? = some a ↔ ending = .value a := by
  cases ending <;> simp [value?]

theorem answer?_of_value? {ending : Ending α} {a : α} (h : ending.value? = some a) :
    ending.answer? = some (.ok a) := by
  rw [value?_eq_some.1 h]
  rfl

end Ending

variable {σ α β : Type}

namespace Session

/-- The starts and the ends of the calls so far, the first one first. -/
def moments (s : Session σ) : List Moment := (s.events.filterMap Event.moment?).reverse

/-- What came of a session through these turns, one after the other, and no other calls. -/
def Took (s s' : Session σ) (turns : List Turn) : Prop :=
  s'.moments = s.moments ++ turns.flatMap Turn.moments

theorem started_eq_moments (s : Session σ) : s.started = s.moments.filterMap Moment.started? := by
  have same : Event.started? = fun e => (Event.moment? e).bind Moment.started? := by
    funext e
    cases e <;> rfl
  rw [started, moments, List.filterMap_reverse, List.filterMap_filterMap, same]

namespace Took

variable {s s₁ s' : Session σ} {turns turns' : List Turn}

/-- The calls that were made are those of the turns. -/
theorem started (h : Took s s' turns) : s'.started = s.started ++ turns.map (·.call) := by
  rw [started_eq_moments, h, List.filterMap_append, Turn.started_moments, ← started_eq_moments]

/-- A change that the record does not show. -/
theorem still (events : s'.events = s.events) : Took s s' [] := by
  simp [Took, moments, events]

theorem refl (s : Session σ) : Took s s [] := still rfl

theorem trans (h : Took s s₁ turns) (h' : Took s₁ s' turns') : Took s s' (turns ++ turns') := by
  rw [Took, h', h, List.flatMap_append, List.append_assoc]

theorem quiet (h : Took s s₁ turns) (events : s'.events = s₁.events) : Took s s' turns := by
  rw [← List.append_nil turns]
  exact h.trans (still events)

theorem warn (w : Warning) (s : Session σ) : Took s (Task.warn w s).2 [] :=
  (List.append_nil _).symm

end Took

end Session

/-! ## The answers in the turns -/

/-- The answer of a turn, if it got one. -/
def Turn.answered? (x : Turn) : Option Answered := x.answer.map fun answer => ⟨x.call, answer⟩

def Moment.answered? : Moment → Option Answered
  | .start _ => none
  | .finish turn => turn.answered?

theorem Session.answered_eq_moments (s : Session σ) :
    s.answered = s.moments.filterMap Moment.answered? := by
  have same : Event.answered? = fun e => (Event.moment? e).bind Moment.answered? := by
    funext e
    cases e <;> rfl
  rw [answered, moments, List.filterMap_reverse, List.filterMap_filterMap, same]

theorem Turn.answered_moments (turns : List Turn) :
    (turns.flatMap moments).filterMap Moment.answered? = turns.filterMap answered? := by
  induction turns with
  | nil => rfl
  | cons x turns ih =>
    rw [List.flatMap_cons, List.filterMap_append, ih]
    cases answer : x.answered? <;>
      simp [moments, List.filterMap_cons, Moment.answered?, answer]

/-- The answers that were given are those of the turns. -/
theorem Session.Took.answered {s s' : Session σ} {turns : List Turn} (h : s.Took s' turns) :
    s'.answered = s.answered ++ turns.filterMap Turn.answered? := by
  rw [answered_eq_moments, h, List.filterMap_append, Turn.answered_moments, ← answered_eq_moments]

theorem Answered.filterMap_turn (calls : List Answered) :
    (calls.map Answered.turn).filterMap Turn.answered? = calls := by
  induction calls with
  | nil => rfl
  | cons x calls ih => rw [List.map_cons, List.filterMap_cons, ih]; rfl

namespace Task

/-- The task takes turns as `P` says, which is also told the value that it ends with, if it ends
with one. -/
def Does (s : Session σ) (P : List Turn → Option α → Prop) (t : Task σ α) : Prop :=
  ∃ new, s.Took (t s).2 new ∧ P new (t s).1.value?

namespace Does

variable {s : Session σ} {P P' : List Turn → Option α → Prop}
  {Q : α → List Turn → Option β → Prop}

theorem mono {t : Task σ α} (h : t.Does s P) (weaker : ∀ new o, P new o → P' new o) :
    t.Does s P' := by
  obtain ⟨new, took, shape⟩ := h
  exact ⟨new, took, weaker _ _ shape⟩

theorem pure (a : α) (s : Session σ) :
    (Pure.pure a : Task σ α).Does s fun new o => new = [] ∧ o = some a :=
  ⟨[], .refl s, rfl, rfl⟩

theorem ofExcept (r : Except Error α) (s : Session σ) :
    (Task.ofExcept r).Does s fun new o => new = [] ∧ ∀ a, o = some a → r = .ok a := by
  refine ⟨[], .refl s, rfl, fun a same => ?_⟩
  cases r with
  | ok => exact congrArg Except.ok (Option.some.inj same)
  | error => cases same

theorem warn (w : Warning) (s : Session σ) : (Task.warn w).Does s fun new _ => new = [] :=
  ⟨[], .warn w s, rfl⟩

/-- A task that the record does not show. -/
theorem still {t : Task σ α} (events : (t s).2.events = s.events) :
    t.Does s fun new _ => new = [] :=
  ⟨[], .still events, rfl⟩

/-- What two tasks do in a row: the second is reached with the value of the first. -/
inductive Then (P : List Turn → Option α → Prop) (Q : α → List Turn → Option β → Prop) :
    List Turn → Option β → Prop where
  | both {earlier later : List Turn} {o : Option β} (a : α) (first : P earlier (some a))
      (second : Q a later o) : Then P Q (earlier ++ later) o
  | first {new : List Turn} (only : P new none) : Then P Q new none

theorem bind {t : Task σ α} {next : α → Task σ β} (ht : t.Does s P)
    (hn : ∀ a s', (next a).Does s' (Q a)) : (t >>= next).Does s (Then P Q) := by
  obtain ⟨new, first, shape⟩ := ht
  simp only [Does, Bind.bind, Task.bind]
  revert first shape
  cases t s with
  | mk ending s₁ =>
    intro first shape
    cases ending with
    | value a =>
      obtain ⟨new', second, shape'⟩ := hn a s₁
      exact ⟨_, first.trans second, .both a shape shape'⟩
    | error | cancelled | expired | pending | crashed => exact ⟨new, first, .first shape⟩

/-- What a task does however it ends. -/
theorem isolate {t : Task σ α} (h : t.Does s P) : t.isolate.Does s fun new _ => ∃ o, P new o := by
  obtain ⟨new, took, shape⟩ := h
  refine ⟨new, ?_, _, shape⟩
  rw [isolate_session]
  exact took

/-- A step that is not made if the run is cancelled. -/
theorem withCancel {stage : String} {step : Guard → Task σ α}
    (h : (step { cancellable := true }).Does s P) :
    (Task.withCancel stage step).Does s fun new o => P new o ∨ (new = [] ∧ o = none) := by
  by_cases cancelled : s.clock.cancelled = true
  · rw [Does, withCancel_barred cancelled]
    exact ⟨[], .refl s, .inr ⟨rfl, rfl⟩⟩
  · obtain ⟨new, took, shape⟩ := h
    have value : (Task.withCancel stage step s).1.value? =
        (step { cancellable := true } s).1.value? := by
      unfold Task.withCancel
      rw [if_neg cancelled]
      cases step { cancellable := true } s with
      | mk ending s₁ => cases ending <;> rfl
    refine ⟨new, ?_, .inl ?_⟩
    · rw [withCancel_session cancelled]
      exact took
    · rw [value]
      exact shape

end Does

end Task

variable [Party σ]

theorem Task.took_ask (g : Guard) (call : Call) (s : Session σ) :
    s.Took (ask g call s).2 [⟨call, (ask g call s).1.answer?⟩] := by
  have ended : ∀ t ws (ending : Ending call.Answer),
      (endEvents call t ws ending).filterMap Event.moment? = [.finish ⟨call, ending.answer?⟩] := by
    intro t ws ending
    cases ending with
    | cancelled =>
      have told : ∀ ws : List Warning,
          (ws.map (Event.warned t)).reverse.filterMap Event.moment? = [] := by
        intro ws
        refine List.filterMap_eq_nil_iff.2 fun e he => ?_
        obtain ⟨w, _, rfl⟩ := List.mem_map.1 (List.mem_reverse.1 he)
        rfl
      simp only [endEvents, List.filterMap_append, told]
      rfl
    | value | error | expired | pending | crashed => rfl
  have events : (ask g call s).2.events =
      endEvents call (ask g call s).2.clock.now (Party.react s.party call).1.whenStopped
        (ask g call s).1 ++ .asked s.clock.now call :: s.events := rfl
  have asked : (Event.asked s.clock.now call :: s.events).filterMap Event.moment? =
      .start call :: s.events.filterMap Event.moment? := rfl
  rw [Session.Took, Session.moments, events, List.filterMap_append, ended, asked]
  simp [Session.moments, Turn.moments]

/-- One call, with a value only if that is the answer. -/
theorem Task.Does.ask (g : Guard) (call : Call) (s : Session σ) : (Task.ask g call).Does s
    fun new o => ∃ answer, new = [⟨call, answer⟩] ∧ ∀ a, o = some a → answer = some (.ok a) :=
  ⟨_, took_ask g call s, _, rfl, fun _ => Ending.answer?_of_value?⟩

/-- What a procedure does: calls of the kind `Q`, and if it ends with a value, one of its courses to
the end. -/
def Procedure.Course (Q : Call → Prop) (p : Procedure α) (new : List Turn) (o : Option α) :
    Prop :=
  (∀ x ∈ new, Q x.call) ∧
    ∀ a, o = some a → ∃ calls, new = calls.map Answered.turn ∧ Transcript p calls (.ok a)

/-- A procedure that is answered goes on as the answer says. -/
theorem Procedure.Course.ask {Q : Call → Prop} {call : Call}
    {next : Except Error call.Answer → Procedure α} {answer : Except Error call.Answer}
    {new : List Turn} {o : Option α} (asks : Q call) (h : Course Q (next answer) new o) :
    Course Q (.ask call next) (⟨call, some answer⟩ :: new) o := by
  refine ⟨List.forall_mem_cons.2 ⟨asks, h.1⟩, fun a same => ?_⟩
  obtain ⟨calls, rfl, told⟩ := h.2 a same
  exact ⟨⟨call, answer⟩ :: calls, rfl, .step (.ask answer) told⟩

/-- A procedure that is carried out takes one of its courses, or a part of it. -/
theorem Procedure.perform_does {Q : Call → Prop} {F : Call → Error → Prop} {E : Error → Prop}
    (all : ∀ call e, F call e) {p : Procedure α} (hp : p.Confined Q F E) (g : Guard)
    (s : Session σ) : (p.perform g).Does s (Course Q p) := by
  induction p generalizing s with
  | done result =>
    refine (Task.Does.ofExcept result s).mono ?_
    rintro new o ⟨rfl, value⟩
    refine ⟨List.forall_mem_nil _, fun a same => ⟨[], rfl, ?_⟩⟩
    rw [value a same]
    exact .done
  | ask call k ih =>
    have asked := Task.took_ask g call s
    simp only [Task.Does, Procedure.perform]
    revert asked
    cases Task.ask g call s with
    | mk ending s₁ =>
      intro asked
      cases ending with
      | value a =>
        obtain ⟨new, rest, course⟩ := ih (.ok a) (hp.2 _ fun e _ => all call e) s₁
        exact ⟨_, asked.trans rest, course.ask hp.1⟩
      | error e =>
        obtain ⟨new, rest, course⟩ := ih (.error e) (hp.2 _ fun e _ => all call e) s₁
        exact ⟨_, asked.trans rest, course.ask hp.1⟩
      | cancelled | expired | pending | crashed =>
        exact ⟨_, asked, List.forall_mem_singleton.2 hp.1, fun a none => by cases none⟩
  | warn w k ih =>
    obtain ⟨new, rest, asks, course⟩ := ih hp (Task.warn w s).2
    refine ⟨new, (Session.Took.warn w s).trans rest, asks, fun a same => ?_⟩
    obtain ⟨calls, rfl, told⟩ := course a same
    exact ⟨calls, rfl, .step .warn told⟩
  | password k ih =>
    simp only [Task.Does, Procedure.perform, Bind.bind, Task.bind, Task.drawPassword]
    cases drawn : Password.generate s.entropy with
    | none => exact ⟨[], .refl s, List.forall_mem_nil _, fun a none => by cases none⟩
    | some drawing =>
      obtain ⟨p, entropy⟩ := drawing
      have unseen : s.Took { s with entropy } [] := .still rfl
      obtain ⟨new, rest, asks, course⟩ := ih p (hp.2 p) { s with entropy }
      refine ⟨new, unseen.trans rest, asks, fun a same => ?_⟩
      obtain ⟨calls, rfl, told⟩ := course a same
      exact ⟨calls, rfl, .step (.draw ⟨_, _, drawn⟩) told⟩

namespace Wait

variable {call : Call} {value? : call.Answer → Option α} {warning : Error → Warning}

/-- Calls of one kind only, the last of which brings the value if there is one. -/
def Asked (call : Call) (value? : call.Answer → Option α) (new : List Turn) (o : Option α) :
    Prop :=
  (∀ x ∈ new, x.call = call) ∧ ∀ v, o = some v →
    ∃ earlier a, new = earlier ++ [⟨call, some (.ok a)⟩] ∧ value? a = some v

theorem lookup_does (g : Guard) (s : Session σ) :
    ((Observe.lookup call value? warning).run g).Does s fun new o =>
      ∃ answer, new = [⟨call, answer⟩] ∧
        ∀ v, o = some (some v) → ∃ a, answer = some (.ok a) ∧ value? a = some v := by
  have asked := Task.took_ask g call s
  simp only [Task.Does, Observe.lookup, Bind.bind, Task.bind, Task.isolate]
  revert asked
  cases Task.ask g call s with
  | mk ending s₁ =>
    intro asked
    cases ending with
    | value a =>
      refine ⟨_, asked, _, rfl, fun v same => ⟨a, rfl, ?_⟩⟩
      exact Option.some.inj same
    | error e => exact ⟨_, asked.trans (.warn _ s₁), _, rfl, nofun⟩
    | cancelled | expired | pending | crashed => exact ⟨_, asked, _, rfl, nofun⟩

theorem GivesUp.valueless {w : Wait} {ending : Ending α} (h : w.GivesUp ending) {P : α → Prop}
    (v : α) (same : ending.value? = some v) : P v := by
  rcases h with rfl | rfl | rfl | rfl <;> cases same

/-- A wait for an answer asks again and again, and no more once it has its value. -/
theorem poll_does (w : Wait) (s : Session σ) :
    (w.poll (Observe.lookup call value? warning)).Does s (Asked call value?) := by
  let deadline := s.clock.now + w.timeout
  let check : Check σ α := Observe.lookup call value? warning
  -- One more check after any number of them.
  have again : ∀ {s₁ s₂ : Session σ} {new : List Turn} {ending : Ending (Option α)},
      s.Took s₁ new → (∀ x ∈ new, x.call = call) →
      check.run ⟨true, some deadline⟩ s₁ = (ending, s₂) →
      ∃ answer, s.Took s₂ (new ++ [⟨call, answer⟩]) ∧
        (∀ x ∈ new ++ [⟨call, answer⟩], x.call = call) ∧
        ∀ v, ending.value? = some (some v) → ∃ a, answer = some (.ok a) ∧ value? a = some v := by
    intro s₁ s₂ new ending before same made
    have looked : (check.run ⟨true, some deadline⟩).Does s₁ _ := lookup_does _ s₁
    obtain ⟨_, asked, answer, rfl, brings⟩ := looked
    rw [made] at asked brings
    have last : ∀ x ∈ [(⟨call, answer⟩ : Turn)], x.call = call := List.forall_mem_singleton.2 rfl
    exact ⟨answer, before.trans asked, List.forall_mem_append.2 ⟨same, last⟩, brings⟩
  refine poll_induction (w := w)
    (I := fun s' => ∃ new, s.Took s' new ∧ ∀ x ∈ new, x.call = call)
    (P := fun ending s' => ∃ new, s.Took s' new ∧ Asked call value? new ending.value?)
    ?_ ?_ (fun _ => ⟨[], .refl s, List.forall_mem_nil _, nofun⟩) ⟨[], .refl s, List.forall_mem_nil _⟩
  · rintro s₁ s₂ ⟨new, before, same⟩ made
    have round := rounded w deadline check s₁
    rw [made] at round
    cases round with
    | notYet run rested =>
      obtain ⟨answer, asked, same, _⟩ := again before same run
      exact ⟨_, asked.quiet (rest_quiet rested).1, same⟩
  · rintro s₁ ending s₂ ⟨new, before, same⟩ made
    have round := rounded w deadline check s₁
    rw [made] at round
    generalize ho : some ending = o at round
    cases round with
    | stopped => cases ho; exact ⟨new, before, same, nofun⟩
    | found run =>
      cases ho
      obtain ⟨answer, asked, same, brings⟩ := again before same run
      refine ⟨_, asked, same, fun v found => ?_⟩
      cases found
      obtain ⟨a, rfl, holds⟩ := brings _ rfl
      exact ⟨new, a, rfl, holds⟩
    | failed run =>
      cases ho
      obtain ⟨answer, asked, same, _⟩ := again before same run
      exact ⟨_, asked, same, nofun⟩
    | cut run _ givesUp =>
      cases ho
      obtain ⟨answer, asked, same, _⟩ := again before same run
      exact ⟨_, asked, same, givesUp.valueless⟩
    | notYet run rested =>
      obtain ⟨answer, asked, same, _⟩ := again before same run
      have quiet := rest_quiet rested
      exact ⟨_, asked.quiet quiet.1, same, (quiet.2.2 ending ho.symm).valueless⟩

end Wait

end Acceptance
