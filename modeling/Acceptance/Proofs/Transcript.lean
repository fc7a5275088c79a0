import Acceptance.Proofs.Record

/-!
# Transcripts of a procedure

What a procedure asks, what it is told and how it ends, apart from who carries it out and when.

* `Procedure.Step`, `Procedure.Transcript`: one step of a procedure, and a whole course of it;
* `Procedure.transcript_bind`: a course of two procedures is one of each;
* `Procedure.perform_transcript`: a procedure that is carried out takes such a course, unless it is
  left without an answer.
-/

namespace Acceptance

namespace Procedure

variable {α β : Type}

/-- A password that some random bytes give. -/
def Drawn (password : String) : Prop :=
  ∃ entropy rest, Password.generate entropy = some (password, rest)

/-- One step of a procedure, with the call that it makes if it makes one. -/
inductive Step : Procedure α → Option Answered → Procedure α → Prop where
  | ask {call : Call} {next : Except Error call.Answer → Procedure α}
      (answer : Except Error call.Answer) :
      Step (.ask call next) (some ⟨call, answer⟩) (next answer)
  | warn {w : Warning} {next : Procedure α} : Step (.warn w next) none next
  | draw {next : String → Procedure α} {p : String} (drawn : Drawn p) :
      Step (.password next) none (next p)
  /-- The random source gives out. -/
  | exhaust {next : String → Procedure α} :
      Step (.password next) none (.done (.error (.random "test user password")))

/-- The procedure can go on to its end with these calls, and has this result. -/
inductive Transcript : Procedure α → List Answered → Except Error α → Prop where
  | done {result : Except Error α} : Transcript (.done result) [] result
  | step {p q : Procedure α} {call : Option Answered} {calls : List Answered}
      {result : Except Error α} (step : Step p call q) (rest : Transcript q calls result) :
      Transcript p (call.toList ++ calls) result

variable {calls : List Answered}

theorem transcript_done {r result : Except Error α} (h : Transcript (.done r) calls result) :
    calls = [] ∧ result = r := by
  cases h with
  | done => exact ⟨rfl, rfl⟩
  | step step => cases step

theorem transcript_ask {call : Call} {next : Except Error call.Answer → Procedure α}
    {result : Except Error α} (h : Transcript (.ask call next) calls result) :
    ∃ answer rest, calls = ⟨call, answer⟩ :: rest ∧ Transcript (next answer) rest result := by
  cases h with
  | step step rest =>
    cases step
    exact ⟨_, _, rfl, rest⟩

theorem transcript_warn {w : Warning} {next : Procedure α} {result : Except Error α}
    (h : Transcript (.warn w next) calls result) : Transcript next calls result := by
  cases h with
  | step step rest =>
    cases step
    exact rest

theorem transcript_password {next : String → Procedure α} {result : Except Error α}
    (h : Transcript (.password next) calls result) :
    (∃ p, Drawn p ∧ Transcript (next p) calls result) ∨
      (calls = [] ∧ result = .error (.random "test user password")) := by
  cases h with
  | step step rest =>
    cases step with
    | draw drawn => exact .inl ⟨_, drawn, rest⟩
    | exhaust => exact .inr (transcript_done rest)

theorem transcript_call {c : Call} {result : Except Error c.Answer}
    (h : Transcript (.call c) calls result) : calls = [⟨c, result⟩] := by
  obtain ⟨answer, rest, rfl, ended⟩ := transcript_ask h
  obtain ⟨rfl, rfl⟩ := transcript_done ended
  rfl

/-- Either the first procedure comes to a value and the second goes on with it, or the error of the
first is that of both. -/
theorem transcript_bind {p : Procedure α} {next : α → Procedure β} {result : Except Error β}
    (h : Transcript (p >>= next) calls result) :
    (∃ a earlier later, calls = earlier ++ later ∧ Transcript p earlier (.ok a) ∧
      Transcript (next a) later result) ∨
    ∃ e, result = .error e ∧ Transcript p calls (.error e) := by
  simp only [Bind.bind] at h
  induction p generalizing calls with
  | done r =>
    cases r with
    | ok a => exact .inl ⟨a, [], calls, rfl, .done, h⟩
    | error e =>
      obtain ⟨rfl, rfl⟩ := transcript_done h
      exact .inr ⟨e, rfl, .done⟩
  | ask call k ih =>
    obtain ⟨answer, rest, rfl, told⟩ := transcript_ask h
    rcases ih answer told with ⟨a, earlier, later, rfl, first, second⟩ | ⟨e, rfl, first⟩
    · exact .inl ⟨a, _ :: earlier, later, rfl, .step (.ask answer) first, second⟩
    · exact .inr ⟨e, rfl, .step (.ask answer) first⟩
  | warn w k ih =>
    rcases ih (transcript_warn h) with ⟨a, earlier, later, rfl, first, second⟩ | ⟨e, rfl, first⟩
    · exact .inl ⟨a, earlier, later, rfl, .step .warn first, second⟩
    · exact .inr ⟨e, rfl, .step .warn first⟩
  | password k ih =>
    rcases transcript_password h with ⟨p, drawn, h⟩ | ⟨rfl, rfl⟩
    · rcases ih p h with ⟨a, earlier, later, rfl, first, second⟩ | ⟨e, rfl, first⟩
      · exact .inl ⟨a, earlier, later, rfl, .step (.draw drawn) first, second⟩
      · exact .inr ⟨e, rfl, .step (.draw drawn) first⟩
    · exact .inr ⟨_, rfl, .step .exhaust .done⟩

variable {σ : Type} [Party σ]

/-- Why a call can be left without its answer: the wait for it had a deadline, the run was
cancelled, or, to one who looks on for ever, there is no answer. -/
inductive Cut (σ : Type) [Party σ] (g : Guard) (call : Call) : Ending α → Clock → Prop where
  | expired {c : Clock} {t : Nat} (deadline : g.deadline = some t) : Cut σ g call .expired c
  | cancelled {c : Clock} (stopped : c.cancelled = true) : Cut σ g call .cancelled c
  | pending {c : Clock}
      (unending : c.horizon = none → ∃ p : σ, (Party.react p call).1.lasts = none) :
      Cut σ g call .pending c

theorem ask_cut {call : Call} {g : Guard} {s s' : Session σ} {ending : Ending call.Answer}
    (asked : Task.ask g call s = (ending, s')) (unfinished : ¬ ending.Over) :
    Cut σ g call ending s'.clock := by
  have waited := Clock.awaited g (Party.react s.party call).1 s.clock
  have horizon := Clock.await_horizon g (Party.react s.party call).1 s.clock
  have same : (s.clock.await g (Party.react s.party call).1).1 = ending := congrArg Prod.fst asked
  have clock : (s.clock.await g (Party.react s.party call).1).2 = s'.clock :=
    congrArg (fun r : Ending call.Answer × Session σ => r.2.clock) asked
  rw [same, clock] at waited
  rw [clock] at horizon
  cases waited with
  | answered => exact absurd (Ending.over_ofExcept _) unfinished
  | expired deadline => exact .expired deadline
  | cancelled _ stopped => exact .cancelled stopped
  | pending _ _ unending =>
    exact .pending fun watched => ⟨s.party, (unending (horizon.symm.trans watched)).1⟩

/-- What a procedure did that was carried out from `s` to its end. -/
structure Performed (p : Procedure α) (s : Session σ) (calls : List Answered)
    (result : Except Error α) (outcome : Ending α × Session σ) : Prop where
  transcript : Transcript p calls result
  ending : outcome.1 = .ofExcept result
  started : outcome.2.started = s.started ++ calls.map (·.call)
  answered : outcome.2.answered = s.answered ++ calls

/-- What a procedure did that asked once more, and was left without the answer. -/
structure Interrupted (g : Guard) (s : Session σ) (calls : List Answered) (call : Call)
    (outcome : Ending α × Session σ) : Prop where
  cut : Cut σ g call outcome.1 outcome.2.clock
  started : outcome.2.started = s.started ++ (calls.map (·.call) ++ [call])
  answered : outcome.2.answered = s.answered ++ calls

section

variable {call : Call} (answer : Except Error call.Answer) {g : Guard} {s s' : Session σ}
  {outcome : Ending α × Session σ} (asked : Task.ask g call s = (.ofExcept answer, s'))

include asked

theorem started_of_asked : s'.started = s.started ++ [call] := by
  have started := Task.started_ask g call s
  rwa [asked] at started

theorem answered_of_asked : s'.answered = s.answered ++ [⟨call, answer⟩] := by
  have answered := Task.answered_ask (congrArg Prod.fst asked)
  rwa [asked] at answered

theorem Performed.ask {next : Except Error call.Answer → Procedure α} {result : Except Error α}
    (h : Performed (next answer) s' calls result outcome) :
    Performed (.ask call next) s (⟨call, answer⟩ :: calls) result outcome where
  transcript := .step (.ask answer) h.transcript
  ending := h.ending
  started := by
    rw [h.started, started_of_asked answer asked, List.append_assoc]
    rfl
  answered := by
    rw [h.answered, answered_of_asked answer asked, List.append_assoc]
    rfl

theorem Interrupted.ask {last : Call} (h : Interrupted g s' calls last outcome) :
    Interrupted g s (⟨call, answer⟩ :: calls) last outcome where
  cut := h.cut
  started := by
    rw [h.started, started_of_asked answer asked, List.append_assoc]
    rfl
  answered := by
    rw [h.answered, answered_of_asked answer asked, List.append_assoc]
    rfl

end

/-- A procedure takes one of its courses, and the record tells which, unless it is left without an
answer before its end. -/
theorem perform_transcript (p : Procedure α) (g : Guard) (s : Session σ) :
    (∃ calls result, Performed p s calls result (p.perform g s)) ∨
      ∃ calls call, Interrupted g s calls call (p.perform g s) := by
  induction p generalizing s with
  | done result =>
    exact .inl ⟨[], result, .done, rfl, (List.append_nil _).symm, (List.append_nil _).symm⟩
  | ask call k ih =>
    have started := Task.started_ask g call s
    have unanswered := Task.unanswered_ask g call s
    simp only [perform]
    generalize asked : Task.ask g call s = r at started unanswered
    obtain ⟨ending, s'⟩ := r
    cases ending with
    | value a =>
      rcases ih (.ok a) s' with ⟨calls, result, h⟩ | ⟨calls, last, h⟩
      · exact .inl ⟨_, result, .ask (.ok a) asked h⟩
      · exact .inr ⟨_, last, .ask (.ok a) asked h⟩
    | error e =>
      rcases ih (.error e) s' with ⟨calls, result, h⟩ | ⟨calls, last, h⟩
      · exact .inl ⟨_, result, .ask (.error e) asked h⟩
      · exact .inr ⟨_, last, .ask (.error e) asked h⟩
    | cancelled | expired | pending =>
      refine .inr ⟨[], call, ?_, started, (unanswered id).trans (List.append_nil _).symm⟩
      cases ask_cut asked id
      constructor
      assumption
    | crashed => cases ask_cut asked id
  | warn w k ih =>
    rcases ih (Task.warn w s).2 with ⟨calls, result, h⟩ | ⟨calls, last, h⟩
    · exact .inl ⟨calls, result, .step .warn h.transcript, h.ending,
        h.started.trans (by rw [Task.started_warn]), h.answered.trans (by rw [Task.answered_warn])⟩
    · exact .inr ⟨calls, last, h.cut, h.started.trans (by rw [Task.started_warn]),
        h.answered.trans (by rw [Task.answered_warn])⟩
  | password k ih =>
    simp only [perform, Bind.bind, Task.bind, Task.drawPassword]
    cases drawn : Password.generate s.entropy with
    | none =>
      exact .inl ⟨[], _, .step .exhaust .done, rfl, (List.append_nil _).symm,
        (List.append_nil _).symm⟩
    | some drawing =>
      obtain ⟨p, entropy⟩ := drawing
      rcases ih p { s with entropy } with ⟨calls, result, h⟩ | ⟨calls, last, h⟩
      · exact .inl ⟨calls, result, .step (.draw ⟨_, _, drawn⟩) h.transcript, h.ending, h.started,
          h.answered⟩
      · exact .inr ⟨calls, last, h.cut, h.started, h.answered⟩

end Procedure

end Acceptance
