import Acceptance.Proofs.Session

/-!
# The record as a list of calls

* `Session.started`: the calls that a run has made, in order;
* `Session.answered`: those that were answered, with the answers.
-/

namespace Acceptance

/-- A call with its answer. -/
structure Answered where
  call : Call
  answer : Except Error call.Answer

def Event.started? : Event → Option Call
  | .asked _ call => some call
  | _ => none

def Event.answered? : Event → Option Answered
  | .answered _ call answer => some ⟨call, answer⟩
  | _ => none

variable {σ : Type}

namespace Session

/-- The calls that were started so far, the first one first. -/
def started (s : Session σ) : List Call := (s.events.filterMap Event.started?).reverse

/-- The calls that were answered so far, the first answer first. -/
def answered (s : Session σ) : List Answered := (s.events.filterMap Event.answered?).reverse

theorem started_of_events_cons {s s' : Session σ} {e : Event} (h : s'.events = e :: s.events) :
    s'.started = s.started ++ (Event.started? e).toList := by
  cases he : Event.started? e <;> simp [started, h, he]

theorem answered_of_events_cons {s s' : Session σ} {e : Event} (h : s'.events = e :: s.events) :
    s'.answered = s.answered ++ (Event.answered? e).toList := by
  cases he : Event.answered? e <;> simp [answered, h, he]

theorem Onward.started {Q : Call → Prop} {s s' : Session σ} (h : Onward Q s s') :
    ∃ calls, s'.started = s.started ++ calls ∧ ∀ call ∈ calls, Q call := by
  obtain ⟨new, events, on⟩ := h.record
  refine ⟨(new.filterMap Event.started?).reverse, by simp [Session.started, events], ?_⟩
  intro call hc
  obtain ⟨e, he, same⟩ := List.mem_filterMap.1 (List.mem_reverse.1 hc)
  cases e <;> cases same
  exact on _ he

theorem Onward.answered {Q : Call → Prop} {s s' : Session σ} (h : Onward Q s s') :
    ∃ calls, s'.answered = s.answered ++ calls ∧ ∀ x ∈ calls, Q x.call := by
  obtain ⟨new, events, on⟩ := h.record
  refine ⟨(new.filterMap Event.answered?).reverse, by simp [Session.answered, events], ?_⟩
  intro x hx
  obtain ⟨e, he, same⟩ := List.mem_filterMap.1 (List.mem_reverse.1 hx)
  cases e <;> cases same
  exact on _ he

theorem Fresh.started {s : Session σ} (h : s.Fresh) : s.started = [] := by
  simp [Session.started, h.events]

theorem Fresh.answered {s : Session σ} (h : s.Fresh) : s.answered = [] := by
  simp [Session.answered, h.events]

end Session

namespace Task

@[simp]
theorem started_warn (w : Warning) (s : Session σ) : (warn w s).2.started = s.started := by
  simpa [Event.started?] using
    Session.started_of_events_cons (s := s) (e := .warned s.clock.now w) rfl

@[simp]
theorem answered_warn (w : Warning) (s : Session σ) : (warn w s).2.answered = s.answered := by
  simpa [Event.answered?] using
    Session.answered_of_events_cons (s := s) (e := .warned s.clock.now w) rfl

theorem endEvents_ignored {β : Type} {f : Event → Option β} {call : Call} {t : Nat}
    {ws : List Warning} {ending : Ending call.Answer} (warned : ∀ w, f (.warned t w) = none)
    (abandoned : f (.abandoned t call) = none)
    (answered : ∀ answer, ending = .ofExcept answer → f (.answered t call answer) = none) :
    (endEvents call t ws ending).filterMap f = [] := by
  refine List.filterMap_eq_nil_iff.2 fun e he => ?_
  rcases mem_endEvents he with ⟨answer, same, rfl⟩ | rfl | ⟨w, rfl⟩
  · exact answered answer same
  · exact abandoned
  · exact warned w

variable [Party σ]

@[simp]
theorem started_ask (g : Guard) (call : Call) (s : Session σ) :
    (ask g call s).2.started = s.started ++ [call] := by
  have unstarted : ∀ t ws (ending : Ending call.Answer),
      (endEvents call t ws ending).filterMap Event.started? = [] :=
    fun _ _ _ => endEvents_ignored (fun _ => rfl) rfl fun _ _ => rfl
  simp only [Session.started, ask, List.filterMap_append, unstarted]
  simp [Event.started?]

/-- A call that is over is answered. -/
theorem answered_ask {g : Guard} {call : Call} {s : Session σ} {answer : Except Error call.Answer}
    (finished : (ask g call s).1 = .ofExcept answer) :
    (ask g call s).2.answered = s.answered ++ [⟨call, answer⟩] := by
  have ending : (s.clock.await g (Party.react s.party call).1).1 = .ofExcept answer := finished
  simp only [Session.answered, ask, ending]
  cases answer <;> simp [Ending.ofExcept, endEvents, List.filterMap_cons, Event.answered?]

/-- One that is not over is not. -/
theorem unanswered_ask (g : Guard) (call : Call) (s : Session σ)
    (unfinished : ¬ (ask g call s).1.Over) : (ask g call s).2.answered = s.answered := by
  have ask_events : (ask g call s).2.events = endEvents call _ _ (ask g call s).1 ++ _ := rfl
  rw [Session.answered, ask_events, List.filterMap_append,
    endEvents_ignored (fun _ => rfl) rfl fun answer same => ?_]
  · rfl
  · rw [same] at unfinished
    exact absurd (Ending.over_ofExcept answer) unfinished

end Task

end Acceptance
