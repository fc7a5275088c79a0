import Acceptance.Proofs.Modes
import Acceptance.Proofs.Prompt

/-!
# The start of the suite on this machine

What comes before the suite is not begun once the run is cancelled. The suite has no such guard: it
starts after the last of these calls, whatever that call has done.

* `Session.CancelledBefore`: a run that makes these calls is cancelled by then;
* `Session.Overtaken`: only the last of them cancels it, which is over at once;
* `Run.suite_late_iff`: a suite that starts in a cancelled run starts right after such a call.
-/

namespace Acceptance

variable {σ α : Type}

/-- A clock that is moved on, and is cancelled then, was to be cancelled before. -/
theorem Clock.cancelTime_lt {c : Clock} {t : Nat} (later : c.now < t)
    (stopped : (c.moveTo t).cancelled = true) : ∃ u, c.cancelTime = some u ∧ u < t := by
  cases already : c.cancelled with
  | true => exact ⟨c.now, cancelTime_of_cancelled already, later⟩
  | false =>
    have past : c.cancelAt.any (· < t) = true := by simpa [moveTo, already] using stopped
    cases outside : c.cancelAt with
    | none => simp [outside] at past
    | some u =>
      have due : u < t := by simpa [outside] using past
      exact ⟨max c.now u, by simp [cancelTime, already, outside], Nat.max_lt.2 ⟨later, due⟩⟩

/-- A wait that has its answer although the run is cancelled has taken no time. -/
theorem Clock.await_cancelled {g : Guard} {r : Reaction α} {c c' : Clock} {a : α}
    (cancellable : g.cancellable = true) (h : await g r c = (.value a, c'))
    (stopped : c'.cancelled = true) : r.lasts = some 0 ∧ c' = c.started r := by
  rw [await_eq] at h
  split at h
  · rename_i instant
    exact ⟨instant, (congrArg Prod.snd h).symm⟩
  · rename_i lasting
    split at h
    · cases h
    · cases h
    · rename_i t ending _ found
      obtain ⟨rfl, rfl⟩ := Prod.mk.injEq .. ▸ h
      obtain ⟨d, lasts, rfl⟩ := eq_of_due_value found
      have later : (c.started r).now < (c.started r).now + d :=
        Nat.lt_add_of_pos_right (Nat.pos_of_ne_zero fun none => lasting (none ▸ lasts))
      -- Cancellation would have come before the answer.
      obtain ⟨u, time, early⟩ := cancelTime_lt later stopped
      obtain ⟨x, found', inTime⟩ := due_by_cancelTime (r := r) cancellable time
      cases found.symm.trans found'
      exact absurd inTime (Nat.not_le_of_lt early)

variable [Party σ]

/-- The run that goes on from `s` with these calls is cancelled by the time `t`, from outside or by
one of the calls. -/
def Session.CancelledBefore (s : Session σ) (asked : List (Nat × Call)) (t : Nat) : Prop :=
  s.clock.cancelled = true ∨ (∃ u, s.clock.cancelTime = some u ∧ u < t) ∨
    Party.cancels? s.party asked ≠ none

/-- Nothing cancels the run that goes on from `s` with the first calls before the last one, which
cancels it, and is over in no time. -/
structure Session.Overtaken (s : Session σ) (first : List (Nat × Call)) (last : Call) (t : Nat) :
    Prop where
  uncancelled : ¬ s.CancelledBefore first t
  cancels : (Party.react (Party.after s.party (first.map Prod.snd)) last).1.cancels = true
  instant : (Party.react (Party.after s.party (first.map Prod.snd)) last).1.lasts = some 0

section

variable {s s₁ s₂ : Session σ} {first : List (Nat × Call)} {call : Call}

theorem Session.Prompt.uncancelled (h : s.Prompt s₁ first) (live : s₁.clock.cancelled = false) :
    ¬ s.CancelledBefore first s₁.clock.now := by
  obtain ⟨started, silent, inTime⟩ := h.live live
  rintro (cancelled | ⟨u, time, early⟩ | inside)
  · cases started.symm.trans cancelled
  · exact absurd (inTime u time) (Nat.not_le_of_lt early)
  · exact inside silent

theorem Session.Overtaken.cancelledBefore {t : Nat} (h : s.Overtaken first call t) :
    s.CancelledBefore (first ++ [(t, call)]) t := by
  right
  right
  have stops : Party.cancels? (Party.after s.party (first.map Prod.snd)) [(t, call)] = some t :=
    if_pos h.cancels
  rw [Party.cancels?_append, stops]
  cases Party.cancels? s.party first <;> exact Option.some_ne_none _

/-- After a call that starts in time, and has its answer, the run is cancelled only if that call
overtakes it. -/
theorem Task.ask_overtaken (prompt : s.Prompt s₁ first) (live : s₁.clock.cancelled = false)
    {a : call.Answer} (asked : Task.ask { cancellable := true } call s₁ = (.value a, s₂)) :
    s₂.asked = s.asked ++ (first ++ [(s₁.clock.now, call)]) ∧
      (s.CancelledBefore (first ++ [(s₁.clock.now, call)]) s₂.clock.now →
        s₂.clock.now = s₁.clock.now ∧ s.Overtaken first call s₁.clock.now) := by
  have calls := Task.asked_ask { cancellable := true } call s₁
  have steps : Task.PromptIn Session.Live (Task.ask (σ := σ) { cancellable := true } call) :=
    .ask rfl fun s live cancelled => by cases live.symm.trans cancelled
  obtain ⟨new, step⟩ := steps s₁ live
  rw [asked] at calls step
  obtain rfl : new = [(s₁.clock.now, call)] := List.append_cancel_left (step.asked.symm.trans calls)
  have whole := prompt.trans step
  refine ⟨whole.asked, fun cancelled => ?_⟩
  cases stopped : s₂.clock.cancelled with
  | false => exact absurd cancelled (whole.uncancelled stopped)
  | true =>
    have waited : s₁.clock.await { cancellable := true } (Party.react s₁.party call).1 =
        (.value a, s₂.clock) :=
      congrArg (fun r : Ending call.Answer × Session σ => (r.1, r.2.clock)) asked
    obtain ⟨instant, clock⟩ := Clock.await_cancelled rfl waited stopped
    rw [clock] at stopped
    have cancels := (Clock.stopped_of_started stopped).resolve_left (by simp [live])
    rw [prompt.party] at cancels instant
    exact ⟨by rw [clock, Clock.started_now], prompt.uncancelled live, cancels, instant⟩

end

namespace Run

variable {settings : RunSettings}

/-- A call after which the suite may start: no other comes before it in a run without an identity
provider, and in all others this is the last one. -/
def BeforeSuite (settings : RunSettings) (call : Call) : Prop :=
  (∃ ref, call = .getSite ref) ∨ call = .getSecret settings.namespaceName settings.credentialSecret

theorem prepareHere_prompt (settings : RunSettings) : (prepareHere (σ := σ) settings).Prompt :=
  (Task.Prompt.withCancel (loadSite_prompt rfl)).bind fun _ => (Task.Prompt.ofExcept _).bind
    fun request => (provision_prompt request).bind fun _ => .pure _

/-- What comes right before the suite: nothing at all, or a call that starts in time and has its
answer. -/
theorem last_call {s s₁ s₂ : Session σ} {p : String × Bool} {credentials : Option Credentials}
    (made : prepareHere settings s = (.value p, s₁))
    (looked : localCredentials settings p.2 s₁ = (.value credentials, s₂)) :
    (s₂ = s ∧ s.clock.cancelled = false) ∨
    ∃ first s' call, ∃ a : call.Answer, s.Prompt s' first ∧ s'.clock.cancelled = false ∧
      BeforeSuite settings call ∧ Task.ask { cancellable := true } call s' = (.value a, s₂) := by
  cases available : p.2 with
  | true =>
    rw [available] at looked
    obtain ⟨c, s', read, done⟩ := Task.bind_value looked
    cases done
    obtain ⟨first, prompt⟩ := prepareHere_prompt settings s trivial
    rw [made] at prompt
    have reading := Task.withCancel_value read
    rw [readCredentials, Procedure.perform_bind, Procedure.perform_call] at reading
    obtain ⟨data, s', asked, done⟩ := Task.bind_value reading
    obtain ⟨-, rfl⟩ := Task.ofExcept_value done
    exact .inr ⟨first, s₁, _, data, prompt, Task.withCancel_live read, .inr rfl, asked⟩
  | false =>
    rw [available] at looked
    cases looked
    obtain ⟨site, s', loaded, onward⟩ := Task.bind_value made
    obtain ⟨request, s'', requested, provided⟩ := Task.bind_value onward
    obtain ⟨_, _, provision, done⟩ := Task.bind_value provided
    cases done
    obtain ⟨-, rfl⟩ := Task.ofExcept_value requested
    have unneeded : request = none := by
      rw [← Option.not_isSome_iff_eq_none, ← provision_value provision]
      simpa using available
    subst unneeded
    cases provision
    have live := Task.withCancel_live loaded
    have loading := Task.withCancel_value loaded
    cases source : settings.site with
    | file path =>
      rw [source] at loading
      obtain ⟨-, rfl⟩ := Task.ofExcept_value loading
      exact .inl ⟨rfl, live⟩
    | cluster ref =>
      rw [source] at loading
      obtain ⟨object, s₂, asked, done⟩ := Task.bind_value loading
      obtain ⟨-, rfl⟩ := Task.ofExcept_value done
      exact .inr ⟨[], s, _, object, .refl s, live, .inl ⟨ref, rfl⟩, asked⟩

/-- The suite starts in a run that is cancelled exactly if the last call before it cancels the run,
and is over at once; and nothing has cancelled the run before that call.

A call cancels the run at its start if at all, and a cancellation from outside comes after all that
happens at the same time (see `Reaction`). So a call that takes its time and cancels the run right as it
is answered is not covered: the suite starts after such a call as well. -/
theorem suite_late_iff (settings : RunSettings) (here : settings.mode = .here) {s : Session σ}
    (fresh : s.Fresh) {after before : List Event} {t : Nat} {i : LocalInvocation}
    (started : (run settings s).2.events = after ++ .asked t (.runTests i) :: before) :
    s.CancelledBefore (before.filterMap Event.asked?).reverse t ↔ ∃ first last,
      (before.filterMap Event.asked?).reverse = first ++ [(t, last)] ∧ BeforeSuite settings last ∧
        s.Overtaken first last t := by
  constructor
  · intro cancelled
    obtain ⟨p, s₁, credentials, s₂, made, looked, -, rfl, rfl⟩ := launch here fresh started
    change s.CancelledBefore s₂.asked s₂.clock.now at cancelled
    change ∃ first last, s₂.asked = _ ∧ _
    rcases last_call made looked with ⟨rfl, live⟩ | ⟨first, s', call, a, prompt, live, kind, asked⟩
    · rw [fresh.asked] at cancelled
      exact absurd cancelled ((Session.Prompt.refl s₂).uncancelled live)
    · obtain ⟨calls, overtaken⟩ := Task.ask_overtaken prompt live asked
      rw [fresh.asked, List.nil_append] at calls
      rw [calls] at cancelled ⊢
      obtain ⟨now, overtaken⟩ := overtaken cancelled
      rw [now]
      exact ⟨first, call, rfl, kind, overtaken⟩
  · rintro ⟨first, last, calls, -, overtaken⟩
    rw [calls]
    exact overtaken.cancelledBefore

end Run

/-- Collaborators that refuse nothing, for a site without an identity provider. The run is cancelled
while the site is looked up. -/
structure Stopping where

namespace Stopping

instance : Party Stopping where
  react p call := ({ answer := .ok (Willing.answer call), cancels := call.stage == .lookup }, p)

def settings : RunSettings := { Willing.settings with mode := .here }

def start : Session Stopping where
  party := {}

theorem fresh : start.Fresh := ⟨rfl, rfl⟩

/-- The suite starts all the same. -/
theorem starts : ∃ after t i before,
    (Run.run settings start).2.events = after ++ .asked t (.runTests i) :: before ∧
      start.CancelledBefore (before.filterMap Event.asked?).reverse t :=
  ⟨[_], 0, _, [_, _], rfl, .inr (.inr (Option.some_ne_none 0))⟩

end Stopping

namespace Run

/-- It starts right after the call that has cancelled the run. -/
theorem suite_late_iff_stopping : ∃ after t i before first last,
    (run Stopping.settings Stopping.start).2.events = after ++ .asked t (.runTests i) :: before ∧
    (before.filterMap Event.asked?).reverse = first ++ [(t, last)] ∧
    BeforeSuite Stopping.settings last ∧ Stopping.start.Overtaken first last t := by
  obtain ⟨after, t, i, before, started, cancelled⟩ := Stopping.starts
  obtain ⟨first, last, calls, kind, overtaken⟩ :=
    (suite_late_iff Stopping.settings rfl Stopping.fresh started).1 cancelled
  exact ⟨after, t, i, before, first, last, started, calls, kind, overtaken⟩

/-- So it is not true that no suite starts in a run that is cancelled. -/
theorem not_never_late : ¬ ∀ (settings : RunSettings) (s : Session Stopping)
    (after before : List Event) (t : Nat) (i : LocalInvocation), settings.mode = .here → s.Fresh →
    (run settings s).2.events = after ++ .asked t (.runTests i) :: before →
    ¬ s.CancelledBefore (before.filterMap Event.asked?).reverse t := by
  intro never
  obtain ⟨after, t, i, before, started, cancelled⟩ := Stopping.starts
  exact never Stopping.settings Stopping.start after before t i rfl Stopping.fresh started cancelled

end Run

end Acceptance
