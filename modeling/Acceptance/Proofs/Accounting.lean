import Acceptance.Proofs.Misconfigured
import Mathlib.Data.List.Chain

/-!
# What becomes of the errors of collaborators

An error that a run goes on from is reported by the very next event, and a run reports nothing without
such a cause. So the errors and the warnings of a run can be matched one by one in its record.

* `Warning.Tells`, `Warning.About`: which error a warning reports, and what it directly follows;
* `Event.Follows`: what may directly follow an event;
* `Ledger`: the record of a part of a run in which each event follows the one before it, and its only
  unreported error is its own result;
* `Task.Accounts`: a part of a run that gives such an account of itself, and what `bind`, `ask` and the
  waits keep.
-/

namespace Acceptance

/-! ## What a warning is about -/

/-- The stage of a run in which a warning is given. -/
def Warning.stage : Warning → Stage
  | userSearchFailed .. => .identity
  | podLookupFailed .. => .arrival
  | streamCancelled _ | streamFailed .. | streamStillOpen .. => .output
  | statusUnreadable .. => .verdict
  | jobNotDeleted .. | configMapNotDeleted .. | cleanupTimedOut .. => .removal
  | runnerStopped _ => .suite

def Event.stage : Event → Stage
  | asked _ call | answered _ call _ | abandoned _ call => call.stage
  | warned _ w => w.stage

/-- What is recorded of a call. -/
inductive Event.Concerns (call : Call) : Event → Prop where
  | asked (t : Nat) : Concerns call (.asked t call)
  | answered (t : Nat) (answer : Except Error call.Answer) : Concerns call (.answered t call answer)
  | abandoned (t : Nat) : Concerns call (.abandoned t call)

theorem Event.forall_concerns {call : Call} {Q : Event → Prop} (hQ : ∀ x, Concerns call x → Q x)
    {x : Event} {t : Nat} (h : Concerns call x) : ∀ y ∈ [x, .asked t call], Q y :=
  List.forall_mem_cons.2 ⟨hQ x h, List.forall_mem_singleton.2 (hQ _ (.asked t))⟩

def Event.isWarning : Event → Bool
  | warned .. => true
  | _ => false

/-- The warning reports that the call was answered with the error. -/
def Warning.Tells : Warning → Call → Error → Prop
  | userSearchFailed user e, .findUser _ _ _ user', e' => user = user' ∧ e = e'
  | podLookupFailed job e, .findJobPod _ job', e' => job = job' ∧ e = e'
  | streamFailed pod e, .followPodLogs _ pod', e' => pod = pod' ∧ e = e' ∧ e.isImagePull = false
  | statusUnreadable job e, .jobStatus _ job', e' => job = job' ∧ e = e'
  | jobNotDeleted ns job e, .deleteJob ns' job', e' => ns = ns' ∧ job = job' ∧ e = e'
  | configMapNotDeleted ns map e, .deleteConfigMap ns' map', e' => ns = ns' ∧ map = map' ∧ e = e'
  | _, _, _ => False

/-- The event that a warning directly follows. -/
inductive Warning.About : Warning → Event → Prop where
  | told {w : Warning} {t : Nat} {call : Call} {e : Error} (tells : w.Tells call e) :
      About w (.answered t call (.error e))
  | stillOpen {t timeout : Nat} {ns pod : String} :
      About (.streamStillOpen pod timeout) (.abandoned t (.followPodLogs ns pod))
  | stopped {t : Nat} {ns pod : String} :
      About (.streamCancelled pod) (.abandoned t (.followPodLogs ns pod))
  /-- The run was cancelled by the time the pod was found. -/
  | late {t : Nat} {ns job pod : String} :
      About (.streamCancelled pod) (.answered t (.findJobPod ns job) (.ok (some pod)))
  | timedOut {t timeout : Nat} {ns : String} {call : Call} (removal : call.stage = .removal) :
      About (.cleanupTimedOut ns timeout) (.abandoned t call)

/-- An error from which a run goes on wherever the call is made. -/
def Call.tolerates : Call → Error → Bool
  | findJobPod .., _ | jobStatus .., _ | deleteJob .., _ | deleteConfigMap .., _ => true
  | followPodLogs .., e => !e.isImagePull
  | _, _ => false

/-- The user exists already, and is looked up again. -/
def Event.resolves : Event → Call → Error → Bool
  | asked _ (.findUser provider token realm user), .createUser provider' token' realm' user' _, e =>
    decide (provider = provider' ∧ token = token' ∧ realm = realm' ∧ user = user') && e.isConflict
  | _, _, _ => false

theorem Event.eq_of_resolves {x : Event} {call : Call} {e : Error} (h : x.resolves call e = true) :
    ∃ t provider token realm user password, x = .asked t (.findUser provider token realm user) ∧
      call = .createUser provider token realm user password := by
  unfold resolves at h
  split at h
  · obtain ⟨same, -⟩ := Bool.and_eq_true_iff.1 h
    obtain ⟨rfl, rfl, rfl, rfl⟩ := of_decide_eq_true same
    exact ⟨_, _, _, _, _, _, rfl, rfl⟩
  · cases h

/-- What may directly follow an event. -/
structure Event.Follows (newer older : Event) : Prop where
  /-- An error from which the run goes on is reported, or resolved by another search. -/
  error : ∀ t call e, older = .answered t call (.error e) →
    (∃ t' w, newer = .warned t' w ∧ w.Tells call e) ∨ newer.resolves call e = true
  /-- There is no warning without a cause. -/
  warning : ∀ t w, newer = .warned t w → w.About older
  removal : ∀ t call, older = .abandoned t call → call.stage = .removal →
    ∃ t' ns timeout, newer = .warned t' (.cleanupTimedOut ns timeout)

/-- What must be reported by the next event. -/
def Event.warrants : Event → Bool
  | answered _ call (.error e) => call.tolerates e
  | abandoned _ call => decide (call.stage = .removal)
  | _ => false

variable {σ α β : Type}

/-- The events of a part of a run, the last first, and how it ends. -/
structure Ledger (new : List Event) (ending : Ending α) : Prop where
  chain : new.IsChain Event.Follows
  opens : ∀ x ∈ new.getLast?, x.isWarning = false
  /-- Nothing is left to report but an error that is the result. -/
  closes : ∀ x ∈ new.head?, x.warrants = false ∧
    ∀ t call e, x = .answered t call (.error e) → ending = .error e

namespace Event.Follows

/-- Where neither event asks for more. -/
theorem plain {newer older : Event} (silent : newer.isWarning = false)
    (settled : ∀ t call e, older ≠ .answered t call (.error e)) (free : older.warrants = false) :
    Follows newer older where
  error t call e same := absurd same (settled t call e)
  warning t w same := by
    rw [same] at silent
    cases silent
  removal t call same removal := by
    rw [same] at free
    simp [warrants, removal] at free

/-- The start of a call asks for nothing. -/
theorem start {newer : Event} {t : Nat} {call : Call} (silent : newer.isWarning = false) :
    Follows newer (.asked t call) :=
  plain silent (fun _ _ _ same => by cases same) rfl

theorem told {t t' : Nat} {w : Warning} {call : Call} {e : Error} (tells : w.Tells call e) :
    Follows (.warned t' w) (.answered t call (.error e)) where
  error _ _ _ same := by
    cases same
    exact .inl ⟨t', w, rfl, tells⟩
  warning _ _ same := by
    cases same
    exact .told tells
  removal _ _ same := by cases same

end Event.Follows

namespace Ledger

variable {new old : List Event} {ending : Ending α} {ending' : Ending β}

theorem nil : Ledger [] ending where
  chain := .nil
  opens := by simp
  closes := by simp

/-- Another ending, where the first is no error. -/
theorem turn (h : Ledger new ending) (flawless : ∀ e, ending ≠ .error e) : Ledger new ending' where
  chain := h.chain
  opens := h.opens
  closes x last := ⟨(h.closes x last).1, fun t call e same =>
    absurd ((h.closes x last).2 t call e same) (flawless e)⟩

/-- The same error of a task with other values. -/
theorem error {e : Error} (h : Ledger new (.error e : Ending α)) :
    Ledger new (.error e : Ending β) where
  chain := h.chain
  opens := h.opens
  closes x last := by
    refine ⟨(h.closes x last).1, fun t call e' same => ?_⟩
    cases (h.closes x last).2 t call e' same
    rfl

/-- A task goes on after one that had a value. -/
theorem append {a : β} (first : Ledger old (.value a)) (second : Ledger new ending) :
    Ledger (new ++ old) ending where
  chain := by
    apply List.isChain_append.2
    refine ⟨second.chain, first.chain, fun newer next older last => ?_⟩
    apply Event.Follows.plain (second.opens newer next)
    · intro t call e same
      cases (first.closes older last).2 t call e same
    · exact (first.closes older last).1
  opens x first' := by
    cases old with
    | nil =>
      rw [List.append_nil] at first'
      exact second.opens x first'
    | cons y old =>
      rw [List.getLast?_append_of_ne_nil _ (List.cons_ne_nil y old)] at first'
      exact first.opens x first'
  closes x last := by
    cases new with
    | nil =>
      obtain ⟨free, settled⟩ := first.closes x last
      exact ⟨free, fun t call e same => by cases settled t call e same⟩
    | cons y new => exact second.closes x last

end Ledger

/-- Collaborators that give no warnings of their own when they are stopped. Only the program that runs
the suite on this machine does. -/
def Party.Mute (σ : Type) [Party σ] : Prop :=
  ∀ (p : σ) (call : Call), call.stage ≠ .suite → (Party.react p call).1.whenStopped = []

/-- Watched for ever, the task gives an account of the events that it adds, and `P` holds of them. -/
def Task.Accounts (P : List Event → Prop) (t : Task σ α) : Prop :=
  ∀ s, s.clock.horizon = none → ∃ new, (t s).2.events = new ++ s.events ∧ Ledger new (t s).1 ∧
    P new ∧ (t s).2.clock.horizon = none

namespace Task.Accounts

variable {P P' : List Event → Prop} {Q : Event → Prop} {t : Task σ α} {next : α → Task σ β}

theorem mono (ht : t.Accounts P) (h : ∀ new, P new → P' new) : t.Accounts P' := by
  intro s watched
  obtain ⟨new, events, account, holds, horizon⟩ := ht s watched
  exact ⟨new, events, account, h new holds, horizon⟩

/-- What adds nothing to the record. -/
theorem still (P : List Event → Prop) (none : P []) (quiet : ∀ s, (t s).2.events = s.events)
    (timeless : ∀ s, (t s).2.clock = s.clock) : t.Accounts P := by
  intro s watched
  refine ⟨[], quiet s, .nil, none, ?_⟩
  rw [timeless s]
  exact watched

theorem pure (a : α) : Accounts (σ := σ) (∀ x ∈ ·, Q x) (Pure.pure a) :=
  still _ (by simp) (fun _ => rfl) fun _ => rfl

theorem fail (e : Error) : Accounts (σ := σ) (α := α) (∀ x ∈ ·, Q x) (Task.fail e) :=
  still _ (by simp) (fun _ => rfl) fun _ => rfl

theorem ofExcept (r : Except Error α) : Accounts (σ := σ) (∀ x ∈ ·, Q x) (Task.ofExcept r) :=
  still _ (by simp) (fun _ => rfl) fun _ => rfl

theorem session : Accounts (σ := σ) (∀ x ∈ ·, Q x) Task.session :=
  still _ (by simp) (fun _ => rfl) fun _ => rfl

theorem drawBytes (n : Nat) (purpose : String) :
    Accounts (σ := σ) (∀ x ∈ ·, Q x) (Task.drawBytes n purpose) := by
  apply still _ (by simp) <;> intro s <;> unfold Task.drawBytes <;> split <;> rfl

theorem drawPassword : Accounts (σ := σ) (∀ x ∈ ·, Q x) Task.drawPassword := by
  apply still _ (by simp) <;> intro s <;> unfold Task.drawPassword <;> split <;> rfl

/-- One after the other; `P` has to hold of what both add, and of what the first adds alone. -/
theorem bind {R S : List Event → Prop} (ht : t.Accounts R) (hn : ∀ a, (next a).Accounts S)
    (stop : ∀ old, R old → P old) (join : ∀ old new, R old → S new → P (new ++ old)) :
    (t >>= next).Accounts P := by
  intro s watched
  obtain ⟨old, events, account, holds, horizon⟩ := ht s watched
  simp only [Bind.bind, Task.bind]
  revert events account horizon
  obtain ⟨ending, s₁⟩ := t s
  intro events account horizon
  cases ending with
  | value a =>
    obtain ⟨new, events', account', holds', horizon'⟩ := hn a s₁ horizon
    refine ⟨new ++ old, ?_, account.append account', join old new holds holds', horizon'⟩
    rw [events', events, List.append_assoc]
  | error e => exact ⟨old, events, account.error, stop old holds, horizon⟩
  | cancelled | expired | pending | crashed => exact ⟨old, events, account.turn (by simp), stop old holds, horizon⟩

theorem bind_all (ht : t.Accounts (∀ x ∈ ·, Q x)) (hn : ∀ a, (next a).Accounts (∀ x ∈ ·, Q x)) :
    (t >>= next).Accounts (∀ x ∈ ·, Q x) :=
  ht.bind hn (fun _ => id) fun _ _ older newer => List.forall_mem_append.2 ⟨newer, older⟩

theorem drawNames {stem : String} : Accounts (σ := σ) (∀ x ∈ ·, Q x) (Task.drawNames stem) :=
  (drawBytes _ _).bind_all fun _ => (drawBytes _ _).bind_all fun _ => session.bind_all fun _ => pure _

theorem withCancel {stage : String} {step : Guard → Task σ α} (none : P [])
    (hs : (step { cancellable := true }).Accounts P) : (Task.withCancel stage step).Accounts P := by
  intro s watched
  by_cases cancelled : s.clock.cancelled = true
  · rw [withCancel_barred cancelled]
    exact ⟨[], rfl, .nil, none, watched⟩
  · obtain ⟨new, events, account, holds, horizon⟩ := hs s watched
    unfold Task.withCancel
    rw [if_neg cancelled]
    revert events account horizon
    obtain ⟨ending, s₁⟩ := step { cancellable := true } s
    intro events account horizon
    cases ending with
    | cancelled => exact ⟨new, events, account.turn (by simp), holds, horizon⟩
    | value | error | expired | pending | crashed => exact ⟨new, events, account, holds, horizon⟩

end Task.Accounts

/-! ## Calls and waits -/

/-- Whether the stage comes before the removal of a remote run. -/
def Stage.isBetween : Stage → Bool
  | removal | suite => false
  | _ => true

theorem Stage.ne_removal {stage : Stage} (h : stage.isBetween = true) : stage ≠ .removal := by
  rintro rfl
  cases h

theorem Stage.ne_suite {stage : Stage} (h : stage.isBetween = true) : stage ≠ .suite := by
  rintro rfl
  cases h

namespace Ledger

variable {call : Call} {t t' t₀ : Nat}

theorem answered {answer : Except Error call.Answer}
    (free : ∀ e, answer = .error e → call.tolerates e = false) :
    Ledger [.answered t call answer, .asked t₀ call] (Ending.ofExcept answer) where
  chain := by
    apply List.isChain_pair.2
    exact .start rfl
  opens := by simp [Event.isWarning]
  closes x last := by
    cases last
    cases answer with
    | ok a => exact ⟨rfl, fun _ _ _ same => by cases same⟩
    | error e =>
      refine ⟨free e rfl, fun t call e' same => ?_⟩
      cases same
      rfl

theorem abandoned {ending : Ending α} (other : call.stage ≠ .removal) :
    Ledger [.abandoned t call, .asked t₀ call] ending where
  chain := by
    apply List.isChain_pair.2
    exact .start rfl
  opens := by simp [Event.isWarning]
  closes x last := by
    cases last
    exact ⟨decide_eq_false other, fun _ _ _ same => by cases same⟩

/-- Once a warning is given, nothing is left to report. -/
theorem told {w : Warning} {e : Error} {ending : Ending α} (tells : w.Tells call e) :
    Ledger [.warned t' w, .answered t call (.error e), .asked t₀ call] ending where
  chain := List.isChain_cons_cons.2 ⟨.told tells, List.isChain_pair.2 (.start rfl)⟩
  opens := by simp [Event.isWarning]
  closes x last := by
    cases last
    exact ⟨rfl, fun _ _ _ same => by cases same⟩

end Ledger

section Calls

variable [Party σ] (mute : Party.Mute σ) {P : List Event → Prop} {Q : Event → Prop}

include mute

/-- What a call adds to the record: its answer, or that it was given up. -/
theorem Task.ask_written (g : Guard) (call : Call) (remote : call.stage ≠ .suite) (s : Session σ) :
    (∃ answer t, (ask g call s).1 = .ofExcept answer ∧
      (ask g call s).2.events = .answered t call answer :: .asked s.clock.now call :: s.events) ∨
    ∃ t, (ask g call s).2.clock.now = t ∧ ¬ (ask g call s).1.Over ∧
      (ask g call s).2.events = .abandoned t call :: .asked s.clock.now call :: s.events := by
  have stopped := mute s.party call remote
  simp only [ask, stopped]
  cases (s.clock.await g (Party.react s.party call).1).1 with
  | value a => exact .inl ⟨.ok a, _, rfl, rfl⟩
  | error e => exact .inl ⟨.error e, _, rfl, rfl⟩
  | cancelled | expired | pending | crashed => exact .inr ⟨_, rfl, id, rfl⟩

/-- A call whose error ends the task. -/
theorem Task.Accounts.ask (g : Guard) {call : Call} (strict : ∀ e, call.tolerates e = false)
    (between : call.stage.isBetween = true)
    (answered : ∀ t t₀ answer, P [.answered t call answer, .asked t₀ call])
    (abandoned : ∀ t t₀, P [.abandoned t call, .asked t₀ call]) :
    (Task.ask (σ := σ) g call).Accounts P := by
  intro s watched
  have horizon : (Task.ask g call s).2.clock.horizon = none :=
    (Clock.await_horizon g _ s.clock).trans watched
  rcases Task.ask_written mute g call (Stage.ne_suite between) s with ⟨answer, t, ended, events⟩ | ⟨t, -, unended, events⟩
  · refine ⟨_, events, ?_, answered t s.clock.now answer, horizon⟩
    rw [ended]
    exact .answered fun e _ => strict e
  · exact ⟨_, events, .abandoned (Stage.ne_removal between), abandoned t s.clock.now, horizon⟩

theorem Task.Accounts.ask_all (g : Guard) {call : Call} (strict : ∀ e, call.tolerates e = false)
    (between : call.stage.isBetween = true)
    (hQ : ∀ x : Event, x.Concerns call → Q x) :
    (Task.ask (σ := σ) g call).Accounts (∀ x ∈ ·, Q x) :=
  .ask mute g strict between (fun t _ answer => Event.forall_concerns hQ (.answered t answer))
    fun t _ => Event.forall_concerns hQ (.abandoned t)

/-- A call whose error is reported. -/
theorem Observe.lookup_accounts (g : Guard) {call : Call} (value? : call.Answer → Option α)
    {warning : Error → Warning} (tells : ∀ e, (warning e).Tells call e)
    (between : call.stage.isBetween = true)
    (answered : ∀ t t₀ a, P [.answered t call (.ok a), .asked t₀ call])
    (failed : ∀ t' t t₀ e, P [.warned t' (warning e), .answered t call (.error e), .asked t₀ call])
    (abandoned : ∀ t t₀, P [.abandoned t call, .asked t₀ call]) :
    ((lookup (σ := σ) call value? warning).run g).Accounts P := by
  intro s watched
  have horizon : (Task.ask g call s).2.clock.horizon = none :=
    (Clock.await_horizon g _ s.clock).trans watched
  have written := Task.ask_written mute g call (Stage.ne_suite between) s
  simp only [lookup, Bind.bind, Task.bind, Task.isolate]
  revert horizon written
  obtain ⟨ending, s₁⟩ := Task.ask g call s
  rintro horizon (⟨answer, t, rfl, events⟩ | ⟨t, -, unended, events⟩)
  · cases answer with
    | ok a =>
      have account : Ledger [.answered t call (.ok a), .asked s.clock.now call]
          (Ending.ofExcept (.ok a)) := .answered fun e same => by cases same
      exact ⟨[.answered t call (.ok a), .asked s.clock.now call], events,
        account.turn (fun e same => by cases same), answered .., horizon⟩
    | error e =>
      exact ⟨[.warned s₁.clock.now (warning e), .answered t call (.error e),
        .asked s.clock.now call], congrArg (List.cons _) events, .told (tells e), failed .., horizon⟩
  · cases ending with
    | value | error => exact absurd trivial unended
    | cancelled | expired | pending | crashed =>
      exact ⟨_, events, .abandoned (Stage.ne_removal between), abandoned .., horizon⟩

theorem Observe.lookup_all (g : Guard) {call : Call} (value? : call.Answer → Option α)
    {warning : Error → Warning} (tells : ∀ e, (warning e).Tells call e)
    (between : call.stage.isBetween = true)
    (hQ : ∀ x : Event, x.Concerns call → Q x) (hW : ∀ t e, Q (.warned t (warning e))) :
    ((lookup (σ := σ) call value? warning).run g).Accounts (∀ x ∈ ·, Q x) :=
  lookup_accounts mute g value? tells between
    (fun t _ a => Event.forall_concerns hQ (.answered t (.ok a)))
    (fun _ t _ e => List.forall_mem_cons.2 ⟨hW _ e, Event.forall_concerns hQ (.answered t (.error e))⟩)
    fun t _ => Event.forall_concerns hQ (.abandoned t)

end Calls

namespace Wait

variable {Q : Event → Prop} {w : Wait} {deadline : Nat} {check : Check σ α}
  (hc : ∀ g, (check.run g).Accounts (∀ x ∈ ·, Q x))

include hc

/-- A round adds what its check does. -/
theorem round_accounts {s s' : Session σ} {o : Option (Ending α)}
    (watched : s.clock.horizon = none) (made : w.round deadline check s = (o, s')) :
    ∃ new, s'.events = new ++ s.events ∧ (o = none → Ledger new (Ending.value ())) ∧
      (∀ ending, o = some ending → Ledger new ending) ∧ (∀ x ∈ new, Q x) ∧
      s'.clock.horizon = none := by
  by_cases cancelled : s.clock.cancelled = true
  · unfold round at made
    rw [if_pos cancelled] at made
    cases made
    exact ⟨[], rfl, fun _ => .nil, fun _ _ => .nil, by simp, watched⟩
  · obtain ⟨new, events, account, on, horizon⟩ := hc ⟨true, some deadline⟩ s watched
    rw [round_eq cancelled] at made
    revert made events account horizon
    obtain ⟨ending, s₁⟩ := check.run ⟨true, some deadline⟩ s
    intro made events account horizon
    cases ending with
    | value found =>
      have goesOn : Ledger new (Ending.value ()) := account.turn (by simp)
      have ends : ∀ ending : Ending α, Ledger new ending := fun _ => account.turn (by simp)
      cases found with
      | some a =>
        cases made
        exact ⟨new, events, fun _ => goesOn, fun ending _ => ends ending, on, horizon⟩
      | none =>
        obtain ⟨quiet, onward, _⟩ := rest_quiet made
        exact ⟨new, quiet.trans events, fun _ => goesOn, fun ending _ => ends ending, on,
          (onward fun _ => True).horizon.trans horizon⟩
    | error e =>
      cases made
      exact ⟨new, events, nofun, fun _ same => by cases same; exact account.error, on, horizon⟩
    | cancelled | expired | pending | crashed =>
      cases made
      exact ⟨new, events, nofun, fun _ _ => account.turn (by simp), on, horizon⟩

theorem poll_accounts (w : Wait) : (w.poll check).Accounts (∀ x ∈ ·, Q x) := by
  intro s watched
  apply Wait.poll_induction
    (I := fun s' => ∃ new, s'.events = new ++ s.events ∧ Ledger new (Ending.value ()) ∧
      (∀ x ∈ new, Q x) ∧ s'.clock.horizon = none)
    (P := fun ending s' => ∃ new, s'.events = new ++ s.events ∧ Ledger new ending ∧
      (∀ x ∈ new, Q x) ∧ s'.clock.horizon = none)
  · rintro s₁ s₂ ⟨old, events, account, on, horizon⟩ made
    obtain ⟨new, events', goesOn, _, on', horizon'⟩ := round_accounts hc horizon made
    refine ⟨new ++ old, ?_, account.append (goesOn rfl), List.forall_mem_append.2 ⟨on', on⟩, horizon'⟩
    rw [events', events, List.append_assoc]
  · rintro s₁ ending s₂ ⟨old, events, account, on, horizon⟩ made
    obtain ⟨new, events', _, ends, on', horizon'⟩ := round_accounts hc horizon made
    refine ⟨new ++ old, ?_, account.append (ends _ rfl), List.forall_mem_append.2 ⟨on', on⟩, horizon'⟩
    rw [events', events, List.append_assoc]
  · exact fun _ => ⟨[], rfl, .nil, by simp, watched⟩
  · exact ⟨[], rfl, .nil, by simp, watched⟩

end Wait

/-! ## The search for the test user -/

/-- Whether the call searches for the test user. -/
def Call.isSearch : Call → Bool
  | findUser .. => true
  | _ => false

/-- Whether a search for the test user ended with an error. -/
def Event.search? : Event → Option Bool
  | answered _ call answer => if call.isSearch then some (!answer.isOk) else none
  | abandoned _ call => if call.isSearch then some false else none
  | _ => none

/-- The first search for the test user was answered with an error. -/
def searchFailed (record : List Event) : Bool :=
  (record.filterMap Event.search?).getLast? == some true

def Event.isSearchWarning : Event → Bool
  | warned _ (.userSearchFailed ..) => true
  | _ => false

/-- Of the searches only the first one is reported, if it failed. -/
def Searched (record : List Event) : Prop :=
  record.countP Event.isSearchWarning = (searchFailed record).toNat

/-- What has nothing to do with a search. -/
def Event.Unsearching (x : Event) : Prop := x.search? = none ∧ x.isSearchWarning = false

namespace Searched

variable {new old : List Event}

theorem unsearching (h : ∀ x ∈ new, x.Unsearching) : Searched new := by
  have searches : new.filterMap Event.search? = [] :=
    List.filterMap_eq_nil_iff.2 fun x hx => (h x hx).1
  have warnings : new.countP Event.isSearchWarning = 0 :=
    List.countP_eq_zero.2 fun x hx => by simp [(h x hx).2]
  simp [Searched, searchFailed, searches, warnings]

/-- Before the first search. -/
theorem after (h : Searched new) (before : ∀ x ∈ old, x.Unsearching) : Searched (new ++ old) := by
  have searches : old.filterMap Event.search? = [] :=
    List.filterMap_eq_nil_iff.2 fun x hx => (before x hx).1
  have warnings : old.countP Event.isSearchWarning = 0 :=
    List.countP_eq_zero.2 fun x hx => by simp [(before x hx).2]
  simpa [Searched, searchFailed, List.countP_append, List.filterMap_append, searches, warnings] using h

/-- After the last search. -/
theorem onward (h : Searched old) (later : ∀ x ∈ new, x.Unsearching) : Searched (new ++ old) := by
  have searches : new.filterMap Event.search? = [] :=
    List.filterMap_eq_nil_iff.2 fun x hx => (later x hx).1
  have warnings : new.countP Event.isSearchWarning = 0 :=
    List.countP_eq_zero.2 fun x hx => by simp [(later x hx).2]
  simpa [Searched, searchFailed, List.countP_append, List.filterMap_append, searches, warnings] using h

/-- After the first search, whether or not there is another one. -/
theorem before (h : Searched old) (some : old.filterMap Event.search? ≠ [])
    (quiet : ∀ x ∈ new, x.isSearchWarning = false) : Searched (new ++ old) := by
  have warnings : new.countP Event.isSearchWarning = 0 :=
    List.countP_eq_zero.2 fun x hx => by simp [quiet x hx]
  simp only [Searched, searchFailed, List.countP_append, List.filterMap_append, warnings,
    List.getLast?_append_of_ne_nil _ some, Nat.zero_add]
  exact h

end Searched

namespace Provision

variable [Party σ] (mute : Party.Mute σ) {r : IdentityRequest} {g : Guard} {token password : String}

theorem perform_upsertUser : (upsertUser r token password).perform (σ := σ) g =
    (Observe.lookup (findUser r token) id (.userSearchFailed r.username)).run g >>= fun
      | some user => (resetPassword r token password user).perform g
      | none => (createUser r token password).perform g := by
  rw [upsertUser, Procedure.perform_ask]
  simp only [Observe.lookup, Task.bind_assoc]
  refine congrArg (Bind.bind _) (funext fun answer => ?_)
  rcases answer with e | _ | user <;> rfl

include mute

theorem resetPassword_accounts (user : String) :
    ((resetPassword r token password user).perform (σ := σ) g).Accounts
      (∀ x ∈ ·, x.stage = .identity ∧ x.Unsearching) := by
  rw [resetPassword, Procedure.perform_call]
  apply Task.Accounts.ask_all mute g (fun _ => rfl) rfl
  intro x concerns
  cases concerns <;> exact ⟨rfl, rfl, rfl⟩

/-- The second search is recorded first. -/
theorem resetExisting_accounts :
    ((resetExisting r token password).perform (σ := σ) g).Accounts fun new =>
      (∀ x ∈ new, x.stage = .identity ∧ x.isSearchWarning = false) ∧
      ∃ t old, new = old ++ [.asked t (findUser r token)] := by
  rw [resetExisting, Procedure.perform_bind, Procedure.perform_call]
  have again : (Task.ask (σ := σ) g (findUser r token)).Accounts fun new =>
      (∀ x ∈ new, x.stage = .identity ∧ x.isSearchWarning = false) ∧
      ∃ t old, new = old ++ [.asked t (findUser r token)] := by
    have quiet : ∀ x : Event, x.Concerns (findUser r token) →
        x.stage = .identity ∧ x.isSearchWarning = false := by
      intro x concerns
      cases concerns <;> exact ⟨rfl, rfl⟩
    apply Task.Accounts.ask mute g (fun _ => rfl) rfl
    · exact fun t t₀ answer => ⟨Event.forall_concerns quiet (.answered t answer), t₀, [_], rfl⟩
    · exact fun t t₀ => ⟨Event.forall_concerns quiet (.abandoned t), t₀, [_], rfl⟩
  refine again.bind (S := (∀ x ∈ ·, x.stage = .identity ∧ x.isSearchWarning = false))
    (fun found => ?_) (fun _ => id) ?_
  · cases found with
    | some user =>
      exact (resetPassword_accounts mute user).mono fun new on x hx => ⟨(on x hx).1, (on x hx).2.2⟩
    | none => exact .ofExcept _
  · rintro old new ⟨on, t, earlier, rfl⟩ on'
    refine ⟨List.forall_mem_append.2 ⟨on', on⟩, t, new ++ earlier, ?_⟩
    rw [List.append_assoc]

end Provision

/-- A user who exists already is looked up again. -/
theorem Ledger.resolved {r : IdentityRequest} {later : List Event} {ending : Ending α}
    {token password : String} {t t' t₀ : Nat} {e : Error} (conflict : e.isConflict = true)
    (h : Ledger (later ++ [.asked t (Provision.findUser r token)]) ending) :
    Ledger (later ++ [.asked t (Provision.findUser r token)] ++
      [.answered t' (.createUser r.providerUrl token r.realm r.username password) (.error e),
        .asked t₀ (.createUser r.providerUrl token r.realm r.username password)]) ending where
  chain := by
    apply List.isChain_append.2
    refine ⟨h.chain, List.isChain_pair.2 (.start rfl), fun newer next older last => ?_⟩
    rw [List.getLast?_concat] at next
    cases next
    cases last
    constructor
    · intro t call e' same
      cases same
      exact .inr (by simp [Event.resolves, Provision.findUser, conflict])
    · intro _ _ same
      cases same
    · intro _ _ same
      cases same
  opens := by simp [Event.isWarning]
  closes x last := by
    apply h.closes x
    rwa [List.head?_append_of_ne_nil _ (by simp)] at last

namespace Provision

variable [Party σ] (mute : Party.Mute σ) {r : IdentityRequest} {g : Guard} {token password : String}

include mute

/-- A conflict is resolved by another search. -/
theorem createUser_accounts :
    ((createUser r token password).perform (σ := σ) g).Accounts
      (∀ x ∈ ·, x.stage = .identity ∧ x.isSearchWarning = false) := by
  intro s watched
  let call : Call := .createUser r.providerUrl token r.realm r.username password
  have quiet : ∀ x : Event, x.Concerns call → x.stage = .identity ∧ x.isSearchWarning = false := by
    intro x concerns
    cases concerns <;> exact ⟨rfl, rfl⟩
  have horizon : (Task.ask g call s).2.clock.horizon = none :=
    (Clock.await_horizon g _ s.clock).trans watched
  have written := Task.ask_written mute g call (Stage.ne_suite rfl) s
  generalize asked : Task.ask g call s = made at horizon written
  obtain ⟨ending, s₁⟩ := made
  rcases written with ⟨answer, t, rfl, events⟩ | ⟨t, -, unended, events⟩
  · have on := Event.forall_concerns (t := s.clock.now) quiet (.answered t answer)
    have account : Ledger [.answered t call answer, .asked s.clock.now call]
        (Ending.ofExcept answer) := .answered fun _ _ => rfl
    rw [createUser, Procedure.perform_ask_of_answered _ asked]
    cases answer with
    | ok a =>
      exact ⟨[.answered t call (.ok a), .asked s.clock.now call], events, account, on, horizon⟩
    | error e =>
      by_cases conflict : e.isConflict = true
      · have again : ((resetExisting r token password).perform (σ := σ) g).Accounts _ :=
          resetExisting_accounts mute
        obtain ⟨new, events', account', ⟨on', t', later, rfl⟩, horizon'⟩ := again s₁ horizon
        dsimp only
        rw [if_pos conflict]
        refine ⟨_, ?_, account'.resolved conflict, List.forall_mem_append.2 ⟨on', on⟩, horizon'⟩
        rw [List.append_assoc]
        exact events'.trans (congrArg _ events)
      · dsimp only
        rw [if_neg conflict]
        exact ⟨[.answered t call (.error e), .asked s.clock.now call], events, account, on, horizon⟩
  · have on := Event.forall_concerns (t := s.clock.now) quiet (.abandoned t)
    rw [createUser]
    refine ⟨[.abandoned t call, .asked s.clock.now call], ?_, .abandoned (Stage.ne_removal rfl), on, ?_⟩
    · rw [(Procedure.perform_ask_of_cut _ asked unended).2]
      exact events
    · rw [(Procedure.perform_ask_of_cut _ asked unended).2]
      exact horizon

end Provision

/-! ## The preparation of a run -/

/-- What happens before the first resource of a run is made, apart from the search. -/
def Event.Aside (x : Event) : Prop := (x.stage = .lookup ∨ x.stage = .identity) ∧ x.Unsearching

/-- The record of a part of the preparation. -/
structure Preparing (record : List Event) : Prop where
  early : ∀ x ∈ record, x.stage = .lookup ∨ x.stage = .identity
  searched : Searched record

namespace Preparing

variable {t : Task σ α} {next : α → Task σ β} {new : List Event}

theorem aside (h : ∀ x ∈ new, x.Aside) : Preparing new where
  early x hx := (h x hx).1
  searched := .unsearching fun x hx => (h x hx).2

theorem bind_before (ht : t.Accounts (∀ x ∈ ·, x.Aside)) (hn : ∀ a, (next a).Accounts Preparing) :
    (t >>= next).Accounts Preparing := by
  apply ht.bind hn
  · exact fun old => aside
  · intro old new on prepares
    exact ⟨List.forall_mem_append.2 ⟨prepares.early, fun x hx => (on x hx).1⟩,
      prepares.searched.after fun x hx => (on x hx).2⟩

theorem bind_after (ht : t.Accounts Preparing) (hn : ∀ a, (next a).Accounts (∀ x ∈ ·, x.Aside)) :
    (t >>= next).Accounts Preparing := by
  apply ht.bind hn
  · exact fun old => id
  · intro old new prepares on
    exact ⟨List.forall_mem_append.2 ⟨fun x hx => (on x hx).1, prepares.early⟩,
      prepares.searched.onward fun x hx => (on x hx).2⟩

end Preparing

variable [Party σ] (mute : Party.Mute σ)

include mute

/-- A call of the preparation that is no search. -/
theorem Procedure.call_accounts (g : Guard) {call : Call} (identity : call.stage = .identity)
    (other : call.isSearch = false) :
    ((Procedure.call call).perform (σ := σ) g).Accounts (∀ x ∈ ·, x.Aside) := by
  rw [Procedure.perform_call]
  apply Task.Accounts.ask_all mute g
  · cases call <;> first | exact fun _ => rfl | cases identity
  · rw [identity]
    rfl
  · intro x concerns
    cases concerns with
    | asked => exact ⟨.inr identity, rfl, rfl⟩
    | answered | abandoned => exact ⟨.inr identity, by simp [Event.search?, other], rfl⟩

namespace Provision

variable {r : IdentityRequest} {g : Guard} {token password : String}

theorem upsertUser_accounts :
    ((upsertUser r token password).perform (σ := σ) g).Accounts Preparing := by
  have search : ((Observe.lookup (σ := σ) (findUser r token) id
      (.userSearchFailed r.username)).run g).Accounts fun new =>
        Preparing new ∧ new.filterMap Event.search? ≠ [] := by
    have quiet : ∀ x : Event, x.Concerns (findUser r token) →
        x.stage = .lookup ∨ x.stage = .identity := by
      intro x concerns
      cases concerns <;> exact .inr rfl
    have tells : ∀ e, (Warning.userSearchFailed r.username e).Tells (findUser r token) e :=
      fun e => ⟨rfl, rfl⟩
    apply Observe.lookup_accounts mute g id tells rfl
    · exact fun t t₀ a => ⟨⟨Event.forall_concerns quiet (.answered t (.ok a)), rfl⟩, nofun⟩
    · exact fun t' t t₀ e => ⟨⟨List.forall_mem_cons.2
        ⟨.inr rfl, Event.forall_concerns quiet (.answered t (.error e))⟩, rfl⟩, nofun⟩
    · exact fun t t₀ => ⟨⟨Event.forall_concerns quiet (.abandoned t), rfl⟩, nofun⟩
  rw [perform_upsertUser]
  apply search.bind (S := (∀ x ∈ ·, x.stage = .identity ∧ x.isSearchWarning = false))
  · intro found
    cases found with
    | some user =>
      exact (resetPassword_accounts mute user).mono fun new on x hx => ⟨(on x hx).1, (on x hx).2.2⟩
    | none => exact createUser_accounts mute
  · exact fun old searched => searched.1
  · rintro old new ⟨prepares, some⟩ on
    exact ⟨List.forall_mem_append.2 ⟨fun x hx => .inr (on x hx).1, prepares.early⟩,
      prepares.searched.before some fun x hx => (on x hx).2⟩

theorem ensure_accounts : ((ensure r).perform (σ := σ) g).Accounts Preparing := by
  have created : ((create r).perform (σ := σ) g).Accounts Preparing := by
    rw [create, Procedure.perform_bind, readCredentials, Procedure.perform_bind]
    apply Preparing.bind_before
    · exact (Procedure.call_accounts mute g rfl rfl).bind_all fun data => .ofExcept _
    intro admin
    rw [Procedure.perform_bind]
    apply Preparing.bind_before (Procedure.call_accounts mute g rfl rfl)
    intro token
    rw [Procedure.perform_bind]
    apply Preparing.bind_before
    · exact .bind_all (.drawPassword) fun p => .ofExcept _
    intro password
    rw [Procedure.perform_bind]
    exact Preparing.bind_after (upsertUser_accounts mute) fun _ =>
      Procedure.call_accounts mute g rfl rfl
  rw [ensure, Procedure.perform_bind]
  apply Preparing.bind_before (Procedure.call_accounts mute g rfl rfl)
  intro found
  cases found with
  | true => exact (Task.Accounts.ofExcept _).mono fun new => Preparing.aside
  | false =>
    change ((create r >>= fun _ => pure true).perform g).Accounts Preparing
    rw [Procedure.perform_bind]
    exact Preparing.bind_after created fun _ => .ofExcept _

end Provision

namespace Run

theorem loadSite_accounts (source : SiteSource) (g : Guard) :
    (loadSite (σ := σ) source g).Accounts (∀ x ∈ ·, x.Aside) := by
  cases source with
  | cluster site =>
    have asked : (Task.ask (σ := σ) g (.getSite site)).Accounts (∀ x ∈ ·, x.Aside) := by
      apply Task.Accounts.ask_all mute g (fun _ => rfl) rfl
      intro x concerns
      cases concerns <;> exact ⟨.inl rfl, rfl, rfl⟩
    exact asked.bind_all fun object => .ofExcept _
  | file path => exact .bind_all .session fun s => .ofExcept _

theorem prepare_accounts (settings : RunSettings) (image : String) :
    (prepare (σ := σ) settings image).Accounts Preparing := by
  rw [prepare]
  apply Preparing.bind_before (.withCancel (by simp) (loadSite_accounts mute _ _))
  intro site
  apply Preparing.bind_before (.ofExcept _)
  intro request
  by_cases blank : (Text.trimmed image).isEmpty = true
  · rw [if_pos blank]
    exact (Task.Accounts.fail _).mono fun new => Preparing.aside
  · rw [if_neg blank]
    apply Preparing.bind_before .drawNames
    intro names
    apply Preparing.bind_after _ fun _ => .pure _
    cases request with
    | none => exact (Task.Accounts.pure _).mono fun new => Preparing.aside
    | some request =>
      have ensured := Provision.ensure_accounts (r := request) (g := { cancellable := true }) mute
      exact Preparing.bind_after (.withCancel (.aside (by simp)) ensured) fun _ => .pure _

end Run

end Acceptance
