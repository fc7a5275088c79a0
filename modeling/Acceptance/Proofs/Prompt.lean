import Acceptance.Proofs.Record
import Acceptance.Proofs.Run

/-!
# Parts of a run that end as soon as the run is cancelled

A run is cancelled from outside, at a time that its clock knows, or by a call of its own, at the
time when that call starts.

* `Session.CancelledAt`: when a run that makes these calls is cancelled;
* `Session.Prompt`: what a part of a run leaves in which no time passes once the run is cancelled,
  and in which no calls start then but those of the provisioning that is under way;
* `Run.prepare_prompt`, `Run.runRemote_prompt`: all of a remote run before the removal is such a
  part.
-/

namespace Acceptance

variable {σ α β : Type}

/-- A call that starts, with its time. -/
def Event.asked? : Event → Option (Nat × Call)
  | .asked t call => some (t, call)
  | _ => none

/-- The calls that were started so far with their times, the first one first. -/
def Session.asked (s : Session σ) : List (Nat × Call) :=
  (s.events.filterMap Event.asked?).reverse

theorem Session.Fresh.asked {s : Session σ} (h : s.Fresh) : s.asked = [] := by
  simp [Session.asked, h.events]

namespace Party

variable [Party σ]

/-- The collaborators after these calls. -/
def after (p : σ) (calls : List Call) : σ := calls.foldl (fun p call => (react p call).2) p

/-- The time of the first of the calls that cancels the run. -/
def cancels? (p : σ) : List (Nat × Call) → Option Nat
  | [] => none
  | (t, call) :: rest =>
    if (react p call).1.cancels then some t else cancels? (react p call).2 rest

/-- Once the run is cancelled, also by one of the calls themselves, only calls about the test
identity start. -/
def Hushed (p : σ) (cancelled : Bool) : List Call → Prop
  | [] => True
  | call :: rest => (cancelled = true → call.stage = .identity) ∧
      Hushed (react p call).2 (cancelled || (react p call).1.cancels) rest

theorem after_append (p : σ) (l l' : List Call) : after p (l ++ l') = after (after p l) l' :=
  List.foldl_append

theorem cancels?_append (p : σ) (l l' : List (Nat × Call)) :
    cancels? p (l ++ l') = (cancels? p l).or (cancels? (after p (l.map Prod.snd)) l') := by
  induction l generalizing p with
  | nil => rfl
  | cons x l ih =>
    simp only [List.cons_append, cancels?]
    split
    · rfl
    · rw [ih]
      rfl

/-- The first call that cancels the run is one of the calls. -/
theorem mem_of_cancels? {p : σ} {l : List (Nat × Call)} {t : Nat} (h : cancels? p l = some t) :
    ∃ call, (t, call) ∈ l := by
  induction l generalizing p with
  | nil => cases h
  | cons x l ih =>
    simp only [cancels?] at h
    split at h
    · cases h
      exact ⟨x.2, List.mem_cons_self⟩
    · obtain ⟨call, hc⟩ := ih h
      exact ⟨call, List.mem_cons_of_mem _ hc⟩

theorem Hushed.weaken {p : σ} {cancelled : Bool} {l : List Call} (h : Hushed p true l) :
    Hushed p cancelled l := by
  cases cancelled with
  | true => exact h
  | false =>
    induction l generalizing p with
    | nil => trivial
    | cons call l ih =>
      refine ⟨nofun, ?_⟩
      cases hc : (react p call).1.cancels with
      | true => simpa [hc] using h.2
      | false => simpa [hc] using ih h.2

theorem Hushed.append {p : σ} {cancelled cancelled' : Bool} {l : List (Nat × Call)}
    {l' : List Call} (h : Hushed p cancelled (l.map Prod.snd))
    (h' : Hushed (after p (l.map Prod.snd)) cancelled' l')
    (live : cancelled' = false → cancelled = false ∧ cancels? p l = none) :
    Hushed p cancelled (l.map Prod.snd ++ l') := by
  induction l generalizing p cancelled with
  | nil =>
    cases cancelled' with
    | true => exact h'.weaken
    | false =>
      obtain ⟨rfl, _⟩ := live rfl
      exact h'
  | cons x l ih =>
    refine ⟨h.1, ih h.2 h' fun onward => ?_⟩
    obtain ⟨rfl, uncancelled⟩ := live onward
    simp only [cancels?] at uncancelled
    split at uncancelled
    · cases uncancelled
    · rename_i silent
      exact ⟨by simpa using silent, uncancelled⟩

end Party

/-- The run that goes on from `s` with these calls is cancelled at `t`: from outside or by one of the
calls, whichever comes first. -/
structure Session.CancelledAt [Party σ] (s : Session σ) (asked : List (Nat × Call)) (t : Nat) :
    Prop where
  cause : s.clock.cancelTime = some t ∨ Party.cancels? s.party asked = some t
  outside : ∀ u, s.clock.cancelTime = some u → t ≤ u
  inside : ∀ u, Party.cancels? s.party asked = some u → t ≤ u

/-! ## What waiting does to the clock -/

namespace Clock

variable {g : Guard} {r : Reaction α} {c c' : Clock}

/-- As long as a clock is not cancelled, it will be at the same time. -/
theorem cancelTime_eq (now_le : c.now ≤ c'.now) (cancelAt : c'.cancelAt = c.cancelAt)
    (live : c.cancelled = false) (live' : c'.cancelled = false)
    (early : ∀ t, c.cancelTime = some t → c'.now ≤ t) : c'.cancelTime = c.cancelTime := by
  unfold cancelTime at *
  simp only [live, live', cancelAt, Bool.false_eq_true, if_false] at *
  cases at? : c.cancelAt with
  | none => rfl
  | some u =>
    have := early (max c.now u) (by rw [at?]; rfl)
    simp only [Option.map_some, Option.some.injEq]
    omega

/-- What a wait does that can be cancelled. -/
structure Waited (r : Reaction α) (c c' : Clock) : Prop where
  cancelAt : c'.cancelAt = c.cancelAt
  live : c'.cancelled = false →
    c.cancelled = false ∧ r.cancels = false ∧ ∀ t, c.cancelTime = some t → c'.now ≤ t
  /-- Either it was cancelled at its start, or it ends as soon as it is. -/
  stopped : c'.cancelled = true →
    ((c.cancelled = true ∨ r.cancels = true) ∧ c'.now = c.now) ∨
      (c.cancelled = false ∧ r.cancels = false ∧ c.cancelTime = some c'.now)

@[simp]
theorem started_cancelAt : (c.started r).cancelAt = c.cancelAt := by unfold started; split <;> rfl

theorem live_of_started (h : (c.started r).cancelled = false) :
    c.cancelled = false ∧ r.cancels = false ∧ c.started r = c := by
  unfold started at h ⊢
  split at h
  · cases h
  · rename_i silent
    exact ⟨h, by simpa using silent, if_neg silent⟩

theorem stopped_of_started (h : (c.started r).cancelled = true) :
    c.cancelled = true ∨ r.cancels = true := by
  unfold started at h
  split at h
  · exact .inr ‹_›
  · exact .inl h

/-- A wait that leaves the clock where it is. -/
theorem Waited.still (r : Reaction α) (c : Clock) : Waited r c (c.started r) where
  cancelAt := started_cancelAt
  live := by
    intro live
    obtain ⟨live, silent, same⟩ := live_of_started live
    rw [same]
    exact ⟨live, silent, fun t => now_le_cancelTime⟩
  stopped := fun stopped => .inl ⟨stopped_of_started stopped, started_now⟩

/-- A wait that something else ends at `t`, before it can be cancelled. -/
theorem Waited.moved {t : Nat} (now_le : c.now ≤ t)
    (early : ∀ u, (c.started r).cancelTime = some u → t ≤ u) :
    Waited r c ((c.started r).moveTo t) := by
  have now : ((c.started r).moveTo t).now = t := by
    simp only [moveTo, started_now]
    omega
  refine ⟨started_cancelAt, ?_, ?_⟩ <;> rw [now]
  · intro live
    obtain ⟨live, _⟩ := Bool.or_eq_false_iff.1 live
    obtain ⟨live, silent, same⟩ := live_of_started live
    rw [same] at early
    exact ⟨live, silent, early⟩
  · intro stopped
    cases already : (c.started r).cancelled with
    | true =>
      have := early _ (cancelTime_of_cancelled already)
      rw [started_now] at this
      exact .inl ⟨stopped_of_started already, by omega⟩
    | false =>
      -- The cancellation from outside was already due, and so happens at once.
      obtain ⟨live, silent, same⟩ := live_of_started already
      rw [same] at early
      have past : c.cancelAt.any (· < t) = true := by simpa [moveTo, same, live] using stopped
      cases at? : c.cancelAt with
      | none => simp [at?] at past
      | some u =>
        have due : u < t := by simpa [at?] using past
        have time : c.cancelTime = some (max c.now u) := by simp [cancelTime, live, at?]
        have inTime := early _ time
        refine .inr ⟨live, silent, time.trans ?_⟩
        congr 1
        omega

/-- A wait that cancellation cuts short. -/
theorem Waited.cut {t : Nat} (time : (c.started r).cancelTime = some t) :
    Waited r c { (c.started r).moveTo t with cancelled := true } := by
  have now_le := now_le_cancelTime time
  have now : ((c.started r).moveTo t).now = t := by
    simp only [moveTo, started_now] at now_le ⊢
    omega
  refine ⟨started_cancelAt, ?_, fun _ => ?_⟩
  · intro live
    cases live
  · show _ ∧ ((c.started r).moveTo t).now = c.now ∨ _ ∧ _ ∧ c.cancelTime = some _
    rw [now]
    cases already : (c.started r).cancelled with
    | true =>
      rw [cancelTime_of_cancelled already, started_now] at time
      cases time
      exact .inl ⟨stopped_of_started already, rfl⟩
    | false =>
      obtain ⟨live, silent, same⟩ := live_of_started already
      rw [same] at time
      exact .inr ⟨live, silent, time⟩

/-- No time passes in a wait that can be cancelled once it is. -/
theorem await_waited (cancellable : g.cancellable = true) : Waited r c (await g r c).2 := by
  rw [await_eq]
  split
  · exact .still r c
  · split
    · exact .still r c
    · rename_i t found
      rcases due_cases found with ⟨_, _, same⟩ | ⟨_, _, same⟩ | ⟨_, _, time, same⟩ | ⟨_, _, same⟩
      · exact absurd (congrArg Due.ending same).symm ofExcept_ne_cancelled
      · cases same
      · cases same
        exact .cut time
      · cases same
    · rename_i t ending _ found
      have early : ∀ u, (c.started r).cancelTime = some u → t ≤ u := by
        intro u time
        obtain ⟨x, found', inTime⟩ := due_by_cancelTime (r := r) cancellable time
        cases found.symm.trans found'
        exact inTime
      refine .moved ?_ early
      rcases due_cases found with ⟨d, _, same⟩ | ⟨u, _, same⟩ | ⟨_, u, time, same⟩ | ⟨u, _, same⟩
      · cases same
        rw [started_now]
        omega
      · cases same
        rw [started_now]
        omega
      · cases same
        have := now_le_cancelTime time
        rwa [started_now] at this
      · cases same
        rw [started_now]
        omega

end Clock

variable [Party σ]

/-- What came of a session `s` with these calls, in a part of a run in which no time passes once the
run is cancelled. -/
structure Session.Prompt (s s' : Session σ) (new : List (Nat × Call)) : Prop where
  asked : s'.asked = s.asked ++ new
  party : s'.party = Party.after s.party (new.map Prod.snd)
  times : ∀ x ∈ new, s.clock.now ≤ x.1 ∧ x.1 ≤ s'.clock.now
  now_le : s.clock.now ≤ s'.clock.now
  cancelAt : s'.clock.cancelAt = s.clock.cancelAt
  live : s'.clock.cancelled = false → s.clock.cancelled = false ∧
    Party.cancels? s.party new = none ∧ ∀ t, s.clock.cancelTime = some t → s'.clock.now ≤ t
  stopped : s'.clock.cancelled = true → s.CancelledAt new s'.clock.now
  hushed : Party.Hushed s.party s.clock.cancelled (new.map Prod.snd)

namespace Session.Prompt

variable {s s₁ s' : Session σ} {new new' : List (Nat × Call)}

/-- A change that neither the clock nor the calls show. -/
theorem still (asked : s'.asked = s.asked) (party : s'.party = s.party)
    (clock : s'.clock = s.clock) : Prompt s s' [] where
  asked := asked.trans (List.append_nil _).symm
  party := party
  times := nofun
  now_le := Nat.le_of_eq (by rw [clock])
  cancelAt := by rw [clock]
  live := by
    rw [clock]
    exact fun live => ⟨live, rfl, fun t => Clock.now_le_cancelTime⟩
  stopped := by
    rw [clock]
    intro cancelled
    have time := Clock.cancelTime_of_cancelled cancelled
    refine ⟨.inl time, fun u time' => ?_, nofun⟩
    cases time.symm.trans time'
    exact Nat.le_refl _
  hushed := trivial

theorem refl (s : Session σ) : Prompt s s [] := still rfl rfl rfl

/-- Once the run is cancelled, the clock stands still. -/
theorem now_eq (h : Prompt s s' new) (cancelled : s.clock.cancelled = true) :
    s'.clock.cancelled = true ∧ s'.clock.now = s.clock.now := by
  have stopped : s'.clock.cancelled = true := by
    cases live : s'.clock.cancelled with
    | true => rfl
    | false => cases cancelled.symm.trans (h.live live).1
  have now_le := (h.stopped stopped).outside _ (Clock.cancelTime_of_cancelled cancelled)
  exact ⟨stopped, Nat.le_antisymm now_le h.now_le⟩

/-- As long as the run is not cancelled, it will be at the same time. -/
theorem cancelTime_eq (h : Prompt s s' new) (live : s'.clock.cancelled = false) :
    s'.clock.cancelTime = s.clock.cancelTime :=
  Clock.cancelTime_eq h.now_le h.cancelAt (h.live live).1 live (h.live live).2.2

theorem cancels?_append (h : Prompt s s₁ new) :
    Party.cancels? s.party (new ++ new') =
      (Party.cancels? s.party new).or (Party.cancels? s₁.party new') := by
  rw [Party.cancels?_append, h.party]

theorem trans (h : Prompt s s₁ new) (h' : Prompt s₁ s' new') : Prompt s s' (new ++ new') where
  asked := by rw [h'.asked, h.asked, List.append_assoc]
  party := by rw [h'.party, h.party, List.map_append, Party.after_append]
  times := by
    intro x hx
    have := h.now_le
    have := h'.now_le
    rcases List.mem_append.1 hx with hx | hx
    · have := h.times x hx
      omega
    · have := h'.times x hx
      omega
  now_le := Nat.le_trans h.now_le h'.now_le
  cancelAt := h'.cancelAt.trans h.cancelAt
  live := by
    intro live'
    obtain ⟨live₁, silent', early'⟩ := h'.live live'
    obtain ⟨live, silent, _⟩ := h.live live₁
    refine ⟨live, by rw [h.cancels?_append, silent, silent']; rfl, ?_⟩
    rwa [h.cancelTime_eq live₁] at early'
  stopped := by
    intro cancelled'
    cases cancelled₁ : s₁.clock.cancelled with
    | true =>
      obtain ⟨cause, outside, inside⟩ := h.stopped cancelled₁
      rw [(h'.now_eq cancelled₁).2]
      refine ⟨?_, outside, ?_⟩ <;> rw [h.cancels?_append]
      · refine cause.imp id fun first => ?_
        rw [first]
        rfl
      · intro u found
        rcases Option.or_eq_some_iff.1 found with first | ⟨_, later⟩
        · exact inside u first
        · obtain ⟨call, hc⟩ := Party.mem_of_cancels? later
          exact (h'.times _ hc).1
    | false =>
      obtain ⟨live, silent, _⟩ := h.live cancelled₁
      obtain ⟨cause, outside, inside⟩ := h'.stopped cancelled'
      rw [h.cancelTime_eq cancelled₁] at cause outside
      refine ⟨?_, outside, ?_⟩ <;> rwa [h.cancels?_append, silent, Option.none_or]
  hushed := by
    have hushed' := h'.hushed
    rw [h.party] at hushed'
    rw [List.map_append]
    exact h.hushed.append hushed' fun live₁ => ⟨(h.live live₁).1, (h.live live₁).2.1⟩

end Session.Prompt

/-- In a session as in `I`, no time passes in the task once the run is cancelled. -/
def Task.PromptIn (I : Session σ → Prop) (t : Task σ α) : Prop :=
  ∀ s, I s → ∃ new, s.Prompt (t s).2 new

/-- The run is not cancelled yet. -/
def Session.Live (s : Session σ) : Prop := s.clock.cancelled = false

/-- No time passes in the task once the run is cancelled. -/
def Task.Prompt (t : Task σ α) : Prop := t.PromptIn fun _ => True

namespace Task

variable {I : Session σ → Prop}

theorem Prompt.within {t : Task σ α} (h : t.Prompt) : t.PromptIn I := fun s _ => h s trivial

/-- A task that neither the clock nor the calls show. -/
theorem Prompt.still {t : Task σ α} (asked : ∀ s, (t s).2.asked = s.asked)
    (party : ∀ s, (t s).2.party = s.party) (clock : ∀ s, (t s).2.clock = s.clock) : t.Prompt :=
  fun s _ => ⟨[], .still (asked s) (party s) (clock s)⟩

theorem Prompt.pure (a : α) : Prompt (σ := σ) (Pure.pure a) :=
  .still (fun _ => rfl) (fun _ => rfl) fun _ => rfl

theorem Prompt.ofExcept (r : Except Error α) : Prompt (σ := σ) (Task.ofExcept r) :=
  .still (fun _ => rfl) (fun _ => rfl) fun _ => rfl

theorem Prompt.fail (e : Error) : Prompt (σ := σ) (Task.fail e : Task σ α) :=
  .still (fun _ => rfl) (fun _ => rfl) fun _ => rfl

theorem Prompt.session : Prompt (σ := σ) Task.session :=
  .still (fun _ => rfl) (fun _ => rfl) fun _ => rfl

theorem Prompt.warn (w : Warning) : Prompt (σ := σ) (Task.warn w) :=
  .still (fun _ => rfl) (fun _ => rfl) fun _ => rfl

theorem Prompt.drawBytes (n : Nat) (purpose : String) :
    Prompt (σ := σ) (Task.drawBytes n purpose) := by
  refine .still (fun s => ?_) (fun s => ?_) (fun s => ?_) <;>
    (unfold Task.drawBytes; split <;> rfl)

theorem Prompt.drawPassword : Prompt (σ := σ) Task.drawPassword := by
  refine .still (fun s => ?_) (fun s => ?_) (fun s => ?_) <;>
    (unfold Task.drawPassword; split <;> rfl)

theorem PromptIn.bind {t : Task σ α} {next : α → Task σ β} (ht : t.PromptIn I)
    (hn : ∀ a, (next a).Prompt) : (t >>= next).PromptIn I := by
  intro s start
  obtain ⟨new, first⟩ := ht s start
  simp only [Bind.bind, Task.bind]
  revert first
  cases t s with
  | mk ending s₁ =>
    intro first
    cases ending with
    | value a =>
      obtain ⟨new', second⟩ := hn a s₁ trivial
      exact ⟨_, first.trans second⟩
    | error | cancelled | expired | pending | crashed => exact ⟨_, first⟩

theorem Prompt.bind {t : Task σ α} {next : α → Task σ β} (ht : t.Prompt)
    (hn : ∀ a, (next a).Prompt) : (t >>= next).Prompt := PromptIn.bind ht hn

theorem Prompt.drawNames (stem : String) : Prompt (σ := σ) (Task.drawNames stem) :=
  (drawBytes _ _).bind fun _ => (drawBytes _ _).bind fun _ => session.bind fun _ => pure _

theorem PromptIn.isolate {t : Task σ α} (ht : t.PromptIn I) : t.isolate.PromptIn I := by
  intro s start
  obtain ⟨new, first⟩ := ht s start
  refine ⟨new, ?_⟩
  rw [isolate_session]
  exact first

/-- A wait of which nobody hears. -/
theorem Prompt.sleep {g : Guard} {d : Nat} (cancellable : g.cancellable = true) :
    Prompt (σ := σ) (Task.sleep g d) := by
  intro s _
  let r : Reaction Unit := { lasts := some d, answer := .ok () }
  have waited : Clock.Waited r s.clock (s.clock.await g r).2 := Clock.await_waited cancellable
  have now_le := Clock.now_le_await g r s.clock
  refine ⟨[], ⟨(List.append_nil _).symm, rfl, nofun, now_le, waited.cancelAt, fun live => ?_,
    fun stopped => ?_, trivial⟩⟩
  · obtain ⟨live, _, early⟩ := waited.live live
    exact ⟨live, rfl, early⟩
  · rcases waited.stopped stopped with ⟨cancelled | silent, now⟩ | ⟨_, _, time⟩
    · have time := Clock.cancelTime_of_cancelled cancelled
      refine ⟨.inl (time.trans (congrArg some now.symm)), fun u time' => ?_, nofun⟩
      cases time.symm.trans time'
      exact Nat.le_of_eq now
    · cases silent
    · refine ⟨.inl time, fun u time' => ?_, nofun⟩
      cases time.symm.trans time'
      exact Nat.le_refl _

theorem asked_ask (g : Guard) (call : Call) (s : Session σ) :
    (ask g call s).2.asked = s.asked ++ [(s.clock.now, call)] := by
  have unasked : ∀ t ws (ending : Ending call.Answer),
      (endEvents call t ws ending).filterMap Event.asked? = [] :=
    fun _ _ _ => endEvents_ignored (fun _ => rfl) rfl fun _ _ => rfl
  simp only [Session.asked, ask, List.filterMap_append, unasked]
  simp [Event.asked?]

/-- A call under a guard that gives way to cancellation. -/
theorem PromptIn.ask {g : Guard} {call : Call} (cancellable : g.cancellable = true)
    (allowed : ∀ s : Session σ, I s → s.clock.cancelled = true → call.stage = .identity) :
    PromptIn I (Task.ask g call) := by
  intro s start
  let r := (Party.react s.party call).1
  have waited : Clock.Waited r s.clock (s.clock.await g r).2 := Clock.await_waited cancellable
  have now_le := Clock.now_le_await g r s.clock
  have cancels : Party.cancels? s.party [(s.clock.now, call)] =
    if r.cancels then some s.clock.now else none := rfl
  refine ⟨[(s.clock.now, call)], asked_ask g call s, rfl, fun x hx => ?_, now_le, waited.cancelAt,
    fun live => ?_, fun stopped => ?_, allowed s start, trivial⟩
  · cases List.mem_singleton.1 hx
    exact ⟨Nat.le_refl _, now_le⟩
  · obtain ⟨live, silent, early⟩ := waited.live live
    exact ⟨live, by rw [cancels, silent]; rfl, early⟩
  · have atStart : ∀ u, Party.cancels? s.party [(s.clock.now, call)] = some u →
        r.cancels = true ∧ u = s.clock.now := by
      intro u found
      rw [cancels] at found
      split at found <;> cases found
      exact ⟨‹_›, rfl⟩
    rcases waited.stopped stopped with ⟨cause, now⟩ | ⟨_, silent, time⟩
    · change (s.clock.await g r).2.now = _ at now
      change s.CancelledAt _ (s.clock.await g r).2.now
      rw [now]
      refine ⟨cause.imp Clock.cancelTime_of_cancelled fun loud => by rw [cancels, if_pos loud],
        fun u => Clock.now_le_cancelTime, fun u found => ?_⟩
      exact Nat.le_of_eq (atStart u found).2.symm
    · refine ⟨.inl time, fun u time' => ?_, fun u found => ?_⟩
      · cases time.symm.trans time'
        exact Nat.le_refl _
      · cases silent.symm.trans (atStart u found).1

/-- A step that is not made once the run is cancelled. -/
theorem Prompt.withCancel {stage : String} {step : Guard → Task σ α}
    (h : (step { cancellable := true }).PromptIn Session.Live) :
    (Task.withCancel stage step).Prompt := by
  intro s _
  by_cases cancelled : s.clock.cancelled = true
  · rw [withCancel_barred cancelled]
    exact ⟨[], .refl s⟩
  · obtain ⟨new, stepped⟩ := h s (Bool.eq_false_iff.2 cancelled)
    refine ⟨new, ?_⟩
    rw [withCancel_session cancelled]
    exact stepped

end Task

/-- All calls of a procedure about the test identity may start, even after the run is cancelled. -/
theorem Procedure.perform_prompt {F : Call → Error → Prop} {E : Error → Prop}
    (all : ∀ call e, F call e) {g : Guard} (cancellable : g.cancellable = true) {p : Procedure α}
    (hp : p.Confined (fun call => call.stage = .identity) F E) : (p.perform (σ := σ) g).Prompt := by
  induction p with
  | done result => exact .ofExcept result
  | ask call k ih =>
    intro s _
    have asks : Task.PromptIn (fun _ : Session σ => True) (Task.ask g call) :=
      .ask cancellable fun _ _ _ => hp.1
    obtain ⟨new, first⟩ := asks s trivial
    simp only [Procedure.perform]
    revert first
    cases Task.ask g call s with
    | mk ending s₁ =>
      intro first
      cases ending with
      | value a =>
        obtain ⟨new', second⟩ := ih (.ok a) (hp.2 _ fun e _ => all call e) s₁ trivial
        exact ⟨_, first.trans second⟩
      | error e =>
        obtain ⟨new', second⟩ := ih (.error e) (hp.2 _ fun e _ => all call e) s₁ trivial
        exact ⟨_, first.trans second⟩
      | cancelled | expired | pending | crashed => exact ⟨_, first⟩
  | warn w k ih => exact (Task.Prompt.warn w).bind fun _ => ih hp
  | password k ih => exact Task.Prompt.drawPassword.bind fun p => ih p (hp.2 p)

namespace Wait

variable {w : Wait} {deadline : Nat} {check : Check σ α}

theorem rest_prompt {s s' : Session σ} {o : Option (Ending α)}
    (h : w.rest deadline s = (o, s')) : ∃ new, s.Prompt s' new := by
  have slept : Task.Prompt (σ := σ) (Task.sleep ⟨true, none⟩ (w.pause (deadline - s.clock.now))) :=
    .sleep rfl
  obtain ⟨new, slept⟩ := slept s trivial
  unfold rest at h
  split at h
  · cases h
    exact ⟨[], .refl s⟩
  · revert h slept
    cases Task.sleep ⟨true, none⟩ (w.pause (deadline - s.clock.now)) s with
    | mk ending s₁ =>
      intro slept h
      cases ending <;> cases h <;> exact ⟨new, slept⟩

/-- No check is made once the run is cancelled. -/
theorem round_prompt (hc : ∀ g, g.cancellable = true → (check.run g).PromptIn Session.Live)
    {s s' : Session σ} {o : Option (Ending α)} (h : w.round deadline check s = (o, s')) :
    ∃ new, s.Prompt s' new := by
  by_cases cancelled : s.clock.cancelled = true
  · rw [round, if_pos cancelled] at h
    cases h
    exact ⟨[], .refl _⟩
  · obtain ⟨new, checked⟩ := hc ⟨true, some deadline⟩ rfl s (Bool.eq_false_iff.2 cancelled)
    have round := rounded w deadline check s
    rw [h] at round
    cases round with
    | stopped => exact ⟨[], .refl _⟩
    | found run | failed run | cut run =>
      rw [run] at checked
      exact ⟨new, checked⟩
    | notYet run rested =>
      rw [run] at checked
      obtain ⟨new', pause⟩ := rest_prompt rested
      exact ⟨_, checked.trans pause⟩

theorem poll_prompt (hc : ∀ g, g.cancellable = true → (check.run g).PromptIn Session.Live) :
    (w.poll check).Prompt := by
  intro s _
  refine poll_induction (I := fun s' => ∃ new, s.Prompt s' new)
    (P := fun _ s' => ∃ new, s.Prompt s' new) ?_ ?_ (fun _ => ⟨[], .refl s⟩) ⟨[], .refl s⟩
  · rintro s₁ s₂ ⟨new, before⟩ made
    obtain ⟨new', round⟩ := round_prompt hc made
    exact ⟨_, before.trans round⟩
  · rintro s₁ ending s₂ ⟨new, before⟩ made
    obtain ⟨new', round⟩ := round_prompt hc made
    exact ⟨_, before.trans round⟩

end Wait

namespace Observe

variable {call : Call} {value? : call.Answer → Option α} {warning : Error → Warning}

theorem lookup_prompt {g : Guard} (cancellable : g.cancellable = true) :
    ((lookup (σ := σ) call value? warning).run g).PromptIn Session.Live := by
  have asked : Task.PromptIn Session.Live (Task.ask (σ := σ) g call) :=
    .ask cancellable fun s live cancelled => by cases live.symm.trans cancelled
  refine asked.isolate.bind fun answer => ?_
  cases answer with
  | ok a => exact .pure _
  | error e => exact (Task.Prompt.warn _).bind fun _ => .pure _

theorem streamOutput_prompt {ns pod : String} {settings : ObserverSettings} :
    (streamOutput (σ := σ) ns pod settings).Prompt := by
  intro s _
  unfold streamOutput
  split
  · exact Task.Prompt.warn _ s trivial
  · rename_i live
    have asks : Task.PromptIn Session.Live (Task.ask (σ := σ)
        ⟨true, some (s.clock.now + settings.jobTimeout)⟩ (.followPodLogs ns pod)) :=
      .ask rfl fun s live cancelled => by cases live.symm.trans cancelled
    obtain ⟨new, asked⟩ := asks s (Bool.eq_false_iff.2 live)
    dsimp only
    revert asked
    cases Task.ask _ (.followPodLogs ns pod) s with
    | mk ending s₁ =>
      intro asked
      have warned : ∀ w, ∃ new, s.Prompt (Task.warn w s₁).2 new := by
        intro w
        obtain ⟨new', told⟩ := Task.Prompt.warn w s₁ trivial
        exact ⟨_, asked.trans told⟩
      cases ending with
      | error e =>
        dsimp only
        split
        · exact ⟨new, asked⟩
        · exact warned _
      | cancelled | expired => exact warned _
      | value | pending | crashed => exact ⟨new, asked⟩

theorem observeJob_prompt {ns job : String} {settings : ObserverSettings} :
    (observeJob (σ := σ) ns job settings).Prompt := by
  have polled : ∀ {α} {w : Wait} {call : Call} {value? : call.Answer → Option α} {warning},
      (w.poll (lookup (σ := σ) call value? warning)).Prompt :=
    Wait.poll_prompt fun _ => lookup_prompt
  exact polled.bind fun _ => streamOutput_prompt.bind fun _ => polled.bind fun _ => .ofExcept _

end Observe

namespace Run

theorem loadSite_prompt {source : SiteSource} {g : Guard} (cancellable : g.cancellable = true) :
    (loadSite (σ := σ) source g).PromptIn Session.Live := by
  cases source with
  | cluster site =>
    have asked : Task.PromptIn Session.Live (Task.ask (σ := σ) g (.getSite site)) :=
      .ask cancellable fun s live cancelled => by cases live.symm.trans cancelled
    exact asked.bind fun object => .ofExcept _
  | file path => exact (Task.Prompt.session.bind fun s => .ofExcept _).within

theorem provision_prompt (request : Option IdentityRequest) : (provision (σ := σ) request).Prompt := by
  cases request with
  | none => exact .pure _
  | some request =>
    refine (Task.Prompt.withCancel (Task.Prompt.within ?_)).bind fun _ => .pure _
    exact Procedure.perform_prompt (fun _ _ => trivial) rfl
      (Provision.ensure_confined (E := fun _ => True) (fun _ => id) (fun _ _ _ => id)
        (fun _ => trivial) (fun _ => trivial) fun _ => trivial)

/-- The preparation of a run ends as soon as the run is cancelled. -/
theorem prepare_prompt (settings : RunSettings) (image : String) :
    (prepare (σ := σ) settings image).Prompt := by
  refine (Task.Prompt.withCancel (loadSite_prompt rfl)).bind fun site => ?_
  refine (Task.Prompt.ofExcept _).bind fun request => ?_
  split
  · exact .fail _
  · exact (Task.Prompt.drawNames _).bind fun names => (provision_prompt request).bind fun _ => .pure _

/-- So does all that comes between the preparation and the removal. -/
theorem runRemote_prompt (settings : RunSettings) (image : String) (names : ResourceNames)
    (text : String) (available : Bool) :
    (runRemote (σ := σ) settings image names text available).Prompt := by
  have step : ∀ {stage : String} {call : Call},
      (Task.withCancel (σ := σ) stage fun g => Task.ask g call).Prompt :=
    .withCancel (.ask rfl fun s live cancelled => by cases live.symm.trans cancelled)
  exact step.bind fun _ => (Task.Prompt.ofExcept _).bind fun job => step.bind fun _ =>
    Observe.observeJob_prompt

end Run

end Acceptance
