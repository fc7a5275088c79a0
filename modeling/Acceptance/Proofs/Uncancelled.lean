import Acceptance.Proofs.Prompt

/-!
# A run with and without its cancellation

A run that is cancelled does what it would do if it were not, up to where it is cut short.

* `Session.uncancelled`, `Party.silent`: the cancellation taken out of a session and of what the
  collaborators do;
* `Follows`: a part of a run does the same with and without its cancellation, unless it is cut
  short, and then it has made the first of the calls that it would have made;
* `Run.prepare_follows`, `Run.runRemote_follows`: a remote run before the removal.
-/

namespace Acceptance

variable {σ α β γ : Type}

/-- The reaction without cancelling the run. -/
def Reaction.silent (r : Reaction α) : Reaction α := { r with cancels := false }

/-- Collaborators that react as these do, but do not cancel the run. -/
@[reducible]
def Party.silent (P : Party σ) : Party σ where
  react p call := ((P.react p call).1.silent, (P.react p call).2)

/-- Whatever else ends a wait does so as if `b` were not there, or it is `b` that ends it. -/
theorem Due.sooner_without {a b c : Option (Due α)} :
    sooner (sooner a none) c = sooner (sooner a b) c ∨ ∃ x, b = some x ∧ sooner (sooner a b) c = some x := by
  cases a <;> cases b <;> cases c <;> simp only [sooner] <;> grind

namespace Clock

/-- The clock of a run that is not cancelled, and will not be. -/
def uncancelled (c : Clock) : Clock := { c with cancelled := false, cancelAt := none }

variable {g : Guard} {r : Reaction α} {c : Clock}

theorem uncancelled_started : (c.started r).uncancelled = c.uncancelled := by
  unfold started
  split <;> rfl

theorem started_silent : c.started r.silent = c := rfl

theorem uncancelled_moveTo (t : Nat) : (c.moveTo t).uncancelled = c.uncancelled.moveTo t := rfl

/-- Without its cancellation a wait ends with the same, unless it was cancellation that ended it. -/
theorem due_silent (g : Guard) (r : Reaction α) (c : Clock) :
    due g r.silent c.uncancelled = due g r c ∨ ∃ t, due g r c = some ⟨t, .cancelled⟩ := by
  have never : due g r.silent c.uncancelled = Due.sooner (Due.sooner (Due.sooner
      (r.lasts.map fun d => ⟨c.now + d, .ofExcept r.answer⟩)
      (g.deadline.map fun t => ⟨max c.now t, .expired⟩)) none)
      (c.horizon.map fun t => ⟨max c.now t, .pending⟩) := by
    cases g with
    | mk cancellable deadline => cases cancellable <;> rfl
  rw [never]
  rcases Due.sooner_without (a := Due.sooner (r.lasts.map fun d => ⟨c.now + d, .ofExcept r.answer⟩)
      (g.deadline.map fun t => ⟨max c.now t, .expired⟩))
    (b := if g.cancellable then c.cancelTime.map fun t => ⟨t, .cancelled⟩ else none)
    (c := c.horizon.map fun t => ⟨max c.now t, .pending⟩) with same | ⟨x, hx, found⟩
  · exact .inl same
  · split at hx
    · obtain ⟨t, _, rfl⟩ := Option.map_eq_some_iff.1 hx
      exact .inr ⟨t, found⟩
    · cases hx

theorem await_silent (g : Guard) (r : Reaction α) (c : Clock) :
    await g r.silent c.uncancelled = ((await g r c).1, (await g r c).2.uncancelled) ∨
      ((await g r c).1 = .cancelled ∧ (await g r c).2.cancelled = true) := by
  have same := due_silent g r (c.started r)
  rw [await_eq, await_eq, started_silent]
  rw [uncancelled_started] at same
  by_cases instant : r.lasts = some 0
  · have instant' : r.silent.lasts = some 0 := instant
    rw [if_pos instant, if_pos instant']
    exact .inl (Prod.ext rfl uncancelled_started.symm)
  · have waits : r.silent.lasts ≠ some 0 := instant
    rw [if_neg instant, if_neg waits]
    rcases same with same | ⟨t, found⟩
    · rw [same]
      split
      · exact .inl (Prod.ext rfl uncancelled_started.symm)
      · exact .inr ⟨rfl, rfl⟩
      · refine .inl (Prod.ext rfl ?_)
        show c.uncancelled.moveTo _ = ((c.started r).moveTo _).uncancelled
        rw [uncancelled_moveTo, uncancelled_started]
    · rw [found]
      exact .inr ⟨rfl, rfl⟩

end Clock

namespace Session

/-- The session without the cancellation of its run. -/
def uncancelled (s : Session σ) : Session σ := { s with clock := s.clock.uncancelled }

theorem Fresh.uncancelled {s : Session σ} (h : s.Fresh) : s.uncancelled.Fresh :=
  ⟨h.events, h.watched⟩

end Session

/-- Without the cancellation of the run, `f'` does from the session that `f` starts in what `f`
does; unless `f` is cut short, and then `f'` makes the same calls first. -/
structure Follows (cut : β → Prop) (f f' : Session σ → β × Session σ) : Prop where
  /-- It only adds to the calls. -/
  onward : ∀ s, s.asked <+: (f' s).2.asked
  follows : ∀ s, f' s.uncancelled = ((f s).1, (f s).2.uncancelled) ∨
    (cut (f s).1 ∧ (f s).2.clock.cancelled = true ∧
      (f s).2.asked <+: (f' s.uncancelled).2.asked)

/-- The ending of a stage that is given up because the run is cancelled. -/
def Ending.Stopped (ending : Ending α) : Prop := ∃ stage, ending = .error (.cancelled stage)

/-- It is given up because the run is cancelled, or crashes. -/
def Ending.CutShort (ending : Ending α) : Prop := ending.Stopped ∨ ending = .crashed

namespace Ending.CutShort

theorem stopped (stage : String) : CutShort (.error (.cancelled stage) : Ending α) := .inl ⟨stage, rfl⟩

theorem crashed : CutShort (.crashed : Ending α) := .inr rfl

end Ending.CutShort

namespace Follows

variable {cut cut' : Ending α → Prop} {t t' : Task σ α}

/-- A task that neither the clock nor the calls show. -/
theorem same (onward : ∀ s, (t' s).2.asked = s.asked)
    (same : ∀ s, t' s.uncancelled = ((t s).1, (t s).2.uncancelled)) : Follows cut t t' where
  onward s := (onward s).symm ▸ List.prefix_refl _
  follows s := .inl (same s)

theorem pure (a : α) : Follows cut (Pure.pure a : Task σ α) (Pure.pure a : Task σ α) :=
  same (fun _ => rfl) fun _ => rfl

theorem ofExcept (r : Except Error α) :
    Follows (σ := σ) cut (Task.ofExcept r) (Task.ofExcept r) :=
  same (fun _ => rfl) fun _ => rfl

theorem fail (e : Error) : Follows (σ := σ) cut (Task.fail e) (Task.fail e) :=
  same (fun _ => rfl) fun _ => rfl

theorem warn {cut : Ending Unit → Prop} (w : Warning) :
    Follows (σ := σ) cut (Task.warn w) (Task.warn w) :=
  same (fun _ => rfl) fun _ => rfl

theorem drawBytes {cut : Ending (List UInt8) → Prop} (n : Nat) (purpose : String) :
    Follows (σ := σ) cut (Task.drawBytes n purpose) (Task.drawBytes n purpose) := by
  refine same (fun s => ?_) (fun s => ?_)
  · unfold Task.drawBytes
    split <;> rfl
  · have entropy : s.uncancelled.entropy = s.entropy := rfl
    unfold Task.drawBytes
    rw [entropy]
    split <;> rfl

/-- What comes after a task only adds to its calls. -/
theorem asked_bind {next : α → Task σ β} (onward : ∀ a s, s.asked <+: (next a s).2.asked)
    (t : Task σ α) (s : Session σ) : (t s).2.asked <+: ((t >>= next) s).2.asked := by
  simp only [Bind.bind, Task.bind]
  cases t s with
  | mk ending s₁ =>
    cases ending with
    | value a => exact onward a s₁
    | error | cancelled | expired | pending | crashed => exact List.prefix_refl _

variable {next next' : α → Task σ β}

theorem onward_bind (ht : ∀ s, s.asked <+: (t' s).2.asked)
    (hn : ∀ a s, s.asked <+: (next' a s).2.asked) (s : Session σ) :
    s.asked <+: ((t' >>= next') s).2.asked :=
  (ht s).trans (asked_bind hn t' s)

/-- A task that is cut short has to cut short what comes next. -/
theorem bind_of {cut' : Ending β → Prop} (ht : Follows cut t t')
    (hn : ∀ a, Follows cut' (next a) (next' a))
    (short : ∀ s ending s₁, t s = (ending, s₁) → cut ending → s₁.clock.cancelled = true →
      ∃ ending', cut' ending' ∧ (t >>= next) s = (ending', s₁)) :
    Follows cut' (t >>= next) (t' >>= next') where
  onward := onward_bind ht.onward fun a => (hn a).onward
  follows s := by
    rcases ht.follows s with same | ⟨ends, cancelled, first⟩
    · simp only [Bind.bind, Task.bind, same]
      cases t s with
      | mk ending s₁ =>
        cases ending with
        | value a => exact (hn a).follows s₁
        | error | cancelled | expired | pending | crashed => exact .inl rfl
    · obtain ⟨ending', ends', stopped⟩ := short s _ _ rfl ends cancelled
      rw [stopped]
      exact .inr ⟨ends', cancelled, first.trans (asked_bind (fun a => (hn a).onward) t' _)⟩

theorem bind (ht : Follows Ending.CutShort t t')
    (hn : ∀ a, Follows Ending.CutShort (next a) (next' a)) :
    Follows Ending.CutShort (t >>= next) (t' >>= next') := by
  refine bind_of ht hn fun s ending s₁ ended short _ => ?_
  rcases short with ⟨stage, rfl⟩ | rfl
  · refine ⟨_, .stopped stage, ?_⟩
    simp only [Bind.bind, Task.bind, ended]
  · refine ⟨_, .crashed, ?_⟩
    simp only [Bind.bind, Task.bind, ended]

theorem bind_cut (ht : Follows (· = .cancelled) t t')
    (hn : ∀ a, Follows (· = .cancelled) (next a) (next' a)) :
    Follows (· = .cancelled) (t >>= next) (t' >>= next') := by
  refine bind_of ht hn fun s ending s₁ ended stopped _ => ?_
  subst stopped
  refine ⟨_, rfl, ?_⟩
  simp only [Bind.bind, Task.bind, ended]

/-- A task may go on when it is cut short, if what comes next is then cut short at once. -/
theorem bind_barred (ht : Follows (fun ending => ∃ a, ending = .value a) t t')
    (hn : ∀ a, Follows Ending.CutShort (next a) (next' a))
    (barred : ∀ a s, s.clock.cancelled = true →
      ∃ ending : Ending β, ending.CutShort ∧ next a s = (ending, s)) :
    Follows Ending.CutShort (t >>= next) (t' >>= next') := by
  refine bind_of ht hn fun s ending s₁ ended ⟨a, went⟩ cancelled => ?_
  subst went
  obtain ⟨ending, short, barred⟩ := barred a s₁ cancelled
  refine ⟨ending, short, ?_⟩
  simp only [Bind.bind, Task.bind, ended, barred]

theorem drawNames (stem : String) :
    Follows (σ := σ) Ending.CutShort (Task.drawNames stem) (Task.drawNames stem) :=
  (drawBytes _ _).bind fun _ => (drawBytes _ _).bind fun _ => same (fun _ => rfl) fun _ => rfl

theorem isolate (h : Follows (· = .cancelled) t t') :
    Follows (· = .cancelled) t.isolate t'.isolate where
  onward s := by
    rw [Task.isolate_session]
    exact h.onward s
  follows s := by
    have follows := h.follows s
    have session := Task.isolate_session t' s.uncancelled
    rw [session]
    revert follows
    simp only [Task.isolate]
    cases t s with
    | mk ending s₁ =>
      rintro (same | ⟨rfl, cancelled, first⟩)
      · rw [same]
        cases ending <;> exact .inl rfl
      · exact .inr ⟨rfl, cancelled, first⟩

theorem withCancel {stage : String} {step step' : Guard → Task σ α}
    (h : Follows (· = .cancelled) (step { cancellable := true }) (step' { cancellable := true })) :
    Follows Ending.CutShort (Task.withCancel stage step) (Task.withCancel stage step') := by
  have onward : ∀ s, s.asked <+: (Task.withCancel stage step' s).2.asked := by
    intro s
    by_cases cancelled : s.clock.cancelled = true
    · exact (Task.withCancel_barred cancelled).symm ▸ List.prefix_refl _
    · rw [Task.withCancel_session cancelled]
      exact h.onward s
  refine ⟨onward, fun s => ?_⟩
  by_cases cancelled : s.clock.cancelled = true
  · rw [Task.withCancel_barred cancelled]
    exact .inr ⟨.stopped stage, cancelled, onward s.uncancelled⟩
  · have follows := h.follows s
    have live : s.uncancelled.clock.cancelled ≠ true := nofun
    have session : (Task.withCancel stage step' s.uncancelled).2 = _ :=
      Task.withCancel_session live
    rw [session]
    unfold Task.withCancel
    rw [if_neg cancelled, if_neg live]
    revert follows
    cases step { cancellable := true } s with
    | mk ending s₁ =>
      rintro (same | ⟨rfl, cancelled, first⟩)
      · rw [same]
        cases ending <;> exact .inl rfl
      · exact .inr ⟨.stopped stage, cancelled, first⟩

theorem sleep (g : Guard) (d : Nat) :
    Follows (σ := σ) (· = .cancelled) (Task.sleep g d) (Task.sleep g d) where
  onward s := List.prefix_refl _
  follows s := by
    let r : Reaction Unit := { lasts := some d, answer := .ok () }
    rcases Clock.await_silent g r s.clock with same | ⟨short, cancelled⟩
    · have same' : s.uncancelled.clock.await g r = _ := same
      refine .inl ?_
      simp only [Task.sleep, r] at same' ⊢
      rw [same']
      rfl
    · exact .inr ⟨short, cancelled, List.prefix_refl _⟩

/-- What a call leaves, by the wait for it. -/
theorem ask_of_await [Party σ] {g : Guard} {call : Call} {s : Session σ}
    {ending : Ending call.Answer} {clock : Clock}
    (h : s.clock.await g (Party.react s.party call).1 = (ending, clock)) :
    Task.ask g call s = (ending, { s with
      party := (Party.react s.party call).2, clock
      events := Task.endEvents call clock.now (Party.react s.party call).1.whenStopped ending ++
        .asked s.clock.now call :: s.events }) := by
  simp only [Task.ask, h]

theorem ask [P : Party σ] (g : Guard) (call : Call) :
    Follows (· = .cancelled) (@Task.ask σ P g call) (@Task.ask σ P.silent g call) where
  onward s := by
    rw [@Task.asked_ask σ P.silent]
    exact List.prefix_append _ _
  follows s := by
    rcases Clock.await_silent g (Party.react s.party call).1 s.clock with same | ⟨short, cancelled⟩
    · exact .inl (@ask_of_await σ P.silent g call s.uncancelled _ _ same)
    · refine .inr ⟨short, cancelled, ?_⟩
      rw [@Task.asked_ask σ P, @Task.asked_ask σ P.silent]
      exact List.prefix_refl _

theorem perform [P : Party σ] (g : Guard) (p : Procedure α) :
    Follows (· = .cancelled) (@Procedure.perform α σ P g p)
      (@Procedure.perform α σ P.silent g p) := by
  induction p with
  | done result => exact ofExcept result
  | ask call k ih =>
    have asked := ask (P := P) g call
    refine ⟨fun s => ?_, fun s => ?_⟩
    · have first := asked.onward s
      simp only [Procedure.perform]
      revert first
      cases @Task.ask σ P.silent g call s with
      | mk ending s₁ =>
        intro first
        cases ending with
        | value a => exact first.trans ((ih (.ok a)).onward s₁)
        | error e => exact first.trans ((ih (.error e)).onward s₁)
        | cancelled | expired | pending | crashed => exact first
    · have follows := asked.follows s
      simp only [Procedure.perform]
      revert follows
      cases @Task.ask σ P g call s with
      | mk ending s₁ =>
        rintro (same | ⟨rfl, cancelled, first⟩)
        · rw [same]
          cases ending with
          | value a => exact (ih (.ok a)).follows s₁
          | error e => exact (ih (.error e)).follows s₁
          | cancelled | expired | pending | crashed => exact .inl rfl
        · refine .inr ⟨rfl, cancelled, first.trans ?_⟩
          cases @Task.ask σ P.silent g call s.uncancelled with
          | mk ending s₁ =>
            cases ending with
            | value a => exact (ih (.ok a)).onward s₁
            | error e => exact (ih (.error e)).onward s₁
            | cancelled | expired | pending | crashed => exact List.prefix_refl _
  | warn w k ih => exact (warn w).bind_cut fun _ => ih
  | password k ih =>
    have drawn : Follows (σ := σ) (· = .cancelled) Task.drawPassword Task.drawPassword := by
      refine same (fun s => ?_) (fun s => ?_)
      · unfold Task.drawPassword
        split <;> rfl
      · have entropy : s.uncancelled.entropy = s.entropy := rfl
        unfold Task.drawPassword
        rw [entropy]
        split <;> rfl
    exact drawn.bind_cut ih

end Follows

namespace Wait

variable {w : Wait} {deadline : Nat} {check check' : Check σ α}

/-- The ending of a wait that is given up because the run is cancelled, if it ends. -/
def Stopped (o : Option (Ending α)) : Prop := ∃ ending, o = some ending ∧ ending.Stopped

theorem rest_follows (w : Wait) (deadline : Nat) :
    Follows (σ := σ) (Stopped (α := α)) (w.rest deadline) (w.rest deadline) := by
  have slept := Follows.sleep (σ := σ) ⟨true, none⟩
  refine ⟨fun s => ?_, fun s => ?_⟩
  · unfold rest
    split
    · exact List.prefix_refl _
    · have onward := (slept (w.pause (deadline - s.clock.now))).onward s
      revert onward
      cases Task.sleep ⟨true, none⟩ (w.pause (deadline - s.clock.now)) s with
      | mk ending s₁ => cases ending <;> exact id
  · have follows := (slept (w.pause (deadline - s.clock.now))).follows s
    have now : s.uncancelled.clock.now = s.clock.now := rfl
    unfold rest
    rw [now]
    split
    · exact .inl rfl
    · revert follows
      cases Task.sleep ⟨true, none⟩ (w.pause (deadline - s.clock.now)) s with
      | mk ending s₁ =>
        rintro (same | ⟨rfl, cancelled, first⟩)
        · rw [same]
          cases ending <;> exact .inl rfl
        · refine .inr ⟨⟨_, rfl, _, rfl⟩, cancelled, first.trans ?_⟩
          cases Task.sleep ⟨true, none⟩ (w.pause (deadline - s.clock.now)) s.uncancelled with
          | mk ending s₁ => cases ending <;> exact List.prefix_refl _

theorem asked_conclude (r : Ending (Option α) × Session σ) :
    r.2.asked <+: (w.conclude deadline r).2.asked := by
  obtain ⟨ending, s⟩ := r
  cases ending with
  | value found =>
    cases found with
    | some a => exact List.prefix_refl _
    | none => exact (rest_follows w deadline).onward s
  | error | cancelled | expired | pending | crashed => exact List.prefix_refl _

theorem round_follows (hc : ∀ g, Follows (· = .cancelled) (check.run g) (check'.run g)) :
    Follows Stopped (w.round deadline check) (w.round deadline check') := by
  have checked := hc ⟨true, some deadline⟩
  have onward : ∀ s, s.asked <+: (w.round deadline check' s).2.asked := by
    intro s
    by_cases cancelled : s.clock.cancelled = true
    · have stopped : w.round deadline check' s = (some (.error w.wasCancelled), s) :=
        if_pos cancelled
      exact stopped.symm ▸ List.prefix_refl _
    · rw [round_eq cancelled]
      exact (checked.onward s).trans (asked_conclude _)
  refine ⟨onward, fun s => ?_⟩
  by_cases cancelled : s.clock.cancelled = true
  · have stopped : w.round deadline check s = (some (.error w.wasCancelled), s) := if_pos cancelled
    rw [stopped]
    exact .inr ⟨⟨_, rfl, _, rfl⟩, cancelled, onward s.uncancelled⟩
  · have live : s.uncancelled.clock.cancelled ≠ true := nofun
    have follows := checked.follows s
    rw [round_eq cancelled, round_eq live]
    revert follows
    cases check.run ⟨true, some deadline⟩ s with
    | mk ending s₁ =>
      rintro (same | ⟨rfl, cancelled, first⟩)
      · rw [same]
        cases ending with
        | value found =>
          cases found with
          | some a => exact .inl rfl
          | none => exact (rest_follows w deadline).follows s₁
        | error | cancelled | expired | pending | crashed => exact .inl rfl
      · exact .inr ⟨⟨_, rfl, _, rfl⟩, cancelled, first.trans (asked_conclude _)⟩

theorem loop_follows (hc : ∀ g, Follows (· = .cancelled) (check.run g) (check'.run g))
    (w : Wait) (deadline : Nat) :
    Follows Ending.CutShort (w.loop deadline check) (w.loop deadline check') := by
  have rounds : Follows Stopped (w.round deadline check) (w.round deadline check') := round_follows hc
  have onward : ∀ s, s.asked <+: (w.loop deadline check' s).2.asked := by
    intro s
    refine loop_induction (I := fun s' => s.asked <+: s'.asked)
      (P := fun _ s' => s.asked <+: s'.asked) ?_ ?_ (List.prefix_refl _)
    · intro s₁ s₂ before made
      have added := rounds.onward s₁
      rw [made] at added
      exact before.trans added
    · intro s₁ ending s₂ before made
      have added := rounds.onward s₁
      rw [made] at added
      exact before.trans added
  have loops : ∀ s, (w.round deadline check' s).2.asked <+: (w.loop deadline check' s).2.asked := by
    intro s
    cases made : w.round deadline check' s with
    | mk o s₁ =>
      cases o with
      | none =>
        rw [loop_eq made]
        exact onward s₁
      | some ending =>
        exact (loop_ended made).symm ▸ List.prefix_refl _
  refine ⟨onward, fun s => ?_⟩
  let uncut := w.loop deadline check' s.uncancelled
  -- Before each round the wait without its cancellation has come to the same place.
  refine loop_induction (w := w) (I := fun s' => w.loop deadline check' s'.uncancelled = uncut)
    (P := fun ending s' => uncut = (ending, s'.uncancelled) ∨
      (ending.CutShort ∧ s'.clock.cancelled = true ∧ s'.asked <+: uncut.2.asked)) ?_ ?_ rfl
  · intro s₁ s₂ before made
    have follows := rounds.follows s₁
    rw [made] at follows
    rcases follows with same | ⟨⟨_, ends, _⟩, _⟩
    · rw [← before, loop_eq same]
    · cases ends
  · intro s₁ ending s₂ before made
    have follows := rounds.follows s₁
    rw [made] at follows
    rcases follows with same | ⟨⟨_, ends, stopped⟩, cancelled, first⟩
    · exact .inl (by rw [← before, loop_ended same])
    · cases ends
      refine .inr ⟨.inl stopped, cancelled, first.trans ?_⟩
      rw [← before]
      exact loops _

/-- The clock shows the same with and without the cancellation. -/
theorem poll_follows (hc : ∀ g, Follows (· = .cancelled) (check.run g) (check'.run g)) :
    Follows Ending.CutShort (w.poll check) (w.poll check') where
  onward s := by
    by_cases shown : s.clock.Shows w.timeout
    · rw [poll_eq shown]
      exact (loop_follows hc w _).onward s
    · exact (poll_crashed shown).symm ▸ List.prefix_refl _
  follows s := by
    by_cases shown : s.clock.Shows w.timeout
    · have shown' : s.uncancelled.clock.Shows w.timeout := shown
      rw [poll_eq shown, poll_eq shown']
      exact (loop_follows hc w _).follows s
    · have unshown : ¬ s.uncancelled.clock.Shows w.timeout := shown
      rw [poll_crashed shown, poll_crashed unshown]
      exact .inl rfl

end Wait

variable [P : Party σ]

namespace Observe

theorem lookup_follows (call : Call) (value? : call.Answer → Option α) (warning : Error → Warning)
    (g : Guard) : Follows (· = .cancelled) ((@lookup σ α P call value? warning).run g)
      ((@lookup σ α P.silent call value? warning).run g) := by
  refine (Follows.ask g call).isolate.bind_cut fun answer => ?_
  cases answer with
  | ok a => exact .pure _
  | error e => exact (Follows.warn _).bind_cut fun _ => .pure _

theorem awaitPod_follows {ns job : String} {settings : ObserverSettings} :
    Follows Ending.CutShort (@awaitPod σ P ns job settings) (@awaitPod σ P.silent ns job settings) :=
  Wait.poll_follows (lookup_follows _ _ _)

omit P in
theorem asked_report {pod : String} {settings : ObserverSettings} (r : Ending Unit × Session σ) :
    (report pod settings r).2.asked = r.2.asked := by
  obtain ⟨ending, s⟩ := r
  cases ending with
  | error e =>
    dsimp only [report]
    split <;> rfl
  | value | cancelled | expired | pending | crashed => rfl

/-- The output is given up when the run is cancelled, but that is not how it ends. -/
theorem streamOutput_follows {ns pod : String} {settings : ObserverSettings} :
    Follows (fun ending => ∃ a, ending = .value a) (@streamOutput σ P ns pod settings)
      (@streamOutput σ P.silent ns pod settings) := by
  have asked := fun g => Follows.ask (P := P) g (.followPodLogs ns pod)
  have onward : ∀ s, s.asked <+: (@streamOutput σ P.silent ns pod settings s).2.asked := by
    intro s
    by_cases cancelled : s.clock.cancelled = true
    · have gaveUp : @streamOutput σ P.silent ns pod settings s =
          Task.warn (.streamCancelled pod) s := if_pos cancelled
      exact gaveUp.symm ▸ List.prefix_refl _
    · rw [@streamOutput_eq σ P.silent _ _ _ _ cancelled, asked_report]
      exact (asked _).onward s
  refine ⟨onward, fun s => ?_⟩
  by_cases cancelled : s.clock.cancelled = true
  · have gaveUp : @streamOutput σ P ns pod settings s = Task.warn (.streamCancelled pod) s :=
      if_pos cancelled
    rw [gaveUp]
    exact .inr ⟨⟨(), rfl⟩, cancelled, onward s.uncancelled⟩
  · have live : s.uncancelled.clock.cancelled ≠ true := nofun
    have follows := (asked ⟨true, some (s.clock.now + settings.jobTimeout)⟩).follows s
    have now : s.uncancelled.clock.now = s.clock.now := rfl
    rw [@streamOutput_eq σ P _ _ _ _ cancelled, @streamOutput_eq σ P.silent _ _ _ _ live, now,
      asked_report, asked_report]
    revert follows
    cases @Task.ask σ P ⟨true, some (s.clock.now + settings.jobTimeout)⟩ (.followPodLogs ns pod)
      s with
    | mk ending s₁ =>
      rintro (same | ⟨rfl, cancelled, first⟩)
      · rw [same]
        cases ending with
        | error e =>
          refine .inl ?_
          dsimp only [report]
          split <;> rfl
        | value | cancelled | expired | pending | crashed => exact .inl rfl
      · exact .inr ⟨⟨(), rfl⟩, cancelled, first⟩

theorem awaitCompletion_follows {ns job : String} {settings : ObserverSettings} :
    Follows Ending.CutShort (@awaitCompletion σ P ns job settings)
      (@awaitCompletion σ P.silent ns job settings) :=
  (Wait.poll_follows (lookup_follows _ _ _)).bind fun _ => .ofExcept _

/-- In a run that is cancelled the verdict is not waited for. -/
theorem awaitCompletion_barred {ns job : String} {settings : ObserverSettings} {s : Session σ}
    (cancelled : s.clock.cancelled = true) :
    awaitCompletion ns job settings s = (.error (.cancelled "job completion"), s) ∨
      awaitCompletion ns job settings s = (.crashed, s) := by
  by_cases shown : s.clock.Shows (verdictWait settings).timeout
  · refine .inl ?_
    simp only [awaitCompletion, Bind.bind, Task.bind, Wait.poll_barred shown cancelled]
    rfl
  · refine .inr ?_
    simp only [awaitCompletion, Bind.bind, Task.bind, Wait.poll_crashed shown]

theorem observeJob_follows {ns job : String} {settings : ObserverSettings} :
    Follows Ending.CutShort (@observeJob σ P ns job settings)
      (@observeJob σ P.silent ns job settings) :=
  awaitPod_follows.bind fun _ => streamOutput_follows.bind_barred
    (fun _ => awaitCompletion_follows) fun _ _ cancelled =>
      (awaitCompletion_barred cancelled).elim (fun barred => ⟨_, .stopped _, barred⟩)
        fun crashed => ⟨_, .crashed, crashed⟩

end Observe

namespace Run

theorem loadSite_follows (source : SiteSource) (g : Guard) :
    Follows (· = .cancelled) (@loadSite σ P source g) (@loadSite σ P.silent source g) := by
  cases source with
  | cluster site => exact (Follows.ask g _).bind_cut fun object => .ofExcept _
  | file path => exact .same (fun _ => rfl) fun _ => rfl

theorem provision_follows (request : Option IdentityRequest) :
    Follows Ending.CutShort (@provision σ P request) (@provision σ P.silent request) := by
  cases request with
  | none => exact .pure _
  | some request => exact (Follows.withCancel (.perform _ _)).bind fun _ => .pure _

/-- The preparation of a run does the same without the cancellation of the run, unless it is given
up. -/
theorem prepare_follows (settings : RunSettings) (image : String) :
    Follows Ending.CutShort (@prepare σ P settings image) (@prepare σ P.silent settings image) := by
  refine (Follows.withCancel (loadSite_follows _ _)).bind fun site => ?_
  refine (Follows.ofExcept _).bind fun request => ?_
  split
  · exact .fail _
  refine (Follows.drawNames _).bind fun names => ?_
  exact (provision_follows _).bind fun _ => .pure _

/-- So does all that comes between the preparation and the removal. -/
theorem runRemote_follows (settings : RunSettings) (image : String) (names : ResourceNames)
    (text : String) (available : Bool) :
    Follows Ending.CutShort (@runRemote σ P settings image names text available)
      (@runRemote σ P.silent settings image names text available) := by
  refine (Follows.withCancel (.ask _ (.applyConfigMap ..))).bind fun _ => ?_
  refine (Follows.ofExcept _).bind fun job => ?_
  refine (Follows.withCancel (.ask _ (.createJob ..))).bind fun _ => ?_
  exact Observe.observeJob_follows

end Run

end Acceptance
