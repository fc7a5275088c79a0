import Acceptance.Proofs.Accounting
import Acceptance.Proofs.Observation
import Acceptance.Proofs.Uncancelled

/-!
# What is reported of the job and of the removal

The ledgers of the parts of a remote run that come after its preparation.

* `Streamed`: what the record says of the output, and which warnings were given of it;
* `Executed`, `Run.runRemote_executes`: the record between the preparation and the removal;
* `Cleanup.run_ledger`: the record of the removal.
-/

namespace Acceptance

variable {σ α β : Type}

/-! ## The output -/

/-- What the record says of the output: that a pod was found, and what was done about its output. -/
def Event.ofOutput : Event → Bool
  | answered _ (.findJobPod ..) (.ok (some _)) => true
  | asked _ call | answered _ call _ | abandoned _ call => decide (call.stage = .output)
  | warned .. => false

def Event.isStillOpen : Event → Bool
  | warned _ (.streamStillOpen ..) => true
  | _ => false

def Event.isStreamStop : Event → Bool
  | warned _ (.streamCancelled _) => true
  | _ => false

/-- The output was still open when its time was up. -/
def outputOpen (timeout : Nat) (record : List Event) : Bool :=
  match record.filter Event.ofOutput with
  | .abandoned t _ :: .asked t₀ _ :: _ => decide (t₀ + timeout ≤ t)
  | _ => false

/-- The run was cancelled by the time the pod was found, or before the output ended and its time was
up. -/
def outputCut (timeout : Nat) (record : List Event) : Bool :=
  match record.filter Event.ofOutput with
  | .abandoned t _ :: .asked t₀ _ :: _ => decide (t < t₀ + timeout)
  | [.answered _ (.findJobPod ..) _] => true
  | _ => false

/-- An output that was given up is reported. -/
structure Streamed (timeout : Nat) (record : List Event) : Prop where
  stillOpen : record.countP Event.isStillOpen = (outputOpen timeout record).toNat
  stopped : record.countP Event.isStreamStop = (outputCut timeout record).toNat

/-- What has nothing to do with the output. -/
structure Event.Unstreaming (x : Event) : Prop where
  other : x.ofOutput = false
  unopened : x.isStillOpen = false
  unstopped : x.isStreamStop = false

namespace Event.Unstreaming

variable {new : List Event}

theorem of_stage {x : Event} (arrival : x.stage ≠ .arrival) (output : x.stage ≠ .output) :
    x.Unstreaming := by
  cases x with
  | asked t call => exact ⟨decide_eq_false output, rfl, rfl⟩
  | abandoned t call => exact ⟨decide_eq_false output, rfl, rfl⟩
  | answered t call answer =>
    refine ⟨?_, rfl, rfl⟩
    cases call <;> first | exact decide_eq_false output | exact absurd rfl arrival
  | warned t w => cases w <;> first | exact ⟨rfl, rfl, rfl⟩ | exact absurd rfl output

theorem filter_eq (h : ∀ x ∈ new, x.Unstreaming) : new.filter Event.ofOutput = [] :=
  List.filter_eq_nil_iff.2 fun x hx => by simp [(h x hx).other]

theorem countP_stillOpen (h : ∀ x ∈ new, x.Unstreaming) : new.countP Event.isStillOpen = 0 :=
  List.countP_eq_zero.2 fun x hx => by simp [(h x hx).unopened]

theorem countP_streamStop (h : ∀ x ∈ new, x.Unstreaming) : new.countP Event.isStreamStop = 0 :=
  List.countP_eq_zero.2 fun x hx => by simp [(h x hx).unstopped]

end Event.Unstreaming

section Around

variable {timeout : Nat} {new old : List Event}

theorem outputOpen_congr (same : new.filter Event.ofOutput = old.filter Event.ofOutput) :
    outputOpen timeout new = outputOpen timeout old := by
  unfold outputOpen
  rw [same]

theorem outputCut_congr (same : new.filter Event.ofOutput = old.filter Event.ofOutput) :
    outputCut timeout new = outputCut timeout old := by
  unfold outputCut
  rw [same]

theorem filter_after (before : ∀ x ∈ old, x.Unstreaming) :
    (new ++ old).filter Event.ofOutput = new.filter Event.ofOutput := by
  rw [List.filter_append, Event.Unstreaming.filter_eq before, List.append_nil]

theorem filter_before (later : ∀ x ∈ new, x.Unstreaming) :
    (new ++ old).filter Event.ofOutput = old.filter Event.ofOutput := by
  rw [List.filter_append, Event.Unstreaming.filter_eq later, List.nil_append]

namespace Streamed

theorem after (h : Streamed timeout new) (before : ∀ x ∈ old, x.Unstreaming) :
    Streamed timeout (new ++ old) where
  stillOpen := by
    rw [outputOpen_congr (filter_after before), ← h.stillOpen, List.countP_append,
      Event.Unstreaming.countP_stillOpen before, Nat.add_zero]
  stopped := by
    rw [outputCut_congr (filter_after before), ← h.stopped, List.countP_append,
      Event.Unstreaming.countP_streamStop before, Nat.add_zero]

theorem before (h : Streamed timeout old) (later : ∀ x ∈ new, x.Unstreaming) :
    Streamed timeout (new ++ old) where
  stillOpen := by
    rw [outputOpen_congr (filter_before later), ← h.stillOpen, List.countP_append,
      Event.Unstreaming.countP_stillOpen later, Nat.zero_add]
  stopped := by
    rw [outputCut_congr (filter_before later), ← h.stopped, List.countP_append,
      Event.Unstreaming.countP_streamStop later, Nat.zero_add]

theorem unstreaming (h : ∀ x ∈ new, x.Unstreaming) : Streamed timeout new := by
  have nothing : Streamed timeout [] := ⟨rfl, rfl⟩
  simpa using nothing.before h

end Streamed

end Around

namespace Ledger

variable {call : Call} {w : Warning} {t t' t₀ : Nat} {ns job pod : String} {new : List Event}
  {ending : Ending α}

/-- A call that is given up with a warning. -/
theorem reported (about : w.About (.abandoned t call))
    (removal : call.stage = .removal → ∃ ns timeout, w = .cleanupTimedOut ns timeout) :
    Ledger [.warned t' w, .abandoned t call, .asked t₀ call] ending where
  chain := by
    apply List.isChain_cons_cons.2
    constructor
    · constructor
      · intro _ _ _ same
        cases same
      · intro _ _ same
        cases same
        exact about
      · intro _ _ same removed
        cases same
        obtain ⟨ns, timeout, rfl⟩ := removal removed
        exact ⟨t', ns, timeout, rfl⟩
    · exact List.isChain_pair.2 (.start rfl)
  opens := by simp [Event.isWarning]
  closes x last := by
    cases last
    exact ⟨rfl, fun _ _ _ same => by cases same⟩

/-- The pod was found when the run was cancelled already. -/
theorem late {a : String} (h : Ledger (.answered t (.findJobPod ns job) (.ok (some pod)) :: new)
      (.value a)) :
    Ledger (.warned t' (.streamCancelled pod) ::
      .answered t (.findJobPod ns job) (.ok (some pod)) :: new) ending where
  chain := by
    apply List.isChain_cons_cons.2
    constructor
    · constructor
      · intro _ _ _ same
        cases same
      · intro _ _ same
        cases same
        exact .late
      · intro _ _ same
        cases same
    · exact h.chain
  opens x first := by
    rw [List.getLast?_cons_cons] at first
    exact h.opens x first
  closes x last := by
    cases last
    exact ⟨rfl, fun _ _ _ same => by cases same⟩

end Ledger

namespace Clock

variable {g : Guard} {r : Reaction α} {c c' : Clock}

theorem Raced.early (h : Raced g r c .cancelled c') {t : Nat} (deadline : g.deadline = some t) :
    c'.now < max c.now t := by
  generalize same : Ending.cancelled = ending at h
  cases h with
  | cancelled time late early => exact early t deadline
  | answered => exact absurd same.symm ofExcept_ne_cancelled
  | expired | pending => cases same

theorem Raced.late (h : Raced g r c .expired c') {t : Nat} (deadline : g.deadline = some t) :
    c'.now = max c.now t := by
  generalize same : Ending.expired = ending at h
  cases h with
  | expired deadline' now =>
    cases deadline.symm.trans deadline'
    exact now
  | answered => exact absurd same.symm ofExcept_ne_expired
  | cancelled | pending => cases same

theorem Raced.not_pending (h : Raced g r c .pending c') : g.deadline = none := by
  generalize same : Ending.pending = ending at h
  cases h with
  | pending hangs unbounded => exact unbounded
  | answered => cases answer : r.answer <;> simp [answer, Ending.ofExcept] at same
  | cancelled | expired => cases same

theorem Awaited.stopped (h : Awaited g r c .cancelled c') : c'.cancelled = true := by
  generalize same : Ending.cancelled = ending at h
  cases h with
  | cancelled cancellable stopped => exact stopped
  | answered => exact absurd same.symm ofExcept_ne_cancelled
  | expired | pending => cases same

end Clock

variable [Party σ]

namespace Observe

/-- What is done about the output of a pod: what it adds to the record, and what is left. -/
inductive Poured (ns pod : String) (timeout : Nat) : List Event → Ending Unit × Session σ → Prop where
  | late {t : Nat} {s' : Session σ} (cancelled : s'.clock.cancelled = true) :
      Poured ns pod timeout [.warned t (.streamCancelled pod)] (.value (), s')
  | stopped {t t' t₀ : Nat} {s' : Session σ} (early : t < t₀ + timeout)
      (cancelled : s'.clock.cancelled = true) :
      Poured ns pod timeout [.warned t' (.streamCancelled pod), .abandoned t (.followPodLogs ns pod),
        .asked t₀ (.followPodLogs ns pod)] (.value (), s')
  | stillOpen {t t' t₀ : Nat} {s' : Session σ} (late : t₀ + timeout ≤ t) :
      Poured ns pod timeout [.warned t' (.streamStillOpen pod timeout),
        .abandoned t (.followPodLogs ns pod), .asked t₀ (.followPodLogs ns pod)] (.value (), s')
  | ended {t t₀ : Nat} {s' : Session σ} :
      Poured ns pod timeout [.answered t (.followPodLogs ns pod) (.ok ()),
        .asked t₀ (.followPodLogs ns pod)] (.value (), s')
  | failed {t t' t₀ : Nat} {e : Error} {s' : Session σ} (pulled : e.isImagePull = false) :
      Poured ns pod timeout [.warned t' (.streamFailed pod e),
        .answered t (.followPodLogs ns pod) (.error e), .asked t₀ (.followPodLogs ns pod)]
        (.value (), s')
  | unpullable {t t₀ : Nat} {e : Error} {s' : Session σ} (imagePull : e.isImagePull = true) :
      Poured ns pod timeout [.answered t (.followPodLogs ns pod) (.error e),
        .asked t₀ (.followPodLogs ns pod)] (.error e, s')

variable {ns job pod : String} {settings : ObserverSettings}

theorem streamOutput_poured (mute : Party.Mute σ) (ns pod : String) (settings : ObserverSettings)
    {s : Session σ} (watched : s.clock.horizon = none) :
    ∃ new, (streamOutput ns pod settings s).2.events = new ++ s.events ∧
      Poured ns pod settings.jobTimeout new (streamOutput ns pod settings s) := by
  by_cases cancelled : s.clock.cancelled = true
  · rw [streamOutput, if_pos cancelled]
    exact ⟨_, rfl, .late cancelled⟩
  · let g : Guard := ⟨true, some (s.clock.now + settings.jobTimeout)⟩
    let call : Call := .followPodLogs ns pod
    let r := (Party.react s.party call).1
    have raced : Clock.Raced g r (s.clock.started r) (Task.ask g call s).1 (Task.ask g call s).2.clock :=
      Clock.raced rfl watched
    have awaited : Clock.Awaited g r s.clock (Task.ask g call s).1 (Task.ask g call s).2.clock :=
      Clock.awaited g r s.clock
    have uncrashed := Task.ask_ne_crashed g call s
    have written := Task.ask_written mute g call (by rintro ⟨⟩) s
    rw [streamOutput_eq cancelled]
    change ∃ new, (report pod settings (Task.ask g call s)).2.events = _ ∧ _
    revert raced awaited uncrashed written
    obtain ⟨ending, s₁⟩ := Task.ask g call s
    rintro raced awaited uncrashed (⟨answer, t, rfl, events⟩ | ⟨t, rfl, unended, events⟩)
    · cases answer with
      | ok => exact ⟨[_, _], events, .ended⟩
      | error e =>
        by_cases imagePull : e.isImagePull = true
        · refine ⟨[.answered t call (.error e), .asked s.clock.now call], ?_, ?_⟩
          · simp only [Ending.ofExcept, report, if_pos imagePull]
            exact events
          · simp only [Ending.ofExcept, report, if_pos imagePull]
            exact .unpullable imagePull
        · refine ⟨[.warned s₁.clock.now (.streamFailed pod e), .answered t call (.error e),
            .asked s.clock.now call], ?_, ?_⟩
          · simp only [Ending.ofExcept, report, if_neg imagePull]
            exact congrArg (List.cons _) events
          · simp only [Ending.ofExcept, report, if_neg imagePull]
            exact .failed (Bool.eq_false_iff.2 imagePull)
    · cases ending with
      | value | error => exact absurd trivial unended
      | cancelled =>
        refine ⟨[.warned s₁.clock.now (.streamCancelled pod), .abandoned s₁.clock.now call,
          .asked s.clock.now call], congrArg (List.cons _) events, .stopped ?_ awaited.stopped⟩
        have early : s₁.clock.now < _ := raced.early rfl
        rw [Clock.started_now] at early
        omega
      | expired =>
        refine ⟨[.warned s₁.clock.now (.streamStillOpen pod settings.jobTimeout),
          .abandoned s₁.clock.now call, .asked s.clock.now call], congrArg (List.cons _) events,
          .stillOpen ?_⟩
        have late : s₁.clock.now = _ := raced.late rfl
        rw [Clock.started_now] at late
        omega
      | pending => cases raced.not_pending
      | crashed => exact absurd rfl uncrashed

namespace Poured

variable {timeout t : Nat} {new earlier : List Event} {ending : Ending Unit} {s' : Session σ}

omit [Party σ] in
theorem stage (h : Poured ns pod timeout new (ending, s')) : ∀ x ∈ new, x.stage = .output := by
  cases h <;> simp [Event.stage, Warning.stage, Call.stage]

omit [Party σ] in
/-- What follows the answer that brought the pod. -/
theorem ledger (h : Poured ns pod timeout new (ending, s'))
    (found : Ledger (.answered t (.findJobPod ns job) (.ok (some pod)) :: earlier) (.value pod)) :
    Ledger (new ++ .answered t (.findJobPod ns job) (.ok (some pod)) :: earlier) ending := by
  cases h with
  | late => exact found.late
  | stopped => exact found.append (.reported .stopped nofun)
  | stillOpen => exact found.append (.reported .stillOpen nofun)
  | @ended t t₀ =>
    have answered : Ledger [.answered t (.followPodLogs ns pod) (.ok ()),
      .asked t₀ (.followPodLogs ns pod)] (.ofExcept (.ok ())) := .answered fun e same => by cases same
    exact found.append answered
  | failed pulled => exact found.append (.told ⟨rfl, rfl, pulled⟩)
  | @unpullable t t₀ e s' imagePull =>
    have returned : Ledger [.answered t (.followPodLogs ns pod) (.error e),
        .asked t₀ (.followPodLogs ns pod)] (Ending.ofExcept (α := Unit) (.error e)) := by
      apply Ledger.answered
      intro e same
      cases same
      simp [Call.tolerates, imagePull]
    exact found.append returned

omit [Party σ] in
theorem streamed (h : Poured ns pod timeout new (ending, s')) :
    Streamed timeout (new ++ [.answered t (.findJobPod ns job) (.ok (some pod))]) := by
  cases h with
  | stopped early =>
    constructor
    · simp [outputOpen, Event.ofOutput, Event.isStillOpen, Call.stage, Nat.not_le_of_lt early]
    · simp [outputCut, Event.ofOutput, List.countP_cons, Event.isStreamStop, Call.stage, early]
  | stillOpen late =>
    constructor
    · simp [outputOpen, Event.ofOutput, List.countP_cons, Event.isStillOpen, Call.stage, late]
    · simp [outputCut, Event.ofOutput, Event.isStreamStop, Call.stage, Nat.not_lt_of_le late]
  | late | ended | failed | unpullable => exact ⟨rfl, rfl⟩

omit [Party σ] in
/-- An output is cut short only by the cancellation of the run. -/
theorem cut (h : Poured ns pod timeout new (ending, s'))
    (cut : outputCut timeout (new ++ [.answered t (.findJobPod ns job) (.ok (some pod))]) = true) :
    ending = .value () ∧ s'.clock.cancelled = true := by
  cases h with
  | late cancelled => exact ⟨rfl, cancelled⟩
  | stopped early cancelled => exact ⟨rfl, cancelled⟩
  | stillOpen late =>
    simp [outputCut, Event.ofOutput, Call.stage, Nat.not_lt_of_le late] at cut
  | ended | failed | unpullable => cases cut

end Poured

end Observe

/-! ## Between the preparation and the removal -/

/-- Whether the stage comes between the preparation and the removal of a remote run. -/
def Stage.ofJob : Stage → Bool
  | upload | submission | arrival | output | verdict => true
  | _ => false

/-- The record between the preparation and the removal. -/
structure Executed (timeout : Nat) (new : List Event) (ending : Ending Unit) : Prop where
  ledger : Ledger new ending
  stages : ∀ x ∈ new, x.stage.ofJob = true
  streamed : Streamed timeout new
  /-- Where the run was cancelled it does not wait for the verdict. -/
  cut : outputCut timeout new = true →
    ending = .error (.cancelled "job completion") ∨ ending = .crashed

/-- Before there is anything to do with the output. -/
theorem Executed.of_unstreaming {timeout : Nat} {new : List Event} {ending : Ending Unit}
    (ledger : Ledger new ending) (on : ∀ x ∈ new, x.stage.ofJob = true ∧ x.Unstreaming) :
    Executed timeout new ending where
  ledger := ledger
  stages x hx := (on x hx).1
  streamed := .unstreaming fun x hx => (on x hx).2
  cut cut := by
    have nothing := Event.Unstreaming.filter_eq fun x hx => (on x hx).2
    simp [outputCut, nothing] at cut

/-- Watched for ever, the task leaves the record of an execution. -/
def Task.Executes (timeout : Nat) (t : Task σ Unit) : Prop :=
  ∀ s, s.clock.horizon = none → ∃ new, (t s).2.events = new ++ s.events ∧
    Executed timeout new (t s).1 ∧ (t s).2.clock.horizon = none

namespace Task.Executes

variable {timeout : Nat}

omit [Party σ] in
theorem bind {t : Task σ α} {next : α → Task σ Unit}
    (ht : t.Accounts (∀ x ∈ ·, x.stage.ofJob = true ∧ x.Unstreaming))
    (hn : ∀ a, (next a).Executes timeout) : (t >>= next).Executes timeout := by
  intro s watched
  obtain ⟨old, events, ledger, on, horizon⟩ := ht s watched
  simp only [Bind.bind, Task.bind]
  revert events ledger horizon
  obtain ⟨ending, s₁⟩ := t s
  intro events ledger horizon
  cases ending with
  | value a =>
    obtain ⟨new, events', executed, horizon'⟩ := hn a s₁ horizon
    refine ⟨new ++ old, ?_, ?_, horizon'⟩
    · rw [events', events, List.append_assoc]
    · constructor
      · exact ledger.append executed.ledger
      · exact List.forall_mem_append.2 ⟨executed.stages, fun x hx => (on x hx).1⟩
      · exact executed.streamed.after fun x hx => (on x hx).2
      · rw [outputCut_congr (filter_after fun x hx => (on x hx).2)]
        exact executed.cut
  | error e => exact ⟨old, events, .of_unstreaming ledger.error on, horizon⟩
  | cancelled | expired | pending | crashed =>
    exact ⟨old, events, .of_unstreaming (ledger.turn (by simp)) on, horizon⟩

end Task.Executes

section Job

variable (mute : Party.Mute σ)

include mute

namespace Observe

variable (ns job : String) (settings : ObserverSettings)

theorem awaitCompletion_accounts : (awaitCompletion (σ := σ) ns job settings).Accounts
    (∀ x ∈ ·, x.stage = .verdict) := by
  have checked : ∀ g, ((lookup (σ := σ) (.jobStatus ns job) JobStatus.outcome
      (.statusUnreadable job)).run g).Accounts (∀ x ∈ ·, x.stage = .verdict) := by
    intro g
    have tells : ∀ e, (Warning.statusUnreadable job e).Tells (.jobStatus ns job) e :=
      fun e => ⟨rfl, rfl⟩
    apply lookup_all mute g _ tells rfl
    · intro x concerns
      cases concerns <;> rfl
    · exact fun t e => rfl
  exact (Wait.poll_accounts checked _).bind_all fun outcome => .ofExcept _

theorem awaitPod_accounts : (awaitPod (σ := σ) ns job settings).Accounts (∀ x ∈ ·,
    x.stage = .arrival ∧ (x.Unstreaming ∨ ∃ pod, x.Brings (.findJobPod ns job) id pod)) := by
  apply Wait.poll_accounts
  intro g
  have tells : ∀ e, (Warning.podLookupFailed job e).Tells (.findJobPod ns job) e :=
    fun e => ⟨rfl, rfl⟩
  apply lookup_all mute g _ tells rfl
  · intro x concerns
    cases concerns with
    | asked | abandoned => exact ⟨rfl, .inl ⟨rfl, rfl, rfl⟩⟩
    | answered t answer =>
      match answer with
      | .ok (some pod) => exact ⟨rfl, .inr ⟨pod, t, some pod, rfl, rfl⟩⟩
      | .ok none | .error e => exact ⟨rfl, .inl ⟨rfl, rfl, rfl⟩⟩
  · exact fun t e => ⟨rfl, .inl ⟨rfl, rfl, rfl⟩⟩

variable {ns job} in
/-- Once the pod is found, its output and the verdict are waited for. -/
theorem watch_executes {pod : String} {t : Nat} {earlier : List Event}
    (found : Ledger (.answered t (.findJobPod ns job) (.ok (some pod)) :: earlier) (.value pod))
    (arrival : ∀ x ∈ earlier, x.stage = .arrival ∧ x.Unstreaming) {s : Session σ}
    (watched : s.clock.horizon = none) :
    let r := (streamOutput ns pod settings >>= fun _ => awaitCompletion ns job settings) s
    ∃ new, r.2.events = new ++ s.events ∧ Executed settings.jobTimeout
      (new ++ .answered t (.findJobPod ns job) (.ok (some pod)) :: earlier) r.1 ∧
      r.2.clock.horizon = none := by
  obtain ⟨output, events, poured⟩ := streamOutput_poured mute ns pod settings watched
  have watched₁ := (streamOutput_onward ns pod settings s).horizon.trans watched
  have unstreaming : ∀ x ∈ earlier, x.Unstreaming := fun x hx => (arrival x hx).2
  simp only [Bind.bind, Task.bind]
  revert events poured watched₁
  obtain ⟨ending, s₁⟩ := streamOutput ns pod settings s
  intro events poured watched₁
  have ledger := poured.ledger found
  have streamed : Streamed settings.jobTimeout
      (output ++ .answered t (.findJobPod ns job) (.ok (some pod)) :: earlier) := by
    rw [List.append_cons]
    exact poured.streamed.after unstreaming
  have cut : outputCut settings.jobTimeout
      (output ++ .answered t (.findJobPod ns job) (.ok (some pod)) :: earlier) = true →
      ending = .value () ∧ s₁.clock.cancelled = true := by
    rw [List.append_cons, outputCut_congr (filter_after unstreaming)]
    exact poured.cut
  have stages : ∀ x ∈ output ++ .answered t (.findJobPod ns job) (.ok (some pod)) :: earlier,
      x.stage.ofJob = true := by
    rw [List.forall_mem_append, List.forall_mem_cons]
    refine ⟨fun x hx => ?_, rfl, fun x hx => ?_⟩
    · rw [poured.stage x hx]
      rfl
    · rw [(arrival x hx).1]
      rfl
  cases ending with
  | value =>
    obtain ⟨verdict, events', ledger', on, watched₂⟩ :=
      awaitCompletion_accounts mute ns job settings s₁ watched₁
    have later : ∀ x ∈ verdict, x.Unstreaming := by
      intro x hx
      apply Event.Unstreaming.of_stage <;> rw [on x hx] <;> decide
    refine ⟨verdict ++ output, ?_, ?_, watched₂⟩
    · rw [events', events, List.append_assoc]
    · rw [List.append_assoc]
      constructor
      · exact ledger.append ledger'
      · rw [List.forall_mem_append]
        refine ⟨fun x hx => ?_, stages⟩
        rw [on x hx]
        rfl
      · exact streamed.before later
      · rw [outputCut_congr (filter_before later)]
        intro stopped
        exact (awaitCompletion_barred (cut stopped).2).imp (congrArg Prod.fst) (congrArg Prod.fst)
  | error e =>
    refine ⟨output, events, ⟨ledger, stages, streamed, fun stopped => ?_⟩, watched₁⟩
    cases (cut stopped).1
  | cancelled | expired | pending | crashed => cases poured

theorem observeJob_executes :
    (observeJob (σ := σ) ns job settings).Executes settings.jobTimeout := by
  intro s watched
  obtain ⟨found, events, ledger, arrival, watched₁⟩ := awaitPod_accounts mute ns job settings s watched
  obtain ⟨found', events', brought⟩ :=
    Wait.brought (podWait settings) (.findJobPod ns job) id (.podLookupFailed job) s
  cases List.append_cancel_right (events.symm.trans events')
  change Wait.Brought _ _ _ found (awaitPod ns job settings s).1 at brought
  clear events'
  simp only [observeJob, Bind.bind, Task.bind]
  revert events ledger brought watched₁
  obtain ⟨ending, s₁⟩ := awaitPod ns job settings s
  intro events ledger watched₁ brought
  cases brought with
  | @found v e earlier brings first =>
    obtain ⟨t, a, rfl, rfl⟩ := brings
    have before : ∀ x ∈ earlier, x.stage = .arrival ∧ x.Unstreaming := by
      intro x hx
      obtain ⟨stage, quiet | ⟨pod, brings⟩⟩ := arrival x (List.mem_cons_of_mem _ hx)
      · exact ⟨stage, quiet⟩
      · exact absurd brings (first x hx pod)
    obtain ⟨new, events', executed, watched₂⟩ := watch_executes mute settings ledger before watched₁
    refine ⟨new ++ _ :: earlier, ?_, executed, watched₂⟩
    rw [List.append_assoc]
    exact events'.trans (congrArg _ events)
  | nothing never givesUp =>
    have quiet : ∀ x ∈ found, x.stage.ofJob = true ∧ x.Unstreaming := by
      intro x hx
      obtain ⟨stage, quiet | ⟨pod, brings⟩⟩ := arrival x hx
      · rw [stage]
        exact ⟨rfl, quiet⟩
      · exact absurd brings (never x hx pod)
    rcases givesUp with rfl | rfl | rfl | rfl
    · exact ⟨found, events, .of_unstreaming ledger.error quiet, watched₁⟩
    · exact ⟨found, events, .of_unstreaming ledger.error quiet, watched₁⟩
    · exact ⟨found, events, .of_unstreaming (ledger.turn (by simp)) quiet, watched₁⟩
    · exact ⟨found, events, .of_unstreaming (ledger.turn (by simp)) quiet, watched₁⟩

end Observe

theorem Run.runRemote_executes (settings : RunSettings) (image : String) (names : ResourceNames)
    (config : String) (available : Bool) :
    (runRemote (σ := σ) settings image names config available).Executes
      settings.observer.jobTimeout := by
  have published : ∀ (g : Guard) (call : Call), call.stage = .upload ∨ call.stage = .submission →
      (∀ e, call.tolerates e = false) →
      (Task.ask (σ := σ) g call).Accounts (∀ x ∈ ·, x.stage.ofJob = true ∧ x.Unstreaming) := by
    intro g call early strict
    apply Task.Accounts.ask_all mute g strict
    · rcases early with same | same <;> rw [same] <;> rfl
    · intro x concerns
      have stage : x.stage = call.stage := by cases concerns <;> rfl
      constructor
      · rcases early with same | same <;> rw [stage, same] <;> rfl
      · apply Event.Unstreaming.of_stage <;> rcases early with same | same <;> rw [stage, same] <;> decide
  rw [runRemote]
  apply Task.Executes.bind
  · exact .withCancel (by simp) (published _ _ (.inl rfl) fun _ => rfl)
  intro _
  apply Task.Executes.bind (.ofExcept _)
  intro job
  apply Task.Executes.bind
  · exact .withCancel (by simp) (published _ _ (.inr rfl) fun _ => rfl)
  intro _
  exact Observe.observeJob_executes mute _ _ _

end Job

/-! ## The removal -/

/-- A call of the removal was given up. -/
def Event.isRemovalCut : Event → Bool
  | abandoned _ call => decide (call.stage = .removal)
  | _ => false

namespace Cleanup

/-- What an attempt adds to the record, and how it ends. -/
inductive Tried (call : Call) (warning : Error → Warning) : List Event → Ending Unit → Prop where
  | done {t t₀ : Nat} {a : call.Answer} :
      Tried call warning [.answered t call (.ok a), .asked t₀ call] (.value ())
  | failed {t t' t₀ : Nat} {e : Error} : Tried call warning
      [.warned t' (warning e), .answered t call (.error e), .asked t₀ call] (.value ())
  | expired {t t₀ : Nat} : Tried call warning [.abandoned t call, .asked t₀ call] .expired

theorem attempt_tried (mute : Party.Mute σ) (call : Call) (warning : Error → Warning) (removal : call.stage = .removal)
    {t : Nat} {s : Session σ} (early : s.clock.now ≤ t) (watched : s.clock.horizon = none) :
    ∃ new, (attempt { deadline := some t } call warning s).2.events = new ++ s.events ∧
      Tried call warning new (attempt { deadline := some t } call warning s).1 := by
  have written := Task.ask_written mute { deadline := some t } call (by rw [removal]; decide) s
  have ended := (asked_by call early watched).1
  rw [attempt_eq]
  revert written ended
  obtain ⟨ending, s₁⟩ := Task.ask { deadline := some t } call s
  rintro (⟨answer, t, rfl, events⟩ | ⟨t, -, unended, events⟩) ended
  · cases answer with
    | ok a => exact ⟨[_, _], events, .done⟩
    | error e => exact ⟨[_, _, _], congrArg (List.cons _) events, .failed⟩
  · rcases ended with ⟨-, same⟩ | ⟨-, same⟩
    · dsimp only at same
      rw [same] at unended
      exact absurd (Ending.over_ofExcept _) unended
    · cases same
      exact ⟨[_, _], events, .expired⟩

namespace Tried

variable {call : Call} {warning : Error → Warning} {new : List Event} {ending : Ending Unit}

omit [Party σ] in
theorem ledger (h : Tried call warning new (.value ())) (tells : ∀ e, (warning e).Tells call e) :
    Ledger new (Ending.value () : Ending Unit) := by
  cases h with
  | @done t t₀ a =>
    have answered : Ledger [.answered t call (.ok a), .asked t₀ call] (.ofExcept (.ok a)) :=
      .answered fun e same => by cases same
    exact answered.turn fun e same => by cases same
  | failed => exact .told (tells _)

/-- A call that is given up ends the removal with a warning. -/
theorem timedOut {t timeout : Nat} {ns : String} (h : Tried call warning new .expired)
    (removal : call.stage = .removal) :
    Ledger (.warned t (.cleanupTimedOut ns timeout) :: new) (Ending.value () : Ending Unit) := by
  cases h
  exact .reported (.timedOut removal) fun _ => ⟨ns, timeout, rfl⟩

theorem stage (h : Tried call warning new ending) (removal : call.stage = .removal)
    (warns : ∀ e, (warning e).stage = .removal) : ∀ x ∈ new, x.stage = .removal := by
  cases h <;> simp [Event.stage, removal, warns]

theorem countP_cut (h : Tried call warning new (.value ())) : new.countP Event.isRemovalCut = 0 := by
  cases h <;> rfl

theorem countP_cut_of_expired (h : Tried call warning new .expired) (removal : call.stage = .removal) :
    new.countP Event.isRemovalCut = 1 := by
  cases h
  simp [Event.isRemovalCut, removal]

end Tried

/-- Whatever goes wrong in the removal is reported, and nothing of it is returned. -/
theorem run_ledger (mute : Party.Mute σ) (ns : String) (names : ResourceNames) (timeout : Nat)
    {s : Session σ} (watched : s.clock.horizon = none) :
    ∃ new, (run ns names timeout s).2.events = new ++ s.events ∧
      Ledger new (Ending.value () : Ending Unit) ∧ (∀ x ∈ new, x.stage = .removal) ∧
      new.countP Event.isRemovalCut ≤ 1 := by
  have early : s.clock.now ≤ s.clock.now + timeout := Nat.le_add_right _ _
  have first := attempted (.deleteJob ns names.job) (.jobNotDeleted ns names.job) early watched
  obtain ⟨old, events, tried⟩ := attempt_tried mute (.deleteJob ns names.job)
    (.jobNotDeleted ns names.job) rfl early watched
  have removes := tried.stage rfl fun e => rfl
  simp only [run, deletes, Bind.bind, Task.bind]
  revert first events tried
  obtain ⟨ending, s₁⟩ := attempt _ (.deleteJob ns names.job) _ s
  rintro ⟨-, -, now_le, watched₁, ⟨-, rfl⟩ | ⟨-, rfl⟩⟩ events tried
  · have second := attempted (.deleteConfigMap ns names.configMap)
      (.configMapNotDeleted ns names.configMap) now_le watched₁
    obtain ⟨new, events', tried'⟩ := attempt_tried mute (.deleteConfigMap ns names.configMap)
      (.configMapNotDeleted ns names.configMap) rfl now_le watched₁
    have ledger := tried.ledger fun e => ⟨rfl, rfl, rfl⟩
    have removes' := List.forall_mem_append.2 ⟨tried'.stage rfl fun e => rfl, removes⟩
    dsimp only
    revert second events' tried'
    obtain ⟨ending, s₂⟩ := attempt _ (.deleteConfigMap ns names.configMap) _ s₁
    rintro ⟨-, -, -, -, ⟨-, rfl⟩ | ⟨-, rfl⟩⟩ events' tried'
    · refine ⟨new ++ old, ?_, ledger.append (tried'.ledger fun e => ⟨rfl, rfl, rfl⟩), removes', ?_⟩
      · rw [List.append_assoc]
        exact events'.trans (congrArg _ events)
      · simp [List.countP_append, tried.countP_cut, tried'.countP_cut]
    · refine ⟨.warned s₂.clock.now (.cleanupTimedOut ns timeout) :: new ++ old, ?_,
        ledger.append (tried'.timedOut rfl), ?_, ?_⟩
      · rw [List.append_assoc]
        exact congrArg (List.cons _) (events'.trans (congrArg _ events))
      · exact List.forall_mem_cons.2 ⟨rfl, removes'⟩
      · simp [List.countP_append, tried.countP_cut, tried'.countP_cut_of_expired rfl, Event.isRemovalCut]
  · refine ⟨.warned s₁.clock.now (.cleanupTimedOut ns timeout) :: old,
      congrArg (List.cons _) events, tried.timedOut rfl, ?_, ?_⟩
    · exact List.forall_mem_cons.2 ⟨rfl, removes⟩
    · simp [tried.countP_cut_of_expired rfl, Event.isRemovalCut]

end Cleanup

end Acceptance
