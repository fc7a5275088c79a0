import Acceptance.Proofs.Likeness
import Acceptance.Proofs.Prompt

/-!
# Errors while a job is observed

What goes wrong while a job is observed says nothing about its tests. A run in which it goes wrong and
one in which it does not are the same but for their warnings.

* `Call.smooth`, `Party.Smoothed`: the answers of the observation without their errors, and
  collaborators that give some of them so;
* `Session.outline`: what a session shows but for its warnings and for such errors;
* `Session.outlined_likeness`, `Alike`: two parts of a run whose outlines are the same;
* `Run.transients_invisible`: an observation, and a remote run, with and without such errors.
-/

namespace Acceptance

variable {σ α β γ : Type}

namespace Call

/-- The answer without an error that says nothing about the tests: there is no pod yet, the status is
not known, or the output has ended. -/
def smooth : (call : Call) → Except Error call.Answer → Except Error call.Answer
  | .findJobPod .., .error _ => .ok none
  | .jobStatus .., .error _ => .ok ⟨.unknown, .unknown⟩
  | .followPodLogs .., .error e => if e.isImagePull then .error e else .ok ()
  | _, answer => answer

@[simp]
theorem smooth_ok (call : Call) (a : call.Answer) : call.smooth (.ok a) = .ok a := by
  cases call <;> rfl

@[simp]
theorem smooth_smooth (call : Call) (answer : Except Error call.Answer) :
    call.smooth (call.smooth answer) = call.smooth answer := by
  cases answer with
  | ok a => simp
  | error e =>
    cases call with
    | followPodLogs ns pod =>
      cases h : e.isImagePull <;> simp [smooth, h]
    | _ => rfl

/-- Only the calls of the observation are smoothed. -/
theorem smooth_of_stage {call : Call} (h : call.stage ≠ .arrival ∧ call.stage ≠ .output ∧
    call.stage ≠ .verdict) (answer : Except Error call.Answer) : call.smooth answer = answer := by
  cases answer with
  | ok a => exact smooth_ok call a
  | error e => cases call <;> simp_all [smooth, stage]

end Call

/-- The collaborators `P'` react as `P` do, but for errors of the observation that are left out. -/
def Party.Smoothed (P P' : Party σ) : Prop :=
  ∀ (p : σ) (call : Call), (P'.react p call).2 = (P.react p call).2 ∧
    ((P'.react p call).1 = (P.react p call).1 ∨ (P'.react p call).1 =
      { (P.react p call).1 with answer := call.smooth (P.react p call).1.answer })

/-- The collaborators without any such errors. -/
@[reducible]
def Party.smooth (P : Party σ) : Party σ where
  react p call := ({ (P.react p call).1 with
    answer := call.smooth (P.react p call).1.answer }, (P.react p call).2)

theorem Party.smoothed_smooth (P : Party σ) : P.Smoothed P.smooth := fun _ _ => ⟨rfl, .inr rfl⟩

/-! ## Waiting for an answer or for another one -/

/-- If two things happen at one time, each comes first where the other does, or neither does. -/
theorem Due.sooner_first {x y : Due α} (same : x.time = y.time) (a b c : Option (Due α)) :
    (sooner (sooner (sooner (some x) a) b) c = some x ∧
      sooner (sooner (sooner (some y) a) b) c = some y) ∨
    sooner (sooner (sooner (some y) a) b) c = sooner (sooner (sooner (some x) a) b) c := by
  cases a <;> cases b <;> cases c <;> simp only [sooner] <;> grind

namespace Clock

theorem due_answer (g : Guard) (r : Reaction α) (c : Clock) (answer : Except Error α) :
    (∃ t, due g r c = some ⟨t, .ofExcept r.answer⟩ ∧
      due g { r with answer } c = some ⟨t, .ofExcept answer⟩) ∨
    due g { r with answer } c = due g r c := by
  cases lasts : r.lasts with
  | none => simp only [due, lasts, Option.map_none, or_true]
  | some d =>
    simp only [due, lasts, Option.map_some]
    exact (Due.sooner_first (x := ⟨c.now + d, .ofExcept r.answer⟩)
      (y := ⟨c.now + d, .ofExcept answer⟩) rfl _ _ _).imp_left fun first => ⟨_, first⟩

/-- A wait for another answer ends with that at the same time, or as it did. -/
theorem await_answer (g : Guard) (r : Reaction α) (c : Clock) (answer : Except Error α) :
    (∃ clock, await g r c = (.ofExcept r.answer, clock) ∧
      await g { r with answer } c = (.ofExcept answer, clock)) ∨
    await g { r with answer } c = await g r c := by
  have started : c.started { r with answer } = c.started r := rfl
  rw [await_eq, await_eq, started]
  by_cases instant : r.lasts = some 0
  · rw [if_pos instant, if_pos (show ({ r with answer } : Reaction α).lasts = some 0 from instant)]
    exact .inl ⟨_, rfl, rfl⟩
  · rw [if_neg instant, if_neg (show ({ r with answer } : Reaction α).lasts ≠ some 0 from instant)]
    rcases due_answer g r (c.started r) answer with ⟨t, found, found'⟩ | same
    · rw [found, found']
      refine .inl ⟨(c.started r).moveTo t, ?_, ?_⟩
      · cases r.answer <;> rfl
      · cases answer <;> rfl
    · rw [same]
      exact .inr rfl

end Clock

/-! ## What a session shows but for its warnings -/

/-- What is left of an event without warnings and without errors that say nothing. -/
def Event.outline? : Event → Option Event
  | .answered t call answer => some (.answered t call (call.smooth answer))
  | .warned .. => none
  | e => some e

/-- The session without its warnings, and without the errors that say nothing about the tests. -/
def Session.outline (s : Session σ) : Session σ :=
  { s with events := s.events.filterMap Event.outline? }

theorem Session.asked_outline (s : Session σ) : s.outline.asked = s.asked := by
  have same : ∀ e : Event, (Event.outline? e).bind Event.asked? = Event.asked? e := by
    intro e
    cases e <;> rfl
  simp [Session.asked, Session.outline, List.filterMap_filterMap, same]

theorem Session.clock_eq {s s' : Session σ} (like : s'.outline = s.outline) :
    s'.clock = s.clock :=
  show s'.outline.clock = s.outline.clock by rw [like]

/-- In sessions with the same outline the same call leaves the same outline. -/
theorem Session.outline_eq {s s' : Session σ} (like : s'.outline = s.outline) (party : σ)
    (clock : Clock) (asked : Event) {ended ended' : List Event}
    (alike : ended'.filterMap Event.outline? = ended.filterMap Event.outline?) :
    Session.outline { s' with party, clock, events := ended' ++ asked :: s'.events } =
      Session.outline { s with party, clock, events := ended ++ asked :: s.events } := by
  simp only [outline, mk.injEq] at like
  simp [outline, alike, like, List.filterMap_cons]

/-- The sessions have the same outline. -/
def Session.Outlined (s s' : Session σ) : Prop := s'.outline = s.outline

/-- The outline shows the clock and the files, and neither time nor warnings end its being the same. -/
theorem Session.outlined_likeness : Session.Likeness (Outlined (σ := σ)) where
  clock := clock_eq
  files {s s'} like := show s'.outline.files = s.outline.files from congrArg files like
  moved {s s'} clock like := by
    have same : ({ s'.outline with clock } : Session σ) = { s.outline with clock } :=
      congrArg (fun o : Session σ => { o with clock }) like
    exact same
  warned _ like := like

/-- From sessions with the same outline, `f'` comes to the same as `f` and leaves the same outline. -/
def Alike (f f' : Session σ → β × Session σ) : Prop :=
  ∀ s s', s'.outline = s.outline → (f' s').1 = (f s).1 ∧ (f' s').2.outline = (f s).2.outline

namespace Relates

open Session

theorem alike {f f' : Session σ → β × Session σ} (h : Relates Outlined Outlined f f') : Alike f f' := h

/-- What depends only on the outline, and only adds to it. -/
theorem of_outline {f : Session σ → β × Session σ}
    (h : ∀ s, f s.outline = ((f s).1, (f s).2.outline)) : Relates Outlined Outlined f f := by
  intro s s' like
  have same := h s'
  rw [like, h s] at same
  exact ⟨(congrArg Prod.fst same).symm, (congrArg Prod.snd same).symm⟩

theorem drawBytes (n : Nat) (purpose : String) :
    Relates (σ := σ) Outlined Outlined (Task.drawBytes n purpose) (Task.drawBytes n purpose) := by
  apply of_outline
  intro s
  have entropy : s.outline.entropy = s.entropy := rfl
  unfold Task.drawBytes
  rw [entropy]
  split <;> rfl

theorem drawPassword : Relates (σ := σ) Outlined Outlined Task.drawPassword Task.drawPassword := by
  apply of_outline
  intro s
  have entropy : s.outline.entropy = s.entropy := rfl
  unfold Task.drawPassword
  rw [entropy]
  split <;> rfl

theorem drawNames (stem : String) :
    Relates (σ := σ) Outlined Outlined (Task.drawNames stem) (Task.drawNames stem) :=
  (drawBytes _ _).bind (fun _ => (drawBytes _ _).bind (fun _ => of_outline fun _ => rfl) id) id

end Relates

/-! ## A run with and without errors of the observation -/

section Smoothed

open Session

variable {P P' : Party σ} (smoothed : P.Smoothed P')

include smoothed

/-- A call ends alike, or with an answer that is smoothed. -/
theorem Party.Smoothed.asked (g : Guard) (call : Call) {s s' : Session σ}
    (like : s'.outline = s.outline) :
    (@Task.ask σ P' g call s').2.outline = (@Task.ask σ P g call s).2.outline ∧
      ((@Task.ask σ P' g call s').1 = (@Task.ask σ P g call s).1 ∨
        ∃ answer, (@Task.ask σ P g call s).1 = .ofExcept answer ∧
          (@Task.ask σ P' g call s').1 = .ofExcept (call.smooth answer)) := by
  have clock := Session.clock_eq like
  have party : s'.party = s.party := show s'.outline.party = s.outline.party by rw [like]
  obtain ⟨next, same | smooth⟩ := smoothed s.party call
  · simp only [Task.ask, clock, party, next, same, true_or, and_true]
    exact Session.outline_eq like _ _ _ rfl
  · rcases Clock.await_answer g (P.react s.party call).1 s.clock
      (call.smooth (P.react s.party call).1.answer) with ⟨c, ended, ended'⟩ | same
    · simp only [Task.ask, clock, party, next, smooth, ended, ended', Task.endEvents_ofExcept]
      refine ⟨Session.outline_eq like _ _ _ ?_, .inr ⟨_, rfl, rfl⟩⟩
      simp [Event.outline?]
    · simp only [Task.ask, clock, party, next, smooth, same, true_or, and_true]
      exact Session.outline_eq like _ _ _ rfl

/-- A call that is not smoothed. -/
theorem Party.Smoothed.ask (g : Guard) {call : Call} (plain : ∀ answer, call.smooth answer = answer) :
    Relates Outlined Outlined (@Task.ask σ P g call) (@Task.ask σ P' g call) := by
  intro s s' like
  obtain ⟨outline, same | ⟨answer, ended, ended'⟩⟩ := smoothed.asked g call like
  · exact ⟨same, outline⟩
  · rw [plain] at ended'
    exact ⟨ended'.trans ended.symm, outline⟩

/-- Outside the observation no call is smoothed. -/
theorem Party.Smoothed.ask_of_stage (g : Guard) {call : Call} (other : call.stage ≠ .arrival ∧
    call.stage ≠ .output ∧ call.stage ≠ .verdict) :
    Relates Outlined Outlined (@Task.ask σ P g call) (@Task.ask σ P' g call) :=
  smoothed.ask g (Call.smooth_of_stage other)

theorem Party.Smoothed.perform (g : Guard) {F : Call → Error → Prop} {E : Error → Prop}
    (all : ∀ call e, F call e) {p : Procedure α}
    (hp : p.Confined (fun call => ∀ answer, call.smooth answer = answer) F E) :
    Relates Outlined Outlined (@Procedure.perform α σ P g p) (@Procedure.perform α σ P' g p) := by
  induction p with
  | done result => exact .still _ id
  | ask call k ih =>
    rw [@Procedure.perform_ask, @Procedure.perform_ask]
    apply (smoothed.ask g hp.1).isolate.bind ?_ id
    exact fun answer => ih answer (hp.2 _ fun e _ => all call e)
  | warn w k ih => exact (Relates.warn outlined_likeness w).bind (fun _ => ih hp) id
  | password k ih => exact Relates.drawPassword.bind (fun p => ih p (hp.2 p)) id

namespace Observe

variable {ns job pod : String} {settings : ObserverSettings}

/-- A lookup does not tell an error from an answer without a value. -/
theorem lookup_outlined {call : Call} {value? : call.Answer → Option α} (warning : Error → Warning)
    (vague : ∀ e a, call.smooth (.error e) = .ok a → value? a = none) (g : Guard) :
    Relates Outlined Outlined ((@lookup σ α P call value? warning).run g)
      ((@lookup σ α P' call value? warning).run g) := by
  intro s s' like
  have asked := smoothed.asked g call like
  simp only [lookup, Bind.bind, Task.bind, Task.isolate]
  revert asked
  obtain ⟨ending, s₁⟩ := @Task.ask σ P g call s
  obtain ⟨ending', s₁'⟩ := @Task.ask σ P' g call s'
  rintro ⟨like₁, rfl | ⟨answer, rfl, rfl⟩⟩
  · cases ending' <;> exact ⟨rfl, like₁⟩
  · cases answer with
    | ok a =>
      rw [Call.smooth_ok]
      exact ⟨rfl, like₁⟩
    | error e =>
      cases smooth : call.smooth (.error e) with
      | error e' => exact ⟨rfl, like₁⟩
      | ok a => exact ⟨congrArg Ending.value (vague e a smooth), like₁⟩

theorem streamOutput_outlined : Relates Outlined Outlined (@streamOutput σ P ns pod settings)
    (@streamOutput σ P' ns pod settings) := by
  intro s s' like
  have clock := Session.clock_eq like
  by_cases cancelled : s.clock.cancelled = true
  · have stopped : s'.clock.cancelled = true := clock ▸ cancelled
    simp only [streamOutput, if_pos cancelled, if_pos stopped]
    exact Relates.warn outlined_likeness _ s s' like
  · have live : s'.clock.cancelled ≠ true := clock ▸ cancelled
    have asked := smoothed.asked ⟨true, some (s.clock.now + settings.jobTimeout)⟩
      (.followPodLogs ns pod) like
    rw [@streamOutput_eq σ P _ _ _ _ cancelled, @streamOutput_eq σ P' _ _ _ _ live, clock]
    revert asked
    obtain ⟨ending, s₁⟩ := @Task.ask σ P _ (.followPodLogs ns pod) s
    obtain ⟨ending', s₁'⟩ := @Task.ask σ P' _ (.followPodLogs ns pod) s'
    rintro ⟨like₁, rfl | ⟨answer, rfl, rfl⟩⟩
    · cases ending' with
      | error e =>
        dsimp only [report]
        split <;> exact ⟨rfl, like₁⟩
      | value | cancelled | expired | pending | crashed => exact ⟨rfl, like₁⟩
    · cases answer with
      | ok a => exact ⟨rfl, like₁⟩
      | error e =>
        by_cases imagePull : e.isImagePull = true
        · have kept : (Call.followPodLogs ns pod).smooth (.error e) = .error e := if_pos imagePull
          rw [kept]
          dsimp only [Ending.ofExcept, report]
          rw [if_pos imagePull, if_pos imagePull]
          exact ⟨rfl, like₁⟩
        · have dropped : (Call.followPodLogs ns pod).smooth (.error e) = .ok () := if_neg imagePull
          rw [dropped]
          dsimp only [Ending.ofExcept, report]
          rw [if_neg imagePull]
          exact ⟨rfl, like₁⟩

theorem observeJob_outlined : Relates Outlined Outlined (@observeJob σ P ns job settings)
    (@observeJob σ P' ns job settings) := by
  apply observeJob_relates outlined_likeness
  · apply lookup_outlined smoothed
    rintro e a ⟨⟩
    rfl
  · exact fun _ => streamOutput_outlined smoothed
  · apply lookup_outlined smoothed
    rintro e a ⟨⟩
    rfl

theorem observeJob_alike :
    Alike (@observeJob σ P ns job settings) (@observeJob σ P' ns job settings) :=
  (observeJob_outlined smoothed).alike

end Observe

namespace Run

variable {settings : RunSettings} {image : String}

theorem provision_outlined (request : Option IdentityRequest) :
    Relates Outlined Outlined (@provision σ P request) (@provision σ P' request) := by
  cases request with
  | none => exact .still _ id
  | some request =>
    have plain : (Provision.ensure request).Confined
        (fun call => ∀ answer, call.smooth answer = answer) (fun _ _ => True) fun _ => True := by
      apply Provision.ensure_confined
      · intro call identity
        apply Call.smooth_of_stage
        simp [identity]
      · exact fun _ _ _ _ => trivial
      all_goals exact fun _ => trivial
    have performed : ∀ g, Relates Outlined Outlined
        (@Procedure.perform Bool σ P g (Provision.ensure request))
        (@Procedure.perform Bool σ P' g (Provision.ensure request)) :=
      fun g => smoothed.perform g (fun _ _ => trivial) plain
    exact (Relates.withCancel outlined_likeness (performed _) id).bind (fun _ => .still _ id) id

theorem run_alike (remote : settings.mode = .remote image) :
    Alike (@run σ P settings) (@run σ P' settings) := by
  apply Relates.alike
  apply run_relates remote
  · apply prepare_relates outlined_likeness _ (.drawNames _) _ id id
    · intro g
      exact loadSite_relates outlined_likeness fun _ => smoothed.ask g fun _ => rfl
    · exact fun _ request _ => provision_outlined smoothed request
  · intro names text available
    apply runRemote_relates outlined_likeness
    · exact fun g => smoothed.ask g fun _ => rfl
    · exact fun g _ => smoothed.ask g fun _ => rfl
    · exact Observe.observeJob_outlined smoothed
  · intro names
    apply Cleanup.run_relates outlined_likeness
    intro g call removal
    apply smoothed.ask_of_stage g
    simp [removal]

end Run

end Smoothed

/-- Two runs that show the same but for their warnings, and for the errors that are only reported. -/
structure SameButWarnings (r r' : Ending α × Session σ) : Prop where
  result : r'.1 = r.1
  /-- The same calls at the same times. -/
  asked : r'.2.asked = r.2.asked
  now : r'.2.clock.now = r.2.clock.now
  outline : r'.2.outline = r.2.outline

theorem Alike.sameButWarnings {t t' : Task σ α} (h : Alike t t') (s : Session σ) :
    SameButWarnings (t s) (t' s) where
  result := (h s s rfl).1
  asked := by
    have outline := (h s s rfl).2
    rw [← Session.asked_outline, outline, Session.asked_outline]
  now := by rw [Session.clock_eq (h s s rfl).2]
  outline := (h s s rfl).2

/-- An observation, and a remote run, does the same where errors of the observation are left out, and
only reports less. -/
theorem Run.transients_invisible {P P' : Party σ} (smoothed : P.Smoothed P') :
    (∀ ns job settings s, SameButWarnings (@Observe.observeJob σ P ns job settings s)
      (@Observe.observeJob σ P' ns job settings s)) ∧
    ∀ settings image, settings.mode = .remote image → ∀ s,
      SameButWarnings (@run σ P settings s) (@run σ P' settings s) := by
  constructor
  · intro ns job settings s
    exact (Observe.observeJob_alike smoothed).sameButWarnings s
  · intro settings image remote s
    exact (run_alike smoothed remote).sameButWarnings s

/-- Collaborators that refuse nothing, but are at a loss in three of their first answers about the
job. They remember how often they were asked. -/
@[reducible]
def Willing.faltering : Party Nat where
  react n call := ({
    answer := if n ∈ [3, 5, 6] then .error (.controlPlane "watch" "no answer")
      else .ok (Willing.answer call)
    lasts := some 2 }, n + 1)

/-- A run that has three times no answer passes as it would have with three answers. -/
theorem Run.transients_invisible_faltering :
    let s : Session Nat := { party := 0, entropy := List.replicate (2 * tokenBytes) 0 }
    let r := @run Nat Willing.faltering Willing.settings s
    let r' := @run Nat Willing.faltering.smooth Willing.settings s
    r.1 = .value .passed ∧ r.2.events.length = r'.2.events.length + 3 ∧ SameButWarnings r r' := by
  intro s r r'
  have passed : r.1 = .value .passed := by decide +kernel
  have warned : r.2.events.length = r'.2.events.length + 3 := by decide +kernel
  exact ⟨passed, warned,
    (transients_invisible Willing.faltering.smoothed_smooth).2 Willing.settings "image" rfl s⟩

end Acceptance
