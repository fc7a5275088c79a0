import Acceptance.Collaborators
import Acceptance.Proofs.Origin
import Acceptance.Proofs.Reporting

/-!
# The errors and the warnings of a run

Nothing that goes wrong in a remote run is lost or reported twice: the warnings in its record match
the errors that it does not return.

* `Error.Returned`: the answer that a run returns, told by where it stands in the record;
* `unreturnedErrors`: how many errors are answers that the run neither returns nor resolves;
* `Ledger.countP_isReport`: the reports of a part of a run match those answers;
* `Accounted`: what has become of each error, where the result comes from, what each warning is about,
  and how many there are;
* `Run.errors_accounted`: every remote run is accounted for in this way.
-/

namespace Acceptance

variable {σ α : Type}

/-! ## Errors and warnings, counted -/

/-- A warning that reports the error of a call. -/
def Event.isReport : Event → Bool
  | warned _ (.streamCancelled _) | warned _ (.streamStillOpen ..) | warned _ (.cleanupTimedOut ..) =>
    false
  | warned .. => true
  | _ => false

/-- A report about another call than a search for the test user. -/
def Event.isPlainReport (x : Event) : Bool := x.isReport && !x.isSearchWarning

/-- The warning that the time for the removal is up. -/
def Event.isCleanupStop : Event → Bool
  | warned _ (.cleanupTimedOut ..) => true
  | _ => false

/-- The answer is an error from which the run goes on wherever the call is made. -/
def Event.isTolerated : Event → Bool
  | answered _ call (.error e) => call.tolerates e
  | _ => false

theorem Event.isWarning_of_isReport {x : Event} (h : x.isReport = true) : x.isWarning = true := by
  cases x with
  | warned => rfl
  | asked | answered | abandoned => cases h

theorem Warning.Tells.isReport {w : Warning} {call : Call} {e : Error} (h : w.Tells call e) (t : Nat) :
    (Event.warned t w).isReport = true := by
  unfold Tells at h
  split at h
  case h_7 => exact h.elim
  all_goals rfl

/-- A report is about an error. -/
theorem Warning.About.error {w : Warning} {y : Event} (h : w.About y) {t : Nat}
    (report : (Event.warned t w).isReport = true) :
    ∃ t' call e, y = .answered t' call (.error e) ∧ w.Tells call e := by
  cases h with
  | told tells => exact ⟨_, _, _, rfl, tells⟩
  | stillOpen | stopped | late | timedOut => cases report

namespace Event.Follows

variable {x y : Event}

/-- Except for a search, what is reported is an error that the run always goes on from. -/
theorem tolerated (h : x.Follows y) : x.isPlainReport = y.isTolerated := by
  by_cases report : x.isReport = true
  · cases x with
    | asked | answered | abandoned => cases report
    | warned t w =>
      obtain ⟨t', call, e, rfl, tells⟩ := (h.warning t w rfl).error report
      unfold Warning.Tells at tells
      split at tells
      case h_3 =>
        obtain ⟨-, rfl, pulled⟩ := tells
        simp [isPlainReport, isReport, isSearchWarning, isTolerated, Call.tolerates, pulled]
      case h_7 => exact tells.elim
      all_goals rfl
  · have unreported : x.isReport = false := Bool.eq_false_iff.2 report
    rw [isPlainReport, unreported, Bool.false_and]
    cases y with
    | asked | abandoned | warned => rfl
    | answered t call answer =>
      cases answer with
      | ok => rfl
      | error e =>
        rcases h.error t call e rfl with ⟨t', w, rfl, tells⟩ | again
        · exact absurd (tells.isReport t') report
        · obtain ⟨_, _, _, _, _, _, -, rfl⟩ := eq_of_resolves again
          rfl

/-- The removal is given up exactly when it is reported that its time is up. -/
theorem stopped (h : x.Follows y) : x.isCleanupStop = y.isRemovalCut := by
  by_cases stop : x.isCleanupStop = true
  · cases x with
    | asked | answered | abandoned => cases stop
    | warned t w =>
      have about := h.warning t w rfl
      cases about with
      | timedOut removal => exact (decide_eq_true removal).symm
      | stillOpen | stopped | late => cases stop
      | told tells =>
        unfold Warning.Tells at tells
        split at tells
        case h_7 => exact tells.elim
        all_goals cases stop
  · rw [Bool.eq_false_iff.2 stop]
    cases y with
    | asked | answered | warned => rfl
    | abandoned t call =>
      by_cases removal : call.stage = .removal
      · obtain ⟨t', ns, timeout, rfl⟩ := h.removal t call rfl removal
        exact absurd rfl stop
      · exact (decide_eq_false removal).symm

end Event.Follows

theorem countP_append_congr {p q : Event → Bool} {new old : List Event}
    (newer : new.countP p = new.countP q) (older : old.countP p = old.countP q) :
    (new ++ old).countP p = (new ++ old).countP q := by
  rw [List.countP_append, List.countP_append, newer, older]

section Matched

variable {p q : Event → Bool} (pair : ∀ {x y : Event}, x.Follows y → p x = q y)
  (plain : ∀ {x : Event}, x.isWarning = false → p x = false)

include pair plain

/-- In a chain each event of one kind is matched by the one of the other kind before it. -/
theorem countP_matched {x : Event} {l : List Event} (chain : (x :: l).IsChain Event.Follows)
    (opens : ∀ y ∈ (x :: l).getLast?, y.isWarning = false) :
    (x :: l).countP p + (q x).toNat = (x :: l).countP q := by
  induction l generalizing x with
  | nil => cases last : q x <;> simp [plain (opens x rfl), last]
  | cons y l ih =>
    obtain ⟨follows, chain⟩ := List.isChain_cons_cons.1 chain
    rw [List.getLast?_cons_cons] at opens
    have rest := ih chain opens
    rw [List.countP_cons, List.countP_cons (l := y :: l), pair follows]
    generalize q y = older at rest ⊢
    generalize q x = newer
    cases older <;> cases newer <;> simp at rest ⊢ <;> omega

theorem Ledger.countP_matched {new : List Event} {ending : Ending α} (h : Ledger new ending)
    (free : ∀ x : Event, x.warrants = false → q x = false) : new.countP p = new.countP q := by
  cases new with
  | nil => rfl
  | cons x l =>
    have counted := Acceptance.countP_matched pair plain h.chain h.opens
    simpa [free x (h.closes x rfl).1] using counted

end Matched

namespace Ledger

variable {new after before : List Event} {ending : Ending α} {t : Nat}

theorem countP_tolerated (h : Ledger new ending) :
    new.countP Event.isPlainReport = new.countP Event.isTolerated := by
  apply h.countP_matched Event.Follows.tolerated
  · intro x quiet
    cases x with
    | warned => cases quiet
    | asked | answered | abandoned => rfl
  · intro x free
    cases x with
    | asked | abandoned | warned => rfl
    | answered t call answer =>
      cases answer with
      | ok => rfl
      | error e => exact free

theorem countP_cleanupStop (h : Ledger new ending) :
    new.countP Event.isCleanupStop = new.countP Event.isRemovalCut := by
  apply h.countP_matched Event.Follows.stopped
  · intro x quiet
    cases x with
    | warned => cases quiet
    | asked | answered | abandoned => rfl
  · intro x free
    cases x with
    | asked | answered | warned => rfl
    | abandoned => exact free

/-- An error is the last that happened and the result, or the next event settles it. -/
theorem settles {call : Call} {e : Error} (h : Ledger new ending)
    (split : new = after ++ .answered t call (.error e) :: before) :
    after = [] ∧ ending = .error e ∨ ∃ x, after.getLast? = some x ∧
      ((∃ t' w, x = .warned t' w ∧ w.Tells call e) ∨ x.resolves call e = true) := by
  subst split
  rcases List.eq_nil_or_concat after with rfl | ⟨later, x, rfl⟩
  · exact .inl ⟨rfl, (h.closes _ rfl).2 t call e rfl⟩
  · have chain := h.chain
    rw [List.concat_eq_append, List.append_assoc] at chain
    have follows := (List.isChain_cons_cons.1 (List.isChain_append.1 chain).2.1).1
    exact .inr ⟨x, by simp, follows.error t call e rfl⟩

/-- A warning has its cause right before it. -/
theorem caused {w : Warning} (h : Ledger new ending) (split : new = after ++ .warned t w :: before) :
    ∃ y, before.head? = some y ∧ w.About y := by
  subst split
  cases before with
  | nil => cases h.opens (.warned t w) (by simp)
  | cons y before =>
    have follows := (List.isChain_cons_cons.1 (List.isChain_append.1 h.chain).2.1).1
    exact ⟨y, rfl, follows.warning t w rfl⟩

end Ledger

/-- The warnings of each kind. -/
theorem countP_isWarning (l : List Event) : l.countP Event.isWarning =
    l.countP Event.isReport + l.countP Event.isStillOpen + l.countP Event.isStreamStop +
      l.countP Event.isCleanupStop := by
  induction l with
  | nil => rfl
  | cons x l ih =>
    simp only [List.countP_cons, ih]
    cases x with
    | warned t w => cases w <;> simp [Event.isReport, Event.isWarning, Event.isStillOpen,
        Event.isStreamStop, Event.isCleanupStop] <;> omega
    | asked | answered | abandoned => simp [Event.isReport, Event.isWarning, Event.isStillOpen,
        Event.isStreamStop, Event.isCleanupStop]

theorem countP_isReport (l : List Event) : l.countP Event.isReport =
    l.countP Event.isPlainReport + l.countP Event.isSearchWarning := by
  induction l with
  | nil => rfl
  | cons x l ih =>
    simp only [List.countP_cons, ih]
    cases x with
    | warned t w => cases w <;>
        simp [Event.isPlainReport, Event.isReport, Event.isSearchWarning] <;> omega
    | asked | answered | abandoned => simp [Event.isPlainReport, Event.isReport, Event.isSearchWarning]

/-! ## What a run returns -/

/-- A call was answered with the error, and that answer is what the run returns: the last that happened
but for the removal, when `after` has happened since then. Two calls may be answered alike. -/
structure Error.Returned (e : Error) (call : Call) (after : List Event) (result : Ending RunOutcome) :
    Prop where
  ended : result = .error e
  worked : call.stage ≠ .removal
  removal : ∀ x ∈ after, x.stage = .removal

instance (e : Error) (call : Call) (after : List Event) (result : Ending RunOutcome) :
    Decidable (e.Returned call after result) :=
  decidable_of_iff (result = .error e ∧ call.stage ≠ .removal ∧ ∀ x ∈ after, x.stage = .removal)
    ⟨fun ⟨ended, worked, removal⟩ => ⟨ended, worked, removal⟩, fun h => ⟨h.1, h.2, h.3⟩⟩

theorem Error.not_returned_of_stage {e : Error} {call : Call} {after : List Event} {x : Event}
    {result : Ending RunOutcome} (later : x ∈ after) (work : x.stage ≠ .removal) :
    ¬ e.Returned call after result := fun h => work (h.removal x later)

/-- What became of an error that a collaborator gave as an answer, when `after` has happened since
then. -/
inductive Error.Fate (e : Error) (call : Call) (after : List Event) (result : Ending RunOutcome) :
    Prop where
  /-- The next event is the warning about it, and the run returns another answer or none. -/
  | reported {t : Nat} {w : Warning} (next : after.getLast? = some (.warned t w))
      (tells : w.Tells call e) (kept : ¬ e.Returned call after result) : Fate e call after result
  /-- The next event is another search for the user who exists already. -/
  | resolved {x : Event} (next : after.getLast? = some x) (again : x.resolves call e = true)
      (kept : ¬ e.Returned call after result) : Fate e call after result
  /-- The run returns it, and the next event is no warning. -/
  | returned (returned : e.Returned call after result)
      (unreported : ∀ x ∈ after.getLast?, x.isWarning = false) : Fate e call after result

/-- The event is an error for an answer that the run neither returns nor resolves by another search,
when `after` has happened since then. -/
def Event.isUnreturned (result : Ending RunOutcome) (after : List Event) : Event → Bool
  | answered _ call (.error e) =>
    !decide (e.Returned call after result) && !after.getLast?.any (·.resolves call e)
  | _ => false

/-- How many answers in `record` are errors that the run neither returns nor resolves by another
search, when `after` has happened since then. -/
def unreturnedErrors (result : Ending RunOutcome) : (after record : List Event) → Nat
  | _, [] => 0
  | after, x :: before =>
    (x.isUnreturned result after).toNat + unreturnedErrors result (after ++ [x]) before

section Unreturned

variable {result : Ending RunOutcome} {after : List Event}

theorem unreturnedErrors_append (new old : List Event) : unreturnedErrors result after (new ++ old) =
    unreturnedErrors result after new + unreturnedErrors result (after ++ new) old := by
  induction new generalizing after with
  | nil => simp [unreturnedErrors]
  | cons x new ih =>
    have moved : after ++ [x] ++ new = after ++ x :: new := List.append_assoc ..
    rw [List.cons_append, unreturnedErrors, unreturnedErrors, ih, moved, Nat.add_assoc]

/-- What the run does not return is reported by the next event, unless that resolves it. -/
theorem Event.Follows.isUnreturned {x y : Event} (h : x.Follows y)
    (kept : ∀ t call e, y = .answered t call (.error e) → ¬ e.Returned call (after ++ [x]) result) :
    y.isUnreturned result (after ++ [x]) = x.isReport := by
  by_cases report : x.isReport = true
  · cases x with
    | asked | answered | abandoned => cases report
    | warned t w =>
      obtain ⟨t', call, e, rfl, tells⟩ := (h.warning t w rfl).error report
      have kept := kept t' call e rfl
      have unresolved : (Event.warned t w).resolves call e = false := rfl
      simp [Event.isUnreturned, kept, unresolved, report]
  · rw [Bool.eq_false_iff.2 report]
    cases y with
    | asked | abandoned | warned => rfl
    | answered t call answer =>
      cases answer with
      | ok => rfl
      | error e =>
        rcases h.error t call e rfl with ⟨t', w, rfl, tells⟩ | again
        · exact absurd (tells.isReport t') report
        · simp [Event.isUnreturned, again]

/-- In a chain of which nothing but the first event may be returned, each report is matched by an
error. -/
theorem unreturnedErrors_matched {x : Event} {l : List Event} (chain : (x :: l).IsChain Event.Follows)
    (opens : ∀ y ∈ (x :: l).getLast?, y.isWarning = false)
    (kept : ∀ t call e, .answered t call (.error e) ∈ l → ∀ later,
      ¬ e.Returned call (after ++ x :: later) result) :
    unreturnedErrors result (after ++ [x]) l = (x :: l).countP Event.isReport := by
  induction l generalizing x after with
  | nil =>
    have quiet : x.isReport = false := Bool.eq_false_iff.2 fun report => by
      cases (opens x rfl).symm.trans (Event.isWarning_of_isReport report)
    simp [unreturnedErrors, quiet]
  | cons y l ih =>
    obtain ⟨follows, chain⟩ := List.isChain_cons_cons.1 chain
    rw [List.getLast?_cons_cons] at opens
    have settled : y.isUnreturned result (after ++ [x]) = x.isReport :=
      follows.isUnreturned fun t call e same => kept t call e (same ▸ List.mem_cons_self) []
    have rest : unreturnedErrors result (after ++ [x] ++ [y]) l = (y :: l).countP Event.isReport := by
      refine ih chain opens fun t call e he later => ?_
      rw [List.append_assoc]
      exact kept t call e (List.mem_cons_of_mem _ he) (y :: later)
    rw [unreturnedErrors, settled, rest, List.countP_cons (a := x)]
    cases x.isReport <;> simp; omega

/-- In a ledger each report is matched by an error that is not returned. -/
theorem Ledger.countP_isReport {new : List Event} {ending : Ending α} (h : Ledger new ending)
    (last : ∀ t call e, new.head? = some (.answered t call (.error e)) → e.Returned call after result)
    (kept : ∀ x ∈ new, ∀ t call e, .answered t call (.error e) ∈ new → ∀ later,
      ¬ e.Returned call (after ++ x :: later) result) :
    unreturnedErrors result after new = new.countP Event.isReport := by
  cases new with
  | nil => rfl
  | cons x l =>
    have first : x.isUnreturned result after = false := by
      cases x with
      | asked | abandoned | warned => rfl
      | answered t call answer =>
        cases answer with
        | ok => rfl
        | error e => simp [Event.isUnreturned, last t call e rfl]
    have rest := unreturnedErrors_matched h.chain h.opens fun t call e he =>
      kept x List.mem_cons_self t call e (List.mem_cons_of_mem _ he)
    rw [unreturnedErrors, first, rest, Bool.toNat_false, Nat.zero_add]

end Unreturned

/-! ## Whole runs -/

/-- The record of a whole run, the last event first. -/
structure Accounted (settings : RunSettings) (record : List Event) (result : Ending RunOutcome) :
    Prop where
  fate : ∀ after t call e before, record = after ++ .answered t call (.error e) :: before →
    e.Fate call after result
  /-- The run returns an answer, or an error that it found itself. -/
  source : ∀ e, result = .error e → e.Own settings ∨ ∃ after t call before,
    record = after ++ .answered t call (.error e) :: before ∧ e.Returned call after result
  cause : ∀ after t w before, record = after ++ .warned t w :: before →
    ∃ y, before.head? = some y ∧ w.About y
  /-- There are as many warnings as errors that are not returned, but for the particular cases. -/
  count : record.countP Event.isWarning = unreturnedErrors result [] record +
    (outputOpen settings.observer.jobTimeout record).toNat +
      (outputCut settings.observer.jobTimeout record).toNat +
      (record.any Event.isRemovalCut).toNat
  /-- The errors that are not returned are that of the first search and those from which a run always
  goes on. -/
  kinds : unreturnedErrors result [] record =
    record.countP Event.isTolerated + (searchFailed record).toNat
  /-- A run whose output was cut short by its cancellation does not wait for the verdict. -/
  cut : outputCut settings.observer.jobTimeout record = true →
    result = .error (.cancelled "job completion") ∨ result = .crashed

/-- The parts of the record of a whole run: the removal, what the job added, and the preparation. The
ending is that of the run but for the removal. -/
structure Conducted (settings : RunSettings) (removal job prepared : List Event) (ending : Ending α) :
    Prop where
  removed : Ledger removal (Ending.value () : Ending Unit)
  removes : ∀ x ∈ removal, x.stage = .removal
  once : removal.countP Event.isRemovalCut ≤ 1
  ledger : Ledger (job ++ prepared) ending
  executes : ∀ x ∈ job, x.stage.ofJob = true
  streamed : Streamed settings.observer.jobTimeout job
  prepares : Preparing prepared
  blames : ∀ e, ending = .error e → e.Own settings ∨ ∃ t call before,
    job ++ prepared = .answered t call (.error e) :: before

theorem Event.unsearching_of_stage {x : Event} (h : x.stage ≠ .identity) : x.Unsearching := by
  cases x with
  | asked => exact ⟨rfl, rfl⟩
  | answered t call answer =>
    cases call <;> first | exact ⟨rfl, rfl⟩ | exact absurd rfl h
  | abandoned t call =>
    cases call <;> first | exact ⟨rfl, rfl⟩ | exact absurd rfl h
  | warned t w =>
    cases w <;> first | exact ⟨rfl, rfl⟩ | exact absurd rfl h

theorem countP_eq_any {p : Event → Bool} {l : List Event} (h : l.countP p ≤ 1) :
    l.countP p = (l.any p).toNat := by
  cases some : l.any p with
  | false =>
    rw [List.countP_eq_zero.2 fun x hx => by simpa using List.any_eq_false.1 some x hx]
    rfl
  | true =>
    have positive := List.countP_pos_iff.2 (List.any_eq_true.1 some)
    change _ = 1
    omega

namespace Conducted

variable {settings : RunSettings} {t : Nat} {removal job prepared after before : List Event}
  {ending : Ending α} {result : Ending RunOutcome}

/-- Before the removal nothing belongs to it. -/
theorem working (h : Conducted settings removal job prepared ending) :
    ∀ x ∈ job ++ prepared, x.stage ≠ .removal := by
  intro x hx stage
  rcases List.mem_append.1 hx with hx | hx
  · have executes := h.executes x hx
    rw [stage] at executes
    cases executes
  · have early := h.prepares.early x hx
    rw [stage] at early
    rcases early with early | early <;> cases early

theorem fate {call : Call} {e : Error} (h : Conducted settings removal job prepared ending)
    (returns : ∀ e, result = .error e ↔ ending = .error e)
    (split : removal ++ (job ++ prepared) = after ++ .answered t call (.error e) :: before) :
    e.Fate call after result := by
  have settled : ∀ {x}, after.getLast? = some x →
      ((∃ t' w, x = .warned t' w ∧ w.Tells call e) ∨ x.resolves call e = true) →
      ¬ e.Returned call after result → e.Fate call after result := by
    rintro x next (⟨t', w, rfl, tells⟩ | again) kept
    · exact .reported next tells kept
    · exact .resolved next again kept
  -- The error is one of the part before the removal, or one of the removal.
  have earlier : ∀ later, after = removal ++ later →
      job ++ prepared = later ++ .answered t call (.error e) :: before → e.Fate call after result := by
    rintro later rfl split
    have worked : call.stage ≠ .removal := h.working (.answered t call (.error e)) (by simp [split])
    rcases h.ledger.settles split with ⟨rfl, ended⟩ | ⟨x, next, settles⟩
    · rw [List.append_nil]
      exact .returned ⟨(returns e).2 ended, worked, h.removes⟩ h.removed.opens
    · have mem : x ∈ later := List.mem_of_getLast? next
      have work : x.stage ≠ .removal := h.working x (by simp [split, mem])
      refine settled ?_ settles (Error.not_returned_of_stage (List.mem_append_right _ mem) work)
      rw [List.getLast?_append_of_ne_nil _ (List.ne_nil_of_mem mem), next]
  rcases List.append_eq_append_iff.1 split with ⟨later, same, split⟩ | ⟨inner, same, split⟩
  · exact earlier later same split
  · cases inner with
    | nil => exact earlier [] (by simpa using same.symm) split.symm
    | cons x inner =>
      cases split
      rcases h.removed.settles same with ⟨-, impossible⟩ | ⟨x, next, settles⟩
      · cases impossible
      · have removing : call.stage = .removal := h.removes (.answered t call (.error e)) (by simp [same])
        exact settled next settles fun returned => returned.worked removing

theorem source (h : Conducted settings removal job prepared ending)
    (returns : ∀ e, result = .error e ↔ ending = .error e) {e : Error} (failed : result = .error e) :
    e.Own settings ∨ ∃ after t call before,
      removal ++ (job ++ prepared) = after ++ .answered t call (.error e) :: before ∧
        e.Returned call after result := by
  rcases h.blames e ((returns e).1 failed) with own | ⟨t, call, before, answered⟩
  · exact .inl own
  · have worked : call.stage ≠ .removal :=
      h.working (.answered t call (.error e)) (by simp [answered])
    exact .inr ⟨removal, t, call, before, by rw [answered], failed, worked, h.removes⟩

theorem cause {w : Warning} (h : Conducted settings removal job prepared ending)
    (split : removal ++ (job ++ prepared) = after ++ .warned t w :: before) :
    ∃ y, before.head? = some y ∧ w.About y := by
  rcases List.append_eq_append_iff.1 split with ⟨later, -, split⟩ | ⟨inner, same, split⟩
  · exact h.ledger.caused split
  · cases inner with
    | nil =>
      have first : job ++ prepared = [] ++ .warned t w :: before := split.symm
      exact h.ledger.caused first
    | cons x inner =>
      cases split
      obtain ⟨y, first, about⟩ := h.removed.caused same
      refine ⟨y, ?_, about⟩
      change (inner ++ (job ++ prepared)).head? = some y
      rw [List.head?_append, first]
      rfl

variable (h : Conducted settings removal job prepared ending)

include h

theorem searched : Searched (removal ++ (job ++ prepared)) := by
  rw [← List.append_assoc]
  apply h.prepares.searched.onward
  rw [List.forall_mem_append]
  constructor <;> intro x hx <;> apply Event.unsearching_of_stage
  · rw [h.removes x hx]
    decide
  · intro stage
    have executes := h.executes x hx
    rw [stage] at executes
    cases executes

theorem filter_output :
    (removal ++ (job ++ prepared)).filter Event.ofOutput = job.filter Event.ofOutput ∧
      Streamed settings.observer.jobTimeout (removal ++ (job ++ prepared)) := by
  have before : ∀ x ∈ prepared, x.Unstreaming := by
    intro x hx
    apply Event.Unstreaming.of_stage <;> rcases h.prepares.early x hx with stage | stage <;>
      rw [stage] <;> decide
  have later : ∀ x ∈ removal, x.Unstreaming := by
    intro x hx
    apply Event.Unstreaming.of_stage <;> rw [h.removes x hx] <;> decide
  exact ⟨(filter_before later).trans (filter_after before), (h.streamed.after before).before later⟩

/-- Each report is about an error that is not returned. -/
theorem countP_isReport (returns : ∀ e, result = .error e ↔ ending = .error e) :
    unreturnedErrors result [] (removal ++ (job ++ prepared)) =
      (removal ++ (job ++ prepared)).countP Event.isReport := by
  have removing : unreturnedErrors result [] removal = removal.countP Event.isReport := by
    apply h.removed.countP_isReport
    · intro t call e last
      cases (h.removed.closes _ last).2 t call e rfl
    · exact fun x hx t call e he later returned => returned.worked (h.removes _ he)
  have working : unreturnedErrors result ([] ++ removal) (job ++ prepared) =
      (job ++ prepared).countP Event.isReport := by
    apply h.ledger.countP_isReport
    · intro t call e last
      refine ⟨(returns e).2 ((h.ledger.closes _ last).2 t call e rfl), ?_, h.removes⟩
      exact h.working (.answered t call (.error e)) (List.mem_of_head? last)
    · exact fun x hx t call e he later => Error.not_returned_of_stage (by simp) (h.working x hx)
  rw [unreturnedErrors_append, removing, working]
  exact List.countP_append.symm

theorem countP_removalCut : (removal ++ (job ++ prepared)).countP Event.isCleanupStop =
    ((removal ++ (job ++ prepared)).any Event.isRemovalCut).toNat := by
  have earlier : (job ++ prepared).countP Event.isRemovalCut = 0 := by
    apply List.countP_eq_zero.2
    intro x hx cut
    cases x with
    | abandoned t call => exact h.working (.abandoned t call) hx (of_decide_eq_true cut)
    | asked | answered | warned => cases cut
  have removals := countP_eq_any (p := Event.isRemovalCut) (l := removal ++ (job ++ prepared))
    (by rw [List.countP_append, earlier]; exact h.once)
  rw [← removals]
  exact countP_append_congr h.removed.countP_cleanupStop h.ledger.countP_cleanupStop

theorem count (returns : ∀ e, result = .error e ↔ ending = .error e) :
    (removal ++ (job ++ prepared)).countP Event.isWarning =
      unreturnedErrors result [] (removal ++ (job ++ prepared)) +
      (outputOpen settings.observer.jobTimeout (removal ++ (job ++ prepared))).toNat +
      (outputCut settings.observer.jobTimeout (removal ++ (job ++ prepared))).toNat +
      ((removal ++ (job ++ prepared)).any Event.isRemovalCut).toNat := by
  rw [countP_isWarning, ← h.countP_isReport returns, h.filter_output.2.stillOpen,
    h.filter_output.2.stopped, h.countP_removalCut]

theorem kinds (returns : ∀ e, result = .error e ↔ ending = .error e) :
    unreturnedErrors result [] (removal ++ (job ++ prepared)) =
      (removal ++ (job ++ prepared)).countP Event.isTolerated +
        (searchFailed (removal ++ (job ++ prepared))).toNat := by
  have searched : _ = _ := h.searched
  have tolerated : (removal ++ (job ++ prepared)).countP Event.isPlainReport = _ :=
    countP_append_congr h.removed.countP_tolerated h.ledger.countP_tolerated
  rw [h.countP_isReport returns, Acceptance.countP_isReport, searched, tolerated]

theorem accounted (ended : result = ending.map fun _ => .passed)
    (cut : outputCut settings.observer.jobTimeout job = true →
      ending = .error (.cancelled "job completion") ∨ ending = .crashed) :
    Accounted settings (removal ++ (job ++ prepared)) result := by
  have returns : ∀ e, result = .error e ↔ ending = .error e := by
    rw [ended]
    cases ending <;> simp [Ending.map]
  refine ⟨?_, ?_, ?_, h.count returns, h.kinds returns, fun stopped => ?_⟩
  · exact fun _ _ _ _ _ split => h.fate returns split
  · exact fun _ failed => h.source returns failed
  · exact fun _ _ _ _ split => h.cause split
  · rw [outputCut_congr h.filter_output.1] at stopped
    rcases cut stopped with same | rfl
    · exact .inl ((returns _).2 same)
    · exact .inr ended

end Conducted

/-- Over the network only the program that runs the suite on this machine warns when it is stopped. -/
theorem Collaborators.mute {κ ι ρ : Type} [Http.Transport κ] [Http.Transport ι] [Launcher ρ] :
    Party.Mute (Collaborators κ ι ρ) := by
  have follows : ∀ (ns pod : String) (looks waited : Nat) (c : Cluster.Connection κ),
      (Cluster.Client.follow ns pod waited looks c).1.whenStopped = [] := by
    intro ns pod looks
    induction looks with
    | zero => exact fun _ _ => rfl
    | succ looks ih =>
      intro waited c
      unfold Cluster.Client.follow
      split
      · rfl
      · exact ih _ _
      · rfl
      · rfl
  intro c call remote
  cases call with
  | followPodLogs ns pod => exact follows ns pod c.looks 0 c.cluster
  | runTests => exact absurd rfl remote
  | _ => rfl

/-- No error of a collaborator is lost or reported twice: either the run returns that answer, or the next
event is the one warning about it, or the search for a user who exists already. What a run returns is
such an answer or an error of its own, and it gives no warning without such a cause. -/
theorem Run.errors_accounted [Party σ] (mute : Party.Mute σ) {settings : RunSettings} {image : String}
    (remote : settings.mode = .remote image) {s : Session σ} (fresh : s.Fresh) :
    Accounted settings (run settings s).2.events (run settings s).1 := by
  obtain ⟨prepared, events, ledger, prepares, watched⟩ :=
    prepare_accounts mute settings image s fresh.watched
  rw [fresh.events, List.append_nil] at events
  generalize made : prepare settings image s = p at events ledger watched
  obtain ⟨ending, s₁⟩ := p
  dsimp only at events ledger watched
  by_cases ready : ∃ p, ending = .value p
  · obtain ⟨p, rfl⟩ := ready
    obtain ⟨job, events', executed, watched'⟩ := runRemote_executes mute settings image p.names
      p.config p.credentialsAvailable s₁ watched
    generalize executes : runRemote settings image p.names p.config p.credentialsAvailable s₁ = r
      at events' executed watched'
    obtain ⟨ending, s₂⟩ := r
    dsimp only at events' executed watched'
    rw [events] at events'
    have blames : ∀ e, ending = .error e → e.Own settings ∨ ∃ t call before,
        job ++ prepared = .answered t call (.error e) :: before := by
      rintro e rfl
      exact events' ▸ runRemote_blames settings image _ _ _ s₁ s₂ e executes
    by_cases finished : ending.Over
    · obtain ⟨removal, events'', removed, removes, once⟩ :=
        Cleanup.run_ledger mute settings.namespaceName p.names settings.cleanupTimeout watched'
      rw [events'] at events''
      have conducted : Conducted settings removal job prepared ending :=
        ⟨removed, removes, once, ledger.append executed.ledger, executed.stages, executed.streamed,
          prepares, blames⟩
      rw [run_over remote made executes finished watched', events'']
      exact conducted.accounted rfl executed.cut
    · have conducted : Conducted settings [] job prepared ending :=
        ⟨.nil, by simp, by simp, ledger.append executed.ledger, executed.stages, executed.streamed,
          prepares, blames⟩
      have accounted := conducted.accounted rfl executed.cut
      rw [List.nil_append, ← events'] at accounted
      rw [run_unended remote made executes finished]
      exact accounted
  · rw [run_unprepared remote made (by simpa using ready)]
    have blames : ∀ e, ending = .error e → e.Own settings ∨ ∃ t call before,
        [] ++ prepared = .answered t call (.error e) :: before := by
      rintro e rfl
      exact events ▸ prepare_blames settings image s s₁ e made
    have conducted : Conducted settings [] [] prepared ending :=
      ⟨.nil, by simp, by simp, ledger, by simp, .unstreaming (by simp), prepares, blames⟩
    have accounted := conducted.accounted rfl (by intro cut; cases cut)
    rw [List.nil_append, List.nil_append, ← events] at accounted
    exact accounted

/-- Collaborators that refuse the first call of some stages. -/
structure Reluctant where
  refused : List Stage := []

namespace Reluctant

def error : Error := .controlPlane "call" "connection reset"

/-- Whether a first call of the kind is refused. -/
def refuses : Call → Bool
  | .findUser .. | .findJobPod .. | .followPodLogs .. | .jobStatus .. | .deleteJob .. => true
  | _ => false

/-- The site has an identity provider. -/
def answer : (call : Call) → call.Answer
  | .getSite _ => .object [("spec", .object [("domain", .string "example.org"),
      ("auth", .object [("enabled", .bool true)])])]
  | call => Willing.answer call

instance : Party Reluctant where
  react p call :=
    if refuses call && !p.refused.contains call.stage then
      ({ answer := .error error }, ⟨call.stage :: p.refused⟩)
    else ({ answer := .ok (answer call) }, p)

theorem mute : Party.Mute Reluctant := by
  intro p call _
  simp only [Party.react]
  split <;> rfl

def start : Session Reluctant where
  party := {}
  entropy := List.replicate (2 * tokenBytes + Password.bufferSize) 0

theorem fresh : start.Fresh := ⟨rfl, rfl⟩

end Reluctant

/-- A run that passes although five calls are refused. -/
theorem Run.errors_accounted_reluctant :
    (run Willing.settings Reluctant.start).1 = .value .passed ∧
    (run Willing.settings Reluctant.start).2.events.countP Event.isWarning = 5 ∧
    unreturnedErrors (.value .passed) [] (run Willing.settings Reluctant.start).2.events = 5 ∧
    Accounted Willing.settings
      (run Willing.settings Reluctant.start).2.events (run Willing.settings Reluctant.start).1 := by
  have passed : (run Willing.settings Reluctant.start).1 = .value .passed := by decide +kernel
  have warned : (run Willing.settings Reluctant.start).2.events.countP Event.isWarning = 5 := by
    decide +kernel
  have left : unreturnedErrors (.value .passed) [] (run Willing.settings Reluctant.start).2.events = 5 := by
    decide +kernel
  exact ⟨passed, warned, left, errors_accounted Reluctant.mute rfl Reluctant.fresh⟩

end Acceptance
