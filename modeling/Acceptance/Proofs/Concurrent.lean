import Acceptance.Proofs.Stores

/-!
# Provisioning at the same time

Several invocations provision one identity, and their calls come in any order.

* `Joint.Step`, `Joint.Run`: one step of one invocation, and what all of them do together;
* `Joint.Run.transcript`, `Joint.Run.served`: each invocation takes one of its own courses, and the
  calls of all are served one after the other;
* `Provision.stored_iff_current`: when the secret holds the password that the provider knows;
* `Provision.not_stored_current`: a run of two in which it does not.
-/

namespace Acceptance

/-- Invocations that go on, and what they share. -/
structure Joint (ι : Type) where
  stores : Stores
  runs : ι → Procedure Bool

/-- The calls of all invocations, the first one first. -/
abbrev History (ι : Type) := List (ι × Answered)

variable {ι : Type} [DecidableEq ι]

/-- The calls of one invocation. -/
def History.of (h : History ι) (i : ι) : List Answered :=
  h.filterMap fun y => if y.1 = i then some y.2 else none

namespace Joint

/-- `j` with the invocation `i` gone on to `p`. -/
def goOn (j : Joint ι) (w : Stores) (i : ι) (p : Procedure Bool) : Joint ι where
  stores := w
  runs k := if k = i then p else j.runs k

/-- One step of the invocation `i`. -/
inductive Step (j : Joint ι) (i : ι) : Option Answered → Joint ι → Prop where
  | silent {p : Procedure Bool} (step : (j.runs i).Step none p) :
      Step j i none (j.goOn j.stores i p)
  | call {x : Answered} {p : Procedure Bool} {w : Stores} (step : (j.runs i).Step (some x) p)
      (serves : j.stores.Serves x w) : Step j i (some x) (j.goOn w i p)

inductive Run : Joint ι → History ι → Joint ι → Prop where
  | refl {j : Joint ι} : Run j [] j
  | step {j j' j'' : Joint ι} {i : ι} {call : Option Answered} {h : History ι}
      (step : Step j i call j') (rest : Run j' h j'') : Run j (call.toList.map (i, ·) ++ h) j''

variable {j j' : Joint ι} {h : History ι} {i : ι}

theorem Step.procedure {call : Option Answered} (step : Step j i call j') :
    (j.runs i).Step call (j'.runs i) ∧ ∀ k, k ≠ i → j'.runs k = j.runs k := by
  cases step with
  | silent step => exact ⟨by simpa [goOn] using step, fun k other => if_neg other⟩
  | call step serves => exact ⟨by simpa [goOn] using step, fun k other => if_neg other⟩

/-- An invocation that came to its end took one of its courses. -/
theorem Run.transcript (run : Run j h j') {result : Except Error Bool}
    (done : j'.runs i = .done result) : (j.runs i).Transcript (h.of i) result := by
  induction run with
  | refl =>
    rw [done]
    exact .done
  | step step rest ih =>
    rename_i k call h
    obtain ⟨own, others⟩ := step.procedure
    by_cases same : i = k
    · subst same
      have told := Procedure.Transcript.step own (ih done)
      cases call <;> simpa [History.of] using told
    · have told := ih done
      rw [others i same] at told
      cases call with
      | none => exact told
      | some x => simpa [History.of, Ne.symm same] using told

/-- The calls of all are served one after the other. -/
theorem Run.served (run : Run j h j') : Stores.Served j.stores (h.map (·.2)) j'.stores := by
  induction run with
  | refl => exact .nil
  | step step rest ih =>
    cases step with
    | silent => exact ih
    | call _ serves => exact .cons serves ih

/-- What comes of invocations that take their steps in this order and draw these passwords. -/
def play (passwords : ι → String) : List ι → Joint ι → History ι × Joint ι
  | [], j => ([], j)
  | i :: turns, j =>
    match j.runs i with
    | .done _ => play passwords turns j
    | .ask call next =>
      let (answer, w) := j.stores.serve call
      let (h, j') := play passwords turns (j.goOn w i (next answer))
      ((i, ⟨call, answer⟩) :: h, j')
    | .warn _ next => play passwords turns (j.goOn j.stores i next)
    | .password next => play passwords turns (j.goOn j.stores i (next (passwords i)))

theorem play_run {passwords : ι → String} (drawn : ∀ i, Procedure.Drawn (passwords i))
    (turns : List ι) (j : Joint ι) :
    Run j (j.play passwords turns).1 (j.play passwords turns).2 := by
  induction turns generalizing j with
  | nil => exact .refl
  | cons i turns ih =>
    simp only [play]
    split
    · exact ih j
    · rename_i call next asks
      have step : (j.runs i).Step (some ⟨call, (j.stores.serve call).1⟩)
          (next (j.stores.serve call).1) := by
        rw [asks]
        exact .ask _
      exact .step (.call step (j.stores.serves_serve call)) (ih _)
    · rename_i next warns
      have step : (j.runs i).Step none next := by
        rw [warns]
        exact .warn
      exact .step (.silent step) (ih _)
    · rename_i next draws
      have step : (j.runs i).Step none (next (passwords i)) := by
        rw [draws]
        exact .draw (drawn i)
      exact .step (.silent step) (ih _)

end Joint

/-- The secret was written. -/
def Answered.Writes (x : Answered) : Prop := x.call.writes ∧ x.error? = none

namespace History

theorem mem_of {h : History ι} {i : ι} {x : Answered} : x ∈ h.of i ↔ (i, x) ∈ h := by
  simp only [of, List.mem_filterMap]
  constructor
  · rintro ⟨⟨k, y⟩, hy, same⟩
    split at same
    · rename_i own
      cases same
      cases own
      exact hy
    · cases same
  · exact fun hx => ⟨(i, x), hx, if_pos rfl⟩

theorem of_append (earlier later : History ι) (i : ι) :
    of (earlier ++ later) i = earlier.of i ++ later.of i := List.filterMap_append

/-- The last call of the kind `P` is one of `i`. -/
def LastBy (P : Answered → Prop) (h : History ι) (i : ι) : Prop :=
  ∃ before x after, h = before ++ (i, x) :: after ∧ P x ∧ ∀ y ∈ after, ¬ P y.2

omit [DecidableEq ι] in
theorem exists_lastBy {P : Answered → Prop} {h : History ι} (some : ∃ y ∈ h, P y.2) :
    ∃ i, h.LastBy P i := by
  induction h with
  | nil => simp at some
  | cons y h ih =>
    by_cases later : ∃ y ∈ h, P y.2
    · obtain ⟨i, before, x, after, rfl, holds, last⟩ := ih later
      exact ⟨i, y :: before, x, after, rfl, holds, last⟩
    · obtain ⟨z, hz, holds⟩ := some
      rcases List.mem_cons.1 hz with rfl | hz
      · exact ⟨z.1, [], z.2, h, rfl, holds, fun y hy holds' => later ⟨y, hy, holds'⟩⟩
      · exact absurd ⟨z, hz, holds⟩ later

/-- The invocation gives the test user the password, or tries to. -/
def Gives (h : History ι) (i : ι) (p : String) : Prop := ∃ x ∈ h.of i, x.call.password? = some p

end History

namespace Provision

open Procedure

variable {r : IdentityRequest}

/-- A password is reset only for a user who was found before. -/
theorem Provisioned.found {before after : List Answered} {y : Answered} {result : Except Error Bool}
    (h : Provisioned r (before ++ y :: after) result) {id : String}
    (reset : y.call.reset? = some id) :
    ∃ x ∈ before, x.found? = some id := by
  rcases List.eq_nil_or_concat before with rfl | ⟨before, x, rfl⟩
  · obtain ⟨_, _, same, _⟩ := h.checks
    cases same
    cases reset
  · refine ⟨x, by simp, ?_⟩
    have adjacent : before.concat x ++ y :: after = before ++ x :: y :: after := by simp
    exact List.isChain_iff_forall_rel_of_append_cons_cons.1 h.resets.2 adjacent id reset

/-- Whose password is reset is by then a user at the provider, whatever the others did meanwhile. -/
theorem hasId_of_reset {before after : History ι} {i : ι} {x : Answered} {w w' : Stores}
    {result : Except Error Bool} {id : String}
    (promises : Provisioned r (History.of (before ++ (i, x) :: after) i) result)
    (served : Stores.Served w (before.map (·.2)) w') (reset : x.call.reset? = some id) :
    Stores.HasId r id w' := by
  have own : History.of ((i, x) :: after) i = x :: History.of after i := by simp [History.of]
  rw [History.of_append, own] at promises
  obtain ⟨y, hy, found⟩ := promises.found reset
  have asked := promises.addresses y (List.mem_append_left _ hy)
  obtain ⟨earlier, later, rfl⟩ := List.append_of_mem (History.mem_of.1 hy)
  rw [List.map_append, List.map_cons] at served
  obtain ⟨w₁, _, second⟩ := served.split
  cases second with
  | cons serves rest =>
    exact rest.keeps (fun _ _ serves => serves.hasId) (serves.found asked found)

/-- Invocations that start together, for an identity that has no secret. -/
structure Together (r : IdentityRequest) (j : Joint ι) : Prop where
  runs : ∀ i, j.runs i = ensure r
  unknown : j.stores.secrets r.namespaceName r.credentialSecret = none

variable {j j' : Joint ι} {h : History ι} (together : Together r j) (run : Joint.Run j h j')
  (ended : ∀ i, ∃ new, j'.runs i = .done (.ok new))

include together run ended

theorem provisioned (i : ι) : ∃ new, Provisioned r (h.of i) (.ok new) := by
  obtain ⟨new, done⟩ := ended i
  have told := run.transcript done
  rw [together.runs i] at told
  exact ⟨new, (ensure_ensured told).provisioned⟩

theorem gives_unique {i : ι} {p q : String} (hp : h.Gives i p) (hq : h.Gives i q) : p = q := by
  obtain ⟨new, promises⟩ := provisioned together run ended i
  obtain ⟨_, all, _⟩ := promises.password
  obtain ⟨x, hx, given⟩ := hp
  obtain ⟨y, hy, given'⟩ := hq
  exact (all x hx p given).trans (all y hy q given').symm

/-- Somebody writes the secret: without one, nobody finds it. -/
theorem exists_writes (i : ι) : ∃ y ∈ h, y.2.Writes := by
  obtain ⟨new, promises⟩ := provisioned together run ended i
  refine Classical.byContradiction fun never => ?_
  cases new with
  | true =>
    obtain ⟨x, hx, writes⟩ := promises.true_iff.1 rfl
    exact never ⟨_, History.mem_of.1 hx, writes⟩
  | false =>
    obtain ⟨answer, rest, calls, known, _⟩ := promises.checks
    cases known.1 rfl
    have asked : (i, _) ∈ h := History.mem_of.1 (calls ▸ List.mem_cons_self)
    obtain ⟨before, after, rfl⟩ := List.append_of_mem asked
    have served := run.served
    rw [List.map_append] at served
    obtain ⟨w, first, second⟩ := served.split
    have unknown : w.secrets r.namespaceName r.credentialSecret = none := by
      refine first.keeps (I := fun w => w.secrets r.namespaceName r.credentialSecret = none) ?_
        together.unknown
      intro w w' x hx serves unknown
      obtain ⟨y, hy, rfl⟩ := List.mem_map.1 hx
      rw [serves.secrets fun writes => never ⟨y, List.mem_append_left _ hy, writes⟩]
      exact unknown
    cases second with
    | cons serves _ => exact serves.known unknown

/-- The secret keeps the password of the invocation that writes it last. -/
theorem stored_last (one : ι) :
    ∃ i p, h.LastBy Answered.Writes i ∧ h.Gives i p ∧ j'.stores.stored? r = some p := by
  obtain ⟨i, last⟩ := History.exists_lastBy (exists_writes together run ended one)
  obtain ⟨before, x, after, rfl, writes, never⟩ := id last
  have own : x ∈ History.of (before ++ (i, x) :: after) i :=
    History.mem_of.2 (List.mem_append_right _ List.mem_cons_self)
  obtain ⟨new, promises⟩ := provisioned together run ended i
  obtain ⟨p, all, writing⟩ := promises.password
  obtain ⟨y, hy, sets⟩ := promises.writes_iff.1 ⟨x, own, writes.1⟩
  obtain ⟨q, given⟩ := Option.ne_none_iff_exists'.1 sets.1
  cases all y hy q given
  refine ⟨i, p, last, ⟨y, hy, given⟩, ?_⟩
  have served := run.served
  rw [List.map_append, List.map_cons] at served
  obtain ⟨w, _, second⟩ := served.split
  cases second with
  | cons serves rest =>
    refine rest.keeps (I := fun w => w.stored? r = some p) ?_
      (serves.stored (writing x own writes.1) writes.2)
    intro w w' z hz serves stored
    obtain ⟨y, hy, rfl⟩ := List.mem_map.1 hz
    rw [← stored, Stores.stored?, Stores.stored?, serves.secrets (never y hy)]

/-- The test user keeps the password of the invocation that sets it last. -/
theorem current_last (one : ι) :
    ∃ i p, h.LastBy Answered.Sets i ∧ h.Gives i p ∧ j'.stores.current? r = some p := by
  obtain ⟨k, _, lastWrite, _⟩ := stored_last together run ended one
  have somebody : ∃ y ∈ h, y.2.Sets := by
    obtain ⟨before, x, after, rfl, writes, _⟩ := lastWrite
    obtain ⟨new, promises⟩ := provisioned together run ended k
    obtain ⟨y, hy, sets⟩ := promises.writes_iff.1
      ⟨x, History.mem_of.2 (List.mem_append_right _ List.mem_cons_self), writes.1⟩
    exact ⟨_, History.mem_of.1 hy, sets⟩
  obtain ⟨i, last⟩ := History.exists_lastBy somebody
  obtain ⟨before, x, after, rfl, sets, never⟩ := id last
  have own : x ∈ History.of (before ++ (i, x) :: after) i :=
    History.mem_of.2 (List.mem_append_right _ List.mem_cons_self)
  obtain ⟨new, promises⟩ := provisioned together run ended i
  obtain ⟨p, given⟩ := Option.ne_none_iff_exists'.1 sets.1
  refine ⟨i, p, last, ⟨x, own, given⟩, ?_⟩
  have served := run.served
  rw [List.map_append, List.map_cons] at served
  obtain ⟨w, first, second⟩ := served.split
  cases second with
  | cons serves rest =>
    refine rest.keeps (I := fun w => w.current? r = some p) ?_
      (serves.current (promises.addresses x own) sets given fun _ => hasId_of_reset promises first)
    intro w w' z hz serves current
    obtain ⟨y, hy, rfl⟩ := List.mem_map.1 hz
    rw [← current, Stores.current?, Stores.current?, serves.accounts (never y hy)]

end Provision

/-- The secret holds the password of the test user exactly if the invocation that wrote it last was
also the last to set the password, or drew the same one. -/
theorem Provision.stored_iff_current {r : IdentityRequest} {j j' : Joint ι} {h : History ι}
    (one : ι) (together : Together r j) (run : Joint.Run j h j')
    (ended : ∀ i, ∃ new, j'.runs i = .done (.ok new)) :
    ∃ writer setter, h.LastBy Answered.Writes writer ∧ h.LastBy Answered.Sets setter ∧
      (∃ p, h.Gives writer p ∧ j'.stores.stored? r = some p) ∧
      (∃ p, h.Gives setter p ∧ j'.stores.current? r = some p) ∧
      (j'.stores.stored? r = j'.stores.current? r ↔
        writer = setter ∨ ∃ p, h.Gives writer p ∧ h.Gives setter p) := by
  obtain ⟨writer, p, lastWrite, gives, stored⟩ := stored_last together run ended one
  obtain ⟨setter, q, lastSet, gives', current⟩ := current_last together run ended one
  refine ⟨writer, setter, lastWrite, lastSet, ⟨p, gives, stored⟩, ⟨q, gives', current⟩, ?_⟩
  rw [stored, current, Option.some.injEq]
  constructor
  · rintro rfl
    exact .inr ⟨p, gives, gives'⟩
  · rintro (rfl | ⟨p', given, given'⟩)
    · exact gives_unique together run ended gives gives'
    · exact (gives_unique together run ended gives given).trans
        (gives_unique together run ended given' gives')

namespace Provision

/-! ## Two invocations -/

def shared : IdentityRequest := { namespaceName := "default", providerUrl := "https://id.example" }

/-- Two invocations where only the administrator is known. -/
def rivals : Joint Bool where
  stores := {
    secrets := fun _ name =>
      if name = shared.adminSecret then some (Credentials.toData ⟨"admin", "secret"⟩) else none
    accounts := fun _ _ _ => none }
  runs _ := ensure shared

theorem rivals_together : Together shared rivals := ⟨fun _ => rfl, rfl⟩

def passwords (i : Bool) : String :=
  String.ofList (List.replicate Password.length (if i then 'B' else 'A'))

theorem passwords_drawn (i : Bool) : Procedure.Drawn (passwords i) :=
  ⟨List.replicate Password.bufferSize (if i then 1 else 0), [], by cases i <;> decide +kernel⟩

/-- One invocation after the other: the secret that the first writes is found by the second. -/
theorem stored_iff_current_in_turn :
    let played := rivals.play passwords (List.replicate 7 false ++ [true])
    ∃ writer setter, played.1.LastBy Answered.Writes writer ∧ played.1.LastBy Answered.Sets setter ∧
      (played.2.stores.stored? shared = played.2.stores.current? shared ↔
        writer = setter ∨ ∃ p, played.1.Gives writer p ∧ played.1.Gives setter p) := by
  intro played
  have ended : ∀ i, ∃ new, played.2.runs i = .done (.ok new) := by
    rintro (_ | _)
    · exact ⟨true, rfl⟩
    · exact ⟨false, rfl⟩
  obtain ⟨writer, setter, lastWrite, lastSet, _, _, agree⟩ := stored_iff_current false
    rivals_together (Joint.play_run passwords_drawn _ rivals) ended
  exact ⟨writer, setter, lastWrite, lastSet, agree⟩

/-- The order in which the one makes the user, the other resets its password and writes the secret,
and then the one writes it too. -/
def turns : List Bool := List.replicate 6 false ++ List.replicate 7 true ++ [false]

/-- Both succeed, and the secret holds a password that the provider does not know any more. -/
theorem not_stored_current : ∃ h j', Together shared rivals ∧ Joint.Run rivals h j' ∧
    (∀ i, j'.runs i = .done (.ok true)) ∧
    j'.stores.stored? shared = some (passwords false) ∧
    j'.stores.current? shared = some (passwords true) ∧ passwords false ≠ passwords true := by
  refine ⟨_, _, rivals_together, Joint.play_run passwords_drawn turns rivals, fun i => ?_,
    by decide +kernel, by decide +kernel, by decide +kernel⟩
  cases i <;> rfl

end Provision

end Acceptance
