import Acceptance.Cluster.Client
import Acceptance.Proofs.Trimming
import Mathlib.Logic.Relation

/-!
# Conditions in any order

A job lists its conditions in some order, among others that do not end it. Where each of the two
that end it is listed once at most, the list says the same however it is written.

* `JobStatus.Relists`: the same conditions in another order, or one more or fewer of the others;
* `JobStatus.Says`: what a list says about a type;
* `JobStatus.Holds`: a condition is listed whose text is the word `True`, blanks aside;
* `JobStatus.listed_anyhow`: the status and the verdict by what is listed, in whatever order.
-/

namespace Acceptance

open Text (Trimmed trimmed_iff)

namespace ConditionState

theorem ofText_empty : ofText "" = .unknown := by decide

theorem ofText_eq_true {s : String} : ofText s = .true ↔ Trimmed s.toList "True".toList := by
  rw [trimmed_iff, ← String.ofList_inj, String.ofList_toList, ← Text.trimmed, ofText]
  split <;> simp_all

end ConditionState

/-- A condition of one of the types that end a job. -/
def JobCondition.Ends (c : JobCondition) : Prop := c.type = "Complete" ∨ c.type = "Failed"

namespace JobStatus

/-! ## The verdict -/

/-- What a status has to say for a verdict: that the job is complete counts before that it
failed. -/
def Shows (s : JobStatus) : JobOutcome → Prop
  | .succeeded => s.complete = .true
  | .failed => s.failed = .true ∧ s.complete ≠ .true

theorem outcome_eq_some {s : JobStatus} {o : JobOutcome} : s.outcome = some o ↔ s.Shows o := by
  cases o <;> simp only [outcome, Shows] <;> split <;> simp_all

theorem outcome_eq_none {s : JobStatus} :
    s.outcome = none ↔ s.complete ≠ .true ∧ s.failed ≠ .true := by
  rw [outcome]
  split <;> simp_all

/-! ## Conditions of one type -/

/-- The conditions of a type, as they are listed. -/
def ofType (type : String) (conditions : List JobCondition) : List JobCondition :=
  conditions.filter (·.type == type)

theorem mem_ofType {type : String} {conditions : List JobCondition} {c : JobCondition} :
    c ∈ ofType type conditions ↔ c ∈ conditions ∧ c.type = type := by
  rw [ofType, List.mem_filter, beq_iff_eq]

theorem ofType_append (type : String) (before after : List JobCondition) :
    ofType type (before ++ after) = ofType type before ++ ofType type after :=
  List.filter_append before after

theorem ofType_cons_of_ne {type : String} {c : JobCondition} (other : c.type ≠ type)
    (after : List JobCondition) : ofType type (c :: after) = ofType type after :=
  List.filter_cons_of_neg (by simpa using other)

theorem state_eq (conditions : List JobCondition) (type : String) :
    state conditions type =
      ((ofType type conditions).head?.map fun c => .ofText c.status).getD .unknown := by
  rw [state, ofType, List.head?_filter]
  cases List.find? _ conditions <;> rfl

variable {conditions relisted : List JobCondition} {type text : String}

/-- Of a type that is listed once at most the order says nothing. -/
theorem state_perm (once : (ofType type conditions).length ≤ 1)
    (perm : (ofType type conditions).Perm (ofType type relisted)) :
    state relisted type = state conditions type := by
  suffices same : ofType type relisted = ofType type conditions by rw [state_eq, state_eq, same]
  rcases Nat.le_one_iff_eq_zero_or_eq_one.1 once with none | one
  · rw [List.length_eq_zero_iff] at none
    rw [none] at perm ⊢
    exact perm.symm.eq_nil
  · obtain ⟨c, single⟩ := List.length_eq_one_iff.1 one
    rw [single] at perm ⊢
    exact perm.symm.eq_singleton

/-! ## What a list says -/

/-- What a list says about a type: the text of its condition, or the empty text if there is none. -/
inductive Says (conditions : List JobCondition) (type : String) : String → Prop where
  | listed {c : JobCondition} (mem : c ∈ conditions) (typed : c.type = type) :
      Says conditions type c.status
  | absent (none : ∀ c ∈ conditions, c.type ≠ type) : Says conditions type ""

/-- A condition of the type is listed whose text is the word `True`, blanks at its ends aside. -/
def Holds (conditions : List JobCondition) (type : String) : Prop :=
  ∃ c ∈ conditions, c.type = type ∧ Trimmed c.status.toList "True".toList

instance (conditions : List JobCondition) (type : String) : Decidable (Holds conditions type) :=
  inferInstanceAs (Decidable (∃ c ∈ conditions, c.type = type ∧ Trimmed _ _))

theorem exists_text (conditions : List JobCondition) (type : String) :
    ∃ text, Says conditions type text := by
  by_cases listed : ∃ c ∈ conditions, c.type = type
  · obtain ⟨c, mem, typed⟩ := listed
    exact ⟨c.status, .listed mem typed⟩
  · exact ⟨"", .absent fun c mem typed => listed ⟨c, mem, typed⟩⟩

theorem Says.state_eq (h : Says conditions type text)
    (once : (ofType type conditions).length ≤ 1) : state conditions type = .ofText text := by
  rw [JobStatus.state_eq]
  cases h with
  | listed mem typed =>
    rename_i c
    have found : c ∈ ofType type conditions := mem_ofType.2 ⟨mem, typed⟩
    have single : ofType type conditions = [c] := by
      have one := le_antisymm once (List.length_pos_of_mem found)
      obtain ⟨d, single⟩ := List.length_eq_one_iff.1 one
      rw [single] at found ⊢
      rw [List.mem_singleton.1 found]
    rw [single]
    rfl
  | absent none =>
    have empty : ofType type conditions = [] :=
      List.eq_nil_iff_forall_not_mem.2 fun c mem =>
        none c (mem_ofType.1 mem).1 (mem_ofType.1 mem).2
    rw [empty, ConditionState.ofText_empty]
    rfl

theorem state_eq_true (once : (ofType type conditions).length ≤ 1) :
    state conditions type = .true ↔ Holds conditions type := by
  constructor
  · intro holds
    obtain ⟨text, said⟩ := exists_text conditions type
    rw [said.state_eq once] at holds
    cases said with
    | listed mem typed => exact ⟨_, mem, typed, ConditionState.ofText_eq_true.1 holds⟩
    | absent =>
      rw [ConditionState.ofText_empty] at holds
      cases holds
  · rintro ⟨c, mem, typed, word⟩
    rw [(Says.listed mem typed).state_eq once]
    exact ConditionState.ofText_eq_true.2 word

/-! ## The same list, written otherwise -/

/-- The same conditions in another order, or one more or one fewer that does not end a job. -/
inductive Relists : List JobCondition → List JobCondition → Prop where
  | reordered {conditions relisted : List JobCondition} (perm : conditions.Perm relisted) :
      Relists conditions relisted
  | inserted {c : JobCondition} (other : ¬ c.Ends) (before after : List JobCondition) :
      Relists (before ++ after) (before ++ c :: after)
  | removed {c : JobCondition} (other : ¬ c.Ends) (before after : List JobCondition) :
      Relists (before ++ c :: after) (before ++ after)

/-- A type that ends a job keeps its conditions. -/
theorem Relists.perm (h : Relists conditions relisted)
    (ends : ∀ c : JobCondition, c.type = type → c.Ends) :
    (ofType type conditions).Perm (ofType type relisted) := by
  have without : ∀ {c : JobCondition} (before after : List JobCondition), ¬ c.Ends →
      ofType type (before ++ c :: after) = ofType type (before ++ after) := by
    intro c before after other
    rw [ofType_append, ofType_append, ofType_cons_of_ne fun typed => other (ends c typed)]
  cases h with
  | reordered perm => exact perm.filter _
  | inserted other before after => rw [without before after other]
  | removed other before after => rw [without before after other]

theorem perm_of_relists (h : Relation.ReflTransGen Relists conditions relisted)
    (ends : ∀ c : JobCondition, c.type = type → c.Ends) :
    (ofType type conditions).Perm (ofType type relisted) := by
  induction h with
  | refl => exact .refl _
  | tail _ step ih => exact ih.trans (step.perm ends)

/-- Each of the conditions that end a job is listed once at most. -/
structure Unrepeated (conditions : List JobCondition) : Prop where
  complete : (ofType "Complete" conditions).length ≤ 1
  failed : (ofType "Failed" conditions).length ≤ 1

namespace Unrepeated

theorem ofConditions_eq (once : Unrepeated conditions)
    (h : Relation.ReflTransGen Relists conditions relisted) :
    ofConditions relisted = ofConditions conditions := by
  rw [ofConditions, ofConditions,
    state_perm once.complete (perm_of_relists h fun _ => .inl),
    state_perm once.failed (perm_of_relists h fun _ => .inr)]

theorem eq_ofTexts {complete failed : String} (once : Unrepeated conditions)
    (completes : Says conditions "Complete" complete) (fails : Says conditions "Failed" failed) :
    ofConditions conditions = ofTexts complete failed := by
  rw [ofConditions, completes.state_eq once.complete, fails.state_eq once.failed, JobStatus.ofTexts]

end Unrepeated

end JobStatus

namespace Cluster.Client

/-- The conditions of a job, if it lists any. -/
def conditions? (job : Json) : Option (List JobCondition) :=
  (((job.present? "status").bind (Json.present? "conditions")).bind Json.items?).map
    (List.map conditionOf)

theorem statusOfJob_eq (job : Json) :
    statusOfJob job = .ofConditions ((conditions? job).getD []) := by
  rw [statusOfJob, conditions?]
  cases ((job.present? "status").bind (Json.present? "conditions")).bind Json.items? <;> rfl

end Cluster.Client

namespace JobStatus

/-- However a job lists its conditions, its status is the same, as long as those that end it are
not repeated. It is the status that their texts give, and the verdict goes by the words in them. A
job that lists nothing is still running. -/
theorem listed_anyhow :
    (∀ conditions, Unrepeated conditions →
      (∀ relisted, Relation.ReflTransGen Relists conditions relisted →
        ofConditions relisted = ofConditions conditions) ∧
      (∀ type, ∃ text, Says conditions type text) ∧
      (∀ complete failed, Says conditions "Complete" complete → Says conditions "Failed" failed →
        ofConditions conditions = ofTexts complete failed) ∧
      ((ofConditions conditions).outcome = some .succeeded ↔ Holds conditions "Complete") ∧
      ((ofConditions conditions).outcome = some .failed ↔
        ¬ Holds conditions "Complete" ∧ Holds conditions "Failed") ∧
      ((ofConditions conditions).outcome = none ↔
        ¬ Holds conditions "Complete" ∧ ¬ Holds conditions "Failed")) ∧
    (ofConditions []).outcome = none ∧
    ∀ job, Cluster.Client.conditions? job = none →
      (Cluster.Client.statusOfJob job).outcome = none := by
  refine ⟨fun conditions once => ?_, rfl, fun job unlisted => ?_⟩
  · have complete : (ofConditions conditions).complete = .true ↔ Holds conditions "Complete" :=
      state_eq_true once.complete
    have failed : (ofConditions conditions).failed = .true ↔ Holds conditions "Failed" :=
      state_eq_true once.failed
    refine ⟨fun _ => once.ofConditions_eq, exists_text conditions, fun _ _ => once.eq_ofTexts,
      ?_, ?_, ?_⟩
    · rw [outcome_eq_some, Shows, complete]
    · rw [outcome_eq_some, Shows, failed, ne_eq, complete, and_comm]
    · rw [outcome_eq_none, ne_eq, ne_eq, complete, failed]
  · rw [Cluster.Client.statusOfJob_eq, unlisted]
    rfl

/-- A job that has failed and is not complete, whatever else it lists and where, and one that has
just started. -/
theorem listed_anyhow_failed :
    let conditions : List JobCondition :=
      [⟨"SuccessCriteriaMet", "True"⟩, ⟨"Failed", " True\n"⟩, ⟨"Complete", "true"⟩]
    let relisted : List JobCondition :=
      [⟨"Complete", "true"⟩, ⟨"FailureTarget", "True"⟩, ⟨"Failed", " True\n"⟩]
    let started : Json := .object [("status", .object [("active", .nat 1)])]
    Unrepeated conditions ∧ Relation.ReflTransGen Relists conditions relisted ∧
      Says conditions "Complete" "true" ∧ Says conditions "Failed" " True\n" ∧
      ofConditions relisted = ofTexts "true" " True\n" ∧
      (ofConditions relisted).outcome = some .failed ∧
      Cluster.Client.conditions? started = none ∧
      (Cluster.Client.statusOfJob started).outcome = none := by
  intro conditions relisted started
  have once : Unrepeated conditions := ⟨by decide, by decide⟩
  have same : Relation.ReflTransGen Relists conditions relisted :=
    .tail (.tail (.single (.removed (by simp [JobCondition.Ends]) [] _))
      (.reordered (.swap _ _ _))) (.inserted (by simp [JobCondition.Ends]) [_] _)
  have completes : Says conditions "Complete" "true" :=
    .listed (c := ⟨"Complete", "true"⟩) (by decide) rfl
  have fails : Says conditions "Failed" " True\n" :=
    .listed (c := ⟨"Failed", " True\n"⟩) (by decide) rfl
  have verdict : ¬ Holds conditions "Complete" ∧ Holds conditions "Failed" := by decide
  have unlisted : Cluster.Client.conditions? started = none := by decide
  obtain ⟨⟨alike, -, texts, -, failed, -⟩, -, running⟩ :=
    And.intro (listed_anyhow.1 conditions once) listed_anyhow.2
  refine ⟨once, same, completes, fails, (alike _ same).trans (texts _ _ completes fails), ?_,
    unlisted, running started unlisted⟩
  rw [alike _ same]
  exact failed.2 verdict

/-- Of a type that is listed twice the first condition is read. -/
example : ofConditions [⟨"Complete", "True"⟩, ⟨"Complete", "False"⟩] ≠
    ofConditions [⟨"Complete", "False"⟩, ⟨"Complete", "True"⟩] := by decide

end JobStatus

end Acceptance
