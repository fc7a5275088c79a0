import Acceptance.Text.Blank
import Mathlib.Data.List.TakeWhile

/-!
# Texts without what stands at their ends

* `Text.dropWhile_eq_iff`, `Text.dropEndWhile_eq_iff`: what is left of a text without the characters
  of one kind at one of its ends;
* `Text.Trimmed`, `Text.trimmed_iff`: what is left of it without the blanks at both.
-/

namespace Acceptance.Text

section

variable {α : Type} {p : α → Bool} {s t : List α}

theorem dropWhile_eq_iff : s.dropWhile p = t ↔
    ∃ before, s = before ++ t ∧ (∀ c ∈ before, p c) ∧ ∀ c, t.head? = some c → ¬ p c := by
  constructor
  · rintro rfl
    refine ⟨s.takeWhile p, List.takeWhile_append_dropWhile.symm, fun c hc => ?_, fun c first => ?_⟩
    · exact List.mem_takeWhile_imp hc
    · have start := List.head?_dropWhile_not p s
      rw [first] at start
      simp [start]
  · rintro ⟨before, rfl, dropped, first⟩
    rw [List.dropWhile_append_of_pos dropped]
    cases t with
    | nil => rfl
    | cons c t => exact List.dropWhile_cons_of_neg (first c rfl)

theorem dropEndWhile_eq_iff : dropEndWhile p s = t ↔
    ∃ after, s = t ++ after ∧ (∀ c ∈ after, p c) ∧ ∀ c, t.getLast? = some c → ¬ p c := by
  rw [dropEndWhile, List.reverse_eq_iff, dropWhile_eq_iff]
  constructor
  · rintro ⟨before, split, dropped, first⟩
    refine ⟨before.reverse, ?_, by simpa using dropped, by simpa using first⟩
    simpa using congrArg List.reverse split
  · rintro ⟨after, rfl, dropped, last⟩
    exact ⟨after.reverse, by simp, by simpa using dropped, by simpa using last⟩

end

/-- `t` is what stands in `s` between the blanks at its two ends. -/
structure Trimmed (s t : List Char) : Prop where
  between : ∃ before after, s = before ++ (t ++ after) ∧ (∀ c ∈ before, isBlank c) ∧
    ∀ c ∈ after, isBlank c
  first : ∀ c, t.head? = some c → ¬ isBlank c
  last : ∀ c, t.getLast? = some c → ¬ isBlank c

theorem trimmed_iff {s t : List Char} : Trimmed s t ↔ trim s = t := by
  rw [trim, dropEndWhile_eq_iff]
  constructor
  · rintro ⟨⟨before, after, rfl, first, last⟩, start, stop⟩
    cases t with
    | nil =>
      -- Nothing is left, so that there is no first character to stop at.
      refine ⟨[], dropWhile_eq_iff.2 ⟨before ++ after, by simp, ?_, nofun⟩, nofun, stop⟩
      exact List.forall_mem_append.2 ⟨first, last⟩
    | cons c t =>
      exact ⟨after, dropWhile_eq_iff.2 ⟨before, rfl, first, start⟩, last, stop⟩
  · rintro ⟨after, rest, last, stop⟩
    obtain ⟨before, split, first, start⟩ := dropWhile_eq_iff.1 rest
    refine ⟨⟨before, after, split, first, last⟩, fun c hc => start c ?_, stop⟩
    rw [List.head?_append, hc, Option.some_or]

instance (s t : List Char) : Decidable (Trimmed s t) := decidable_of_iff _ trimmed_iff.symm

theorem trimmed_trim (s : List Char) : Trimmed s (trim s) := trimmed_iff.2 rfl

/-- Nothing is left of a text that is all blank, and of no other. -/
theorem trim_eq_nil {s : List Char} : trim s = [] ↔ ∀ c ∈ s, isBlank c := by
  rw [← trimmed_iff]
  constructor
  · rintro ⟨⟨before, after, rfl, first, last⟩, -, -⟩
    exact List.forall_mem_append.2 ⟨first, last⟩
  · exact fun blank => ⟨⟨s, [], by simp, blank, nofun⟩, nofun, nofun⟩

end Acceptance.Text
