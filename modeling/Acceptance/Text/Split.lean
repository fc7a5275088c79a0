/-!
# Parts of a text

A text cut at each occurrence of a separator.

* `intercalate_split`: the parts with separators between them are the text.
-/

namespace Acceptance.Text

/-- Puts a character before the first part. -/
def consFirst (c : Char) : List (List Char) → List (List Char)
  | [] => [[c]]
  | part :: rest => (c :: part) :: rest

/-- The parts between separators; there is always one. -/
def split (separator : Char) : List Char → List (List Char)
  | [] => [[]]
  | c :: rest => if c = separator then [] :: split separator rest else consFirst c (split separator rest)

theorem split_ne_nil (separator : Char) (s : List Char) : split separator s ≠ [] := by
  cases s with
  | nil => simp [split]
  | cons c rest =>
    simp only [split]
    split
    · simp
    · cases split separator rest <;> simp [consFirst]

theorem intercalate_split (separator : Char) (s : List Char) :
    [separator].intercalate (split separator s) = s := by
  induction s with
  | nil => rfl
  | cons c rest ih =>
    simp only [split]
    split
    · rename_i same
      cases parts : split separator rest with
      | nil => exact absurd parts (split_ne_nil separator rest)
      | cons first more =>
        rw [parts] at ih
        simp [List.intercalate, same, ← ih]
    · cases parts : split separator rest with
      | nil => exact absurd parts (split_ne_nil separator rest)
      | cons first more =>
        rw [parts] at ih
        cases more <;> simp_all [List.intercalate, consFirst]

end Acceptance.Text
