/-!
# Blank characters

White space as Unicode defines it (property `White_Space`), and texts without the blanks at
their ends.
-/

namespace Acceptance.Text

def isBlank (c : Char) : Bool :=
  (0x9 ≤ c.toNat && c.toNat ≤ 0xD) || c.toNat == 0x20 || c.toNat == 0x85 || c.toNat == 0xA0 ||
  c.toNat == 0x1680 || (0x2000 ≤ c.toNat && c.toNat ≤ 0x200A) || c.toNat == 0x2028 ||
  c.toNat == 0x2029 || c.toNat == 0x202F || c.toNat == 0x205F || c.toNat == 0x3000

/-- The list without the elements at its end that satisfy `p`. -/
def dropEndWhile {α : Type} (p : α → Bool) (s : List α) : List α :=
  (s.reverse.dropWhile p).reverse

def trim (s : List Char) : List Char :=
  dropEndWhile isBlank (s.dropWhile isBlank)

/-- The text without the blanks at its two ends. -/
def trimmed (s : String) : String := String.ofList (trim s.toList)

end Acceptance.Text
