/-!
# Source text of a manifest

The characters that a YAML text may hold, its lines, and a place within it.

* `source?`: the characters with one form of line break, or nothing if one is not allowed;
* `Cursor`: what is still to be read, and where it starts.
-/

namespace Acceptance.Yaml

def isBlank (c : Char) : Bool := c == ' ' || c == '\t'

/-- Ends of lines; the two separators of Unicode keep their form. -/
def isBreak (c : Char) : Bool := c == '\n' || c == '\u2028' || c == '\u2029'

/-- Whether a blank, a line break or the end comes first. -/
def atGap : List Char → Bool
  | [] => true
  | c :: _ => isBlank c || isBreak c

/-- Controls other than tab and line ends have no place in a manifest. -/
def isAllowed (c : Char) : Bool :=
  let n := c.toNat
  n == 0x9 || n == 0xA || n == 0xD || (0x20 ≤ n && n ≤ 0x7E) || n == 0x85 ||
  (0xA0 ≤ n && n ≤ 0xD7FF) || (0xE000 ≤ n && n ≤ 0xFFFD) || 0x10000 ≤ n

/-- Every end of a line that has several forms as a newline. -/
def newlines : List Char → List Char
  | '\r' :: '\n' :: rest => '\n' :: newlines rest
  | '\r' :: rest => '\n' :: newlines rest
  | '\u0085' :: rest => '\n' :: newlines rest
  | c :: rest => c :: newlines rest
  | [] => []

/-- The text without a byte order mark at its start. -/
def withoutMark : List Char → List Char
  | '\uFEFF' :: rest => rest
  | s => s

def source? (s : String) : Option (List Char) :=
  let cs := withoutMark s.toList
  if cs.all isAllowed then some (newlines cs) else none

/-- What is still to be read, and the place of its first character. -/
structure Cursor where
  rest : List Char
  index : Nat
  line : Nat
  column : Nat

namespace Cursor

def start (s : List Char) : Cursor := ⟨s, 0, 0, 0⟩

/-- Past one character. -/
def next (c : Cursor) : Cursor :=
  match c.rest with
  | [] => c
  | ch :: rest =>
    if isBreak ch then ⟨rest, c.index + 1, c.line + 1, 0⟩
    else ⟨rest, c.index + 1, c.line, c.column + 1⟩

def advance : Nat → Cursor → Cursor
  | 0, c => c
  | n + 1, c => advance n c.next

/-- To where `rest`, an end of what is to be read, begins. -/
def moveTo (rest : List Char) (c : Cursor) : Cursor := c.advance (c.rest.length - rest.length)

def skipWhile (p : Char → Bool) (c : Cursor) : Cursor := c.advance (c.rest.takeWhile p).length

/-- The characters up to the end of the line. -/
def line? (c : Cursor) : List Char := c.rest.takeWhile fun ch => !isBreak ch

/-- Whether a line starts here with three of `mark` and then a gap. -/
def atMarker (mark : Char) (c : Cursor) : Bool :=
  c.column == 0 && match c.rest with
    | x :: y :: z :: rest => x == mark && y == mark && z == mark && atGap rest
    | _ => false

/-- Whether a document begins or ends here. -/
def atDocumentMarker (c : Cursor) : Bool := c.atMarker '-' || c.atMarker '.'

end Cursor

end Acceptance.Yaml
