import Acceptance.Yaml.Token
import Acceptance.Yaml.Token.Scalar
import Acceptance.Text.Utf8

/-!
# Names, tags and directives of a manifest

What stands before a node or a document to name it, to give it a type, or to say how tags are
abbreviated.
-/

namespace Acceptance.Yaml

def isWordChar (c : Char) : Bool := c.isAlphanum || c == '_' || c == '-'

/-- An anchor's name, of which the mark is read. -/
def name? (c : Cursor) : Option (String × Cursor) :=
  let name := c.rest.takeWhile isWordChar
  let after := c.advance name.length
  let ends := atGap after.rest ||
    after.rest.head?.any fun ch => ['?', ':', ',', ']', '}', '%', '@', '\x60'].contains ch
  if name.isEmpty || !ends then none else some (String.ofList name, after)

def isTagChar (c : Char) : Bool :=
  isWordChar c || [';', '/', '?', ':', '@', '&', '=', '+', '$', '.', '!', '~', '*', '\'', '(',
    ')'].contains c

/-- The byte of a percent escape. -/
def escapedByte? : List Char → Option (UInt8 × List Char)
  | '%' :: a :: b :: rest => do
    let n := (← hexValue? a) * 16 + (← hexValue? b)
    some (UInt8.ofNat n, rest)
  | _ => none

/-- The bytes of percent escapes in a row. -/
def escapedBytes : Nat → List Char → List UInt8 × List Char
  | 0, s => ([], s)
  | fuel + 1, s =>
    match escapedByte? s with
    | some (b, rest) => let (bs, rest) := escapedBytes fuel rest; (b :: bs, rest)
    | none => ([], s)

/-- Characters of a tag. `long` admits those that would end a short tag in a list. -/
def tagChars? (long : Bool) : Nat → List Char → Option (List Char × List Char)
  | 0, _ => none
  | fuel + 1, s =>
    match s with
    | [] => some ([], [])
    | c :: rest =>
      if c == '%' then do
        let (bytes, rest) := escapedBytes s.length s
        if bytes.isEmpty then none
        else
          let text ← Text.Utf8.decode? bytes
          let (more, rest) ← tagChars? long fuel rest
          some (text.toList ++ more, rest)
      else if isTagChar c || (long && [',', '[', ']'].contains c) then do
        let (more, rest) ← tagChars? long fuel rest
        some (c :: more, rest)
      else some ([], s)

/-- `!`, `!!` or `!name!`; also `!name`, if no closing mark follows. -/
def handle (s : List Char) : List Char × List Char :=
  match s with
  | '!' :: rest =>
    let word := rest.takeWhile isWordChar
    match rest.drop word.length with
    | '!' :: after => ('!' :: word ++ ['!'], after)
    | after => ('!' :: word, after)
  | s => ([], s)

/-- A tag ends at a gap, or at a comma in a list. -/
def tagEnds (flow : Bool) (s : List Char) : Bool :=
  atGap s || (flow && s.head? == some ',')

/-- Handle and suffix of the tag that starts here. -/
def tagParts? (s : List Char) : Option (List Char × List Char × List Char) :=
  match s with
  | '!' :: '<' :: rest => do
    let (uri, rest) ← tagChars? true (rest.length + 1) rest
    match rest with
    | '>' :: rest => if uri.isEmpty then none else some ([], uri, rest)
    | _ => none
  | s =>
    let (h, rest) := handle s
    if h.length > 1 && h.getLast? == some '!' then do
      let (suffix, rest) ← tagChars? false (rest.length + 1) rest
      if suffix.isEmpty then none else some (h, suffix, rest)
    else do
      let (more, rest) ← tagChars? false (rest.length + 1) rest
      let suffix := h.drop 1 ++ more
      if suffix.isEmpty then some ([], ['!'], rest) else some (['!'], suffix, rest)

def tag? (flow : Bool) (c : Cursor) : Option (Token × Cursor) := do
  let (h, suffix, rest) ← tagParts? c.rest
  if tagEnds flow rest then some (.tag (String.ofList h) (String.ofList suffix), c.moveTo rest)
  else none

/-- A part of a version: at most nine digits. -/
def versionPart? (s : List Char) : Option (Nat × List Char) :=
  let digits := s.takeWhile Char.isDigit
  if digits.isEmpty || digits.length > 9 then none
  else some (digits.foldl (fun n c => n * 10 + (c.toNat - 0x30)) 0, s.drop digits.length)

def skipBlanks (s : List Char) : List Char := s.dropWhile isBlank

def versionDirective? (s : List Char) : Option (Token × List Char) := do
  let (major, rest) ← versionPart? (skipBlanks s)
  match rest with
  | '.' :: rest =>
    let (minor, rest) ← versionPart? rest
    some (.version major minor, rest)
  | _ => none

def tagDirective? (s : List Char) : Option (Token × List Char) := do
  let (h, rest) := handle (skipBlanks s)
  if h == ['!'] || (h.length > 1 && h.getLast? == some '!') then
    if !rest.head?.any isBlank then none
    else
      let (stem, rest) ← tagChars? true (rest.length + 1) (skipBlanks rest)
      if stem.isEmpty || !atGap rest then none
      else some (.tagShorthand (String.ofList h) (String.ofList stem), rest)
  else none

/-- A directive, of which the percent sign is read, to the end of its line. -/
def directive? (c : Cursor) : Option (Token × Cursor) := do
  let word := c.rest.takeWhile isWordChar
  let rest := c.rest.drop word.length
  if word.isEmpty || !atGap rest then none
  else
    let (token, rest) ←
      if word == ['Y', 'A', 'M', 'L'] then versionDirective? rest
      else if word == ['T', 'A', 'G'] then tagDirective? rest
      else none
    some (token, ← restOfLine? (c.moveTo rest))

end Acceptance.Yaml
