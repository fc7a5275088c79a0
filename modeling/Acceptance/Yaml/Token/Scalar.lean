import Acceptance.Yaml.Source

/-!
# Scalars of a manifest

The three ways to write a text: plain, between quotes, and as a block of lines. Within the first two
a line end and the blanks around it count as one space, and more line ends in a row as one fewer.
-/

namespace Acceptance.Yaml

/-- What stands between two words of a text. -/
structure Gap where
  /-- A backslash hides the first line end. -/
  escaped : Bool := false
  blanks : List Char := []
  breaks : List Char := []

namespace Gap

def isBroken (g : Gap) : Bool := !g.breaks.isEmpty

/-- The text for which the gap stands. -/
def folded (g : Gap) : List Char :=
  if g.escaped then g.breaks
  else match g.breaks with
    | [] => g.blanks
    | '\n' :: [] => [' ']
    | '\n' :: more => more
    | breaks => breaks

/-- Reads on to the next word. A tab may not stand to the left of column `least` in a new line. -/
def read (least : Option Nat) : Nat → Gap → Cursor → Option (Gap × Cursor)
  | 0, g, c => some (g, c)
  | fuel + 1, g, c =>
    match c.rest with
    | [] => some (g, c)
    | ch :: _ =>
      if isBlank ch then
        if g.escaped || g.isBroken then
          if g.isBroken && ch == '\t' && least.any (c.column < ·) then none
          else read least fuel g c.next
        else read least fuel { g with blanks := g.blanks ++ [ch] } c.next
      else if isBreak ch then read least fuel { g with breaks := g.breaks ++ [ch] } c.next
      else some (g, c)

end Gap

def isFlowIndicator (c : Char) : Bool := c == ',' || c == '[' || c == ']' || c == '{' || c == '}'

/-- The text of a plain scalar from here on, where it ends, and whether a line end stands before
that place. `joint` is what comes before the next word. -/
def plainTail (flow : Bool) (least : Nat) :
    Nat → List Char → Bool → Cursor → Option (List Char × Cursor × Bool)
  | 0, _, _, _ => none
  | fuel + 1, joint, broken, c =>
    match c.rest with
    | [] => some ([], c, broken)
    | ch :: more =>
      if isBlank ch || isBreak ch then do
        let (g, c) ← Gap.read (some least) (c.rest.length + 1) {} c
        if (!flow && c.column < least) || c.atDocumentMarker || c.rest.head? == some '#' then
          some ([], c, g.isBroken)
        else plainTail flow least fuel g.folded g.isBroken c
      else if flow && ch == ':' && more.head?.any (fun d => isFlowIndicator d || d == '?') then none
      else if (ch == ':' && atGap more) || (flow && isFlowIndicator ch) then some ([], c, broken)
      else do
        let (text, c, broken) ← plainTail flow least fuel [] false c.next
        some (joint ++ ch :: text, c, broken)

def plain? (flow : Bool) (least : Nat) (c : Cursor) : Option (String × Cursor × Bool) := do
  let (text, c, broken) ← plainTail flow least (2 * c.rest.length + 2) [] false c
  some (String.ofList text, c, broken)

def hexValue? (c : Char) : Option Nat :=
  let n := c.toNat
  if 0x30 ≤ n && n ≤ 0x39 then some (n - 0x30)
  else if 0x61 ≤ n && n ≤ 0x66 then some (n - 0x57)
  else if 0x41 ≤ n && n ≤ 0x46 then some (n - 0x37)
  else none

/-- The character with a number of `width` hexadecimal digits. -/
def numbered? (width : Nat) (s : List Char) : Option (Char × List Char) := do
  let values ← (s.take width).mapM hexValue?
  let n := values.foldl (fun n v => n * 16 + v) 0
  if values.length < width || (0xD800 ≤ n && n ≤ 0xDFFF) || 0x10FFFF < n then none
  else some (Char.ofNat n, s.drop width)

/-- The character of an escape, of which the backslash is read. -/
def escape? : List Char → Option (Char × List Char)
  | '0' :: rest => some ('\x00', rest)
  | 'a' :: rest => some ('\x07', rest)
  | 'b' :: rest => some ('\x08', rest)
  | 't' :: rest => some ('\t', rest)
  | '\t' :: rest => some ('\t', rest)
  | 'n' :: rest => some ('\n', rest)
  | 'v' :: rest => some ('\x0b', rest)
  | 'f' :: rest => some ('\x0c', rest)
  | 'r' :: rest => some ('\r', rest)
  | 'e' :: rest => some ('\x1b', rest)
  | ' ' :: rest => some (' ', rest)
  | '"' :: rest => some ('"', rest)
  | '/' :: rest => some ('/', rest)
  | '\\' :: rest => some ('\\', rest)
  | 'N' :: rest => some ('\u0085', rest)
  | '_' :: rest => some ('\u00a0', rest)
  | 'L' :: rest => some ('\u2028', rest)
  | 'P' :: rest => some ('\u2029', rest)
  | 'x' :: rest => numbered? 2 rest
  | 'u' :: rest => numbered? 4 rest
  | 'U' :: rest => numbered? 8 rest
  | _ => none

/-- The text up to the closing quote, and the cursor behind it. Between single quotes the quote
itself is written twice; between double quotes a backslash escapes. -/
def quotedTail (single : Bool) : Nat → Cursor → Option (List Char × Cursor)
  | 0, _ => none
  | fuel + 1, c =>
    if c.atDocumentMarker then none
    else
      let after (text : List Char) (c : Cursor) : Option (List Char × Cursor) := do
        let (more, c) ← quotedTail single fuel c
        some (text ++ more, c)
      match c.rest with
      | [] => none
      | ch :: more =>
        if isBlank ch || isBreak ch then do
          let (g, c) ← Gap.read none (c.rest.length + 1) {} c
          after g.folded c
        else if single then
          if ch == '\'' then
            if more.head? == some '\'' then after ['\''] (c.advance 2) else some ([], c.next)
          else after [ch] c.next
        else if ch == '"' then some ([], c.next)
        else if ch == '\\' then
          if more.head?.any isBreak then do
            let (g, c) ← Gap.read none (more.length + 1) { escaped := true } (c.advance 2)
            after g.folded c
          else do
            let (e, rest) ← escape? more
            after [e] (c.moveTo rest)
        else after [ch] c.next

/-- A scalar between quotes, of which the opening one is read. -/
def quoted? (single : Bool) (c : Cursor) : Option (String × Cursor) := do
  let (text, c) ← quotedTail single (c.rest.length + 1) c
  some (String.ofList text, c)

/-- What becomes of the line ends after the last line of a block. -/
inductive Chomping where
  | strip
  | clip
  | keep
  deriving DecidableEq, Repr

/-- How a block is read. -/
structure BlockStyle where
  literal : Bool
  chomping : Chomping
  /-- Columns by which the block is indented, where its header says so. -/
  step : Option Nat

def chomping? : Char → Option Chomping
  | '-' => some .strip
  | '+' => some .keep
  | _ => none

/-- The two marks of a block's header, in either order. -/
def blockMarks? (literal : Bool) (s : List Char) : Option (BlockStyle × List Char) :=
  let step? (c : Char) : Option Nat := if c.isDigit then some (c.toNat - 0x30) else none
  let found := match s with
    | a :: b :: rest =>
      match chomping? a, step? b, step? a, chomping? b with
      | some k, some n, _, _ => (⟨literal, k, some n⟩, rest)
      | some k, none, _, _ => (⟨literal, k, none⟩, b :: rest)
      | none, _, some n, some k => (⟨literal, k, some n⟩, rest)
      | none, _, some n, none => (⟨literal, .clip, some n⟩, b :: rest)
      | none, _, none, _ => (⟨literal, .clip, none⟩, s)
    | [a] =>
      match chomping? a, step? a with
      | some k, _ => (⟨literal, k, none⟩, [])
      | none, some n => (⟨literal, .clip, some n⟩, [])
      | none, none => (⟨literal, .clip, none⟩, s)
    | [] => (⟨literal, .clip, none⟩, [])
  if found.1.step == some 0 then none else some found

/-- The empty lines before a line of a block: their ends, the rightmost column reached, and the
cursor in the line that follows. -/
def emptyLines (indent : Option Nat) : Nat → Nat → Cursor → Option (List Char × Nat × Cursor)
  | 0, _, _ => none
  | fuel + 1, widest, c =>
    let spaces := (c.rest.takeWhile (· == ' ')).length
    let c := c.advance (match indent with
      | some n => min spaces (n - c.column)
      | none => spaces)
    let widest := max widest c.column
    match c.rest with
    | [] => some ([], widest, c)
    | ch :: _ =>
      if ch == '\t' && indent.all (c.column < ·) then none
      else if isBreak ch then do
        let (breaks, widest, c) ← emptyLines indent fuel widest c.next
        some (ch :: breaks, widest, c)
      else some ([], widest, c)

/-- The lines of a block. `ending` is the end of the line before, `empty` those of the empty lines
after it, and `indented` says whether it started with a blank. -/
def blockLines (literal : Bool) (indent : Nat) :
    Nat → List Char → List Char → Bool → Cursor →
      Option (List Char × List Char × List Char × Cursor)
  | 0, _, _, _, _ => none
  | fuel + 1, ending, empty, indented, c =>
    if c.column == indent && !c.rest.isEmpty then do
      let startsBlank := c.rest.head?.any isBlank
      let joint :=
        if !literal && ending == ['\n'] && !indented && !startsBlank then
          if empty.isEmpty then [' '] else []
        else ending
      let line := c.line?
      let c := c.advance line.length
      let nextEnding := c.rest.take 1
      let (nextEmpty, _, c) ← emptyLines (some indent) (c.rest.length + 1) 0 c.next
      let (text, ending, after, c) ← blockLines literal indent fuel nextEnding nextEmpty startsBlank c
      some (joint ++ empty ++ line ++ text, ending, after, c)
    else some ([], ending, empty, c)

/-- Past blanks and a comment to the end of the line; nothing else may stand there. -/
def restOfLine? (c : Cursor) : Option Cursor :=
  let c := c.skipWhile isBlank
  let c := if c.rest.head? == some '#' then c.skipWhile (fun ch => !isBreak ch) else c
  match c.rest with
  | [] => some c
  | ch :: _ => if isBreak ch then some c.next else none

/-- A block of lines, of which the indicator is read; `parent` is the column of the block around it,
if there is one. -/
def block? (literal : Bool) (parent : Option Nat) (c : Cursor) : Option (String × Cursor) := do
  let (style, rest) ← blockMarks? literal c.rest
  let c ← restOfLine? (c.moveTo rest)
  let given := style.step.map fun n => parent.getD 0 + n
  let (empty, widest, c) ← emptyLines given (c.rest.length + 1) 0 c
  let least := max 1 (match parent with
    | some n => n + 1
    | none => 0)
  let indent := given.getD (max widest least)
  let (text, ending, after, c) ← blockLines literal indent (c.rest.length + 1) [] empty false c
  let tail := match style.chomping with
    | .strip => []
    | .clip => ending
    | .keep => ending ++ after
  some (String.ofList (text ++ tail), c)

end Acceptance.Yaml
