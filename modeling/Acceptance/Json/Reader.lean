import Acceptance.Json

/-!
# JSON text, read

Strict JSON: no comments, no commas at the end, no unpaired surrogates, no raw controls in a text,
and values nest at most `maxDepth` deep.

* `parse?`: a value; of two members with one name the later stands;
* `parseAsWritten?`: a value with all members of its objects, in the order of the text.
-/

namespace Acceptance.Json

/-- How deep arrays and objects may nest. -/
def maxDepth : Nat := 127

def isSpace (c : Char) : Bool := c == ' ' || c == '\t' || c == '\n' || c == '\r'

def skipSpace (s : List Char) : List Char := s.dropWhile isSpace

def hexValue? (c : Char) : Option Nat :=
  let n := c.toNat
  if 0x30 ≤ n && n ≤ 0x39 then some (n - 0x30)
  else if 0x61 ≤ n && n ≤ 0x66 then some (n - 0x57)
  else if 0x41 ≤ n && n ≤ 0x46 then some (n - 0x37)
  else none

/-- The number of four hexadecimal digits, and what follows them. -/
def hexFour? : List Char → Option (Nat × List Char)
  | a :: b :: c :: d :: rest => do
    let n := (← hexValue? a) * 4096 + (← hexValue? b) * 256 + (← hexValue? c) * 16 + (← hexValue? d)
    some (n, rest)
  | _ => none

/-- The character of a numeric escape, of which the `\u` is read. A character beyond U+FFFF is
written as two escapes. -/
def numbered? (s : List Char) : Option (Char × List Char) := do
  let (n, rest) ← hexFour? s
  if 0xD800 ≤ n && n < 0xDC00 then
    match rest with
    | '\\' :: 'u' :: rest =>
      let (low, rest) ← hexFour? rest
      if 0xDC00 ≤ low && low < 0xE000 then
        some (Char.ofNat (0x10000 + (n - 0xD800) * 0x400 + (low - 0xDC00)), rest)
      else none
    | _ => none
  else if 0xDC00 ≤ n && n < 0xE000 then none
  else some (Char.ofNat n, rest)

/-- The character of an escape, of which the backslash is read. -/
def escape? : List Char → Option (Char × List Char)
  | '"' :: rest => some ('"', rest)
  | '\\' :: rest => some ('\\', rest)
  | '/' :: rest => some ('/', rest)
  | 'b' :: rest => some ('\x08', rest)
  | 'f' :: rest => some ('\x0c', rest)
  | 'n' :: rest => some ('\n', rest)
  | 'r' :: rest => some ('\r', rest)
  | 't' :: rest => some ('\t', rest)
  | 'u' :: rest => numbered? rest
  | _ => none

/-- The characters up to the closing quote. Each step consumes one character or more of `fuel`. -/
def stringTail? : Nat → List Char → Option (List Char × List Char)
  | 0, _ => none
  | fuel + 1, s =>
    match s with
    | [] => none
    | '"' :: rest => some ([], rest)
    | '\\' :: rest => do
      let (c, rest) ← escape? rest
      let (text, rest) ← stringTail? fuel rest
      some (c :: text, rest)
    | c :: rest =>
      if c.toNat < 0x20 then none
      else do
        let (text, rest) ← stringTail? fuel rest
        some (c :: text, rest)

/-- A text, of which the opening quote is read. -/
def stringRest? (s : List Char) : Option (String × List Char) := do
  let (text, rest) ← stringTail? (s.length + 1) s
  some (String.ofList text, rest)

/-- Digits read so far: those that fit into 64 bits, and the power of ten that the others leave. -/
structure Significand where
  digits : Nat
  exponent : Int

def fits (n : Nat) : Bool := n < unsignedLimit

def digitValue (c : Char) : Nat := c.toNat - 0x30

/-- Adds the digits before the point. After the first that does not fit, the rest only count. -/
def wholeDigits (n : Nat) : List Char → Significand
  | [] => ⟨n, 0⟩
  | c :: rest =>
    if fits (n * 10 + digitValue c) then wholeDigits (n * 10 + digitValue c) rest
    else ⟨n, rest.length + 1⟩

/-- Adds the digits behind the point, up to the first that does not fit. -/
def fractionDigits (s : Significand) : List Char → Significand
  | [] => s
  | c :: rest =>
    if fits (s.digits * 10 + digitValue c) then
      fractionDigits ⟨s.digits * 10 + digitValue c, s.exponent - 1⟩ rest
    else s

/-- `f` times or by a power of ten; `none` beyond the largest number. Steps of `10 ^ 308` reach the
small numbers, and three of them are enough for any that is not zero. -/
def scaled? (f : Float) (exponent : Int) : Nat → Option Float
  | 0 => some 0
  | steps + 1 =>
    if exponent.natAbs ≤ 308 then
      let power := Float.ofScientific 1 false exponent.natAbs
      if exponent ≥ 0 then if (f * power).isInf then none else some (f * power)
      else some (f / power)
    else if f == 0 then some f
    else if exponent ≥ 0 then none
    else scaled? (f / 1e308) (exponent + 308) steps

def real? (negative : Bool) (s : Significand) : Option JsonNumber := do
  let f ← scaled? s.digits.toUInt64.toFloat s.exponent 4
  some (.real (if negative then -f else f).toBits)

def digits (s : List Char) : List Char × List Char := (s.takeWhile Char.isDigit, s.dropWhile Char.isDigit)

/-- The exponent, if one follows. -/
def exponent? (s : List Char) : Option (Int × List Char) :=
  match s with
  | e :: rest =>
    if e == 'e' || e == 'E' then
      let (negative, rest) := match rest with
        | '-' :: rest => (true, rest)
        | '+' :: rest => (false, rest)
        | rest => (false, rest)
      let (ds, rest) := digits rest
      if ds.isEmpty then none
      else
        let n := ds.foldl (fun n c => n * 10 + digitValue c) 0
        some (if negative then -(n : Int) else n, rest)
    else some (0, s)
  | [] => some (0, s)

/-- A whole number that fits into 64 bits stays whole; minus zero does not count as whole. -/
def integer? (negative : Bool) (n : Nat) : Option JsonNumber :=
  if negative then
    if 0 < n && n ≤ signedLimit then some (.integer (-(n : Int))) else none
  else if fits n then some (.integer n) else none

def number? (s : List Char) : Option (Json × List Char) := do
  let (negative, s) := match s with
    | '-' :: rest => (true, rest)
    | s => (false, s)
  let (whole, rest) := digits s
  if whole.isEmpty || (whole.length > 1 && whole.head? == some '0') then none
  else
    let significand := wholeDigits 0 whole
    let (fraction, rest, pointed) := match rest with
      | '.' :: more => let (fraction, rest) := digits more; (fraction, rest, true)
      | rest => ([], rest, false)
    if pointed && fraction.isEmpty then none
    else
      let (exponent, after) ← exponent? rest
      let exact := if pointed || after.length < rest.length then none
        else integer? negative (whole.foldl (fun n c => n * 10 + digitValue c) 0)
      match exact with
      | some n => some (.number n, after)
      | none =>
        let s := fractionDigits significand fraction
        let n ← real? negative ⟨s.digits, s.exponent + exponent⟩
        some (.number n, after)

/-- What reads one value and gives the rest. -/
abbrev Read := List Char → Option (Json × List Char)

/-- The items after the first bracket or comma, up to the closing bracket. -/
def itemList? (read : Read) : Nat → List Char → Option (List Json × List Char)
  | 0, _ => none
  | fuel + 1, s => do
    let (item, rest) ← read s
    match skipSpace rest with
    | ']' :: rest => some ([item], rest)
    | ',' :: rest =>
      let (items, rest) ← itemList? read fuel rest
      some (item :: items, rest)
    | _ => none

def itemsRest? (read : Read) (s : List Char) : Option (List Json × List Char) :=
  match skipSpace s with
  | ']' :: rest => some ([], rest)
  | s => itemList? read (s.length + 1) s

/-- The members after the first brace or comma, up to the closing brace. -/
def memberList? (read : Read) : Nat → List Char → Option (List (String × Json) × List Char)
  | 0, _ => none
  | fuel + 1, s =>
    match skipSpace s with
    | '"' :: rest => do
      let (name, rest) ← stringRest? rest
      match skipSpace rest with
      | ':' :: rest =>
        let (value, rest) ← read rest
        match skipSpace rest with
        | '}' :: rest => some ([(name, value)], rest)
        | ',' :: rest =>
          let (members, rest) ← memberList? read fuel rest
          some ((name, value) :: members, rest)
        | _ => none
      | _ => none
    | _ => none

def membersRest? (read : Read) (s : List Char) : Option (List (String × Json) × List Char) :=
  match skipSpace s with
  | '}' :: rest => some ([], rest)
  | s => memberList? read (s.length + 1) s

/-- What becomes of the members of an object. -/
abbrev Collect := List (String × Json) → Json

/-- One value in which arrays and objects nest at most `depth` deep, and what follows it. -/
def value? (collect : Collect) (depth : Nat) (s : List Char) : Option (Json × List Char) :=
  match skipSpace s with
  | 'n' :: 'u' :: 'l' :: 'l' :: rest => some (.null, rest)
  | 't' :: 'r' :: 'u' :: 'e' :: rest => some (.bool true, rest)
  | 'f' :: 'a' :: 'l' :: 's' :: 'e' :: rest => some (.bool false, rest)
  | '"' :: rest => do
    let (text, rest) ← stringRest? rest
    some (.string text, rest)
  | '[' :: rest =>
    match depth with
    | 0 => none
    | depth + 1 => do
      let (items, rest) ← itemsRest? (value? collect depth) rest
      some (.array items, rest)
  | '{' :: rest =>
    match depth with
    | 0 => none
    | depth + 1 => do
      let (members, rest) ← membersRest? (value? collect depth) rest
      some (collect members, rest)
  | s => number? s

/-- Reads a whole text. -/
def parseWith? (collect : Collect) (s : String) : Option Json := do
  let (value, rest) ← value? collect maxDepth s.toList
  if (skipSpace rest).isEmpty then some value else none

/-- Reads a text for the data in it. -/
def parse? (s : String) : Option Json := parseWith? ofMembers s

/-- Reads a text for a record, which shows whether it gives a field twice. -/
def parseAsWritten? (s : String) : Option Json := parseWith? .object s

end Acceptance.Json
