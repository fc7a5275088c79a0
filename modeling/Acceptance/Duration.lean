import Acceptance.Text.Blank

/-!
# Lengths of time

Lengths of time and points in time are numbers of nanoseconds. `Duration.text` is the form that
messages show, `Duration.parse` reads what an operator types.
-/

namespace Acceptance

namespace Duration

def ofSeconds (n : Nat) : Nat := n * 1000000000

def ofMillis (n : Nat) : Nat := n * 1000000

/-- Whole seconds. -/
def seconds (d : Nat) : Nat := d / 1000000000

def leftPad (width : Nat) (digits : List Char) : List Char :=
  List.replicate (width - digits.length) '0' ++ digits

/-- `d` in units of `10 ^ places` nanoseconds, without zeros at the end of the fraction. -/
def decimal (d : Nat) (places : Nat) : List Char :=
  let unit := Nat.pow 10 places
  let fraction := Text.dropEndWhile (· == '0') (leftPad places (Nat.toDigits 10 (d % unit)))
  Nat.toDigits 10 (d / unit) ++ if fraction.isEmpty then [] else '.' :: fraction

/-- The duration in its largest unit of at least one: seconds, milliseconds, microseconds or
nanoseconds. -/
def text (d : Nat) : String :=
  if d ≥ 1000000000 then String.ofList (decimal d 9) ++ "s"
  else if d ≥ 1000000 then String.ofList (decimal d 6) ++ "ms"
  else if d ≥ 1000 then String.ofList (decimal d 3) ++ "µs"
  else String.ofList (decimal d 0) ++ "ns"

/-- Why a text is no duration. -/
inductive Fault where
  | malformed (text : String)
  | zero (text : String)
  deriving DecidableEq, Repr

def Fault.message : Fault → String
  | .malformed text => s!"invalid duration '{text}', expected e.g. 1h, 15m, 90s"
  | .zero text => s!"duration '{text}' must be greater than zero"

/-- Counts of seconds have 64 bits. -/
def limit : Nat := 18446744073709551616

def digitsValue (digits : List Char) : Nat :=
  digits.foldl (fun n c => n * 10 + (c.toNat - 0x30)) 0

/-- A count in decimal, with an optional plus sign, below the limit. -/
def count? (s : List Char) : Option Nat :=
  let digits := match s with
    | '+' :: rest => rest
    | s => s
  if digits.isEmpty || !digits.all Char.isDigit then none
  else if digitsValue digits < limit then some (digitsValue digits) else none

/-- Seconds in one of the unit. -/
def unitSeconds? : Char → Option Nat
  | 'h' => some 3600
  | 'm' => some 60
  | 's' => some 1
  | _ => none

/-- The number before the unit, and the unit: the last character if it is a letter, else
seconds. -/
def splitUnit (s : List Char) : List Char × Char :=
  match s.getLast? with
  | some c => if c.isAlpha then (s.dropLast, c) else (s, 's')
  | none => (s, 's')

/-- Seconds of a text without blanks at its ends. -/
def seconds? (s : List Char) : Option Nat := do
  let n ← count? (Text.trim (splitUnit s).1)
  let unit ← unitSeconds? (splitUnit s).2
  if n * unit < limit then some (n * unit) else none

/-- Reads `15m`, `30s`, `1h` or plain seconds. -/
def parse (s : String) : Except Fault Nat :=
  let t := Text.trim s.toList
  match seconds? t with
  | none => .error (.malformed (String.ofList t))
  | some 0 => .error (.zero (String.ofList t))
  | some n => .ok (ofSeconds n)

end Duration

end Acceptance
