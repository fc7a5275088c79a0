import Acceptance.Duration

/-!
# Points in time

Points in time as resources of the cluster carry them: date, time of day and offset. They are written
in universal time and whole seconds, whatever form they were read in.
-/

namespace Acceptance.Cluster

/-- A second of universal time, counted from the first day of the year 1 by the calendar in use
today. -/
structure Timestamp where
  second : Nat
  deriving DecidableEq, Repr

namespace Timestamp

def isLeap (year : Nat) : Bool := year % 4 == 0 && (year % 100 != 0 || year % 400 == 0)

def monthLengths (year : Nat) : List Nat :=
  [31, if isLeap year then 29 else 28, 31, 30, 31, 30, 31, 31, 30, 31, 30, 31]

/-- Days in the years before `year`. -/
def daysBeforeYear (year : Nat) : Nat :=
  let n := year - 1
  n * 365 + n / 4 - n / 100 + n / 400

/-- Days from the first day of the year 1 to a date, if there is such a date. -/
def days? (year month day : Nat) : Option Nat := do
  let lengths := monthLengths year
  let length ← lengths[month - 1]?
  if year = 0 || month = 0 || day = 0 || length < day then none
  else some (daysBeforeYear year + (lengths.take (month - 1)).foldl (· + ·) 0 + (day - 1))

/-- The year in which a day falls: the last one with no more days before it. -/
def yearOf (day : Nat) : Nat :=
  let guess := day / 366 + 1
  ((List.range (day / 14600 + 2)).map (guess + ·)).filter (daysBeforeYear · ≤ day) |>.getLastD guess

/-- Month and day of the month, where `day` counts from the first day of the first month. -/
def monthOf (month day : Nat) : List Nat → Nat × Nat
  | [] => (month, day + 1)
  | length :: rest => if day < length then (month, day + 1) else monthOf (month + 1) (day - length) rest

def two (n : Nat) : List Char := Duration.leftPad 2 (Nat.toDigits 10 n)

def text (t : Timestamp) : String :=
  let day := t.second / 86400
  let year := yearOf day
  let (month, date) := monthOf 1 (day - daysBeforeYear year) (monthLengths year)
  let rest := t.second % 86400
  String.ofList (Duration.leftPad 4 (Nat.toDigits 10 year) ++ '-' :: two month ++ '-' :: two date ++
    'T' :: two (rest / 3600) ++ ':' :: two (rest / 60 % 60) ++ ':' :: two (rest % 60) ++ ['Z'])

/-- A number of exactly `n` digits, and what follows it. -/
def digits? (n : Nat) (s : List Char) : Option (Nat × List Char) :=
  let ds := s.take n
  if ds.length = n && ds.all Char.isDigit then some (Duration.digitsValue ds, s.drop n) else none

def skip? (allowed : List Char) : List Char → Option (List Char)
  | c :: rest => if allowed.contains c then some rest else none
  | [] => none

/-- Seconds by which a clock is ahead of universal time. -/
def offset? : List Char → Option Int
  | ['Z'] | ['z'] => some 0
  | sign :: rest => do
    let (hours, rest) ← digits? 2 rest
    let (minutes, rest) ← digits? 2 (← skip? [':'] rest)
    if hours < 24 && minutes < 60 && rest.isEmpty then
      let seconds : Int := hours * 3600 + minutes * 60
      if sign == '+' then some seconds else if sign == '-' then some (-seconds) else none
    else none
  | [] => none

/-- What follows a fraction of a second, if there is one. -/
def afterFraction? : List Char → Option (List Char)
  | '.' :: c :: rest => if c.isDigit then some (rest.dropWhile Char.isDigit) else none
  | '.' :: [] => none
  | s => some s

def ofChars? (s : List Char) : Option Timestamp := do
  let (year, s) ← digits? 4 s
  let (month, s) ← digits? 2 (← skip? ['-'] s)
  let (day, s) ← digits? 2 (← skip? ['-'] s)
  let (hour, s) ← digits? 2 (← skip? ['T', 't', ' '] s)
  let (minute, s) ← digits? 2 (← skip? [':'] s)
  let (second, s) ← digits? 2 (← skip? [':'] s)
  let offset ← offset? (← afterFraction? s)
  let days ← days? year month day
  if hour < 24 && minute < 60 && second ≤ 60 then
    let here : Int := days * 86400 + hour * 3600 + minute * 60 + min second 59
    some ⟨(here - offset).toNat⟩
  else none

def parse? (s : String) : Option Timestamp := ofChars? s.toList

end Timestamp

end Acceptance.Cluster
