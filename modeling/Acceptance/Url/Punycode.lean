/-!
# Punycode

How a label of a host name is written in ASCII: its ASCII characters, and after a hyphen the places of
the others as differences in a mixed base of 36 digits, whose thresholds adapt to what came before.
-/

namespace Acceptance.Url.Punycode

def digit (d : Nat) : Char := if d < 26 then Char.ofNat (0x61 + d) else Char.ofNat (0x16 + d)

/-- The threshold of the digit at `place`. -/
def threshold (place bias : Nat) : Nat := max 1 (min 26 (place - bias))

/-- A difference in digits, the least one first. -/
def digits (bias place n : Nat) : List Char :=
  let t := threshold place bias
  if n < t then [digit n]
  else digit (t + (n - t) % (36 - t)) :: digits bias (place + 36) ((n - t) / (36 - t))
termination_by n
decreasing_by
  have : 1 ≤ threshold place bias := Nat.le_max_left ..
  have := Nat.div_le_self (n - threshold place bias) (36 - threshold place bias)
  omega

def scale (delta steps : Nat) : Nat × Nat :=
  if 455 < delta then scale (delta / 35) (steps + 36) else (delta, steps)
termination_by delta

/-- The bias after a difference, where `seen` characters have been placed. -/
def adapt (delta seen : Nat) (first : Bool) : Nat :=
  let d := if first then delta / 700 else delta / 2
  let (d, steps) := scale (d + d / seen) 0
  steps + 36 * d / (d + 38)

structure State where
  output : List Char
  delta : Nat := 0
  bias : Nat := 72
  /-- Characters placed so far. -/
  seen : Nat

/-- Passes one character of the label while all those with code `code` are placed. -/
def pass (basic code : Nat) (s : State) (c : Char) : State :=
  if c.toNat < code then { s with delta := s.delta + 1 }
  else if c.toNat = code then {
    output := s.output ++ digits s.bias 36 s.delta
    bias := adapt s.delta (s.seen + 1) (s.seen == basic)
    seen := s.seen + 1 }
  else s

/-- Places all characters with code `code`; those below `next` are placed. -/
def place (label : List Char) (basic : Nat) (next : Nat × State) (code : Nat) : Nat × State :=
  let s := { next.2 with delta := next.2.delta + (code - next.1) * (next.2.seen + 1) }
  let s := label.foldl (pass basic code) s
  (code + 1, { s with delta := s.delta + 1 })

def isBasic (c : Char) : Bool := c.toNat < 0x80

def encode (label : List Char) : List Char :=
  let basic := label.filter isBasic
  let codes := ((label.filter fun c => !isBasic c).map Char.toNat).mergeSort.eraseDups
  let start := if basic.isEmpty then [] else basic ++ ['-']
  (codes.foldl (place label basic.length) (0x80, { output := start, seen := basic.length })).2.output

end Acceptance.Url.Punycode
