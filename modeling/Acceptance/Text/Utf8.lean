/-!
# UTF-8

Reading bytes as text: `decode?` is strict, `fault?` says what is wrong with bytes that are not
text, and `decodeLossy` puts U+FFFD for each part that is not.
-/

namespace Acceptance.Text.Utf8

abbrev Bytes := List UInt8

def encode (s : String) : Bytes := s.toUTF8.data.toList

def decode? (bytes : Bytes) : Option String := String.fromUTF8? ⟨bytes.toArray⟩

/-- The values a second byte may have after the first byte of a longer character, and how many
bytes follow the first. -/
def tailRule? (b : UInt8) : Option (Nat × UInt8 × UInt8) :=
  if 0xC2 ≤ b && b ≤ 0xDF then some (1, 0x80, 0xBF)
  else if b == 0xE0 then some (2, 0xA0, 0xBF)
  else if b == 0xED then some (2, 0x80, 0x9F)
  else if 0xE1 ≤ b && b ≤ 0xEF then some (2, 0x80, 0xBF)
  else if b == 0xF0 then some (3, 0x90, 0xBF)
  else if 0xF1 ≤ b && b ≤ 0xF3 then some (3, 0x80, 0xBF)
  else if b == 0xF4 then some (3, 0x80, 0x8F)
  else none

/-- What the bytes start with: a whole character, a part that rules every character out, or a
character that the end of the bytes cuts off. Each with its number of bytes. -/
inductive Head where
  | whole (size : Nat)
  | broken (size : Nat)
  | cutOff
  deriving DecidableEq, Repr

def isTail (b : UInt8) : Bool := 0x80 ≤ b && b ≤ 0xBF

/-- Follows the last bytes of a character after `seen` good ones. -/
def tails (seen : Nat) : Nat → Bytes → Head
  | 0, _ => .whole seen
  | _ + 1, [] => .cutOff
  | n + 1, b :: rest => if isTail b then tails (seen + 1) n rest else .broken seen

def head (first : UInt8) (rest : Bytes) : Head :=
  if first < 0x80 then .whole 1
  else match tailRule? first with
    | none => .broken 1
    | some (more, low, high) =>
      match rest with
      | [] => .cutOff
      | second :: rest => if low ≤ second && second ≤ high then tails 2 (more - 1) rest else .broken 1

/-- Where bytes stop being text. -/
inductive Fault where
  | invalid (size index : Nat)
  | incomplete (index : Nat)
  deriving DecidableEq, Repr

def Fault.message : Fault → String
  | .invalid size index => s!"invalid utf-8 sequence of {size} bytes from index {index}"
  | .incomplete index => s!"incomplete utf-8 byte sequence from index {index}"

/-- The first fault, where the bytes start at `index`; `skip` bytes belong to a character already
seen. -/
def faultFrom (index skip : Nat) : Bytes → Option Fault
  | [] => none
  | b :: rest =>
    match skip with
    | skip + 1 => faultFrom (index + 1) skip rest
    | 0 =>
      match head b rest with
      | .whole size => faultFrom (index + 1) (size - 1) rest
      | .broken size => some (.invalid size index)
      | .cutOff => some (.incomplete index)

def fault? (bytes : Bytes) : Option Fault := faultFrom 0 0 bytes

/-- The bytes with the three bytes of U+FFFD in place of each part that is not text. -/
def repairFrom (skip : Nat) (keep : Bool) : Bytes → Bytes
  | [] => []
  | b :: rest =>
    match skip with
    | skip + 1 => if keep then b :: repairFrom skip keep rest else repairFrom skip keep rest
    | 0 =>
      match head b rest with
      | .whole size => b :: repairFrom (size - 1) true rest
      | .broken size => 0xEF :: 0xBF :: 0xBD :: repairFrom (size - 1) false rest
      | .cutOff => [0xEF, 0xBF, 0xBD]

def decodeLossy (bytes : Bytes) : String := (decode? (repairFrom 0 true bytes)).getD ""

end Acceptance.Text.Utf8
