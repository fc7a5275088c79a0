/-!
# Passwords of test users

Random bytes become letters and digits. A byte that would make some characters likelier than others
is passed over.
-/

namespace Acceptance.Password

def alphabet : List Char :=
  "ABCDEFGHIJKLMNOPQRSTUVWXYZabcdefghijklmnopqrstuvwxyz0123456789".toList

/-- Bytes below it are used: the largest multiple of the number of characters that a byte can
reach. -/
def acceptBelow : Nat := 256 / alphabet.length * alphabet.length

/-- Characters in a password. -/
def length : Nat := 32

/-- Bytes drawn from the random source at a time. -/
def bufferSize : Nat := 64

/-- The character of a byte, unless it is passed over. -/
def symbol? (b : UInt8) : Option Char :=
  if b.toNat < acceptBelow then alphabet[b.toNat % alphabet.length]? else none

/-- Continues `out`, of which `size` bytes are written, until it has exactly `target` bytes or the
random bytes are used up. -/
def fill (target size : Nat) (out : List Char) : List UInt8 → List Char
  | [] => out
  | b :: rest =>
    if size = target then out
    else match symbol? b with
      | some c => fill target (size + 1) (out ++ [c]) rest
      | none => fill target size out rest

/-- Continues a text to `target` bytes with characters from random bytes. -/
def extend (out : String) (bytes : List UInt8) (target : Nat) : String :=
  String.ofList (fill target out.utf8ByteSize out.toList bytes)

/-- Fills the password with one buffer of random bytes after another. `none` if the random source
gives out; with the password comes what is left of it. -/
def fillFrom (out : List Char) (entropy : List UInt8) : Option (List Char × List UInt8) :=
  if length ≤ out.length then some (out, entropy)
  else if entropy.length < bufferSize then none
  else fillFrom (fill length out.length out (entropy.take bufferSize)) (entropy.drop bufferSize)
termination_by entropy.length
decreasing_by
  simp only [List.length_drop, bufferSize] at *
  omega

/-- A new password. -/
def generate (entropy : List UInt8) : Option (String × List UInt8) :=
  (fillFrom [] entropy).map fun r => (String.ofList r.1, r.2)

end Acceptance.Password
