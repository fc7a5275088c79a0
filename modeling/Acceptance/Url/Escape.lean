import Acceptance.Http.Form

/-!
# Percent signs in URLs

Which bytes of a part of a URL are written as a percent sign and two digits. Bytes of characters
beyond ASCII always are.
-/

namespace Acceptance.Url

/-- The bytes that a part of a URL does not show. -/
abbrev Escapes := Nat → Bool

/-- Control characters and whatever is beyond ASCII. -/
def controls : Escapes := fun n => n < 0x20 || 0x7E < n

def isOneOf (s : String) (n : Nat) : Bool := s.toList.any (·.toNat == n)

def fragmentEscapes : Escapes := fun n => controls n || isOneOf " \"<>\x60" n

def pathEscapes : Escapes := fun n => fragmentEscapes n || isOneOf "#?\x7b\x7d" n

/-- Within one segment of a path, where neither a slash nor a percent sign may be taken for more
than itself. -/
def segmentEscapes (special : Bool) : Escapes := fun n =>
  pathEscapes n || isOneOf "/%" n || (special && n == 0x5C)

def userinfoEscapes : Escapes := fun n => pathEscapes n || isOneOf "/:;=@[\\]^|" n

def queryEscapes (special : Bool) : Escapes := fun n =>
  controls n || isOneOf " \"#<>" n || (special && n == 0x27)

def escapeByte (escapes : Escapes) (b : UInt8) : List Char :=
  if escapes b.toNat then Http.percent b else [Char.ofNat b.toNat]

def escape (escapes : Escapes) (s : List Char) : String :=
  String.ofList ((Text.Utf8.encode (String.ofList s)).flatMap (escapeByte escapes))

def hexValue? (b : UInt8) : Option Nat :=
  let n := b.toNat
  if 0x30 ≤ n && n ≤ 0x39 then some (n - 0x30)
  else if 0x41 ≤ n && n ≤ 0x46 then some (n - 0x37)
  else if 0x61 ≤ n && n ≤ 0x66 then some (n - 0x57)
  else none

/-- The bytes that a text with percent signs stands for. A percent sign without two digits stands
for itself. -/
def unescapeBytes : Text.Utf8.Bytes → Text.Utf8.Bytes
  | 0x25 :: a :: b :: rest =>
    match hexValue? a, hexValue? b with
    | some high, some low => UInt8.ofNat (high * 16 + low) :: unescapeBytes rest
    | _, _ => 0x25 :: unescapeBytes (a :: b :: rest)
  | b :: rest => b :: unescapeBytes rest
  | [] => []

end Acceptance.Url
