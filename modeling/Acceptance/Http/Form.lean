import Acceptance.Text.Utf8

/-!
# Form encoding

Pairs of texts as forms and queries carry them: blanks as plus signs, and what is neither a letter
nor a digit nor one of `*-._` by its bytes in hexadecimal.
-/

namespace Acceptance.Http

def upperHexDigit (n : Nat) : Char :=
  if n < 10 then Char.ofNat (0x30 + n) else Char.ofNat (0x37 + n)

/-- A byte as a percent sign and two digits. -/
def percent (b : UInt8) : List Char :=
  ['%', upperHexDigit (b.toNat / 16), upperHexDigit (b.toNat % 16)]

/-- Whether a byte stands for itself in a form. -/
def isFormByte (b : UInt8) : Bool :=
  let n := b.toNat
  (0x30 ≤ n && n ≤ 0x39) || (0x41 ≤ n && n ≤ 0x5A) || (0x61 ≤ n && n ≤ 0x7A) ||
  n == 0x2A || n == 0x2D || n == 0x2E || n == 0x5F

def formByte (b : UInt8) : List Char :=
  if b == 0x20 then ['+'] else if isFormByte b then [Char.ofNat b.toNat] else percent b

def formText (s : String) : List Char := (Text.Utf8.encode s).flatMap formByte

def formPair (pair : String × String) : List Char := formText pair.1 ++ '=' :: formText pair.2

/-- The pairs with `&` between them. -/
def formChars : List (String × String) → List Char
  | [] => []
  | [pair] => formPair pair
  | pair :: rest => formPair pair ++ '&' :: formChars rest

def form (pairs : List (String × String)) : String := String.ofList (formChars pairs)

end Acceptance.Http
