import Acceptance.Json
import Acceptance.Decimal.Shortest

/-!
# JSON text, written

Compact: no blanks, members in ascending order of their names. Within a text only the quote, the
backslash and the controls below U+0020 are escaped.
-/

namespace Acceptance.Json

def hexOfByte (n : Nat) : List Char :=
  let digit (k : Nat) : Char := if k < 10 then Char.ofNat (0x30 + k) else Char.ofNat (0x57 + k)
  [digit (n / 16 % 16), digit (n % 16)]

def escapedChar (c : Char) : List Char :=
  match c with
  | '"' => ['\\', '"']
  | '\\' => ['\\', '\\']
  | '\x08' => ['\\', 'b']
  | '\x0c' => ['\\', 'f']
  | '\n' => ['\\', 'n']
  | '\r' => ['\\', 'r']
  | '\t' => ['\\', 't']
  | c => if c.toNat < 0x20 then ['\\', 'u', '0', '0'] ++ hexOfByte c.toNat else [c]

def stringText (s : String) : List Char := '"' :: s.toList.flatMap escapedChar ++ ['"']

def numberText : JsonNumber → List Char
  | .integer n => (toString n).toList
  | .real bits => (Decimal.text bits).toList

mutual

def chars : Json → List Char
  | .null => ['n', 'u', 'l', 'l']
  | .bool true => ['t', 'r', 'u', 'e']
  | .bool false => ['f', 'a', 'l', 's', 'e']
  | .number n => numberText n
  | .string s => stringText s
  | .array items => '[' :: itemChars false items
  | .object members => '{' :: memberChars false members

/-- The items and the closing bracket; `more` says that an item stands before them. -/
def itemChars (more : Bool) : List Json → List Char
  | [] => [']']
  | item :: rest => (if more then [','] else []) ++ chars item ++ itemChars true rest

def memberChars (more : Bool) : List (String × Json) → List Char
  | [] => ['}']
  | (name, value) :: rest =>
    (if more then [','] else []) ++ stringText name ++ ':' :: chars value ++ memberChars true rest

end

def text (value : Json) : String := String.ofList value.chars

end Acceptance.Json
