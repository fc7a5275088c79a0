/-!
# TOML documents

A document is a list of tables, each with the path of its name and its entries. Every text is
written in the plainest of the quotations that can hold it.

* `Quotation.ofText`: which quotation a text gets;
* `Document.text`: the written document.
-/

namespace Acceptance.Toml

inductive Scalar where
  | bool (value : Bool)
  | string (text : String)
  deriving DecidableEq, Repr

structure Table where
  path : List String
  entries : List (String × Scalar)
  deriving DecidableEq, Repr

abbrev Document := List Table

/-- Controls that no quotation can hold as they are. Tab and newline have rules of their own. -/
def isControl (c : Char) : Bool :=
  (c.toNat < 0x20 && c != '\t' && c != '\n') || c.toNat == 0x7F

/-- The longest run of `q` in the text, where `current` of them stand just before it. -/
def longestRun (q : Char) (current : Nat) : List Char → Nat
  | [] => current
  | c :: rest => if c = q then longestRun q (current + 1) rest else max current (longestRun q 0 rest)

/-- The ways to write a text. In a literal nothing is escaped; a block may span lines. -/
inductive Quotation where
  | basic
  | literal
  | basicBlock
  | literalBlock
  deriving DecidableEq, Repr

/-- Whether the text stays readable: nothing in it but tabs needs an escape. -/
def Quotation.suits (s : List Char) : Quotation → Bool
  | .basic => !s.any fun c => isControl c || c == '\n' || c == '\\' || c == '"'
  | .literal => !s.any fun c => isControl c || c == '\n' || c == '\''
  | .basicBlock => (!s.any fun c => isControl c || c == '\\') && longestRun '"' 0 s ≤ 2
  | .literalBlock => (!s.any isControl) && longestRun '\'' 0 s ≤ 2

/-- The plainest quotation that suits the text, or one with escapes if there is none. -/
def Quotation.ofText (s : List Char) : Quotation :=
  if basic.suits s then basic
  else if literal.suits s then literal
  else if basicBlock.suits s then basicBlock
  else if literalBlock.suits s then literalBlock
  else if s.contains '\n' then basicBlock else basic

/-- Names have no block forms. -/
def Quotation.ofName (s : List Char) : Quotation :=
  if basic.suits s then basic else if literal.suits s then literal else basic

def hexDigit (n : Nat) : Char :=
  if n < 10 then Char.ofNat (0x30 + n) else Char.ofNat (0x37 + n)

/-- A character between double quotes. -/
def escapedChar (c : Char) : List Char :=
  match c with
  | '\x08' => ['\\', 'b']
  | '\t' => ['\\', 't']
  | '\n' => ['\\', 'n']
  | '\x0c' => ['\\', 'f']
  | '\r' => ['\\', 'r']
  | '"' => ['\\', '"']
  | '\\' => ['\\', '\\']
  | c =>
    if isControl c then ['\\', 'u', '0', '0', hexDigit (c.toNat / 16), hexDigit (c.toNat % 16)]
    else [c]

def escape (s : List Char) : List Char := s.flatMap escapedChar

/-- In a block newlines stay, and of quotes in a row only each third needs an escape; `quotes` of
them stand just before the text. -/
def escapeBlock (quotes : Nat) : List Char → List Char
  | [] => []
  | c :: rest =>
    if c = '"' then
      if quotes = 2 then '\\' :: '"' :: escapeBlock 0 rest else '"' :: escapeBlock (quotes + 1) rest
    else if c = '\n' then '\n' :: escapeBlock 0 rest
    else escapedChar c ++ escapeBlock 0 rest

/-- A block that holds a newline starts on a line of its own. -/
def blockStart (s : List Char) : List Char := if s.contains '\n' then ['\n'] else []

def Quotation.write (s : List Char) : Quotation → List Char
  | .basic => '"' :: escape s ++ ['"']
  | .literal => '\'' :: s ++ ['\'']
  | .basicBlock => ['"', '"', '"'] ++ blockStart s ++ escapeBlock 0 s ++ ['"', '"', '"']
  | .literalBlock => ['\'', '\'', '\''] ++ blockStart s ++ s ++ ['\'', '\'', '\'']

def stringText (s : String) : List Char := (Quotation.ofText s.toList).write s.toList

def isBareChar (c : Char) : Bool := c.isAlphanum || c == '_' || c == '-'

/-- Names of letters, digits, underscores and dashes need no quotation. -/
def nameText (name : String) : List Char :=
  let s := name.toList
  if !s.isEmpty && s.all isBareChar then s else (Quotation.ofName s).write s

def Scalar.chars : Scalar → List Char
  | .bool true => ['t', 'r', 'u', 'e']
  | .bool false => ['f', 'a', 'l', 's', 'e']
  | .string s => stringText s

/-- A dotted name. -/
def pathText : List String → List Char
  | [] => []
  | [name] => nameText name
  | name :: rest => nameText name ++ '.' :: pathText rest

def entryText (entry : String × Scalar) : List Char :=
  nameText entry.1 ++ [' ', '=', ' '] ++ entry.2.chars ++ ['\n']

def Table.chars (t : Table) : List Char :=
  '[' :: pathText t.path ++ [']', '\n'] ++ t.entries.flatMap entryText

/-- The tables with an empty line between them. -/
def Document.chars : Document → List Char
  | [] => []
  | [t] => t.chars
  | t :: rest => t.chars ++ '\n' :: Document.chars rest

def Document.text (d : Document) : String := String.ofList d.chars

end Acceptance.Toml
