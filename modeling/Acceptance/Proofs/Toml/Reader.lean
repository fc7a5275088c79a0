import Acceptance.Json.Reader
import Acceptance.Toml

/-!
# TOML documents, read

The grammar of TOML 1.0 for documents whose values are texts and truth values, in tables with dotted
names. Numbers, dates, arrays, inline tables and dotted names of entries are refused; whatever else
is read has the meaning that TOML 1.0 gives it.

* `expressions?`: the lines of a text, each a header or an entry;
* `assemble?`: the tree of tables that they make, in which nothing is defined twice;
* `read?`: the two in a row.
-/

namespace Acceptance.Toml

/-- What a key stands for. -/
inductive Value where
  | bool (value : Bool)
  | string (text : String)
  | table (entries : List (String × Value))

/-- A table, with its keys in the order in which they came. -/
abbrev Tree := List (String × Value)

inductive Expression where
  /-- The entries that follow belong to the table with this name. -/
  | header (path : List String)
  | entry (name : String) (value : Value)

/-! ## Parts that repeat -/

/-- What comes of a part of a text that may be followed by more of the kind. -/
inductive Piece (α : Type) where
  | more (read : List α) (rest : List Char)
  | last (read : List α) (rest : List Char)

/-- Everything up to the last piece, and what follows it. Every piece but the last consumes something
of the text. -/
def pieces? {α : Type} (step : List Char → Option (Piece α)) (s : List Char) :
    Option (List α × List Char) :=
  match step s with
  | none => none
  | some (.last read rest) => some (read, rest)
  | some (.more read rest) =>
    if rest.length < s.length then (pieces? step rest).map fun (more, rest) => (read ++ more, rest)
    else none
termination_by s.length

/-! ## Characters -/

def isSpace (c : Char) : Bool := c == ' ' || c == '\t'

def skipSpace (s : List Char) : List Char := s.dropWhile isSpace

/-- Characters that stand for themselves: all but the controls, of which only the tab does. -/
def isPlain (c : Char) : Bool := c == '\t' || (0x20 ≤ c.toNat && c.toNat != 0x7F)

/-- Characters of a name without quotes. -/
def isNameChar (c : Char) : Bool :=
  ('a' ≤ c && c ≤ 'z') || ('A' ≤ c && c ≤ 'Z') || ('0' ≤ c && c ≤ '9') || c == '_' || c == '-'

/-- What follows a newline, which has one of two forms. -/
def newline? : List Char → Option (List Char)
  | '\n' :: rest => some rest
  | '\r' :: '\n' :: rest => some rest
  | _ => none

/-- What follows the end of a line, before which there may be a comment. -/
def lineEnd? (s : List Char) : Option (List Char) :=
  let s := match skipSpace s with
    | '#' :: rest => rest.dropWhile isPlain
    | s => s
  if s.isEmpty then some [] else newline? s

/-! ## Texts -/

/-- The number that hexadecimal digits stand for. -/
def hexNumber? (digits : List Char) : Option Nat :=
  digits.foldlM (fun n c => (Json.hexValue? c).map (16 * n + ·)) 0

/-- The character with the number in the first `width` digits. -/
def numbered? (width : Nat) (s : List Char) : Option (Char × List Char) :=
  if s.length < width then none
  else (hexNumber? (s.take width)).bind fun n =>
    if n.isValidChar then some (Char.ofNat n, s.drop width) else none

/-- The character of an escape, of which the backslash is read. -/
def escape? : List Char → Option (Char × List Char)
  | 'b' :: rest => some ('\x08', rest)
  | 't' :: rest => some ('\t', rest)
  | 'n' :: rest => some ('\n', rest)
  | 'f' :: rest => some ('\x0c', rest)
  | 'r' :: rest => some ('\r', rest)
  | '"' :: rest => some ('"', rest)
  | '\\' :: rest => some ('\\', rest)
  | 'u' :: rest => numbered? 4 rest
  | 'U' :: rest => numbered? 8 rest
  | _ => none

/-- A text on one line up to the quote `q` at its end. Only between double quotes there are
escapes. -/
def lineStep (q : Char) : List Char → Option (Piece Char)
  | [] => none
  | c :: rest =>
    if c = q then some (.last [] rest)
    else if c = '\\' ∧ q = '"' then (escape? rest).map fun (c, rest) => .more [c] rest
    else if isPlain c then some (.more [c] rest)
    else none

/-- Without the white space and newlines at its start. -/
def skipLines : List Char → List Char
  | [] => []
  | '\r' :: '\n' :: rest => skipLines rest
  | c :: rest => if isSpace c || c == '\n' then skipLines rest else c :: rest

/-- An escape in a block, where a backslash at the end of a line takes away what follows up to the
next character that is not blank. -/
def blockEscape? (s : List Char) : Option (Piece Char) :=
  match newline? (skipSpace s) with
  | some rest => some (.more [] (skipLines rest))
  | none => (escape? s).map fun (c, rest) => .more [c] rest

/-- A text that may span lines, up to three quotes `q`. One or two quotes before these belong to the
text. -/
def blockStep (q : Char) (s : List Char) : Option (Piece Char) :=
  let quotes := (s.takeWhile (· == q)).length
  let rest := s.dropWhile (· == q)
  if 5 < quotes then none
  else if 3 ≤ quotes then some (.last (List.replicate (quotes - 3) q) rest)
  else if 0 < quotes then some (.more (List.replicate quotes q) rest)
  else match newline? s with
    | some rest => some (.more ['\n'] rest)
    | none => match s with
      | [] => none
      | c :: rest =>
        if c = '\\' ∧ q = '"' then blockEscape? rest
        else if isPlain c then some (.more [c] rest)
        else none

/-- A newline right after the opening quotes of a block is not part of the text. -/
def blockBody (s : List Char) : List Char := (newline? s).getD s

/-- A text between quotes `q`, of which the first is read. -/
def quoted? (q : Char) (s : List Char) : Option (List Char × List Char) :=
  match s with
  | a :: b :: rest =>
    if a = q ∧ b = q then pieces? (blockStep q) (blockBody rest) else pieces? (lineStep q) s
  | _ => pieces? (lineStep q) s

def value? : List Char → Option (Value × List Char)
  | 't' :: 'r' :: 'u' :: 'e' :: rest => some (.bool true, rest)
  | 'f' :: 'a' :: 'l' :: 's' :: 'e' :: rest => some (.bool false, rest)
  | '"' :: rest => (quoted? '"' rest).map fun (s, rest) => (.string (String.ofList s), rest)
  | '\'' :: rest => (quoted? '\'' rest).map fun (s, rest) => (.string (String.ofList s), rest)
  | _ => none

/-! ## Lines -/

/-- The characters of a name, which does not span lines. -/
def nameChars? : List Char → Option (List Char × List Char)
  | '"' :: rest => pieces? (lineStep '"') rest
  | '\'' :: rest => pieces? (lineStep '\'') rest
  | s =>
    if (s.takeWhile isNameChar).isEmpty then none
    else some (s.takeWhile isNameChar, s.dropWhile isNameChar)

def name? (s : List Char) : Option (String × List Char) :=
  (nameChars? s).map fun (name, rest) => (String.ofList name, rest)

/-- A part of a dotted name, which a bracket ends. -/
def pathStep (s : List Char) : Option (Piece String) := do
  let (name, rest) ← name? (skipSpace s)
  match skipSpace rest with
  | '.' :: rest => some (.more [name] rest)
  | ']' :: rest => some (.last [name] rest)
  | _ => none

/-- A header, of which the bracket is read. -/
def header? (s : List Char) : Option (Expression × List Char) := do
  let (path, rest) ← pieces? pathStep s
  some (.header path, rest)

/-- What follows a name: an equals sign and a value. -/
def entryRest? (name : String) (s : List Char) : Option (Expression × List Char) :=
  match skipSpace s with
  | '=' :: rest => (value? (skipSpace rest)).map fun (value, rest) => (.entry name value, rest)
  | _ => none

/-- A line with its end. Without a header or an entry it holds at most a comment. -/
def line? (s : List Char) : Option (List Expression × List Char) :=
  let s := skipSpace s
  match s with
  | '[' :: rest => do
    let (header, rest) ← header? rest
    let rest ← lineEnd? rest
    some ([header], rest)
  | _ =>
    match name? s with
    | some (name, rest) => do
      let (entry, rest) ← entryRest? name rest
      let rest ← lineEnd? rest
      some ([entry], rest)
    | none => (lineEnd? s).map fun rest => ([], rest)

def documentStep (s : List Char) : Option (Piece Expression) :=
  if s.isEmpty then some (.last [] []) else (line? s).map fun (line, rest) => .more line rest

def expressions? (s : List Char) : Option (List Expression) := (pieces? documentStep s).map (·.1)

/-! ## Tables -/

def Tree.get? (t : Tree) (key : String) : Option Value := (t.find? (·.1 == key)).map (·.2)

def Tree.set (t : Tree) (key : String) (value : Value) : Tree :=
  t.map fun e => if e.1 == key then (key, value) else e

/-- The tree with the table under `path` changed. Tables that are not there are made; what is no
table cannot hold one. -/
def Tree.update? (f : Tree → Option Tree) : List String → Tree → Option Tree
  | [], t => f t
  | key :: path, t =>
    match t.get? key with
    | none => (update? f path []).map fun sub => t ++ [(key, .table sub)]
    | some (.table sub) => (update? f path sub).map fun sub => t.set key (.table sub)
    | some _ => none

/-- The table with one more key, which must not be there yet. -/
def Tree.add? (t : Tree) (key : String) (value : Value) : Option Tree :=
  match t.get? key with
  | none => some (t ++ [(key, value)])
  | some _ => none

/-- What the lines so far have made. -/
structure Assembly where
  tree : Tree := []
  /-- The tables with a header of their own. -/
  defined : List (List String) := []
  /-- The table that entries go to. -/
  here : List String := []

/-- A table has only one header. -/
def Assembly.step? (a : Assembly) : Expression → Option Assembly
  | .header path =>
    if path ∈ a.defined then none
    else (Tree.update? some path a.tree).map fun tree => ⟨tree, path :: a.defined, path⟩
  | .entry name value =>
    (Tree.update? (·.add? name value) a.here a.tree).map fun tree => { a with tree }

def assemble? (lines : List Expression) : Option Tree :=
  (lines.foldlM Assembly.step? {}).map (·.tree)

/-- What a text means. -/
def read? (text : String) : Option Tree := (expressions? text.toList).bind assemble?

end Acceptance.Toml
