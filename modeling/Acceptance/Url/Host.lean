import Acceptance.Text.Split
import Acceptance.Text.Utf8
import Acceptance.Url.Escape
import Acceptance.Url.Punycode

/-!
# Hosts of URLs

A host is a name, or an address of four or of sixteen bytes. Names are kept in lower case and in
ASCII; what ends in a number must be an address.
-/

namespace Acceptance.Url

/-- Why a text is no URL. -/
inductive Fault where
  | relative
  | emptyHost
  | name
  | nameCharacter
  | port
  | ipv4
  | ipv6
  deriving DecidableEq, Repr

def Fault.message : Fault → String
  | .relative => "relative URL without a base"
  | .emptyHost => "empty host"
  | .name => "invalid international domain name"
  | .nameCharacter => "invalid domain character"
  | .port => "invalid port number"
  | .ipv4 => "invalid IPv4 address"
  | .ipv6 => "invalid IPv6 address"

inductive Host where
  | name (text : String)
  | ipv4 (address : Nat)
  | ipv6 (pieces : List Nat)
  deriving DecidableEq, Repr

namespace Host

def digit? (base : Nat) (c : Char) : Option Nat :=
  if c.toNat < 0x80 then (hexValue? (UInt8.ofNat c.toNat)).filter (· < base) else none

def digitsIn (base : Nat) (s : List Char) : Option Nat :=
  s.foldlM (fun n c => (digit? base c).map (n * base + ·)) 0

/-- A number of an address: in hexadecimal after `0x`, in octal after another zero. -/
def number? : List Char → Option Nat
  | [] => none
  | '0' :: 'x' :: rest | '0' :: 'X' :: rest => digitsIn 16 rest
  | '0' :: c :: rest => digitsIn 8 (c :: rest)
  | s => digitsIn 10 s

/-- The parts of a name, without an empty last one. -/
def labels (name : List Char) : List (List Char) :=
  let parts := Text.split '.' name
  if parts.length > 1 && parts.getLast? == some [] then parts.dropLast else parts

def endsInNumber (name : List Char) : Bool :=
  match (labels name).getLast? with
  | some last => (!last.isEmpty && last.all Char.isDigit) || (number? last).isSome
  | none => false

/-- An address of up to four numbers, the last of which takes what the others leave. -/
def ipv4? (name : List Char) : Option Nat := do
  let numbers ← (labels name).mapM number?
  let last ← numbers.getLast?
  let others := numbers.dropLast
  if numbers.length > 4 || others.any (· > 255) || last ≥ Nat.pow 256 (4 - others.length) then none
  else some (others.foldl (fun n part => n * 256 + part) 0 * Nat.pow 256 (4 - others.length) + last)

/-- A group of one to four digits. -/
def group? (s : List Char) : Option Nat :=
  if s.isEmpty || s.length > 4 then none else digitsIn 16 s

def decimalByte? (s : List Char) : Option Nat :=
  if s.isEmpty || (s.length > 1 && s.head? == some '0') then none
  else (digitsIn 10 s).filter (· ≤ 255)

/-- The two groups that four numbers with dots stand for. -/
def dotted? (s : List Char) : Option (List Nat) := do
  match ← (Text.split '.' s).mapM decimalByte? with
  | [a, b, c, d] => some [a * 256 + b, c * 256 + d]
  | _ => none

/-- Groups with colons between them; the last may be four numbers if `final`. -/
def groups? (final : Bool) (s : List Char) : Option (List Nat) :=
  if s.isEmpty then some []
  else do
    let parts := Text.split ':' s
    let last ← parts.getLast?
    let start ← parts.dropLast.mapM group?
    if final && last.contains '.' then (dotted? last).map (start ++ ·)
    else (group? last).map fun g => start ++ [g]

/-- What stands before and after the first two colons in a row. -/
def splitGap : List Char → Option (List Char × List Char)
  | ':' :: ':' :: rest => some ([], rest)
  | c :: rest => (splitGap rest).map fun p => (c :: p.1, p.2)
  | [] => none

/-- Eight groups; two colons in a row stand for one or more groups of zero. -/
def ipv6? (s : List Char) : Option (List Nat) :=
  match splitGap s with
  | none => (groups? true s).filter (·.length = 8)
  | some (before, after) => do
    let start ← groups? false before
    let rest ← groups? true after
    let size := start.length + rest.length
    if size > 7 then none else some (start ++ List.replicate (8 - size) 0 ++ rest)

/-- Lower case beyond ASCII, for the alphabets that have it at a fixed distance. -/
def lower (c : Char) : Char :=
  let n := c.toNat
  if n < 0x80 then c.toLower
  else if (0xC0 ≤ n && n ≤ 0xDE && n != 0xD7) || (0x391 ≤ n && n ≤ 0x3A9) || (0x410 ≤ n && n ≤ 0x42F) then
    Char.ofNat (n + 32)
  else if 0x400 ≤ n && n ≤ 0x40F then Char.ofNat (n + 80)
  else if 0x100 ≤ n && n ≤ 0x137 && n % 2 == 0 then Char.ofNat (n + 1)
  else c

/-- A character of a name in its plain form; wide letters are the plain ones. -/
def plain (c : Char) : List Char :=
  let n := c.toNat
  if n == 0xAD || n == 0x200B || n == 0x2060 || n == 0xFEFF then []
  else if n == 0x3002 || n == 0xFF0E || n == 0xFF61 then ['.']
  else if 0xFF01 ≤ n && n ≤ 0xFF5E then [(Char.ofNat (n - 0xFEE0)).toLower]
  else [lower c]

/-- Characters that no name may hold. -/
def isForbidden (c : Char) : Bool :=
  c.toNat ≤ 0x20 || c.toNat == 0x7F || isOneOf "#%/:<>?@[\\]^|" c.toNat

def asciiLabel (label : List Char) : List Char :=
  if label.all Punycode.isBasic then label else "xn--".toList ++ Punycode.encode label

/-- A name in lower case and in ASCII. -/
def asciiName? (name : List Char) : Option (List Char) :=
  let mapped := name.flatMap plain
  if mapped.any isForbidden then none
  else some (['.'].intercalate ((Text.split '.' mapped).map asciiLabel))

def readIpv6 (s : List Char) : Except Fault Host :=
  if s.getLast? != some ']' then .error .ipv6
  else match ipv6? s.dropLast with
    | some pieces => .ok (.ipv6 pieces)
    | none => .error .ipv6

/-- The host of a URL with a well-known scheme. -/
def parse (s : List Char) : Except Fault Host :=
  match s with
  | '[' :: rest => readIpv6 rest
  | s =>
    let bytes := unescapeBytes (Text.Utf8.encode (String.ofList s))
    match (Text.Utf8.decode? bytes).bind (asciiName? ·.toList) with
    | none => .error .name
    | some [] => .error .emptyHost
    | some ascii =>
      if endsInNumber ascii then
        match ipv4? ascii with
        | some address => .ok (.ipv4 address)
        | none => .error .ipv4
      else .ok (.name (String.ofList ascii))

/-- The host of a URL with any other scheme. It may be empty. -/
def parseOpaque (s : List Char) : Except Fault Host :=
  match s with
  | '[' :: rest => readIpv6 rest
  | s =>
    if s.any fun c => c.toNat == 0 || isOneOf " #/:<>?@[\\]^|" c.toNat then .error .nameCharacter
    else .ok (.name (escape controls s))

/-- Length of the run of zeros at the start. -/
def zeros : List Nat → Nat
  | 0 :: rest => zeros rest + 1
  | _ => 0

/-- Where the first longest run of zeros starts, and its length. -/
def longestZeros (pieces : List Nat) : Nat × Nat :=
  (List.range pieces.length).foldl (fun best i =>
    if zeros (pieces.drop i) > best.2 then (i, zeros (pieces.drop i)) else best) (0, 0)

def hexGroups (pieces : List Nat) : List Char :=
  [':'].intercalate (pieces.map (Nat.toDigits 16))

/-- The groups, with two colons in place of the longest run of at least two zeros. -/
def ipv6Text (pieces : List Nat) : List Char :=
  let (start, size) := longestZeros pieces
  if size < 2 then hexGroups pieces
  else hexGroups (pieces.take start) ++ [':', ':'] ++ hexGroups (pieces.drop (start + size))

def text : Host → String
  | .name s => s
  | .ipv4 n => s!"{n / 16777216}.{n / 65536 % 256}.{n / 256 % 256}.{n % 256}"
  | .ipv6 pieces => "[" ++ String.ofList (ipv6Text pieces) ++ "]"

end Host

end Acceptance.Url
