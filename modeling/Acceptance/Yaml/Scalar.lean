import Acceptance.Decimal.Nearest
import Acceptance.Json

/-!
# Values of scalars

What a scalar says: nothing, a truth value, a number or a text. A plain scalar is what it looks
like; a tag decides for the others.
-/

namespace Acceptance.Yaml.Scalar

def null? (s : String) : Bool := ["null", "Null", "NULL", "~"].contains s

def bool? (s : String) : Option Bool :=
  if ["true", "True", "TRUE"].contains s then some true
  else if ["false", "False", "FALSE"].contains s then some false
  else none

def digitValue? (radix : Nat) (c : Char) : Option Nat :=
  let n := c.toNat
  let v :=
    if 0x30 ≤ n && n ≤ 0x39 then n - 0x30
    else if 0x61 ≤ n && n ≤ 0x7A then n - 0x57
    else if 0x41 ≤ n && n ≤ 0x5A then n - 0x37
    else radix
  if v < radix then some v else none

/-- The number of one digit or more. -/
def digits? (radix : Nat) (s : List Char) : Option Nat :=
  if s.isEmpty then none
  else (s.mapM (digitValue? radix)).map fun ds => ds.foldl (fun n d => n * radix + d) 0

def unsigned : List Char → List Char
  | '+' :: rest => rest
  | '-' :: rest => rest
  | s => s

/-- A number with needless zeros before it is a text, so that a code keeps its form. -/
def isCode (s : List Char) : Bool :=
  match unsigned s with
  | '0' :: c :: rest => (c :: rest).all Char.isDigit
  | _ => false

/-- The number behind its sign: in base sixteen, eight, two or ten. -/
def magnitude? : List Char → Option Nat
  | '0' :: 'x' :: rest => digits? 16 rest
  | '0' :: 'o' :: rest => digits? 8 rest
  | '0' :: 'b' :: rest => digits? 2 rest
  | s => digits? 10 s

/-- Whole numbers of 128 bits lie below this. -/
def unsignedLimit : Nat := 340282366920938463463374607431768211456

/-- Negative numbers of 128 bits do not lie below the negative of this. -/
def signedLimit : Nat := 170141183460469231731687303715884105728

/-- Numbers read as whole have at most 128 bits. -/
def integer? (s : List Char) : Option Int :=
  if isCode s then none
  else match s with
    | '-' :: rest => do
      let n ← magnitude? rest
      if n ≤ signedLimit then some (-(n : Int)) else none
    | '+' :: rest => do
      let n ← magnitude? rest
      if n < unsignedLimit then some n else none
    | s => do
      let n ← magnitude? s
      if n < unsignedLimit then some n else none

/-- Digits with an optional point among them: the digits, and how many are behind the point. -/
def mantissa? (s : List Char) : Option (Nat × Nat × List Char) := do
  let whole := s.takeWhile Char.isDigit
  let rest := s.drop whole.length
  let (fraction, rest) := match rest with
    | '.' :: more => (more.takeWhile Char.isDigit, more.dropWhile Char.isDigit)
    | rest => ([], rest)
  let n ← digits? 10 (whole ++ fraction)
  some (n, fraction.length, rest)

def exponent? : List Char → Option Int
  | [] => some 0
  | e :: rest =>
    if e == 'e' || e == 'E' then
      match rest with
      | '-' :: ds => (digits? 10 ds).map fun n => -(n : Int)
      | '+' :: ds => (digits? 10 ds).map fun n => (n : Int)
      | ds => (digits? 10 ds).map fun n => (n : Int)
    else none

/-- What a scalar in the form of a fraction gives. The special values have no number. -/
inductive Real where
  | special
  | finite (bits : UInt64)

def real? (s : String) : Option Real := do
  if [".inf", ".Inf", ".INF", "+.inf", "+.Inf", "+.INF", "-.inf", "-.Inf", "-.INF", ".nan", ".NaN",
    ".NAN"].contains s then some .special
  else
    let (n, places, rest) ← mantissa? (unsigned s.toList)
    let e ← exponent? rest
    let f := Decimal.nearest n (e - places)
    if f.isInf then none
    else some (.finite (if s.toList.head? == some '-' then -f else f).toBits)

def Real.toJson : Real → Json
  | .special => .null
  | .finite bits => .number (.real bits)

/-- A whole number beyond 64 bits has no form in JSON. -/
def integerJson? (n : Int) : Option Json :=
  if -(Json.signedLimit : Int) ≤ n && n < Json.unsignedLimit then some (.number (.integer n)) else none

/-- The value of a scalar by its looks; none for a number that cannot be kept. -/
def plain? (s : String) : Option Json :=
  if s.isEmpty || null? s then some .null
  else match bool? s with
    | some b => some (.bool b)
    | none =>
      match integer? s.toList with
      | some n => integerJson? n
      | none =>
        if isCode s.toList then some (.string s)
        else match real? s with
          | some r => some r.toJson
          | none => some (.string s)

/-- The tags of the core types. -/
def coreTag (name : String) : String := "tag:yaml.org,2002:" ++ name

/-- Whether a tag belongs to one application only. -/
def isLocalTag (tag : String) : Bool := tag.toList.head? == some '!'

def tagged? (tag s : String) : Option Json :=
  if isLocalTag tag then none
  else if tag == coreTag "bool" then (bool? s).map .bool
  else if tag == coreTag "int" then (integer? s.toList).bind integerJson?
  else if tag == coreTag "float" then (real? s).map Real.toJson
  else if tag == coreTag "null" then if null? s then some .null else none
  else some (.string s)

def value? (tag : Option String) (plain : Bool) (s : String) : Option Json :=
  match tag with
  | some tag => tagged? tag s
  | none => if plain then plain? s else some (.string s)

end Acceptance.Yaml.Scalar
