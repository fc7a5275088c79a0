/-!
# Shortest decimals

A binary fraction of 64 bits as a decimal with the fewest digits that still reads back as the same
number, and the text of it.

* `Binary64`: sign, significand and exponent of the bits;
* `shortest`: the decimal, by search over grids of powers of ten, coarse grids first;
* `text`: positional where the exponent is small, scientific elsewhere.
-/

namespace Acceptance.Decimal

/-- `significand * 2 ^ exponent`, with a sign. `lowest` holds at a power of two, where the
neighbour below is half as far away as the one above. -/
structure Binary64 where
  negative : Bool
  significand : Nat
  exponent : Int
  lowest : Bool
  deriving DecidableEq, Repr

/-- The first bit of a significand, which is not stored: one above 52 bits of fraction. -/
def hiddenBit : Nat := 4503599627370496

def Binary64.ofBits (bits : UInt64) : Binary64 :=
  let fraction := bits.toNat % hiddenBit
  let field := bits.toNat / hiddenBit % 2048
  { negative := bits.toNat ≥ 9223372036854775808
    significand := if field = 0 then fraction else fraction + hiddenBit
    exponent := (max field 1 : Nat) - 1075
    lowest := fraction = 0 && field > 1 }

/-- `digits * 10 ^ exponent`. -/
structure Scaled where
  digits : Nat
  exponent : Int
  deriving DecidableEq, Repr

/-- `base ^ e` above the fraction bar. -/
def raise (base : Nat) (e : Int) : Nat := Nat.pow base e.toNat

/-- Whether `candidate / scale`, in quarters of the last binary place over `unit`, reads back as the
number: its distance is at most half of the way to the neighbour, and equal to it only if the
significand is even. -/
def readsBack (b : Binary64) (candidate unit : Nat) : Bool :=
  let low := (4 * b.significand - (if b.lowest then 1 else 2)) * unit
  let high := (4 * b.significand + 2) * unit
  if b.significand % 2 = 0 then low ≤ candidate && candidate ≤ high
  else low < candidate && candidate < high

/-- The decimal on the grid of `10 ^ t` that reads back, the nearer one if there are two. -/
def onGrid? (b : Binary64) (t : Int) : Option Scaled :=
  let quarter := b.exponent - 2
  -- a quarter of the last binary place is `unit / step` grid steps
  let unit := raise 2 quarter * raise 10 (-t)
  let step := raise 2 (-quarter) * raise 10 t
  let value := 4 * b.significand * unit
  let below := value / step
  let above := below + 1
  match readsBack b (below * step) unit, readsBack b (above * step) unit with
  | true, true => some ⟨if 2 * (value - below * step) ≤ step then below else above, t⟩
  | true, false => some ⟨below, t⟩
  | false, true => some ⟨above, t⟩
  | false, false => none

/-- Tries the grids `10 ^ t`, `10 ^ (t - 1)`, …, `fuel` of them. -/
def search (b : Binary64) (t : Int) : Nat → Option Scaled
  | 0 => none
  | fuel + 1 =>
    match onGrid? b t with
    | some d => some d
    | none => search b (t - 1) fuel

/-- No finite number is beyond `10 ^ 309`, and none needs a grid finer than `10 ^ -324`. -/
def shortest (b : Binary64) : Scaled :=
  if b.significand = 0 then ⟨0, 0⟩ else (search b 309 634).getD ⟨0, 0⟩

/-- Which numbers are written positionally, and how wide the exponent of the others is. -/
structure Layout where
  leastPositional : Int
  mostPositional : Int
  exponentDigits : Nat

def layout : Layout := ⟨-5, 15, 2⟩

def padded (width n : Nat) : List Char :=
  let digits := Nat.toDigits 10 n
  List.replicate (width - digits.length) '0' ++ digits

/-- Digits with the point after the first `places` of them; a whole number ends in `.0`. -/
def positional (digits : List Char) (places : Int) : List Char :=
  if places ≤ 0 then
    ['0', '.'] ++ List.replicate (-places).toNat '0' ++ digits
  else
    let whole := digits.take places.toNat
    let fraction := digits.drop places.toNat
    whole ++ List.replicate (places.toNat - digits.length) '0' ++ ['.'] ++
      if fraction.isEmpty then ['0'] else fraction

def scientific (digits : List Char) (exponent : Int) : List Char :=
  let mantissa := match digits with
    | [] => []
    | [d] => [d]
    | d :: more => d :: '.' :: more
  mantissa ++ ['e', if exponent < 0 then '-' else '+'] ++
    padded layout.exponentDigits exponent.natAbs

def unsignedText (d : Scaled) : List Char :=
  let digits := Nat.toDigits 10 d.digits
  let exponent := d.exponent + digits.length - 1
  let digits := (digits.reverse.dropWhile (· == '0')).reverse
  if layout.leastPositional ≤ exponent && exponent ≤ layout.mostPositional then
    positional digits (exponent + 1)
  else scientific digits exponent

/-- The text of a finite number. -/
def text (bits : UInt64) : String :=
  let b := Binary64.ofBits bits
  let unsigned := if b.significand = 0 then ['0', '.', '0'] else unsignedText (shortest b)
  String.ofList (if b.negative then '-' :: unsigned else unsigned)

end Acceptance.Decimal
