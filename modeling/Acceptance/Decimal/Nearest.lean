/-!
# Binary fractions nearest to a decimal

`digits * 10 ^ exponent` as a number of 64 bits, rounded to the nearest one. Decimals that are out
of range by far are decided without computing the power.
-/

namespace Acceptance.Decimal

def nearest (digits : Nat) (exponent : Int) : Float :=
  let size := (Nat.toDigits 10 digits).length + exponent
  if digits = 0 || size < -400 then 0
  else if size > 400 then 1 / 0
  else Float.ofScientific digits (exponent < 0) exponent.natAbs

end Acceptance.Decimal
