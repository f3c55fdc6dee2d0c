import Telemetry.Number.Double
import Telemetry.Text.Ascii

/-!
# The shortest decimal of a double

A double is written with as few significant digits as identify it: a decimal of `n` digits will do
if reading it gives the double back. For each `n` the two decimals of `n` digits around the exact
value are tried, the nearer one first, and the first that reads back is taken. Seventeen digits
always suffice.
-/

namespace Telemetry.Double

/-! ## Digits -/

/-- The positive decimal `digits * 10 ^ exponent`. -/
structure Decimal where
  digits : Nat
  exponent : Int
deriving DecidableEq, Repr

/-- Where the decimal point of a positive value stands: `10 ^ (p - 1) ≤ value < 10 ^ p`. -/
def decimalPoint (units : Nat) : Int :=
  (digitCount (units * Nat.pow 10 324 / unitsPerOne) : Int) - 324

/-- Whether `digits * 10 ^ exponent` reads as the double with this count of units. -/
def readsAs (units digits : Nat) (exponent : Int) : Bool :=
  (if exponent ≥ 0 then roundUnits (digits * Nat.pow 10 exponent.toNat * unitsPerOne) 1
    else roundUnits (digits * unitsPerOne) (Nat.pow 10 exponent.natAbs)) == units

/-- A decimal of `count` digits that reads as the double, the nearer of the two around it if both
do, and the even one of two that are equally near. -/
def shortOfLength? (units : Nat) (point : Int) (count : Nat) : Option Decimal :=
  let exponent := point - count
  let (num, den) :=
    if exponent ≥ 0 then (units, unitsPerOne * Nat.pow 10 exponent.toNat)
    else (units * Nat.pow 10 exponent.natAbs, unitsPerOne)
  let near := roundDiv num den
  let low := num / den
  let far := if near = low then low + 1 else low
  if readsAs units near exponent then some ⟨near, exponent⟩
  else if readsAs units far exponent then some ⟨far, exponent⟩
  else none

/-- The shortest decimal of a positive double. -/
def shortest (units : Nat) : Decimal :=
  let point := decimalPoint units
  ((List.range 17).findSome? (fun k => shortOfLength? units point (k + 1))).getD ⟨0, 0⟩

/-! ## Text -/

/-- Digits with a decimal point in place, zeros filled in where there are no digits. -/
def positional (digits : List Char) (point : Int) : List Char :=
  if point ≤ 0 then '0' :: '.' :: (List.replicate point.natAbs '0' ++ digits)
  else if digits.length ≤ point.toNat then
    digits ++ List.replicate (point.toNat - digits.length) '0' ++ ['.', '0']
  else digits.take point.toNat ++ '.' :: digits.drop point.toNat

/-- Digits with a power of ten behind them: one digit before the point, a signed exponent of at
least two digits. -/
def scientific (digits : List Char) (point : Int) : List Char :=
  let exponent := point - 1
  let mantissa := match digits with
    | [] => []
    | [d] => [d]
    | d :: rest => d :: '.' :: rest
  let size := Text.decimal exponent.natAbs
  mantissa ++ 'e' :: (if exponent < 0 then '-' else '+') ::
    (if size.length < 2 then '0' :: size else size)

/-- The text of a positive double: positional from 10⁻⁴ up to 10¹⁶, else with an exponent. -/
def unitsText (units : Nat) : List Char :=
  let d := shortest units
  let written := Text.decimal d.digits
  let digits := (written.reverse.dropWhile (· == '0')).reverse
  let point := d.exponent + written.length
  if -4 < point ∧ point ≤ 16 then positional digits point else scientific digits point

/-- The text of a double: the fewest digits that read back. -/
def text : Double → String
  | .nan => "nan"
  | .infinite negative => if negative then "-inf" else "inf"
  | .finite negative units _ =>
    let magnitude := if units = 0 then ['0', '.', '0'] else unitsText units
    String.ofList (if negative then '-' :: magnitude else magnitude)

end Telemetry.Double
