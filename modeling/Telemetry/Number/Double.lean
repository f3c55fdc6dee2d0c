/-!
# Double precision numbers

A finite double is a sign and a whole number of units of 2⁻¹⁰⁷⁴, the distance between the smallest
doubles. Which counts of units occur is the predicate `Representable`: at most 53 significant
bits, and below 2¹⁰²⁴. Every operation is defined through the exact rational result, which is
rounded once to the nearest representable count, a tie going to the even one.

With this reading comparison, floor and truncation are facts about integers.
-/

namespace Telemetry

namespace Double

/-- The number of units in one. -/
def unitsPerOne : Nat := Nat.pow 2 1074

/-- The distance between neighbouring doubles, in units, where the units count has this size. -/
def spacing (units : Nat) : Nat := Nat.pow 2 (units.log2 - 52)

/-- Counts of units that a double can hold: at most 53 significant bits, below 2¹⁰²⁴. -/
def Representable (units : Nat) : Prop :=
  units < Nat.pow 2 2098 ∧ spacing units ∣ units

instance (units : Nat) : Decidable (Representable units) :=
  inferInstanceAs (Decidable (_ ∧ _))

theorem representable_zero : Representable 0 := by
  unfold Representable
  exact And.intro (Nat.two_pow_pos 2098) (Nat.dvd_zero _)

end Double

/-- A double precision number. -/
inductive Double
  | nan
  | infinite (negative : Bool)
  | finite (negative : Bool) (units : Nat) (representable : Double.Representable units)
deriving DecidableEq

namespace Double

/-- Positive zero. -/
def zero : Double := .finite false 0 representable_zero

instance : Inhabited Double := ⟨zero⟩

/-! ## Rounding -/

/-- A quotient rounded to the nearest integer, a tie to the even one. -/
def roundDiv (num den : Nat) : Nat :=
  let n := num / den
  let r := num % den
  if den < 2 * r ∨ (2 * r = den ∧ n % 2 = 1) then n + 1 else n

/-- The representable count nearest to a quotient of units, a tie to the even one. -/
def roundUnits (num den : Nat) : Nat :=
  let step := spacing (num / den)
  roundDiv num (den * step) * step

/-- The double with this sign and count of units, or infinity where the count is too large. -/
def ofUnits (negative : Bool) (units : Nat) : Double :=
  if h : Representable units then .finite negative units h else .infinite negative

/-- The double nearest to a quotient of units. -/
def ofUnitQuotient (negative : Bool) (num den : Nat) : Double :=
  ofUnits negative (roundUnits num den)

/-- The double nearest to `num / den`. -/
def ofRatio (negative : Bool) (num den : Nat) : Double :=
  ofUnitQuotient negative (num * unitsPerOne) den

/-- The double nearest to an integer; infinite if the integer is too large. -/
def ofInt (i : Int) : Double :=
  ofRatio (i < 0) i.natAbs 1

/-- The number of decimal digits of a positive number, one for zero. -/
def digitCount (n : Nat) : Nat := (Nat.toDigits 10 n).length

/-- The double nearest to `digits * 10 ^ exponent`. Exponents so far out that the result is
infinite or zero are cut short. -/
def ofDecimal (negative : Bool) (digits : Nat) (exponent : Int) : Double :=
  if digits = 0 then ofUnits negative 0
  else
    let magnitude := exponent + digitCount digits
    if magnitude > 310 then .infinite negative
    else if magnitude < -330 then ofUnits negative 0
    else if exponent ≥ 0 then ofRatio negative (digits * Nat.pow 10 exponent.toNat) 1
    else ofRatio negative digits (Nat.pow 10 exponent.natAbs)

/-! ## Parts -/

/-- Neither an infinity nor a NaN. -/
def isFinite : Double → Bool
  | .finite .. => true
  | _ => false

/-- Not a number. -/
def isNan : Double → Bool
  | .nan => true
  | _ => false

/-- The sign bit; a NaN has none. -/
def isNegative : Double → Bool
  | .nan => false
  | .infinite negative => negative
  | .finite negative .. => negative

/-- The signed count of units of a finite double. -/
def units? : Double → Option Int
  | .finite negative units _ => some (if negative then -(units : Int) else units)
  | _ => none

/-- Positive or negative zero. -/
def isZero : Double → Bool
  | .finite _ units _ => units == 0
  | _ => false

/-- A finite double without a fractional part. -/
def isInteger : Double → Bool
  | .finite _ units _ => units % unitsPerOne == 0
  | _ => false

/-- The integer part, toward zero, of a finite double. -/
def truncate? (x : Double) : Option Int :=
  x.units?.map (fun u => Int.tdiv u unitsPerOne)

/-- The greatest integer that is not above a finite double. -/
def floor? (x : Double) : Option Int :=
  x.units?.map (fun u => Int.fdiv u unitsPerOne)

/-- The integer nearest to a finite double, a tie to the even one. -/
def nearest? : Double → Option Int
  | .finite negative units _ =>
    let n := roundDiv units unitsPerOne
    some (if negative then -(n : Int) else n)
  | _ => none

/-- The fractional part of a finite double, with the sign of the double. -/
def fraction : Double → Double
  | .finite negative units _ => ofUnits negative (units % unitsPerOne)
  | .infinite negative => ofUnits negative 0
  | .nan => .nan

/-! ## Comparison -/

/-- The order of two doubles; a NaN has no place in it. -/
def compare? : Double → Double → Option Ordering
  | .nan, _ => none
  | _, .nan => none
  | .infinite a, .infinite b =>
    some (if a = b then .eq else if a then .lt else .gt)
  | .infinite a, .finite .. => some (if a then .lt else .gt)
  | .finite .., .infinite b => some (if b then .gt else .lt)
  | .finite a u _, .finite b v _ =>
    some (compare (if a then -(u : Int) else u) (if b then -(v : Int) else v))

/-- The order of a double and an integer, which is compared exactly. -/
def compareInt? : Double → Int → Option Ordering
  | .nan, _ => none
  | .infinite a, _ => some (if a then .lt else .gt)
  | .finite a u _, i => some (compare (if a then -(u : Int) else u) (i * unitsPerOne))

/-- Strictly below; false if either is a NaN. -/
def lt (x y : Double) : Bool := x.compare? y == some .lt

/-- Below or equal; false if either is a NaN. -/
def le (x y : Double) : Bool :=
  match x.compare? y with
  | some .lt | some .eq => true
  | _ => false

/-! ## Arithmetic -/

/-- The opposite. -/
def neg : Double → Double
  | .nan => .nan
  | .infinite negative => .infinite (!negative)
  | .finite negative units h => .finite (!negative) units h

/-- The sum, rounded. A zero sum is negative only if both terms are. -/
def add : Double → Double → Double
  | .nan, _ => .nan
  | _, .nan => .nan
  | .infinite a, .infinite b => if a = b then .infinite a else .nan
  | .infinite a, .finite .. => .infinite a
  | .finite .., .infinite b => .infinite b
  | .finite a u _, .finite b v _ =>
    let sum := (if a then -(u : Int) else u) + (if b then -(v : Int) else v)
    if sum = 0 then ofUnits (a && b) 0 else ofUnitQuotient (sum < 0) sum.natAbs 1

/-- The difference, rounded. -/
def sub (x y : Double) : Double := x.add y.neg

/-- The product, rounded. -/
def mul : Double → Double → Double
  | .nan, _ => .nan
  | _, .nan => .nan
  | .infinite a, .infinite b => .infinite (a != b)
  | .infinite a, .finite b v _ => if v = 0 then .nan else .infinite (a != b)
  | .finite a u _, .infinite b => if u = 0 then .nan else .infinite (a != b)
  | .finite a u _, .finite b v _ => ofUnitQuotient (a != b) (u * v) unitsPerOne

/-- The double nearest to the quotient of two integers, the second not zero. -/
def ofQuotient (num den : Int) : Double :=
  ofRatio ((num < 0) != (den < 0)) num.natAbs den.natAbs

/-- The double nearest to the value rounded to `places` decimals, a tie to the even neighbour. -/
def roundPlaces (places : Nat) : Double → Double
  | .finite negative units _ =>
    ofRatio negative (roundDiv (units * Nat.pow 10 places) unitsPerOne) (Nat.pow 10 places)
  | x => x

end Double

end Telemetry
