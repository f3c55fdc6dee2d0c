import Telemetry.Number.Double
import Telemetry.Text.Ascii
import Telemetry.Text.Blank
import Telemetry.Text.Digit

/-!
# Numerals

Numbers read from texts that people and programs write. White space around a numeral is ignored,
digits may be of any script, and single underscores may stand between digits.

An integer numeral is limited to 4300 digits. A decimal numeral may have a fraction and an
exponent; besides, the words `inf`, `infinity` and `nan` are read in any case.
-/

namespace Telemetry.Numeral

/-! ## Characters -/

/-- A character of a numeral with a decimal digit of any script replaced by the ASCII digit. -/
def plainDigit (c : Char) : Char :=
  match Text.decimalDigit? c with
  | some d => Char.ofNat (48 + d)
  | none => c

/-- A numeral without the white space around it, in ASCII digits. -/
def normalize (s : String) : List Char :=
  (Text.trim s.toList).map plainDigit

/-- The sign in front of a numeral, and the rest. -/
def takeSign : List Char → Bool × List Char
  | '-' :: rest => (true, rest)
  | '+' :: rest => (false, rest)
  | cs => (false, cs)

/-- Removes the underscores of a numeral; none if one does not stand between two digits. -/
def dropUnderscores? : (previous : Char) → List Char → Option (List Char)
  | previous, [] => if previous = '_' then none else some []
  | previous, c :: rest =>
    if c = '_' then
      if Text.isDigit previous then dropUnderscores? '_' rest else none
    else if previous = '_' && !Text.isDigit c then none
    else (dropUnderscores? c rest).map (c :: ·)

/-! ## Integers -/

/-- The most digits that an integer numeral may have. -/
def maxDigits : Nat := 4300

/-- Reads an integer numeral. -/
def readInt? (s : String) : Option Int :=
  let (negative, body) := takeSign (normalize s)
  match dropUnderscores? ' ' body with
  | none => none
  | some digits =>
    if digits.isEmpty || !digits.all Text.isDigit || digits.length > maxDigits then none
    else
      let n := Text.decimalValue digits
      some (if negative then -(n : Int) else n)

/-! ## Decimals -/

/-- Reads an exponent's sign and digits, which must be all of the text. -/
def readExponent? (cs : List Char) : Option Int :=
  let (negative, digits) := takeSign cs
  if digits.isEmpty || !digits.all Text.isDigit then none
  else
    let n := Text.decimalValue digits
    some (if negative then -(n : Int) else n)

/-- Reads an exponent with its mark, which must be all of the text; the power is zero without. -/
def readPower? : List Char → Option Int
  | [] => some 0
  | e :: tail => if e = 'e' ∨ e = 'E' then readExponent? tail else none

/-- The digits behind a point, if one stands first, and what follows. -/
def takeFraction : List Char → List Char × List Char
  | '.' :: more => (more.takeWhile Text.isDigit, more.dropWhile Text.isDigit)
  | cs => ([], cs)

/-- Reads digits with an optional point among them and an optional exponent behind them. -/
def readUnsigned? (negative : Bool) (cs : List Char) : Option Double :=
  let whole := cs.takeWhile Text.isDigit
  let (fraction, rest) := takeFraction (cs.dropWhile Text.isDigit)
  if whole.isEmpty && fraction.isEmpty then none
  else (readPower? rest).map fun power =>
    .ofDecimal negative (Text.decimalValue (whole ++ fraction)) (power - fraction.length)

/-- Reads a decimal numeral or one of the words for the special values. -/
def readDouble? (s : String) : Option Double :=
  match dropUnderscores? ' ' (normalize s) with
  | none => none
  | some cs =>
    let (negative, body) := takeSign cs
    let word := String.ofList (body.map Text.lowerChar)
    if word = "inf" ∨ word = "infinity" then some (.infinite negative)
    else if word = "nan" then some .nan
    else readUnsigned? negative body

end Telemetry.Numeral
