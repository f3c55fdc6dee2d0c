/-!
# ASCII letters, digits and hexadecimal

The classes that protocols fix to ASCII: header names, URL schemes, field names, and the
hexadecimal digits of escapes and identifiers.
-/

namespace Telemetry.Text

/-- Lower case for the letters `A` to `Z`; every other character stays. -/
def lowerChar (c : Char) : Char :=
  if 'A' ≤ c ∧ c ≤ 'Z' then Char.ofNat (c.toNat + 32) else c

/-- Lower case for the letters `A` to `Z` of a text. -/
def lower (s : String) : String :=
  String.ofList (s.toList.map lowerChar)

/-- One of `0` to `9`. -/
def isDigit (c : Char) : Bool :=
  '0' ≤ c && c ≤ '9'

/-- One of `a` to `z` and `A` to `Z`. -/
def isLetter (c : Char) : Bool :=
  ('a' ≤ c && c ≤ 'z') || ('A' ≤ c && c ≤ 'Z')

/-- The value of a digit character, zero for any other character. -/
def digitValue (c : Char) : Nat :=
  if isDigit c then c.toNat - 48 else 0

/-- The digits of a text read in base ten. -/
def decimalValue (cs : List Char) : Nat :=
  cs.foldl (fun n c => n * 10 + digitValue c) 0

/-- The digits of a number in base ten, most significant first, without leading zeros. -/
def decimal (n : Nat) : List Char :=
  Nat.toDigits 10 n

/-- An integer in base ten, with a minus sign if it is negative. -/
def integer (i : Int) : String :=
  if i < 0 then String.ofList ('-' :: decimal i.natAbs) else String.ofList (decimal i.natAbs)

/-- The text of a number in base ten, zeros put in front up to `width`. -/
def paddedDecimal (width n : Nat) : String :=
  let digits := decimal n
  String.ofList (List.replicate (width - digits.length) '0' ++ digits)

/-- The hexadecimal digit of a number below sixteen, in lower case. -/
def hexDigit (n : Nat) : Char :=
  if n < 10 then Char.ofNat (48 + n) else Char.ofNat (87 + n)

/-- The last `width` hexadecimal digits of a number, in lower case. -/
def hexDigits : (width : Nat) → Nat → List Char
  | 0, _ => []
  | width + 1, n => hexDigits width (n / 16) ++ [hexDigit (n % 16)]

/-- The value of a hexadecimal digit of either case. -/
def hexValue? (c : Char) : Option Nat :=
  if '0' ≤ c ∧ c ≤ '9' then some (c.toNat - 48)
  else if 'a' ≤ c ∧ c ≤ 'f' then some (c.toNat - 87)
  else if 'A' ≤ c ∧ c ≤ 'F' then some (c.toNat - 55)
  else none

end Telemetry.Text
