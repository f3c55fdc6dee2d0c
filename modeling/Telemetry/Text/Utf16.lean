import Telemetry.Text.Utf8

/-!
# UTF-16 and UTF-32

The sixteen-bit units of a text, and texts read from bytes in sixteen- and thirty-two-bit units
of either byte order.
-/

namespace Telemetry.Text

/-- The order of the bytes inside one unit. -/
inductive ByteOrder
  | bigEndian
  | littleEndian
deriving DecidableEq, Repr

/-! ## Units -/

/-- The sixteen-bit units of a character: itself, or its two surrogates above U+FFFF. -/
def charUnits16 (c : Char) : List Nat :=
  let n := c.toNat
  if n < 0x10000 then [n] else [0xD800 + (n - 0x10000) / 0x400, 0xDC00 + (n - 0x10000) % 0x400]

/-- The sixteen-bit units of a text. -/
def units16 (cs : List Char) : List Nat :=
  cs.flatMap charUnits16

/-- First half of a surrogate pair. -/
def isHighSurrogate (n : Nat) : Bool := 0xD800 ≤ n && n < 0xDC00

/-- Second half of a surrogate pair. -/
def isLowSurrogate (n : Nat) : Bool := 0xDC00 ≤ n && n < 0xE000

/-- The character that two surrogates stand for. -/
def pairChar (high low : Nat) : Char :=
  Char.ofNat (0x10000 + (high - 0xD800) * 0x400 + (low - 0xDC00))

/-- The character of one unit; a surrogate without its other half has none and shows as U+FFFD. -/
def unitChar (n : Nat) : Char :=
  if isHighSurrogate n || isLowSurrogate n then replacement else Char.ofNat n

/-- The characters of sixteen-bit units. -/
def charsOfUnits16 : List Nat → List Char
  | [] => []
  | [n] => [unitChar n]
  | n :: m :: rest =>
    if isHighSurrogate n && isLowSurrogate m then pairChar n m :: charsOfUnits16 rest
    else unitChar n :: charsOfUnits16 (m :: rest)

/-! ## Bytes -/

/-- The sixteen-bit units in a byte sequence, if it has no odd byte. -/
def readUnits16 (order : ByteOrder) : List UInt8 → Option (List Nat)
  | [] => some []
  | [_] => none
  | a :: b :: rest =>
    let unit := match order with
      | .bigEndian => a.toNat * 0x100 + b.toNat
      | .littleEndian => b.toNat * 0x100 + a.toNat
    (readUnits16 order rest).map (unit :: ·)

/-- The text of a byte sequence in sixteen-bit units. -/
def decodeUtf16? (order : ByteOrder) (bytes : List UInt8) : Option (List Char) :=
  (readUnits16 order bytes).map charsOfUnits16

/-- The text of a byte sequence in thirty-two-bit units; none if bytes are missing or a unit is
beyond the last code point. -/
def decodeUtf32? (order : ByteOrder) : List UInt8 → Option (List Char)
  | [] => some []
  | a :: b :: c :: d :: rest =>
    let n := match order with
      | .bigEndian => ((a.toNat * 0x100 + b.toNat) * 0x100 + c.toNat) * 0x100 + d.toNat
      | .littleEndian => ((d.toNat * 0x100 + c.toNat) * 0x100 + b.toNat) * 0x100 + a.toNat
    if n < 0x110000 then (decodeUtf32? order rest).map (unitChar n :: ·) else none
  | _ => none

end Telemetry.Text
