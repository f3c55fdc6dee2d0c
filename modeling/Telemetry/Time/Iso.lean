import Telemetry.Text.Utf8
import Telemetry.Time.DateTime

/-!
# Reading ISO 8601

Dates and times as ISO 8601 writes them, in the extended form with separators and in the basic
form without: a calendar date `YYYY-MM-DD` or a week date `YYYY-Www-D`, any one character, and a
time with fraction and zone. The reader is lenient in a few places that the functions below name.

A text is read as UTF-8 bytes; a zero byte counts as the end wherever an end is looked for, which
is why bytes past the end read as zero.
-/

namespace Telemetry.Time.Iso

/-! ## Characters -/

/-- The bytes of a text as numbers. -/
abbrev Bytes := List Nat

/-- The byte at a position, zero past the end. -/
def at? (bytes : Bytes) (position : Nat) : Nat := bytes.getD position 0

/-- The number of an ASCII character. -/
def code (c : Char) : Nat := c.toNat

/-- The byte of an ASCII digit. -/
def isDigit (b : Nat) : Bool := 48 ≤ b && b ≤ 57

/-- Reads exactly `count` digits and answers their value and the rest. -/
def digits? : (count : Nat) → (value : Nat) → Bytes → Option (Nat × Bytes)
  | 0, value, bytes => some (value, bytes)
  | count + 1, value, b :: rest =>
    if isDigit b then digits? count (value * 10 + (b - 48)) rest else none
  | _ + 1, _, [] => none

/-! ## Dates -/

/-- How many bytes the date takes, as the first bytes tell. A week date without separators may
have a weekday or not: an odd number of digits after the week's means that it has, the other
digits being the pairs of a time. -/
def dateLength? (bytes : Bytes) : Option Nat :=
  let length := bytes.length
  if length = 7 then some 7
  else if at? bytes 4 = code '-' then
    if at? bytes 5 = code 'W' then
      if length < 8 then none
      else if at? bytes 8 = code '-' then
        if length = 9 then none
        else if isDigit (at? bytes 10) then some 8
        else some 10
      else some 8
    else some 10
  else if at? bytes 4 = code 'W' then
    let stop := 7 + ((bytes.drop 7).takeWhile isDigit).length
    if stop < 9 then some stop else if stop % 2 = 0 then some 7 else some 8
  else some 8

/-- Reads the week and weekday of a week date that takes `length` bytes in all. Without a weekday
it is a Monday. -/
def weekDate? (dashes : Bool) (year length : Nat) (afterW : Bytes) : Option Int := do
  let (week, rest) ← digits? 2 0 afterW
  if (if dashes then 8 else 7) < length then
    let rest ← if dashes then
        (if at? rest 0 = code '-' then some (rest.drop 1) else none)
      else some rest
    let (weekday, _) ← digits? 1 0 rest
    dayOfWeek? year week weekday
  else dayOfWeek? year week 1

/-- Reads the month and day of a calendar date that takes `length` bytes in all. -/
def monthDate? (dashes : Bool) (year length : Nat) (bytes : Bytes) : Option Int := do
  let (month, rest) ← digits? 2 0 bytes
  let rest ← if dashes then
      (if at? rest 0 = code '-' then some (rest.drop 1) else none)
    else some rest
  let (day, _) ← digits? 2 0 rest
  let date : Date := ⟨year, month, day⟩
  if length = (if dashes then 10 else 8) ∧ date.Valid then some date.toDays else none

/-- Reads a date that takes `length` bytes and answers its day number. -/
def date? (length : Nat) (bytes : Bytes) : Option Int := do
  let (year, rest) ← digits? 4 0 bytes
  let dashes := at? rest 0 = code '-'
  let rest := if dashes then rest.drop 1 else rest
  if at? rest 0 = code 'W' then weekDate? dashes year length (rest.drop 1)
  else monthDate? dashes year length rest

/-! ## Times -/

/-- Hours, minutes, seconds and microseconds as they were read, and whether more followed. -/
structure Clock where
  hour : Nat
  minute : Nat
  seconds : Nat
  micros : Nat
  more : Bool
deriving DecidableEq, Repr

/-- Reads the fraction at the front of `bytes`, of which `left` bytes belong to the time. Up to six
digits count, further ones are dropped. -/
def fraction? (left : Nat) (bytes : Bytes) : Option (Nat × Bool) := do
  let count := min 6 left
  let (value, rest) ← digits? count 0 bytes
  pure (value * Nat.pow 10 (6 - count), at? (rest.dropWhile isDigit) 0 != 0)

/-- Reads the pairs of a time and then its fraction. `left` bytes belong to the time, `pairs` of
the three pairs are still to come, and `colons` tells whether colons separate them, once the first
pair has been read. The character after a pair is taken with it; if no byte of the time is left
then, it counts as more. A character that stands where a colon would is given back when there are
no colons; so what follows three pairs is a fraction, with or without a point. -/
def clock? : (pairs : Nat) → (colons : Option Bool) → (left : Nat) → (values : List Nat) → Bytes →
    Option Clock
  | 0, _, left, values, bytes => do
    let (micros, more) ← fraction? left bytes
    pure ⟨values.getD 0 0, values.getD 1 0, values.getD 2 0, micros, more⟩
  | pairs + 1, colons, left, values, bytes => do
    let (value, rest) ← digits? 2 0 bytes
    let values := values ++ [value]
    let next := at? rest 0
    let colons := colons.getD (next = code ':')
    if left ≤ 3 then
      pure ⟨values.getD 0 0, values.getD 1 0, values.getD 2 0, 0, next != 0⟩
    else if colons ∧ next = code ':' then clock? pairs colons (left - 3) values (rest.drop 1)
    else if next = code '.' ∨ next = code ',' then
      let (micros, more) ← fraction? (left - 3) (rest.drop 1)
      pure ⟨values.getD 0 0, values.getD 1 0, values.getD 2 0, micros, more⟩
    else if colons then none
    else clock? pairs colons (left - 2) values rest

/-- Whether a byte opens the zone of a time. -/
def opensZone (b : Nat) : Bool :=
  b == code '+' || b == code '-' || b == code 'Z'

/-- The offset that a sign and the time behind it write. Whole seconds of zero mean UTC, whatever
the fraction. -/
def offset? (negative : Bool) (bytes : Bytes) : Option Offset := do
  let c ← clock? 3 none bytes.length [] bytes
  if c.more then none
  let s := c.hour * 3600 + c.minute * 60 + c.seconds
  if s = 0 then pure .utc
  else
    let micros : Int := s * second + c.micros
    Offset.ofMicros? (if negative then -micros else micros)

/-- Reads a time with or without zone: the microseconds since midnight and the offset. Characters
left over before a zone are ignored, but without a zone nothing may be left over. -/
def time? (bytes : Bytes) : Option (Nat × Option Offset) := do
  let left := (bytes.takeWhile (!opensZone ·)).length
  let c ← clock? 3 none (max 1 left) [] bytes
  let zone ← match bytes.drop left with
    | [] => if c.more then none else some none
    | b :: rest =>
      if b = code 'Z' then (if at? rest 0 = 0 then some (some .utc) else none)
      else (offset? (b = code '-') rest).map some
  if c.hour < 24 ∧ c.minute < 60 ∧ c.seconds < 60 then
    pure (((c.hour * 60 + c.minute) * 60 + c.seconds) * second + c.micros, zone)
  else none

/-! ## Texts -/

/-- How many bytes the character with this leading byte takes. -/
def separatorLength (b : Nat) : Nat :=
  if b < 0x80 then 1
  else if b / 16 = 0xE then 3
  else if b / 16 = 0xF then 4
  else 2

/-- Reads a date, or a date and a time with any one character between them. -/
def read? (s : String) : Option DateTime := do
  let bytes := (Text.encodeUtf8 s).map (·.toNat)
  if bytes.length < 7 then none
  let length ← dateLength? bytes
  let days ← date? length bytes
  let (micros, offset) ←
    if length < bytes.length then time? (bytes.drop (length + separatorLength (at? bytes length)))
    else some (0, none)
  DateTime.ofWall? (days * day + micros) offset

end Telemetry.Time.Iso
