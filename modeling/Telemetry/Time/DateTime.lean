import Telemetry.Text.Ascii
import Telemetry.Time.Calendar

/-!
# Dates with times

A wall clock reading in the years 1 to 9999 to the microsecond, with or without its offset from
UTC. A reading with an offset names an instant; one without is naive and names none, so that it
cannot be compared with an instant.
-/

namespace Telemetry.Time

/-! ## Units, in microseconds -/

/-- A second. -/
def second : Nat := 1000000

/-- A day. -/
def day : Nat := 86400 * second

/-- The end of the year 9999. -/
def wallEnd : Nat := 3652059 * day

/-- A distance from UTC of less than a day. -/
structure Offset where
  micros : Int
  bounded : -(day : Int) < micros ∧ micros < day := by decide
deriving DecidableEq

/-- No distance from UTC. -/
def Offset.utc : Offset := ⟨0, by decide⟩

instance : Inhabited Offset := ⟨.utc⟩

/-- A distance from UTC, if it is less than a day. -/
def Offset.ofMicros? (micros : Int) : Option Offset :=
  if h : -(day : Int) < micros ∧ micros < day then some ⟨micros, h⟩ else none

/-- A wall clock reading, in microseconds since the start of the year 1. -/
structure DateTime where
  wall : Nat
  inRange : wall < wallEnd
  offset : Option Offset
deriving DecidableEq

namespace DateTime

instance : Inhabited DateTime := ⟨⟨0, by decide, none⟩⟩

/-- The reading at a count of microseconds, if it is in the years 1 to 9999. -/
def ofWall? (wall : Int) (offset : Option Offset) : Option DateTime :=
  if h : 0 ≤ wall ∧ wall < wallEnd then some ⟨wall.toNat, by omega, offset⟩ else none

/-- Whether the reading has an offset. -/
def isAware (t : DateTime) : Bool := t.offset.isSome

/-- The same reading, taken as UTC if it is naive. -/
def withZone (t : DateTime) : DateTime :=
  { t with offset := some (t.offset.getD .utc) }

/-- The instant in microseconds since the start of the year 1 in UTC, a naive reading taken as
UTC. Instants just outside the years 1 to 9999 occur. -/
def instant (t : DateTime) : Int :=
  (t.wall : Int) - (t.offset.getD .utc).micros

/-- The same instant as a reading in UTC, if that is in the years 1 to 9999. -/
def toUtc? (t : DateTime) : Option DateTime :=
  ofWall? t.instant (some .utc)

/-- The order of two readings, both naive or both instants. -/
def compare? (s t : DateTime) : Option Ordering :=
  if s.isAware = t.isAware then some (compare s.instant t.instant) else none

/-! ## Parts -/

/-- The date of the reading. -/
def date (t : DateTime) : Date := .ofDays (t.wall / day)

/-- The microseconds since midnight. -/
def sinceMidnight (t : DateTime) : Nat := t.wall % day

/-- The hour of the reading. -/
def hour (t : DateTime) : Nat := t.sinceMidnight / (3600 * second)

/-- The minute of the reading. -/
def minute (t : DateTime) : Nat := t.sinceMidnight / (60 * second) % 60

/-- The second of the reading. -/
def seconds (t : DateTime) : Nat := t.sinceMidnight / second % 60

/-- The microsecond of the reading. -/
def micros (t : DateTime) : Nat := t.sinceMidnight % second

/-- Midnight of the first day of the reading's month. -/
def monthStart (t : DateTime) : DateTime :=
  ⟨t.wall / day * day - (t.date.day - 1) * day, by
    have := t.inRange
    have : t.wall / day * day ≤ t.wall := Nat.div_mul_le_self ..
    omega, t.offset⟩

/-! ## Texts -/

/-- Two digits. -/
def two (n : Nat) : String := Text.paddedDecimal 2 n

/-- Hours, minutes and seconds with colons. -/
def clockText (t : DateTime) : String :=
  two t.hour ++ ":" ++ two t.minute ++ ":" ++ two t.seconds

/-- Year, month and day with hyphens, the year in at least `width` digits. -/
def dateText (width : Nat) (t : DateTime) : String :=
  let d := t.date
  Text.paddedDecimal width d.year ++ "-" ++ two d.month ++ "-" ++ two d.day

/-- The sign, hours and minutes of an offset, its seconds and microseconds where they are not
zero. -/
def offsetText (o : Offset) : String :=
  let n := o.micros.natAbs
  let s := n / second
  let minutes := (if o.micros < 0 then "-" else "+") ++ two (s / 3600) ++ ":" ++ two (s / 60 % 60)
  if n % second ≠ 0 then minutes ++ ":" ++ two (s % 60) ++ "." ++ Text.paddedDecimal 6 (n % second)
  else if s % 60 ≠ 0 then minutes ++ ":" ++ two (s % 60)
  else minutes

/-- The offset's text, empty for a naive reading. -/
def zoneText (t : DateTime) : String :=
  match t.offset with
  | some o => offsetText o
  | none => ""

/-- The reading with `separator` between date and time; microseconds where they are not zero. -/
def textWith (separator : String) (t : DateTime) : String :=
  let fraction := if t.micros = 0 then "" else "." ++ Text.paddedDecimal 6 t.micros
  t.dateText 4 ++ separator ++ t.clockText ++ fraction ++ t.zoneText

/-- The ISO 8601 text of the reading. -/
def text (t : DateTime) : String := t.textWith "T"

/-- The text of the reading in displays, with a space before the time. -/
def display (t : DateTime) : String := t.textWith " "

/-- The ISO 8601 text with the fraction cut to milliseconds. -/
def millisText (t : DateTime) : String :=
  t.dateText 4 ++ "T" ++ t.clockText ++ "." ++ Text.paddedDecimal 3 (t.micros / 1000) ++ t.zoneText

/-- Date and time to the millisecond without zone, the year without leading zeros. -/
def columnText (t : DateTime) : String :=
  t.dateText 1 ++ " " ++ t.clockText ++ "." ++ Text.paddedDecimal 3 (t.micros / 1000)

end DateTime

end Telemetry.Time
