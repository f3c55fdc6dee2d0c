import Telemetry.Number.Double
import Telemetry.Time.DateTime

/-!
# Seconds since 1970

Instants as doubles that count the seconds since the start of 1970 in UTC, the form in which tables
keep them. Going there rounds the exact quotient once; coming back rounds the fraction to whole
microseconds, a tie to the even one. Far from 1970 a double cannot hold every microsecond.
-/

namespace Telemetry.Time

/-- The start of 1970, in microseconds since the start of the year 1. -/
def epoch : Nat := 719162 * day

namespace DateTime

/-- The seconds since 1970 of an instant, a naive reading taken as UTC. -/
def toEpoch (t : DateTime) : Double :=
  .ofQuotient (t.instant - epoch) second

/-- The instant at a number of seconds since 1970, in UTC, if it is in the years 1 to 9999. -/
def ofEpoch? (seconds : Double) : Option DateTime := do
  let whole ← seconds.truncate?
  let micros ← (seconds.fraction.mul (.ofInt second)).nearest?
  ofWall? (whole * second + micros + epoch) (some .utc)

end DateTime

end Telemetry.Time
