import Telemetry.Number.Double
import Telemetry.Text.Ascii
import Telemetry.Time.DateTime

/-!
# Surroundings

What an operation takes from around it: the time of day, a stopwatch, a source of fresh
identifiers and a random draw. All are explicit, so that a run is a function of its inputs.
-/

namespace Telemetry

/-- The time of day, the stopwatch in seconds, the random draw, and how many unique identifiers
have been drawn. -/
structure World where
  now : Time.DateTime
  stopwatch : Double
  draw : Double
  drawn : Nat

/-- The hexadecimal digits of the unique identifier with a number. -/
def uniqueHex (n : Nat) : List Char := Text.hexDigits 32 n

/-- The text of the unique identifier with a number, in groups. -/
def uniqueText (n : Nat) : String :=
  let d := uniqueHex n
  String.ofList (d.take 8 ++ '-' :: (d.drop 8).take 4 ++ '-' :: (d.drop 12).take 4 ++
    '-' :: (d.drop 16).take 4 ++ '-' :: d.drop 20)

namespace World

/-- Draws the next unique identifier's number. -/
def drawNumber (w : World) : Nat × World :=
  (w.drawn + 1, { w with drawn := w.drawn + 1 })

/-- Draws the next unique identifier. -/
def drawId (w : World) : String × World :=
  let (n, w) := w.drawNumber
  (uniqueText n, w)

/-- Lets the stopwatch run on. -/
def elapse (seconds : Double) (w : World) : World :=
  { w with stopwatch := w.stopwatch.add seconds }

/-- The time of day in UTC. -/
def utcNow (w : World) : Time.DateTime := (w.now.toUtc?).getD w.now

end World

end Telemetry
