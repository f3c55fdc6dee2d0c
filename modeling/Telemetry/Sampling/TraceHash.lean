import Telemetry.Number.Double
import Telemetry.Text.Utf16

/-!
# Hashing trace ids

A trace id is mapped to a point between zero and one, the same on every machine, by the DJB2 hash
of its sixteen-bit units.
-/

namespace Telemetry.Sampling

/-- One step of the hash, cut to 32 bits. -/
def hashStep (value unit : Nat) : Nat := (value * 33 + unit) % Nat.pow 2 32

/-- The 32-bit DJB2 hash of a text. -/
def djb2 (s : String) : Nat := (Text.units16 s.toList).foldl hashStep 5381

/-- The number of points. -/
def buckets : Nat := 10000

/-- The point of a trace id, at least zero and below one. -/
def traceBucket (traceId : String) : Double :=
  .ofRatio false (djb2 traceId % buckets) buckets

end Telemetry.Sampling
