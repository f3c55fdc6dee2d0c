import Telemetry.Error
import Telemetry.Number.Numeral
import Telemetry.Time.Iso

/-!
# Rows

What the store of events answers, and the records that the rows become. Rows come from outside and
may hold anything, so every column is read leniently; only a missing column, a time that is none,
and a number without an integer stop the reading.
-/

namespace Telemetry.Query

/-- A row of the store's answer, normally an object. Its time may come as a time already. -/
structure Row where
  columns : Json
  time : Option Time.DateTime := none

namespace Row

/-- The columns of a row. -/
def fields (row : Row) : Except Fault Json.Object :=
  match row.columns with
  | .obj fields => .ok fields
  | _ => .error .noRecord

end Row

/-! ## Reading columns -/

/-- The number in a column, if it holds one. -/
def readNumber (v : Json) : Except Fault (Option Double) :=
  let known (x : Double) : Option Double := if x.isNan then none else some x
  match v with
  | .bool b => .ok (some (.ofInt (if b then 1 else 0)))
  | .int i =>
    let x := Double.ofInt i
    if x.isFinite then .ok (some x) else .error .outOfRange
  | .float x => .ok (known x)
  | .str s => .ok ((Numeral.readDouble? s).bind known)
  | _ => .ok none

/-- The integer part of a number. -/
def truncated (x : Double) : Except Fault Int :=
  match x.truncate? with
  | some i => .ok i
  | none => .error .outOfRange

/-- The count in a column, zero if it holds no number. -/
def readCount (v : Json) : Except Fault Int := do
  match ← readNumber v with
  | some x => truncated x
  | none => .ok 0

/-- The text in a column; null and the empty text are none. -/
def readText? (v : Json) : Option String :=
  if v.isNull || v.isText "" then none else some v.display

/-- The time of a row, a naive one taken as UTC. -/
def readTime (row : Row) (v : Json) : Except Fault Time.DateTime :=
  match row.time with
  | some t => .ok t.withZone
  | none => match Time.Iso.read? v.display with
    | some t => .ok t.withZone
    | none => .error .badValue

/-- The payload in a column: an object, or the text of one; anything else is empty. -/
def readPayload : Json → Except Fault Json.Object
  | .obj fields => .ok fields
  | .str s =>
    if s = "" then .ok []
    else match Json.parse s with
      | .ok (.obj fields) => .ok fields
      | .ok _ => .ok []
      | .error (.malformed _) => .ok []
      | .error e => .error e.toFault
  | _ => .ok []

/-- A column that every row must have. -/
def required (name : String) (fields : Json.Object) : Except Fault Json :=
  match Assoc.find? name fields with
  | some v => .ok v
  | none => .error (.missingKey name)

/-! ## Records -/

/-- An event as queries answer it. -/
structure EventRow where
  id : String
  timestamp : Time.DateTime
  eventType : String
  payload : Json.Object
  statusCode : Option Int
  outcome : Option String

/-- One group of an aggregation. -/
structure AggregateRow where
  key : Json
  count : Int
  errorCount : Int
  errorRate : Double
  averageDuration : Option Double
  p95Duration : Option Double

/-- The latency percentiles of one group. -/
structure LatencyRow where
  key : Json
  p50 : Option Double
  p90 : Option Double
  p95 : Option Double
  p99 : Option Double
  count : Int

/-- How often one kind of error occurred in a group. -/
structure ErrorGroupRow where
  key : Json
  errorType : Option String
  errorCode : Option String
  count : Int

/-- Totals of a window; the rates are percentages. -/
structure Stats where
  total : Int
  errors : Int
  errorRate : Int
  successRate : Int
deriving DecidableEq, Repr

/-- Reads an event from a row. -/
def EventRow.ofRow (row : Row) : Except Fault EventRow := do
  let fields ← row.fields
  let status ← readNumber (Json.get "status_code" fields)
  let id ← required "id" fields
  let written ← match row.time with
    | some _ => pure .null
    | none => required "timestamp" fields
  let timestamp ← readTime row written
  let eventType := Json.get "event_type" fields
  let payload ← readPayload (Json.get "payload" fields)
  let statusCode ← match status with
    | some x => (truncated x).map some
    | none => pure none
  pure
    { id := id.display
      timestamp
      eventType := if eventType.isTruthy then eventType.display else ""
      payload
      statusCode
      outcome := readText? (Json.get "outcome" fields) }

/-- Reads a group of an aggregation from a row. -/
def AggregateRow.ofRow (row : Row) : Except Fault AggregateRow := do
  let fields ← row.fields
  let count ← readCount (Json.get "total" fields)
  let errorCount ← readCount (Json.get "errors" fields)
  let rate ← readNumber (Json.get "error_rate" fields)
  let averageDuration ← readNumber (Json.get "avg_duration_ms" fields)
  let p95Duration ← readNumber (Json.get "p95_duration_ms" fields)
  let errorRate := match rate with
    | some x => if x.isZero then .zero else x
    | none => .zero
  pure ⟨Json.get "group_key" fields, count, errorCount, errorRate, averageDuration, p95Duration⟩

/-- Reads a group's latencies from a row. -/
def LatencyRow.ofRow (row : Row) : Except Fault LatencyRow := do
  let fields ← row.fields
  let p50 ← readNumber (Json.get "p50" fields)
  let p90 ← readNumber (Json.get "p90" fields)
  let p95 ← readNumber (Json.get "p95" fields)
  let p99 ← readNumber (Json.get "p99" fields)
  let count ← readCount (Json.get "total" fields)
  pure ⟨Json.get "group_key" fields, p50, p90, p95, p99, count⟩

/-- Reads a group's errors of one kind from a row. -/
def ErrorGroupRow.ofRow (row : Row) : Except Fault ErrorGroupRow := do
  let fields ← row.fields
  let count ← readCount (Json.get "total" fields)
  pure ⟨Json.get "group_key" fields, readText? (Json.get "error_type" fields),
    readText? (Json.get "error_code" fields), count⟩

/-! ## Totals -/

/-- A part of a total in percent, computed in doubles and rounded to the nearest integer, a half
upward. -/
def percentage (part total : Int) : Except Fault Int :=
  let ratio := Double.ofQuotient part total
  if !ratio.isFinite then .error .outOfRange
  else match ((ratio.mul (.ofInt 100)).add (.ofRatio false 1 2)).floor? with
    | some n => .ok n
    | none => .error .outOfRange

/-- The totals with these counts. -/
def Stats.ofCounts (total errors : Int) : Except Fault Stats :=
  if total = 0 then .ok ⟨0, 0, 0, 0⟩
  else do
    let errorRate ← percentage errors total
    let successRate ← percentage (total - errors) total
    pure ⟨total, errors, errorRate, successRate⟩

/-- Reads totals from the first row; without rows everything is zero. -/
def Stats.ofRows (rows : List Row) : Except Fault Stats := do
  let fields ← match rows with
    | [] => pure []
    | row :: _ => row.fields
  let total ← readCount (Json.get "total" fields)
  let errors ← readCount (Json.get "errors" fields)
  Stats.ofCounts total errors

end Telemetry.Query
