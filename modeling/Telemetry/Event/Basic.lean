import Telemetry.Json.Lines
import Telemetry.Time.DateTime

/-!
# Events

The record of one unit of work, and the row as which it is stored. Columns of the system begin
with an underscore; what the caller sent is in a column of its own, where it cannot touch them.
-/

namespace Telemetry

/-- The record of one unit of work. -/
structure Event where
  id : String
  project : String
  eventType : String
  timestamp : Time.DateTime
  ingestedAt : Time.DateTime
  traceId : String
  payload : Json.Object
  statusCode : Option Int
  outcome : Option String

namespace Event

/-- The payload column: what the caller sent, with the trace id that was resolved. -/
def payloadColumn (e : Event) : Json.Object :=
  Assoc.put "trace_id" (.str e.traceId) e.payload

/-- The row as which an event is stored. -/
def row (e : Event) : Json.Object :=
  [("_id", .str e.id),
    ("_project_id", .str e.project),
    ("_timestamp", .str e.timestamp.millisText),
    ("_ingested_at", .str e.ingestedAt.millisText),
    ("_event_type", .str e.eventType),
    ("_status_code", Json.ofOption .int e.statusCode),
    ("_outcome", Json.ofOption .str e.outcome),
    ("event", .obj e.payloadColumn)]

/-- The object of an event. -/
def toJson (e : Event) : Json :=
  .obj [("event_id", .str e.id), ("project_id", .str e.project), ("event_type", .str e.eventType),
    ("timestamp", .str e.timestamp.text), ("ingested_at", .str e.ingestedAt.text),
    ("trace_id", .str e.traceId), ("payload", .obj e.payload),
    ("status_code", Json.ofOption .int e.statusCode), ("outcome", Json.ofOption .str e.outcome)]

/-- The rows of some events, one per line. -/
def rowsText (events : List Event) : String :=
  Json.Lines.encode (events.map fun e => .obj e.row)

end Event

end Telemetry
