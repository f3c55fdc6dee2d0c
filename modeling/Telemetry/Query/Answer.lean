import Telemetry.Query.Suggestions

/-!
# Answers as JSON

The JSON objects of the records that read operations answer.
-/

namespace Telemetry.Query

/-- The object of an event. -/
def EventRow.toJson (e : EventRow) : Json :=
  .obj [("id", .str e.id), ("timestamp", .str e.timestamp.text), ("event_type", .str e.eventType),
    ("payload", .obj e.payload), ("status_code", Json.ofOption .int e.statusCode),
    ("outcome", Json.ofOption .str e.outcome)]

/-- The object of a group of an aggregation. -/
def AggregateRow.toJson (r : AggregateRow) : Json :=
  .obj [("key", r.key), ("count", .int r.count), ("error_count", .int r.errorCount),
    ("error_rate", .float r.errorRate), ("avg_duration_ms", Json.ofOption .float r.averageDuration),
    ("p95_duration_ms", Json.ofOption .float r.p95Duration)]

/-- The object of a group's latencies. -/
def LatencyRow.toJson (r : LatencyRow) : Json :=
  .obj [("key", r.key), ("p50", Json.ofOption .float r.p50), ("p90", Json.ofOption .float r.p90),
    ("p95", Json.ofOption .float r.p95), ("p99", Json.ofOption .float r.p99),
    ("count", .int r.count)]

/-- The object of a group's errors of one kind. -/
def ErrorGroupRow.toJson (r : ErrorGroupRow) : Json :=
  .obj [("key", r.key), ("error_type", Json.ofOption .str r.errorType),
    ("error_code", Json.ofOption .str r.errorCode), ("count", .int r.count)]

/-- The object of totals. -/
def Stats.toJson (s : Stats) : Json :=
  .obj [("total", .int s.total), ("errors", .int s.errors), ("error_rate", .int s.errorRate),
    ("success_rate", .int s.successRate)]

/-- An array of texts. -/
def textsToJson (texts : List String) : Json := .arr (texts.map .str)

/-- The object of the suggested values per field. -/
def Suggestions.fieldsToJson (s : Suggestions) : Json :=
  .obj (s.fields.map fun (path, texts) => (path, textsToJson texts))

end Telemetry.Query
