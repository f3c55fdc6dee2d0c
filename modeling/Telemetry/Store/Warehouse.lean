import Telemetry.Event.Basic
import Telemetry.Gate.Ingest
import Telemetry.Http.Remote
import Telemetry.Query.Row
import Telemetry.Sql.Literal
import Telemetry.Text.Search

/-!
# The warehouse

The column store of events behind its HTTP interface. Events are rows of one table; a second table
counts them by project and day. A statement is sent as the body of a request, or as a parameter
when the body holds rows. An answer of 400 or above, or none at all, is a failure of the store.
-/

namespace Telemetry.Store.Warehouse

open Http

/-! ## Schema -/

/-- The table of events. -/
def eventsTable : String := "
CREATE TABLE IF NOT EXISTS events (
    _id String,
    _project_id LowCardinality(String),
    _timestamp DateTime64(3, 'UTC'),
    _ingested_at DateTime64(3, 'UTC'),
    _event_type LowCardinality(String),
    _status_code Nullable(UInt16),
    _outcome LowCardinality(Nullable(String)),
    event JSON
) ENGINE = MergeTree()
PARTITION BY toYYYYMM(_timestamp)
ORDER BY (_project_id, _timestamp, _event_type)
"

/-- The table of daily counts. -/
def usageTable : String := "
CREATE TABLE IF NOT EXISTS daily_usage (
    project_id String,
    day Date,
    count UInt64
) ENGINE = SummingMergeTree()
ORDER BY (project_id, day)
"

/-- The view that keeps the daily counts. -/
def usageView : String := "
CREATE MATERIALIZED VIEW IF NOT EXISTS daily_usage_mv TO daily_usage AS
SELECT _project_id AS project_id, toDate(_ingested_at) AS day, count() AS count
FROM events
GROUP BY project_id, day
"

/-- The statements that create what is missing. -/
def schema : List String := [eventsTable, usageTable, usageView]

/-! ## Requests -/

/-- Who asks, and which database. -/
structure Login where
  database : String
  user : String
  password : String
deriving DecidableEq, Repr

/-- The headers that carry a login. -/
def Login.headers (login : Login) : List (String × Option String) :=
  [("X-ClickHouse-User", some login.user), ("X-ClickHouse-Key", some login.password),
    ("X-ClickHouse-Database", some login.database)]

/-- The longest part of an error's text that is passed on. -/
def maxDetail : Nat := 500

/-- The text of a reply, unless it is a failure. -/
def accept (reply : Reply) : Except Fault String :=
  match reply with
  | .failed reason => .error (.refusal (.store (.unreachable reason)))
  | .response status text =>
    if status ≥ 400 then
      let detail := String.ofList ((Text.strip text.toList).take maxDetail)
      .error (.refusal (.store (.status status detail)))
    else .ok text

/-- Sends a body with parameters and answers the text of the reply. -/
def post (login : Login) (params : List (String × String)) (body : String) : Online String := do
  let reply ← exchange ⟨"POST", "/", params, login.headers, body⟩
  let text ← (accept reply : Except Fault String)
  return text

/-- Creates the tables and the view, one after the other, up to the first that fails. -/
def ensureSchema (login : Login) : Online Unit :=
  schema.forM fun statement => do
    let _ ← post login [("allow_experimental_json_type", "1")] statement

/-- Stores an event. -/
def insert (login : Login) (event : Event) : Online Unit := do
  let _ ← post login
    [("date_time_input_format", "best_effort"), ("query", "INSERT INTO events FORMAT JSONEachRow")]
    (Event.rowsText [event])

/-- The rows in the text of a reply. -/
def readRows (text : String) : Except Fault (List Json) :=
  match Json.Lines.decode text with
  | .ok rows => .ok rows
  | .error .tooDeep => .error .tooDeep
  | .error e => .error (.refusal (.store (.malformed e.message)))

/-- Runs a statement and reads the rows that it answers. -/
def query (login : Login) (statement : String) : Online (List Json) := do
  let text ← post login
    [("default_format", "JSONEachRow"), ("output_format_json_quote_64bit_integers", "0")] statement
  let rows ← (readRows text : Except Fault (List Json))
  return rows

/-! ## Questions -/

/-- The statement that asks whether a project has an event of a type. -/
def eventTypeStatement (project eventType : String) : String :=
  "SELECT 1 AS found FROM events WHERE _project_id = " ++ Sql.textLiteral project ++
    " AND _event_type = " ++ Sql.textLiteral eventType ++ " LIMIT 1"

/-- Whether a project has an event of a type. -/
def hasEventType (login : Login) (project eventType : String) : Online Bool := do
  let rows ← query login (eventTypeStatement project eventType)
  return !rows.isEmpty

/-- The statement that adds up the daily counts of some projects from a day on. -/
def usageStatement (projects : List String) (day : String) : String :=
  "SELECT sum(count) AS total FROM daily_usage WHERE project_id IN (" ++
    Text.joinWith ", " (projects.map Sql.textLiteral) ++ ") AND day >= toDate(" ++
    Sql.textLiteral day ++ ")"

/-- The integer that a value stands for. -/
def integerOf : Json → Except Fault Int
  | .bool b => .ok (if b then 1 else 0)
  | .int i => .ok i
  | .float x =>
    match x.truncate? with
    | some i => .ok i
    | none => .error (if x.isNan then .badValue else .outOfRange)
  | .str s =>
    match Numeral.readInt? s with
    | some i => .ok i
    | none => .error .badValue
  | _ => .error (.wrongType "")

/-- The total in the answer to a usage statement; no rows and null are zero. -/
def readTotal : List Json → Except Fault Int
  | [] => .ok 0
  | .obj fields :: _ =>
    match Json.get "total" fields with
    | .null => .ok 0
    | v => integerOf v
  | _ :: _ => .error .noRecord

/-- The UTC day of a time. -/
def utcDay (t : Time.DateTime) : Except Fault String :=
  if !t.isAware && t.wall < Time.day then .error .badValue
  else match t.toUtc? with
    | some utc => .ok (utc.dateText 4)
    | none => .error .outOfRange

/-- How many events some projects have stored since a day. Without projects there are none. -/
def countSince (login : Login) (projects : List String) (since : Time.DateTime) : Online Int := do
  if projects.isEmpty then return 0
  let day ← (utcDay since : Except Fault String)
  let rows ← query login (usageStatement projects day)
  let total ← (readTotal rows : Except Fault Int)
  return total

end Telemetry.Store.Warehouse
