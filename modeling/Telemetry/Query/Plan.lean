import Telemetry.Query.Predicate
import Telemetry.Query.Row

/-!
# Read operations

Each operation on a project's events is a plan: one statement for the store and a way to read the
rows that it answers, or an answer that needs no store. A statement keeps its conjuncts apart until
it is written, and the first of them always fixes the project.
-/

namespace Telemetry.Query

/-! ## Statements and plans -/

/-- A query of the table of events. -/
structure Statement where
  columns : String
  conjuncts : List String
  tail : String
deriving DecidableEq, Repr

/-- The text of a statement. -/
def Statement.text (s : Statement) : String :=
  "SELECT " ++ s.columns ++ " FROM events WHERE " ++ Text.joinWith " AND " s.conjuncts ++
    (if s.tail = "" then "" else " " ++ s.tail)

/-- What an operation does: it answers at once, or asks the store and reads the rows. -/
inductive Plan (α : Type)
  | answer (value : α)
  | ask (statement : Statement) (read : List Row → Except Fault α)

namespace Plan

/-- Changes the answer of a plan. -/
def map {α β : Type} (f : α → β) : Plan α → Plan β
  | .answer a => .answer (f a)
  | .ask statement read => .ask statement fun rows => (read rows).map f

/-- The answer of a plan over a store. -/
def run {α : Type} (store : String → Except Fault (List Row)) : Plan α → Except Fault α
  | .answer a => .ok a
  | .ask statement read => store statement.text >>= read

/-- The statements that a plan hands to the store. -/
def statements {α : Type} : Plan α → List Statement
  | .answer _ => []
  | .ask statement _ => [statement]

end Plan

/-- Takes a flaw of a query's names or values as a fault. -/
def orRefuse {α : Type} : Except QueryFlaw α → Except Fault α
  | .ok a => .ok a
  | .error flaw => .error (.refusal (.query flaw))

/-! ## Columns and tails -/

/-- The columns of an event. -/
def eventColumns : String :=
  "_id AS id, _timestamp AS timestamp, _event_type AS event_type, " ++
    "toString(event) AS payload, _status_code AS status_code, _outcome AS outcome"

/-- An expression as a number, null where it is none. -/
def numeric (expression : String) : String :=
  "CAST(" ++ expression ++ ", 'Nullable(Float64)')"

/-- The order and page of a listing, newest first. -/
def pageTail (o : Options) : String :=
  "ORDER BY _timestamp DESC LIMIT " ++ Text.integer o.limit ++ " OFFSET " ++ Text.integer o.offset

/-- A quantile of an expression under a name. -/
def quantileColumn (level expression name : String) : String :=
  "quantile(" ++ level ++ ")(" ++ expression ++ ") AS " ++ name

/-- Reads every row as an event. -/
def readEvents (rows : List Row) : Except Fault (List EventRow) :=
  rows.mapM EventRow.ofRow

/-! ## Operations -/

namespace Plan

/-- One page of events, newest first. -/
def list (o : Options) (filters : List Condition) : Except Fault (Plan (List EventRow)) := do
  let cs ← conjuncts o filters
  pure (.ask ⟨eventColumns, cs, pageTail o⟩ readEvents)

/-- Events grouped by a field, with counts, error rate and durations. -/
def aggregate (groupBy : String) (o : Options) (filters : List Condition) :
    Except Fault (Plan (List AggregateRow)) := do
  let column ← orRefuse (Sql.column groupBy)
  let duration := numeric (Sql.payloadColumn ++ ".duration_ms")
  let cs ← conjuncts o filters
  let columns := column ++ " AS group_key, count() AS total, countIf(" ++ serverErrors ++
    ") AS errors, round(errors * 100.0 / total, 2) AS error_rate, avg(" ++ duration ++
    ") AS avg_duration_ms, " ++ quantileColumn "0.95" duration "p95_duration_ms"
  pure (.ask ⟨columns, cs, "GROUP BY group_key ORDER BY total DESC LIMIT 100"⟩
    (·.mapM AggregateRow.ofRow))

/-- The latency percentiles of a duration per group, slowest first. -/
def latency (groupBy durationField : String) (o : Options) (filters : List Condition) :
    Except Fault (Plan (List LatencyRow)) := do
  let column ← orRefuse (Sql.column groupBy)
  let duration := numeric (← orRefuse (Sql.column durationField))
  let cs ← conjuncts o filters
  let columns := column ++ " AS group_key, " ++ quantileColumn "0.50" duration "p50" ++ ", " ++
    quantileColumn "0.90" duration "p90" ++ ", " ++ quantileColumn "0.95" duration "p95" ++ ", " ++
    quantileColumn "0.99" duration "p99" ++ ", count() AS total"
  pure (.ask ⟨columns, cs ++ [duration ++ " IS NOT NULL"],
    "GROUP BY group_key ORDER BY p99 DESC LIMIT 50"⟩ (·.mapM LatencyRow.ofRow))

/-- The expressions that a search looks into: the whole payload, or the fields that exist. -/
def searchTargets : Option (List String) → List String
  | none => [Sql.payloadColumn]
  | some names => names.filterMap fun name => (Sql.column name).toOption

/-- Events in which a term occurs, newest first, in any case of its letters. Without a term this is
the listing, and without anything to search nothing is found. -/
def search (term : String) (o : Options) (fields : Option (List String))
    (filters : List Condition) : Except Fault (Plan (List EventRow)) :=
  if term = "" then list o filters
  else match searchTargets fields with
    | [] => .ok (.answer [])
    | targets => do
      let pattern := Sql.containsLiteral term
      let tests := targets.map fun target => "toString(" ++ target ++ ") ILIKE " ++ pattern
      let cs ← conjuncts o filters
      pure (.ask ⟨eventColumns, cs ++ ["(" ++ Text.joinWith " OR " tests ++ ")"], pageTail o⟩
        readEvents)

/-- The conjuncts of the events of a trace. -/
def traceConjuncts (o : Options) (traceId : String) (exclude : Option String) : List String :=
  let value := Sql.textLiteral traceId
  [o.projectConjunct, "(" ++ Sql.payloadColumn ++ ".trace_id = " ++ value ++ " OR " ++
    Sql.payloadColumn ++ ".request_id = " ++ value ++ ")"] ++
    (match exclude with
    | some id => ["_id != " ++ Sql.textLiteral id]
    | none => [])

/-- The events of one trace, oldest first, one of them left out if wanted. -/
def trace (traceId project : String) (exclude : Option String) :
    Except Fault (Plan (List EventRow)) := do
  let o ← Options.ofProject project defaultLimit
  pure (.ask ⟨eventColumns, traceConjuncts o traceId exclude, "ORDER BY _timestamp ASC LIMIT 20"⟩
    readEvents)

/-- Server errors grouped by a field, error type and error code, most frequent first. -/
def errors (groupBy : String) (o : Options) (filters : List Condition) :
    Except Fault (Plan (List ErrorGroupRow)) := do
  let column ← orRefuse (Sql.column groupBy)
  let cs ← conjuncts o filters
  let columns := column ++ " AS group_key, " ++ Sql.payloadColumn ++ ".error.type AS error_type, " ++
    Sql.payloadColumn ++ ".error.code AS error_code, count() AS total"
  pure (.ask ⟨columns, cs ++ [serverErrors],
    "GROUP BY group_key, error_type, error_code ORDER BY total DESC LIMIT 100"⟩
    (·.mapM ErrorGroupRow.ofRow))

/-- Totals and percentages of a window. -/
def stats (o : Options) (filters : List Condition) : Except Fault (Plan Stats) := do
  let cs ← conjuncts o filters
  pure (.ask ⟨"count() AS total, countIf(" ++ anyErrors ++ ") AS errors", cs, ""⟩ Stats.ofRows)

/-- How many recent events a sample takes. -/
def sampleSize : Nat := 500

/-- The most recent events of a project. -/
def recent (project : String) (limit : Int) : Except Fault (Plan (List EventRow)) := do
  let o ← Options.ofProject project limit
  list o []

end Plan

end Telemetry.Query
