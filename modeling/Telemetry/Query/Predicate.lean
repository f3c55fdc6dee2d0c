import Telemetry.Query.Filter
import Telemetry.Query.Options

/-!
# Predicates

The `WHERE` part of a query is a conjunction. The conjunct that fixes the project comes first, then
those of the window, the event type and the status, then one for each condition that compiles.
Conditions that do not compile are dropped, so that a stray parameter never fails a read.
-/

namespace Telemetry.Query

/-- Server errors, or an outcome that says so. -/
def serverErrors : String := "(_status_code >= 500 OR _outcome = 'error')"

/-- Errors of client or server, or an outcome that says so. -/
def anyErrors : String := "(_status_code >= 400 OR _outcome = 'error')"

/-- Statuses of success, or an outcome that says so. -/
def successes : String :=
  "((_status_code >= 200 AND _status_code < 400) OR _outcome = 'success')"

/-- The conjunct of a status: one of the two words, or an exact code. -/
def statusConjunct (status : Json) : Except QueryFlaw String :=
  if status.isText "error" then .ok anyErrors
  else if status.isText "success" then .ok successes
  else match status with
    | .int code => .ok ("_status_code = " ++ Text.integer code)
    | v => .error (.invalidStatus v)

/-- The conjunct that fixes the project. -/
def Options.projectConjunct (o : Options) : String :=
  "_project_id = " ++ Sql.textLiteral o.project

/-- The conjunct that bounds the time by an optional instant. -/
def boundConjunct (operator : String) : Option Time.DateTime → Except Fault (List String)
  | none => .ok []
  | some t => do
    let literal ← Sql.timeLiteral t
    .ok ["_timestamp " ++ operator ++ " " ++ literal]

/-- The conjunct of the event type; an empty type restricts nothing. -/
def Options.typeConjuncts (o : Options) : List String :=
  match o.eventType with
  | none => []
  | some s => if s = "" then [] else ["_event_type = " ++ Sql.textLiteral s]

/-- The conjunct of the status, if one is wanted. -/
def Options.statusConjuncts (o : Options) : Except Fault (List String) :=
  if o.status.isNull then .ok []
  else match statusConjunct o.status with
    | .ok s => .ok [s]
    | .error flaw => .error (.refusal (.query flaw))

/-- The conjuncts of the options alone. -/
def Options.conjuncts (o : Options) : Except Fault (List String) := do
  let lower ← boundConjunct ">=" o.startTime
  let upper ← boundConjunct "<=" o.endTime
  let status ← o.statusConjuncts
  .ok (o.projectConjunct :: lower ++ upper ++ o.typeConjuncts ++ status)

/-- The conjuncts of the conditions that compile, in order. -/
def acceptedConjuncts (filters : List Condition) : List String :=
  filters.filterMap fun c => c.compile.toOption

/-- The conjuncts of a read query. -/
def conjuncts (o : Options) (filters : List Condition) : Except Fault (List String) := do
  let own ← o.conjuncts
  .ok (own ++ acceptedConjuncts filters)

/-- The predicate of a read query. -/
def predicate (o : Options) (filters : List Condition) : Except Fault String := do
  let cs ← conjuncts o filters
  .ok (Text.joinWith " AND " cs)

end Telemetry.Query
