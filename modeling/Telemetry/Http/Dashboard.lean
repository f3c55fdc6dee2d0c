import Telemetry.Gate.Ingest
import Telemetry.Http.Message
import Telemetry.Query.Answer
import Telemetry.Query.Params
import Telemetry.Query.Plan

/-!
# The dashboard

The application that takes events and answers questions about them. Every question is asked with a
key, and sees the events of the key's project only. A refusal is answered with its own status and
body, anything else that goes wrong with an internal error. A result that JSON cannot hold, or that
is nested too deeply, breaks the response itself: the client is told in plain text, and the fault
goes on to the server.
-/

namespace Telemetry.Http.Dashboard

open Gate (Attempt Program)
open Query (Params Plan)

/-! ## Routes -/

/-- The questions about a project's events. -/
inductive Question
  | list
  | aggregate
  | latency
  | errors
  | stats
  | trace (traceId : String)
  | fields
deriving DecidableEq, Repr

/-- The places of the dashboard. -/
inductive Route
  | ingest
  | ask (question : Question)
deriving DecidableEq, Repr

/-- The places with a fixed path. -/
def fixedPaths : List (String × Route) :=
  [("/ingest", .ingest), ("/events", .ask .list), ("/events/aggregate", .ask .aggregate),
    ("/events/latency", .ask .latency), ("/events/errors", .ask .errors),
    ("/events/stats", .ask .stats), ("/fields", .ask .fields)]

/-- Whether a path is this one; one line feed at its end makes no difference. -/
def isPath (path expected : String) : Bool :=
  path == expected || path == expected ++ "\n"

/-- What follows the first path segments up to a trace's id. -/
def afterTraces? (path : String) : Option (List Char) :=
  let start := "/traces/".toList
  if start.isPrefixOf path.toList then some (path.toList.drop start.length) else none

/-- The place at a path. The id of a trace is one segment that is not empty. -/
def Route.ofPath? (path : String) : Option Route :=
  match fixedPaths.find? fun (expected, _) => isPath path expected with
  | some (_, route) => some route
  | none =>
    match afterTraces? path with
    | some id => if id.isEmpty || id.contains '/' then none
      else some (.ask (.trace (String.ofList id)))
    | none => none

/-- The only method that a place takes. -/
def Route.verb : Route → String
  | .ingest => "POST"
  | .ask _ => "GET"

/-! ## Questions -/

/-- Asks the store of events what a plan asks. -/
def perform {α : Type} : Plan α → Attempt α
  | .answer a => pure a
  | .ask statement read => do
    match ← Attempt.ask (.query statement.text) with
    | .ok rows => (read rows : Except Fault α)
    | .error fault => throw fault

/-- The project of the key that a request is made with. -/
def projectOf (r : Request) : Attempt String := do
  let key ← Gate.authenticate (r.exactHeader? "authorization")
  return key.project.getD ""

/-- The parameters of a request. -/
def paramsOf (r : Request) : Params :=
  Text.groupByName (Text.readQueryString r.query)

/-- The field to group by. -/
def groupField (params : Params) : Except Fault String :=
  let name := params.firstRaw "group_by"
  if name = "" then .error (.refusal (.request .groupMissing)) else .ok name

/-- The field whose percentiles are wanted. -/
def durationField (params : Params) : String :=
  match Assoc.find? "duration_field" params with
  | some (name :: _) => name
  | _ => "duration_ms"

/-- The event that a trace is shown without: the last one that is named. -/
def excludedEvent (r : Request) : Option String :=
  match ((Text.readQueryString r.query).filter (·.1 = "exclude")).getLast? with
  | some (_, id) => if id = "" then none else some id
  | none => none

/-- One page of events, or of those in which a term occurs. -/
def listPlan (params : Params) (o : Query.Options) : Except Fault (Plan (List Query.EventRow)) :=
  let term := params.firstRaw "search"
  if term = "" then Plan.list o params.filters
  else Plan.search term o params.searchFields params.filters

/-- A plan whose answer is an object with one array. -/
def wrap {α : Type} (name : String) (toJson : α → Json) (plan : Plan (List α)) : Plan Json :=
  plan.map fun items => .obj [(name, .arr (items.map toJson))]

/-- What a question about a project's events asks. -/
def planOf (question : Question) (r : Request) (project : String) : Except Fault (Plan Json) := do
  let params := paramsOf r
  match question with
  | .trace traceId =>
    return wrap "events" Query.EventRow.toJson (← Plan.trace traceId project (excludedEvent r))
  | .fields =>
    let plan ← Plan.recent project Plan.sampleSize
    return plan.map fun events =>
      let s := Query.Suggestions.ofEvents events
      .obj [("eventTypes", Query.textsToJson s.eventTypes), ("fields", s.fieldsToJson)]
  | .list =>
    return wrap "events" Query.EventRow.toJson (← listPlan params (← params.options project))
  | .aggregate =>
    let o ← params.options project
    let plan ← Plan.aggregate (← groupField params) o params.filters
    return wrap "groups" Query.AggregateRow.toJson plan
  | .latency =>
    let o ← params.options project
    let plan ← Plan.latency (← groupField params) (durationField params) o params.filters
    return wrap "groups" Query.LatencyRow.toJson plan
  | .errors =>
    let o ← params.options project
    let plan ← Plan.errors (← groupField params) o params.filters
    return wrap "groups" Query.ErrorGroupRow.toJson plan
  | .stats =>
    let o ← params.options project
    return (← Plan.stats o params.filters).map Query.Stats.toJson

/-- Answers a question: first the key, then the question itself. -/
def answer (question : Question) (r : Request) : Attempt Json := do
  let project ← projectOf r
  let plan ← (planOf question r project : Except Fault (Plan Json))
  perform plan

/-! ## Responses -/

/-- A response, and the fault that goes on to the server. -/
structure Served where
  response : Response
  raised : Option Fault

/-- A response that holds a JSON value. -/
def jsonResponse (status : Int) (v : Json) : Response :=
  .ofType status "application/json" (v.render .compactRaw)

/-- A fault that nobody has handled. -/
def broken (fault : Fault) : Served :=
  ⟨.ofType 500 "text/plain; charset=utf-8" "Internal Server Error", some fault⟩

/-- A JSON value as a response, if every number in it can be written. -/
def respond (status : Int) (v : Json) : Served :=
  if v.allFinite then ⟨jsonResponse status v, none⟩ else broken .badValue

/-- How deeply an answer may be nested: it is gone through with two calls for each level. -/
def maxAnswerNesting : Nat := Json.maxDepth / 2

/-- The response to a question. Only cancellation is not handled. -/
def respondTo : Except Fault Json → Served
  | .ok v => if v.nesting > maxAnswerNesting then broken .tooDeep else respond 200 v
  | .error (.refusal r) => respond r.status (.obj r.body)
  | .error .cancelled => broken .cancelled
  | .error _ => respond 500 (.obj [("error", .str "Internal Server Error")])

/-- The response to a posted event. -/
def respondToIngest : Except Fault Gate.Result → Served
  | .ok result => respond result.status (.obj result.body)
  | .error fault => broken fault

/-- Takes a posted event. A body that breaks off is not taken. -/
def ingest (defaultCap : Int) (r : Request) (incoming : List Incoming) : Program Served := do
  let (raw, complete, _) := readPieces incoming
  if !complete then return broken .disconnected
  let result ← (Gate.ingestBytes defaultCap (r.exactHeader? "authorization") raw).run
  return respondToIngest result

/-- The response where there is nothing. -/
def notFound : Response := jsonResponse 404 (.obj [("detail", .str "Not Found")])

/-- The response to a method that a place does not take. -/
def wrongVerb (allowed : String) : Response :=
  { jsonResponse 405 (.obj [("detail", .str "Method Not Allowed")]) with
    headers := [("allow", allowed), ("content-type", "application/json")] }

/-- Answers a request at a place. -/
def serveAt (defaultCap : Int) (route : Route) (r : Request) (incoming : List Incoming) :
    Program Served :=
  if r.verb ≠ route.verb then pure ⟨wrongVerb route.verb, none⟩
  else match route with
    | .ingest => ingest defaultCap r incoming
    | .ask question => do return respondTo (← (answer question r).run)

/-- Answers a request, if it is one of the hypertext protocol. -/
def serve (defaultCap : Int) (r : Request) (incoming : List Incoming) :
    Program (Option Served) := do
  if !r.plain then return none
  match Route.ofPath? r.path with
  | some route => return some (← serveAt defaultCap route r incoming)
  | none => return some ⟨notFound, none⟩

end Telemetry.Http.Dashboard
