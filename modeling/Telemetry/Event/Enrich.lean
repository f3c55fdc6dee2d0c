import Telemetry.Event.Basic
import Telemetry.Json.Pairs
import Telemetry.Text.Blank

/-!
# Enriching events in progress

While a request is served its event is an object that the handler adds to: fields, contexts, the
user, errors, the status and timings. Every addition is a function on the object. It fails if a
context or an error is no object and has no pairs to make one of, or if a status is no number; an
error's outcome and a status have been written even then.
-/

namespace Telemetry.Event

/-! ## Errors of handlers -/

/-- An error that a handler raises: its kind, and the message it was made with. -/
structure Crash where
  kind : String
  message : String
deriving DecidableEq, Repr

/-- The text of an error. A missing key shows the key in quotes. -/
def Crash.text (c : Crash) : String :=
  if c.kind = "KeyError" then Text.quoted c.message else c.message

/-- The last line of a text, empty if it has none. -/
def lastLine (s : String) : String :=
  String.ofList (((Text.splitLines s.toList).getLast?).getD [])

/-- The kinds of errors in the text of a program, whose trace never ends with the kind alone. -/
def syntaxKinds : List String := ["SyntaxError", "IndentationError", "TabError"]

/-- What a trace says of an error behind its kind. -/
def Crash.traceText (c : Crash) : String :=
  if c.text = "" && syntaxKinds.contains c.kind then "<no detail available>" else c.text

/-- The last line of an error's trace: its kind and its text. -/
def Crash.lastLine (c : Crash) : String :=
  Event.lastLine ((if c.traceText = "" then c.kind else c.kind ++ ": " ++ c.traceText) ++ "\n")

/-- The kinds of errors that end more than the work of a request, and that nobody handles. -/
def exitKinds : List String :=
  ["BaseException", "KeyboardInterrupt", "SystemExit", "GeneratorExit", "CancelledError"]

/-- Whether an error ends more than the work of a request. -/
def Crash.isExit (c : Crash) : Bool := exitKinds.contains c.kind

/-! ## Additions -/

/-- An addition to an event in progress. -/
inductive Addition
  | set (name : String) (value : Json)
  | setContext (name : String) (data : Json)
  | mergeContext (name : String) (data : Json)
  | setUser (id : Json)
  | setError (details : Json)
  | setCrash (crash : Crash)
  | setStatus (code : Json)
  | setTiming (name : String) (start : Double)

/-- The description of an error that is given as an object; it has a type. -/
def errorDetails (details : Json.Object) : Json.Object :=
  let given := Json.get "type" details
  Assoc.put "type" (if given.isTruthy then given else .str "Error") details

/-- The description of an error that was raised. -/
def crashDetails (c : Crash) : Json.Object :=
  [("type", .str c.kind), ("message", .str c.text), ("stack", .str c.lastLine)]

/-- Milliseconds between two readings of a clock in seconds, to the microsecond. -/
def elapsedMillis (start stop : Double) : Double :=
  ((stop.sub start).mul (.ofInt 1000)).roundPlaces 3

/-- Whether a number is at least an integer; none if the value is no number. -/
def atLeast? (bound : Int) : Json → Option Bool
  | .bool b => some (decide (bound ≤ if b then 1 else 0))
  | .int i => some (decide (bound ≤ i))
  | .float x => some (match x.compareInt? bound with
    | some .eq | some .gt => true
    | _ => false)
  | _ => none

/-- The error of a value that makes no object. -/
def noObject (flaw : Json.PairsFlaw) : Crash :=
  match flaw with
  | .pairLength .. => ⟨"ValueError", flaw.message⟩
  | _ => ⟨"TypeError", flaw.message⟩

/-- The error of merging a value that is no object into one. -/
def notMergeable (v : Json) : Crash :=
  ⟨"TypeError", "'" ++ v.kindName ++ "' object is not a mapping"⟩

/-- The error of comparing a value that is no number with an integer. -/
def notComparable (v : Json) : Crash :=
  ⟨"TypeError", "'>=' not supported between instances of '" ++ v.kindName ++ "' and 'int'"⟩

/-- The event with an object at a name, or the error if there is no such object. -/
def putObject (name : String) (event : Json.Object) :
    Except Crash Json.Object → Json.Object × Option Crash
  | .ok fields => (Assoc.put name (.obj fields) event, none)
  | .error crash => (event, some crash)

/-- The object that a value makes, or the error if it makes none. -/
def objectOf (v : Json) : Except Crash Json.Object := v.toObject.mapError noObject

/-- The object that a context becomes when a value is merged into what is there. -/
def mergedContext (existing data : Json) : Except Crash Json.Object :=
  match existing, data with
  | .obj fields, .obj more => .ok (Assoc.merge fields more)
  | .obj _, v => .error (notMergeable v)
  | _, v => objectOf v

/-- The event after an addition at a reading of the clock, and the error if it failed. -/
def Addition.apply (clock : Double) (event : Json.Object) : Addition → Json.Object × Option Crash
  | .set name value => (Assoc.put name value event, none)
  | .setContext name data => putObject name event (objectOf data)
  | .mergeContext name data => putObject name event (mergedContext (Json.get name event) data)
  | .setUser id => (Assoc.put "user_id" id event, none)
  | .setError details =>
    putObject "error" (Assoc.put "outcome" (.str "error") event)
      ((objectOf details).map errorDetails)
  | .setCrash crash =>
    (Assoc.put "error" (.obj (crashDetails crash)) (Assoc.put "outcome" (.str "error") event), none)
  | .setStatus code =>
    let event := Assoc.put "status_code" code event
    match atLeast? 400 code with
    | some bad => (Assoc.put "outcome" (.str (if bad then "error" else "success")) event, none)
    | none => (event, some (notComparable code))
  | .setTiming name start => (Assoc.put name (.float (elapsedMillis start clock)) event, none)

/-! ## Showing events -/

/-- The event with the trace of its error cut to the last line. -/
def withShortStack (event : Json.Object) : Json.Object :=
  match Json.get "error" event with
  | .obj details =>
    match Json.get "stack" details with
    | .str s => Assoc.put "error" (.obj (Assoc.put "stack" (.str (lastLine s)) details)) event
    | _ => event
  | _ => event

end Telemetry.Event
