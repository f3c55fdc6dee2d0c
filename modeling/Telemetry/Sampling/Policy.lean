import Telemetry.Error
import Telemetry.Sampling.TraceHash
import Telemetry.Text.Search

/-!
# Sampling

Whether a finished event is kept. The decision is made afterwards, so it can look at the outcome:
errors, slow requests, some paths and some users are always kept. Of the rest a share is kept,
chosen by the trace id so that the events of one trace stay together, or by chance without one.
-/

namespace Telemetry.Sampling

/-- What is always kept, and the share of the rest. -/
structure Policy where
  rate : Double
  keepErrors : Bool
  /-- Milliseconds above which a request is slow; a value that is no number cannot be compared. -/
  slowThreshold : Json
  keepPaths : List String
  keepUsers : List String

/-! ## Policies -/

/-- The order of a share and an integer bound, none for what is no number. -/
def compareRate? : Json → Int → Option (Option Ordering)
  | .bool b, bound => some (some (compare (if b then 1 else 0) bound))
  | .int i, bound => some (some (compare i bound))
  | .float x, bound => some (x.compareInt? bound)
  | _, _ => none

/-- The share that a value stands for. -/
def rateOfValue : Json → Except Fault Double
  | v =>
    match compareRate? v 0, compareRate? v 1 with
    | some low, some high =>
      if (low = some .eq ∨ low = some .gt) ∧ (high = some .eq ∨ high = some .lt) then
        match v with
        | .float x => .ok x
        | .int i => .ok (.ofInt i)
        | .bool b => .ok (.ofInt (if b then 1 else 0))
        | _ => .error (.wrongType "")
      else .error (.argument (.rateOutOfRange v.display))
    | _, _ => .error (.wrongType "")

/-- A policy with these values, if the share is between zero and one. -/
def Policy.create (rate : Json) (keepErrors : Bool) (slowThreshold : Json)
    (keepPaths keepUsers : List String) : Except Fault Policy := do
  let rate ← rateOfValue rate
  pure ⟨rate, keepErrors, slowThreshold, keepPaths, keepUsers⟩

/-- The policy that keeps everything. -/
def Policy.default : Policy :=
  ⟨.ofInt 1, true, .int 2000, [], []⟩

/-! ## Decisions -/

/-- The number that a value is, if it is one; integers too large for a double fail. -/
def numberOfValue : Json → Except Fault (Option Double)
  | .int i =>
    let x := Double.ofInt i
    if x.isFinite then .ok (some x) else .error .outOfRange
  | .float x => .ok (if x.isNan then none else some x)
  | _ => .ok none

/-- Whether a number is above a threshold. -/
def above (x : Double) : Json → Except Fault Bool
  | .bool b => .ok (x.compareInt? (if b then 1 else 0) == some .gt)
  | .int i => .ok (x.compareInt? i == some .gt)
  | .float y => .ok (y.lt x)
  | _ => .error (.wrongType "")

/-- Whether an event says that it is an error, or has the status of one. -/
def isError (event : Json.Object) : Except Fault Bool :=
  if (Json.get "outcome" event).isText "error" then .ok true
  else do
    match ← numberOfValue (Json.get "status_code" event) with
    | some x => pure (x.compareInt? 400 != some .lt)
    | none => pure false

/-- Whether an event took longer than the threshold. -/
def isSlow (policy : Policy) (event : Json.Object) : Except Fault Bool := do
  match ← numberOfValue (Json.get "duration_ms" event) with
  | some x => above x policy.slowThreshold
  | none => pure false

/-- Whether an event's path contains one of those that are always kept. -/
def hasKeptPath (policy : Policy) (event : Json.Object) : Bool :=
  match Json.get "path" event with
  | .str path => policy.keepPaths.any fun part => Text.occursIn part.toList path.toList
  | _ => false

/-- Whether an event's user is one of those that are always kept; a user without a text fails. -/
def hasKeptUser (policy : Policy) (event : Json.Object) : Except Fault Bool :=
  let user := Json.get "user_id" event
  if user.isNull || user.isText "" then .ok false
  else do
    let name ← user.shown
    pure (policy.keepUsers.contains name)

/-- Whether an event falls into the share that is kept; `draw` decides for events without a trace
id, and a trace id without a text fails. -/
def inShare (policy : Policy) (draw : Double) (event : Json.Object) : Except Fault Bool :=
  let traceId := Json.get "trace_id" event
  if traceId.isTruthy then do
    let text ← traceId.shown
    pure ((traceBucket text).lt policy.rate)
  else .ok (draw.lt policy.rate)

/-- Whether a finished event is kept. -/
def keeps (policy : Policy) (draw : Double) (event : Json.Object) : Except Fault Bool := do
  if policy.keepErrors then
    if ← isError event then return true
  if ← isSlow policy event then return true
  if hasKeptPath policy event then return true
  if ← hasKeptUser policy event then return true
  inShare policy draw event

end Telemetry.Sampling
