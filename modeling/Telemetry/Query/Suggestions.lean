import Telemetry.Number.Numeral
import Telemetry.Number.Shortest
import Telemetry.Query.Row
import Telemetry.Text.Search

/-!
# Suggestions

Which event types and which values of which fields occur in a sample of events, for a dashboard to
suggest. A payload is flattened to its leaves under dotted paths; a leaf that has a short text is a
value of its path. Per path the numbers come first, in order, then the other texts.
-/

namespace Telemetry.Query

/-! ## Leaves -/

/-- The text of a scalar in a filter box; none for null, arrays and objects. -/
def scalarText? : Json → Option String
  | .bool b => some (if b then "true" else "false")
  | .int i => some (Text.integer i)
  | .float x =>
    match x.isInteger, x.truncate? with
    | true, some i => some (Text.integer i)
    | _, _ => some x.text
  | .str s => some s
  | _ => none

/-- The text of a scalar, or of an array of scalars with commas between them. -/
def leafText? : Json → Option String
  | .arr items =>
    if items.any Json.isContainer then none
    else some (Text.joinWith "," (items.map fun v => (scalarText? v).getD ""))
  | v => scalarText? v

/-- The path of a field below a path. -/
def childPath (path name : String) : String :=
  if path = "" then name else path ++ "." ++ name

mutual

/-- The leaves of a value under a path: the value itself, unless it is an object. -/
def leavesOf (path : String) : Json → List (String × Json)
  | .obj fields => leaves path fields
  | v => [(path, v)]

/-- The leaves of an object's fields in order, under their dotted paths. -/
def leaves (path : String) : List (String × Json) → List (String × Json)
  | [] => []
  | (name, v) :: rest => leavesOf (childPath path name) v ++ leaves path rest

end

/-! ## Order -/

/-- The finite number that a text is; a blank text is zero, and underscores are no part of a
number. -/
def textNumber? (s : String) : Option Double :=
  let stripped := Text.stripped s
  if stripped = "" then some .zero
  else if stripped.toList.contains '_' then none
  else match Numeral.readDouble? stripped with
    | some x => if x.isFinite then some x else none
    | none => none

/-- The texts that are numbers, each with its number. -/
def numericTexts (values : List String) : List (Double × String) :=
  values.filterMap fun s => (textNumber? s).map (·, s)

/-- The texts that are no numbers. -/
def plainTexts (values : List String) : List String :=
  values.filter fun s => (textNumber? s).isNone

/-- Numbers first, in ascending order and equal ones as they came, then the other texts by code
point. -/
def orderValues (values : List String) : List String :=
  ((numericTexts values).mergeSort (fun a b => a.1.le b.1)).map (·.2) ++
    (plainTexts values).mergeSort (fun a b => decide (a ≤ b))

/-! ## Samples -/

/-- The longest text that is suggested. -/
def maxValueLength : Nat := 50

/-- How many values of a field are suggested. -/
def maxValues : Nat := 25

/-- How many event types are suggested. -/
def maxEventTypes : Nat := 30

/-- What a sample shows: the event types in order of appearance, and the values of each field. -/
structure Suggestions where
  eventTypes : List String
  fields : List (String × List String)
deriving DecidableEq, Repr

/-- The texts observed at each path. -/
abbrev Observed := List (String × List String)

/-- Adds a text to those observed at a path, once. -/
def Observed.addText (path text : String) (o : Observed) : Observed :=
  let texts := (Assoc.find? path o).getD []
  if texts.contains text then o else Assoc.put path (texts ++ [text]) o

/-- Adds a leaf, if it has a text that is short enough. -/
def Observed.addLeaf (o : Observed) (leaf : String × Json) : Observed :=
  match leafText? leaf.2 with
  | some text => if text.length ≤ maxValueLength then o.addText leaf.1 text else o
  | none => o

/-- The path of the status code. -/
def statusPath : String := "status_code"

/-- What is seen of an event: its type, and the values from which suggestions are taken. -/
structure Sighting where
  eventType : String
  status : Json
  outcome : Json
  payload : Json.Object

/-- What is seen of an event that a query has answered. -/
def EventRow.sighting (e : EventRow) : Sighting :=
  ⟨e.eventType, Json.ofOption .int e.statusCode, Json.ofOption .str e.outcome, e.payload⟩

/-- The leaf at a path, unless the value counts as nothing. -/
def leafUnlessNothing (path : String) (v : Json) : List (String × Json) :=
  if v.isTruthy then [(path, v)] else []

/-- The leaves of an event: its status code and outcome, where it has them, and its payload. -/
def Sighting.leaves (e : Sighting) : List (String × Json) :=
  leafUnlessNothing statusPath e.status ++ leafUnlessNothing "outcome" e.outcome ++
    Query.leaves "" e.payload

/-- Adds the words for errors and successes to the observed status codes. -/
def Observed.addStatusWords (o : Observed) : Observed :=
  match Assoc.find? statusPath o with
  | none => o
  | some codes =>
    let numbers := codes.filterMap textNumber?
    let atLeast (n : Int) (x : Double) : Bool := x.compareInt? n != some .lt
    let o := if numbers.any (atLeast 400) then o.addText statusPath "error" else o
    if numbers.any (fun x => atLeast 200 x && !atLeast 400 x) then o.addText statusPath "success"
    else o

/-- The texts observed in a sample. -/
def observe (events : List Sighting) : Observed :=
  ((events.flatMap Sighting.leaves).foldl Observed.addLeaf []).addStatusWords

/-- An order in which the texts observed at a path are gone through. They are a set: nothing fixes
their order. -/
structure Arrangement where
  arrange : String → List String → List String
  perm : ∀ path texts, (arrange path texts).Perm texts

/-- The texts of each path as they came. -/
def Arrangement.asSeen : Arrangement := ⟨fun _ texts => texts, fun _ texts => .refl texts⟩

/-- The suggestions of a sample, the texts of each path gone through in this order. -/
def Suggestions.arranged (a : Arrangement) (events : List Sighting) : Suggestions :=
  { eventTypes :=
      (((events.map (·.eventType)).filter (· ≠ "")).eraseDups).take maxEventTypes
    fields := (observe events).map fun (path, texts) =>
      (path, (orderValues (a.arrange path texts)).take maxValues) }

/-- The suggestions of a sample. -/
def Suggestions.ofSightings (events : List Sighting) : Suggestions := .arranged .asSeen events

/-- The suggestions of some events that a query has answered. -/
def Suggestions.ofEvents (events : List EventRow) : Suggestions :=
  .ofSightings (events.map EventRow.sighting)

end Telemetry.Query
