import Telemetry.Number.Numeral
import Telemetry.Query.Predicate
import Telemetry.Text.Blank
import Telemetry.Time.Epoch
import Telemetry.Time.Iso

/-!
# Query parameters

The parameters of a dashboard's request as options, filters and search fields. A parameter that
cannot be used falls back to its default. A name without a meaning of its own is a field, and each
of its values asks for the events in which the field contains it.
-/

namespace Telemetry.Query

/-- The parameters of a request: names in order of first appearance, each with its values. -/
abbrev Params := List (String × List String)

/-- The names with a meaning of their own. -/
def reservedNames : List String :=
  ["limit", "offset", "type", "status", "since", "until", "search", "fields", "group_by",
    "duration_field", "exclude"]

/-- The largest page. -/
def maxLimit : Int := 1000

/-- The largest offset. -/
def maxOffset : Int := 2147483647

/-- The instant that a text names, a naive time taken as UTC. -/
def readTime? (s : String) : Option Time.DateTime :=
  (Time.Iso.read? s).map (·.withZone)

namespace Params

/-- The first value of a parameter without the blanks around it, if anything remains. -/
def first? (params : Params) (name : String) : Option String :=
  match Assoc.find? name params with
  | some (value :: _) =>
    let s := Text.stripped value
    if s = "" then none else some s
  | _ => none

/-- The first value of a parameter as it is, empty if there is none. -/
def firstRaw (params : Params) (name : String) : String :=
  match Assoc.find? name params with
  | some (value :: _) => value
  | _ => ""

/-- An integer between two bounds, or a default. -/
def readClamped (raw : Option String) (default low high : Int) : Int :=
  match raw.bind Numeral.readInt? with
  | some n => min (max n low) high
  | none => default

/-- A time as a number of seconds since 1970, not negative, or in ISO 8601. -/
def readBound? (raw : String) : Option Time.DateTime :=
  match Numeral.readDouble? raw with
  | none => readTime? raw
  | some seconds =>
    if seconds.lt .zero || !seconds.isFinite then none else Time.DateTime.ofEpoch? seconds

/-- One of the two words for a status, in any case, or a code. -/
def readStatus (raw : String) : Json :=
  let word := Text.lower raw
  if word = "error" ∨ word = "success" then .str word
  else Json.ofOption .int (Numeral.readInt? raw)

/-- The options that the parameters ask for within a project. -/
def options (project : String) (params : Params) : Except Fault Options :=
  Options.create project
    ((params.first? "since").bind readBound?)
    ((params.first? "until").bind readBound?)
    (params.first? "type")
    (((params.first? "status").map readStatus).getD .null)
    (readClamped (params.first? "limit") defaultLimit 1 maxLimit)
    (readClamped (params.first? "offset") 0 0 maxOffset)

/-- The condition that a field contains a value. -/
def containsCondition (name value : String) : Condition :=
  ⟨name, Operator.like.symbol, .str ("%" ++ value ++ "%")⟩

/-- The conditions of the parameters without a meaning of their own; empty values ask nothing. -/
def filters (params : Params) : List Condition :=
  (params.filter (fun (name, _) => !reservedNames.contains name)).flatMap fun (name, values) =>
    (values.filter (· ≠ "")).map (containsCondition name)

/-- The fields to search, if the parameters name any. -/
def searchFields (params : Params) : Option (List String) :=
  (params.first? "fields").map fun raw =>
    ((Text.splitAt ',' raw.toList).map (fun piece => String.ofList (Text.strip piece))).filter
      (· ≠ "")

end Params

end Telemetry.Query
