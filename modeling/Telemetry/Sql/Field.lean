import Telemetry.Error
import Telemetry.Text.Search

/-!
# Columns

Which names address something in the table of events. A name is made of segments of letters,
digits and underscores with dots between them. A name that begins with an underscore is a column
of its own; any other one is a path into the column that holds the caller's payload.
-/

namespace Telemetry.Sql

/-- A character of a field's name. -/
def isFieldChar (c : Char) : Bool :=
  Text.isLetter c || Text.isDigit c || c == '_' || c == '.'

/-- The segments of a field's name. -/
def fieldSegments (name : String) : List (List Char) :=
  Text.splitAt '.' name.toList

/-- Whether a name can be placed into a query. -/
def isFieldName (name : String) : Bool :=
  name.toList.all isFieldChar && (fieldSegments name).all (!·.isEmpty)

/-- A segment as an identifier; one that begins with a digit needs quotes. -/
def segmentIdentifier (segment : List Char) : String :=
  match segment with
  | c :: _ =>
    if Text.isDigit c then "\x60" ++ String.ofList segment ++ "\x60" else String.ofList segment
  | [] => ""

/-- The column of the caller's payload. -/
def payloadColumn : String := "event"

/-- The expression that reads a field. -/
def column (name : String) : Except QueryFlaw String :=
  if isFieldName name then
    if name.toList.head? = some '_' then .ok name
    else
      .ok (payloadColumn ++ "." ++ Text.joinWith "." ((fieldSegments name).map segmentIdentifier))
  else .error (.fieldName (.str name))

/-- The expression that reads the field which a value names. -/
def columnOf : Json → Except QueryFlaw String
  | .str name => column name
  | v => .error (.fieldName v)

end Telemetry.Sql
