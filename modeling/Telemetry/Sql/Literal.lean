import Telemetry.Error
import Telemetry.Time.DateTime

/-!
# Literals of queries

The only way in which a value becomes part of a query. A string literal stands between single
quotes, and a backslash takes the character behind it literally; so a quote or backslash of the
value gets a backslash in front, and no value can end its own literal.
-/

namespace Telemetry.Sql

/-- The characters of a string inside its literal: backslashes and quotes get a backslash. -/
def escapeChars : List Char → List Char
  | [] => []
  | c :: rest => if c = '\\' ∨ c = '\'' then '\\' :: c :: escapeChars rest else c :: escapeChars rest

/-- The literal of a text. -/
def textLiteral (s : String) : String :=
  "'" ++ String.ofList (escapeChars s.toList) ++ "'"

/-- The literal of a scalar value. Null, arrays, objects and numbers that are not finite have
none. -/
def literal : Json → Except QueryFlaw String
  | .bool b => .ok (if b then "true" else "false")
  | .int i => .ok (Text.integer i)
  | .float x => if x.isFinite then .ok x.text else .error (.notFinite x)
  | .str s => .ok (textLiteral s)
  | v => .error (.unsupportedType v)

/-- A text as a pattern that matches just itself: the characters with a meaning in patterns get a
backslash. -/
def escapePattern : List Char → List Char
  | [] => []
  | c :: rest =>
    if c = '\\' ∨ c = '%' ∨ c = '_' then '\\' :: c :: escapePattern rest
    else c :: escapePattern rest

/-- The literal of a pattern that matches the texts in which a term occurs. -/
def containsLiteral (term : String) : String :=
  textLiteral ("%" ++ String.ofList (escapePattern term.toList) ++ "%")

/-- The literal of an instant in UTC, cut to milliseconds; a naive time is taken as UTC. -/
def timeLiteral (t : Time.DateTime) : Except Fault String :=
  match t.toUtc? with
  | some utc => .ok ("toDateTime64(" ++ textLiteral utc.columnText ++ ", 3, 'UTC')")
  | none => .error .outOfRange

end Telemetry.Sql
