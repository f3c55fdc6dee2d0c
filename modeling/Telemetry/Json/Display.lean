import Telemetry.Json.Parser
import Telemetry.Number.Shortest
import Telemetry.Text.Quoted

/-!
# Displaying values

The text of a value in messages, identifiers and event names: a string stands for itself, a
missing value is `None`, and inside arrays and objects strings are quoted.
-/

namespace Telemetry.Json

mutual

/-- The form of a value inside another one. -/
def inspect : Json → String
  | .null => "None"
  | .bool b => if b then "True" else "False"
  | .int i => Text.integer i
  | .float x => x.text
  | .str s => Text.quoted s
  | .arr items => "[" ++ inspectItems items ++ "]"
  | .obj fields => "\x7b" ++ inspectFields fields ++ "\x7d"

/-- The forms of some items. -/
def inspectItems : List Json → String
  | [] => ""
  | [v] => inspect v
  | v :: rest => inspect v ++ ", " ++ inspectItems rest

/-- The forms of some fields. -/
def inspectFields : List (String × Json) → String
  | [] => ""
  | [(name, v)] => Text.quoted name ++ ": " ++ inspect v
  | (name, v) :: rest => Text.quoted name ++ ": " ++ inspect v ++ ", " ++ inspectFields rest

end

/-- The text of a value on its own. -/
def display : Json → String
  | .str s => s
  | v => v.inspect

/-! ## Values without a text -/

/-- Why a value has no text: it is nested too deeply, or an integer in it has too many digits. The
limits are those of reading. -/
inductive DisplayFlaw
  | tooDeep
  | tooManyDigits
deriving DecidableEq, Repr

/-- The first reason that a value nested less than `depth` deep has no text, if there is one. -/
def displayFlaw? : (depth : Nat) → Json → Option DisplayFlaw
  | 0, _ => some .tooDeep
  | _ + 1, .int i => if i.natAbs < Nat.pow 10 maxIntegerDigits then none else some .tooManyDigits
  | depth + 1, .arr items => items.findSome? (displayFlaw? depth)
  | depth + 1, .obj fields => fields.findSome? fun f => displayFlaw? depth f.2
  | _ + 1, _ => none

end Telemetry.Json
