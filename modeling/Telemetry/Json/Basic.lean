import Telemetry.Assoc
import Telemetry.Number.Double

/-!
# JSON values

Integers and doubles are kept apart, because they are written and compared differently: `1` and
`1.0` are two values. An object is a list of fields in the order in which they were written;
reading and the operations below keep its names distinct.
-/

namespace Telemetry

/-- A JSON value. -/
inductive Json
  | null
  | bool (value : Bool)
  | int (value : Int)
  | float (value : Double)
  | str (value : String)
  | arr (items : List Json)
  | obj (fields : List (String × Json))
deriving Inhabited

namespace Json

/-- The fields of an object in order. -/
abbrev Object := List (String × Json)

/-! ## Parts -/

/-- The value of a field; absent if the value is no object or has no such field. -/
def field? (name : String) : Json → Option Json
  | .obj fields => Assoc.find? name fields
  | _ => none

/-- The fields of an object. -/
def fields? : Json → Option Object
  | .obj fields => some fields
  | _ => none

/-- The text of a string. -/
def str? : Json → Option String
  | .str s => some s
  | _ => none

/-- Whether a value is the null value. -/
def isNull : Json → Bool
  | .null => true
  | _ => false

/-- Whether a value is an object or an array. -/
def isContainer : Json → Bool
  | .arr _ | .obj _ => true
  | _ => false

/-- Whether a value is this text. -/
def isText (s : String) : Json → Bool
  | .str t => t == s
  | _ => false

/-- Whether a value counts as something: not null, not false, not zero and not empty. -/
def isTruthy : Json → Bool
  | .null => false
  | .bool b => b
  | .int i => i != 0
  | .float x => !x.isZero
  | .str s => s != ""
  | .arr items => !items.isEmpty
  | .obj fields => !fields.isEmpty

/-- The value of a field of an object's fields, null if it is absent. -/
def get (name : String) (fields : Object) : Json :=
  (Assoc.find? name fields).getD .null

/-- The null value for nothing. -/
def ofOption {α : Type} (f : α → Json) : Option α → Json
  | some a => f a
  | none => .null

/-- The name of a value's kind. -/
def kindName : Json → String
  | .null => "NoneType"
  | .bool _ => "bool"
  | .int _ => "int"
  | .float _ => "float"
  | .str _ => "str"
  | .arr _ => "list"
  | .obj _ => "dict"

/-! ## Numbers inside values -/

mutual

/-- Whether every number inside a value is finite. -/
def allFinite : Json → Bool
  | .float x => x.isFinite
  | .arr items => allFiniteItems items
  | .obj fields => allFiniteFields fields
  | _ => true

/-- Whether every number inside some values is finite. -/
def allFiniteItems : List Json → Bool
  | [] => true
  | v :: rest => v.allFinite && allFiniteItems rest

/-- Whether every number inside some fields is finite. -/
def allFiniteFields : List (String × Json) → Bool
  | [] => true
  | (_, v) :: rest => v.allFinite && allFiniteFields rest

end

/-! ## Nesting -/

mutual

/-- How deeply a value is nested: as many levels as it has arrays and objects inside each other. -/
def nesting : Json → Nat
  | .arr items => nestingItems items + 1
  | .obj fields => nestingFields fields + 1
  | _ => 0

/-- How deeply the deepest of some values is nested. -/
def nestingItems : List Json → Nat
  | [] => 0
  | v :: rest => max v.nesting (nestingItems rest)

/-- How deeply the deepest of some fields is nested. -/
def nestingFields : List (String × Json) → Nat
  | [] => 0
  | (_, v) :: rest => max v.nesting (nestingFields rest)

end

end Json

end Telemetry
