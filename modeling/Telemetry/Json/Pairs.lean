import Telemetry.Json.Display
import Telemetry.Json.Printer

/-!
# Objects made of pairs

Where an object is wanted, pairs of a key and a value do as well: in an array of arrays with two
items, or in any other value whose elements have two elements each. The elements of an object are
its names, and those of a text its characters.

Keys are scalars. Numbers that are equal are one key, and truth values count as one and zero; a
later pair with the same key changes the value and leaves the key. As names of an object the keys
stand as JSON writes them.
-/

namespace Telemetry.Json

/-! ## Elements -/

/-- The elements of a value, none for null, truth values and numbers. -/
def elements? : Json → Option (List Json)
  | .arr items => some items
  | .obj fields => some (fields.map fun (name, _) => .str name)
  | .str s => some (s.toList.map fun c => .str (String.singleton c))
  | _ => none

/-! ## Flaws -/

/-- Why a value makes no object. -/
inductive PairsFlaw
  /-- The value has no elements. -/
  | noElements (value : Json)
  /-- The element at an index has no elements itself. -/
  | noPair (index : Nat)
  /-- The element at an index has another number of elements than two. -/
  | pairLength (index length : Nat)
  /-- A key is an array or an object. -/
  | badKey (key : Json)

/-- The wording of a value's flaw. -/
def PairsFlaw.message : PairsFlaw → String
  | .noElements v => "'" ++ v.kindName ++ "' object is not iterable"
  | .noPair index => "cannot convert dictionary update sequence element #" ++ Text.integer index ++
      " to a sequence"
  | .pairLength index length => "dictionary update sequence element #" ++ Text.integer index ++
      " has length " ++ Text.integer length ++ "; 2 is required"
  | .badKey key => "unhashable type: '" ++ key.kindName ++ "'"

/-! ## Keys -/

/-- The integer that a truth value or an integer is as a key. -/
def wholeKey? : Json → Option Int
  | .bool b => some (if b then 1 else 0)
  | .int i => some i
  | _ => none

/-- Whether two scalars are the same key. -/
def sameKey : Json → Json → Bool
  | .null, .null => true
  | .str s, .str t => s == t
  | .float x, .float y => x.compare? y == some .eq || (x.isNan && y.isNan)
  | .float x, v | v, .float x => (v.wholeKey?.map x.compareInt?) == some (some .eq)
  | v, w => v.wholeKey?.isSome && v.wholeKey? == w.wholeKey?

/-- The name that a scalar becomes as a key. -/
def keyName : Json → String
  | .str s => s
  | v => v.render .compactRaw

/-- Writes a value at a key. -/
def putPair (key value : Json) : List (Json × Json) → List (Json × Json)
  | [] => [(key, value)]
  | (k, v) :: rest => if sameKey k key then (k, value) :: rest else (k, v) :: putPair key value rest

/-! ## Pairs -/

/-- The pair that the element at an index is. -/
def pairOf (index : Nat) (element : Json) : Except PairsFlaw (Json × Json) :=
  match element.elements? with
  | none => .error (.noPair index)
  | some [key, value] => if key.isContainer then .error (.badKey key) else .ok (key, value)
  | some others => .error (.pairLength index others.length)

/-- Writes the pairs that some elements are, the first of them at an index, in order. -/
def addPairs (index : Nat) (table : List (Json × Json)) :
    List Json → Except PairsFlaw (List (Json × Json))
  | [] => .ok table
  | element :: rest => do
    let (key, value) ← pairOf index element
    addPairs (index + 1) (putPair key value table) rest

/-- The keys and values of a value: the fields of an object, or the pairs that the elements of
another value are. -/
def pairs (v : Json) : Except PairsFlaw (List (Json × Json)) :=
  match v with
  | .obj fields => .ok (fields.map fun (name, value) => (.str name, value))
  | v => match v.elements? with
    | some elements => addPairs 0 [] elements
    | none => .error (.noElements v)

/-- The object with some keys and values. -/
def ofPairs (table : List (Json × Json)) : Object :=
  table.map fun (key, value) => (key.keyName, value)

/-- The object that a value is or that its pairs make. -/
def toObject (v : Json) : Except PairsFlaw Object :=
  v.pairs.map ofPairs

end Telemetry.Json
