import Telemetry.Json.Basic
import Telemetry.Number.Shortest
import Telemetry.Text.Utf16

/-!
# Writing JSON

A value has one text per style: what stands between items and between a name and its value, and
whether characters outside printable ASCII are escaped. Escapes are by sixteen-bit unit, so a
character above U+FFFF takes two. Doubles are written by their shortest decimal; the special
values are written `NaN`, `Infinity` and `-Infinity`.
-/

namespace Telemetry.Json

/-- How a value is laid out and which characters are escaped. -/
structure Style where
  betweenItems : List Char
  afterName : List Char
  asciiOnly : Bool
deriving DecidableEq, Repr

/-- No blanks, everything outside printable ASCII escaped. -/
def Style.compactAscii : Style := ⟨[','], [':'], true⟩

/-- No blanks, characters as they are. -/
def Style.compactRaw : Style := ⟨[','], [':'], false⟩

/-- A blank after commas and colons, everything outside printable ASCII escaped. -/
def Style.spacedAscii : Style := ⟨[',', ' '], [':', ' '], true⟩

/-! ## Texts and numbers -/

/-- The escape of a sixteen-bit unit. -/
def escapeUnit (n : Nat) : List Char := '\\' :: 'u' :: Text.hexDigits 4 n

/-- The escape that a character has in every style, if any. -/
def shortEscape? (c : Char) : Option (List Char) :=
  if c = '"' then some ['\\', '"']
  else if c = '\\' then some ['\\', '\\']
  else if c = '\n' then some ['\\', 'n']
  else if c = '\r' then some ['\\', 'r']
  else if c = '\t' then some ['\\', 't']
  else if c = '\x0c' then some ['\\', 'f']
  else if c = '\x08' then some ['\\', 'b']
  else none

/-- One character inside a string. -/
def writeChar (asciiOnly : Bool) (c : Char) : List Char :=
  match shortEscape? c with
  | some escape => escape
  | none =>
    if c.toNat < 0x20 || (asciiOnly && 0x7E < c.toNat) then (Text.charUnits16 c).flatMap escapeUnit
    else [c]

/-- A string with its quotes. -/
def writeString (asciiOnly : Bool) (s : String) : List Char :=
  '"' :: s.toList.flatMap (writeChar asciiOnly) ++ ['"']

/-- The text of a double as a JSON number, or the name of a special value. -/
def doubleText : Double → String
  | .nan => "NaN"
  | .infinite negative => if negative then "-Infinity" else "Infinity"
  | x => x.text

/-! ## Values -/

mutual

/-- The text of a value. -/
def write (style : Style) : Json → List Char
  | .null => "null".toList
  | .bool b => (if b then "true" else "false").toList
  | .int i => (Text.integer i).toList
  | .float x => (doubleText x).toList
  | .str s => writeString style.asciiOnly s
  | .arr items => '[' :: writeItems style items ++ [']']
  | .obj fields => '{' :: writeFields style fields ++ ['}']

/-- The texts of an array's items with separators between them. -/
def writeItems (style : Style) : List Json → List Char
  | [] => []
  | [v] => write style v
  | v :: rest => write style v ++ style.betweenItems ++ writeItems style rest

/-- The texts of an object's fields with separators between them. -/
def writeFields (style : Style) : List (String × Json) → List Char
  | [] => []
  | [(name, v)] => writeString style.asciiOnly name ++ style.afterName ++ write style v
  | (name, v) :: rest =>
    writeString style.asciiOnly name ++ style.afterName ++ write style v ++ style.betweenItems ++
      writeFields style rest

end

/-- The text of a value in a style. -/
def render (style : Style) (v : Json) : String :=
  String.ofList (v.write style)

end Telemetry.Json
