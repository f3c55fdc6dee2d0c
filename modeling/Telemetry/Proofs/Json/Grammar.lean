import Telemetry.Json.Parser
import Telemetry.Number.Numeral

/-!
# The texts of a JSON value on one line

What the standard lets a value be written as, where no line feed stands between its tokens. A string
may hold any character as it is but the quote, the backslash and those below U+0020; every character
has an escape by its sixteen-bit units, some have a short one. Numbers have no needless zeros in
front. The fields of an object have distinct names.

A number without fraction and exponent is an integer, any other is the double that the numeral reads
as.
-/

namespace Telemetry.Json

/-! ## Blanks -/

/-- Blanks that may stand between the tokens of one line. -/
def Gap (w : List Char) : Prop := ∀ c ∈ w, c = ' ' ∨ c = '\t' ∨ c = '\r'

/-! ## Strings -/

/-- The escapes of one letter. -/
inductive ShortEscape : Char → Char → Prop
  | quote : ShortEscape '"' '"'
  | backslash : ShortEscape '\\' '\\'
  | slash : ShortEscape '/' '/'
  | backspace : ShortEscape 'b' '\x08'
  | formFeed : ShortEscape 'f' '\x0c'
  | lineFeed : ShortEscape 'n' '\n'
  | carriageReturn : ShortEscape 'r' '\r'
  | tab : ShortEscape 't' '\t'

/-- Four hexadecimal digits for a sixteen-bit unit. -/
inductive HexDigits : List Char → Nat → Prop
  | digits {a b c d : Char} {i j k l : Nat} (ha : Text.hexValue? a = some i)
      (hb : Text.hexValue? b = some j) (hc : Text.hexValue? c = some k)
      (hd : Text.hexValue? d = some l) : HexDigits [a, b, c, d] (((i * 16 + j) * 16 + k) * 16 + l)

/-- What may stand between the quotes of a string. -/
inductive WrittenChars : List Char → List Char → Prop
  | nil : WrittenChars [] []
  | raw {c : Char} {s w : List Char} (hlow : 0x20 ≤ c.toNat) (hquote : c ≠ '"')
      (hbackslash : c ≠ '\\') (h : WrittenChars s w) : WrittenChars (c :: s) (c :: w)
  | short {e c : Char} {s w : List Char} (he : ShortEscape e c) (h : WrittenChars s w) :
      WrittenChars (c :: s) ('\\' :: e :: w)
  | unit {c : Char} {n : Nat} {digits s w : List Char} (hc : Text.charUnits16 c = [n])
      (hn : HexDigits digits n) (h : WrittenChars s w) :
      WrittenChars (c :: s) ('\\' :: 'u' :: (digits ++ w))
  | pair {c : Char} {high low : Nat} {first second s w : List Char}
      (hc : Text.charUnits16 c = [high, low]) (hhigh : HexDigits first high)
      (hlow : HexDigits second low) (h : WrittenChars s w) :
      WrittenChars (c :: s) ('\\' :: 'u' :: (first ++ '\\' :: 'u' :: (second ++ w)))

/-! ## Numbers -/

/-- Decimal digits, at least one. -/
structure IsDigits (w : List Char) : Prop where
  nonempty : w ≠ []
  digits : ∀ c ∈ w, Text.isDigit c = true

/-- Decimal digits of which the first is no zero, or a zero alone. -/
structure IsWhole (w : List Char) : Prop extends IsDigits w where
  zero : ∀ rest, w = '0' :: rest → rest = []

/-- The sign of an exponent. -/
inductive Sign
  | absent
  | plus
  | minus
deriving DecidableEq

/-- The text of a sign. -/
def Sign.text : Sign → List Char
  | .absent => []
  | .plus => ['+']
  | .minus => ['-']

/-- The exponent of a number. -/
structure Exponent where
  mark : Char
  sign : Sign
  digits : List Char
  isMark : mark = 'e' ∨ mark = 'E'
  isDigits : IsDigits digits

/-- The text of an exponent. -/
def Exponent.text (x : Exponent) : List Char := x.mark :: (x.sign.text ++ x.digits)

/-- The power of ten of an exponent. -/
def Exponent.power (x : Exponent) : Int :=
  if x.sign = .minus then -(Text.decimalValue x.digits : Int) else Text.decimalValue x.digits

/-- The text of a fraction with its point. -/
def fractionText : Option (List Char) → List Char
  | none => []
  | some digits => '.' :: digits

/-- The text of an exponent, if there is one. -/
def exponentText : Option Exponent → List Char
  | none => []
  | some x => x.text

/-- A number in its parts. -/
structure Number where
  negative : Bool
  whole : List Char
  fraction : Option (List Char)
  exponent : Option Exponent
  isWhole : IsWhole whole
  isFraction : ∀ digits, fraction = some digits → IsDigits digits

namespace Number

/-- The text of a number behind its sign. -/
def body (n : Number) : List Char := n.whole ++ (fractionText n.fraction ++ exponentText n.exponent)

/-- The text of a number. -/
def text (n : Number) : List Char := if n.negative then '-' :: n.body else n.body

/-- Without fraction and exponent. -/
def IsInteger (n : Number) : Prop := n.fraction = none ∧ n.exponent = none

/-- The integer that the digits before the point write. -/
def integer (n : Number) : Int :=
  if n.negative then -(Text.decimalValue n.whole : Int) else Text.decimalValue n.whole

end Number

/-! ## Values -/

mutual

/-- The texts of a value. -/
inductive Written : Json → List Char → Prop
  | null : Written .null "null".toList
  | yes : Written (.bool true) "true".toList
  | no : Written (.bool false) "false".toList
  | integer (n : Number) (h : n.IsInteger) : Written (.int n.integer) n.text
  | decimal (n : Number) {x : Double} (h : ¬ n.IsInteger)
      (hx : Numeral.readDouble? (String.ofList n.text) = some x) : Written (.float x) n.text
  | string {s w : List Char} (h : WrittenChars s w) :
      Written (.str (String.ofList s)) ('"' :: (w ++ ['"']))
  | emptyArray {gap : List Char} (hgap : Gap gap) : Written (.arr []) ('[' :: (gap ++ [']']))
  | array {vs : List Json} {w : List Char} (h : WrittenItems vs w) :
      Written (.arr vs) ('[' :: (w ++ [']']))
  | emptyObject {gap : List Char} (hgap : Gap gap) : Written (.obj []) ('{' :: (gap ++ ['}']))
  | object {fs : Object} {w : List Char} (hnames : (fs.map Prod.fst).Nodup)
      (h : WrittenFields fs w) : Written (.obj fs) ('{' :: (w ++ ['}']))

/-- The texts of an array's items, at least one, with commas between them. -/
inductive WrittenItems : List Json → List Char → Prop
  | last {v : Json} {before w after : List Char} (hbefore : Gap before) (hv : Written v w)
      (hafter : Gap after) : WrittenItems [v] (before ++ (w ++ after))
  | more {v : Json} {vs : List Json} {before w after u : List Char} (hbefore : Gap before)
      (hv : Written v w) (hafter : Gap after) (h : WrittenItems vs u) :
      WrittenItems (v :: vs) (before ++ (w ++ (after ++ ',' :: u)))

/-- The texts of one field. -/
inductive WrittenField : String × Json → List Char → Prop
  | field {name key : List Char} {v : Json} {before afterName beforeValue w after : List Char}
      (hbefore : Gap before) (hname : WrittenChars name key) (hafterName : Gap afterName)
      (hbeforeValue : Gap beforeValue) (hv : Written v w) (hafter : Gap after) :
      WrittenField (String.ofList name, v)
        (before ++ '"' :: (key ++ '"' :: (afterName ++ ':' :: (beforeValue ++ (w ++ after)))))

/-- The texts of an object's fields, at least one, with commas between them. -/
inductive WrittenFields : Object → List Char → Prop
  | last {f : String × Json} {w : List Char} (hf : WrittenField f w) : WrittenFields [f] w
  | more {f : String × Json} {fs : Object} {w u : List Char} (hf : WrittenField f w)
      (h : WrittenFields fs u) : WrittenFields (f :: fs) (w ++ ',' :: u)

end

/-! ## Limits -/

/-- A value nests arrays and objects less than `depth` deep, and its integers are not too long. -/
def Fits : (depth : Nat) → Json → Prop
  | 0, _ => False
  | _ + 1, .int i => i.natAbs < Nat.pow 10 maxIntegerDigits
  | depth + 1, .arr vs => ∀ v ∈ vs, Fits depth v
  | depth + 1, .obj fs => ∀ f ∈ fs, Fits depth f.2
  | _ + 1, _ => True

end Telemetry.Json
