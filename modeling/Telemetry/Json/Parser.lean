import Telemetry.Json.Basic
import Telemetry.Text.Ascii
import Telemetry.Text.Utf16

/-!
# Reading JSON

Beyond the standard the reader takes the words `NaN`, `Infinity` and `-Infinity`. Numbers without
fraction and exponent are integers of any size up to 4300 digits, all others are doubles, and a
number too large for a double is infinite. A repeated field name keeps its first place and its
last value. Arrays and objects may be nested up to a limit.

The functions below take the rest of the text and answer a value with what follows it. A failure
is located by how much of the text was left, which `parse` turns into a position.
-/

namespace Telemetry.Json

/-! ## Failures -/

/-- What is wrong with a text that is no JSON. -/
inductive Flaw
  | noValue
  | extraData
  | noName
  | noColon
  | noComma
  | openString
  | controlCharacter
  | unknownEscape
  | unicodeEscape
  | byteOrderMark
deriving DecidableEq, Repr

/-- The wording of a flaw. -/
def Flaw.message : Flaw → String
  | .noValue => "Expecting value"
  | .extraData => "Extra data"
  | .noName => "Expecting property name enclosed in double quotes"
  | .noColon => "Expecting ':' delimiter"
  | .noComma => "Expecting ',' delimiter"
  | .openString => "Unterminated string starting at"
  | .controlCharacter => "Invalid control character at"
  | .unknownEscape => "Invalid \\escape"
  | .unicodeEscape => "Invalid \\uXXXX escape"
  | .byteOrderMark => "Unexpected UTF-8 BOM (decode using utf-8-sig)"

/-- Why reading stopped; a flaw is found where `left` characters are left. -/
inductive Failure
  | flaw (flaw : Flaw) (left : Nat)
  | tooDeep
  | tooManyDigits (count : Nat)
deriving DecidableEq, Repr

/-- A flaw and its place: characters from the start, and the line and column, both from one. -/
structure SyntaxError where
  flaw : Flaw
  line : Nat
  column : Nat
  offset : Nat
deriving DecidableEq, Repr

/-- The wording of a syntax error. -/
def SyntaxError.message (e : SyntaxError) : String :=
  e.flaw.message ++ ": line " ++ Text.integer e.line ++ " column " ++ Text.integer e.column ++
    " (char " ++ Text.integer e.offset ++ ")"

/-- Why a text could not be read. -/
inductive ReadError
  | malformed (error : SyntaxError)
  | tooDeep
  | tooManyDigits (count : Nat)
deriving DecidableEq, Repr

/-- The wording of a read error. -/
def ReadError.message : ReadError → String
  | .malformed error => error.message
  | .tooDeep => "maximum recursion depth exceeded"
  | .tooManyDigits count =>
    "Exceeds the limit (4300 digits) for integer string conversion: value has " ++
      Text.integer count ++ " digits; use sys.set_int_max_str_digits() to increase the limit"

/-- A value and what follows it. -/
abbrev Reading (α : Type) := Except Failure (α × List Char)

/-! ## Blanks and words -/

/-- The blanks that may stand between tokens. -/
def isSpace (c : Char) : Bool :=
  c == ' ' || c == '\t' || c == '\n' || c == '\r'

/-- The text without leading blanks. -/
def skipSpace (cs : List Char) : List Char := cs.dropWhile isSpace

/-- What follows a word at the start of a text. -/
def afterWord? : (word : List Char) → List Char → Option (List Char)
  | [], cs => some cs
  | _ :: _, [] => none
  | w :: word, c :: cs => if w = c then afterWord? word cs else none

/-! ## Strings -/

/-- The number that four hexadecimal digits write. -/
def hexUnit? (a b c d : Char) : Option Nat := do
  let a ← Text.hexValue? a
  let b ← Text.hexValue? b
  let c ← Text.hexValue? c
  let d ← Text.hexValue? d
  pure (((a * 16 + b) * 16 + c) * 16 + d)

/-- The character of a one-letter escape. -/
def escaped? (c : Char) : Option Char :=
  if c = '"' ∨ c = '\\' ∨ c = '/' then some c
  else if c = 'b' then some '\x08'
  else if c = 'f' then some '\x0c'
  else if c = 'n' then some '\n'
  else if c = 'r' then some '\r'
  else if c = 't' then some '\t'
  else none

/-- Puts a unit in front of those that were read. -/
def consUnit (n : Nat) : Reading (List Nat) → Reading (List Nat)
  | .ok (units, rest) => .ok (n :: units, rest)
  | .error e => .error e

/-- Reads a string after its opening quote, where `opening` characters were left. The answer has
a unit for each escape of four digits and a code point for every other character, so that a
surrogate pair is still two units. -/
def stringUnits (opening : Nat) : List Char → Reading (List Nat)
  | [] => .error (.flaw .openString opening)
  | '"' :: rest => .ok ([], rest)
  | '\\' :: [] => .error (.flaw .openString opening)
  | '\\' :: 'u' :: a :: b :: c :: d :: e :: rest =>
    match hexUnit? a b c d with
    | none => .error (.flaw .unicodeEscape (rest.length + 6))
    | some n => consUnit n (stringUnits opening (e :: rest))
  | '\\' :: 'u' :: rest => .error (.flaw .unicodeEscape (rest.length + 1))
  | '\\' :: c :: rest =>
    match escaped? c with
    | some e => consUnit e.toNat (stringUnits opening rest)
    | none => .error (.flaw .unknownEscape (rest.length + 2))
  | c :: rest =>
    if c.toNat < 0x20 then .error (.flaw .controlCharacter (rest.length + 1))
    else consUnit c.toNat (stringUnits opening rest)

/-- Reads a string after its opening quote. Surrogates in escapes are joined to characters. -/
def string (opening : Nat) (cs : List Char) : Reading String :=
  match stringUnits opening cs with
  | .ok (units, rest) => .ok (String.ofList (Text.charsOfUnits16 units), rest)
  | .error e => .error e

/-! ## Numbers -/

/-- The most digits that an integer may have. -/
def maxIntegerDigits : Nat := 4300

/-- The digits of a number before its point, and what follows: a zero alone, or digits of which
the first is not zero. -/
def wholePart? : List Char → Option (List Char × List Char)
  | '0' :: rest => some (['0'], rest)
  | c :: rest =>
    if Text.isDigit c then some ((c :: rest).takeWhile Text.isDigit, rest.dropWhile Text.isDigit)
    else none
  | [] => none

/-- The digits behind a point, and what follows; none if no digit follows a point. -/
def fractionPart? : List Char → Option (List Char × List Char)
  | '.' :: c :: rest =>
    if Text.isDigit c then some ((c :: rest).takeWhile Text.isDigit, rest.dropWhile Text.isDigit)
    else none
  | _ => none

/-- The digits of an exponent with their sign, and what follows. -/
def exponentDigits? (negative : Bool) : List Char → Option (Int × List Char)
  | c :: rest =>
    if Text.isDigit c then
      let n := Text.decimalValue ((c :: rest).takeWhile Text.isDigit)
      some (if negative then -(n : Int) else n, rest.dropWhile Text.isDigit)
    else none
  | [] => none

/-- The exponent behind a number's digits, and what follows. -/
def exponentPart? : List Char → Option (Int × List Char)
  | e :: rest =>
    if e = 'e' ∨ e = 'E' then
      match rest with
      | '-' :: more => exponentDigits? true more
      | '+' :: more => exponentDigits? false more
      | more => exponentDigits? false more
    else none
  | [] => none

/-- Reads a number behind its sign, where `left` characters were left with the sign. -/
def magnitude (negative : Bool) (left : Nat) (cs : List Char) : Reading Json :=
  match wholePart? cs with
  | none => .error (.flaw .noValue left)
  | some (whole, afterWhole) =>
    let fraction := fractionPart? afterWhole
    let (fractionDigits, afterFraction) := fraction.getD ([], afterWhole)
    let exponent := exponentPart? afterFraction
    let (power, rest) := exponent.getD (0, afterFraction)
    if fraction.isNone && exponent.isNone then
      if whole.length > maxIntegerDigits then .error (.tooManyDigits whole.length)
      else
        let n := Text.decimalValue whole
        .ok (.int (if negative then -(n : Int) else n), rest)
    else
      let digits := Text.decimalValue (whole ++ fractionDigits)
      .ok (.float (.ofDecimal negative digits (power - fractionDigits.length)), rest)

/-- Reads a number. -/
def number (cs : List Char) : Reading Json :=
  match cs with
  | '-' :: rest => magnitude true cs.length rest
  | _ => magnitude false cs.length cs

/-! ## Values -/

/-- Reads a value that is no string, array or object. -/
def scalar (cs : List Char) : Reading Json :=
  match afterWord? "null".toList cs with
  | some rest => .ok (.null, rest)
  | none =>
  match afterWord? "true".toList cs with
  | some rest => .ok (.bool true, rest)
  | none =>
  match afterWord? "false".toList cs with
  | some rest => .ok (.bool false, rest)
  | none =>
  match afterWord? "NaN".toList cs with
  | some rest => .ok (.float .nan, rest)
  | none =>
  match afterWord? "Infinity".toList cs with
  | some rest => .ok (.float (.infinite false), rest)
  | none =>
  match afterWord? "-Infinity".toList cs with
  | some rest => .ok (.float (.infinite true), rest)
  | none => number cs

/-- Reads the items of an array up to its closing bracket, at most `fuel` of them. -/
def items (value : List Char → Reading Json) : (fuel : Nat) → List Char → Reading (List Json)
  | 0, cs => .error (.flaw .noValue cs.length)
  | fuel + 1, cs =>
    match value cs with
    | .error e => .error e
    | .ok (v, afterValue) =>
      match skipSpace afterValue with
      | ']' :: rest => .ok ([v], rest)
      | ',' :: rest =>
        match items value fuel (skipSpace rest) with
        | .error e => .error e
        | .ok (more, rest) => .ok (v :: more, rest)
      | other => .error (.flaw .noComma other.length)

/-- Reads the name of a field with the colon behind it, up to the field's value. -/
def fieldName (cs : List Char) : Reading String :=
  match cs with
  | '"' :: afterQuote =>
    match string cs.length afterQuote with
    | .error e => .error e
    | .ok (name, afterName) =>
      match skipSpace afterName with
      | ':' :: afterColon => .ok (name, skipSpace afterColon)
      | other => .error (.flaw .noColon other.length)
  | other => .error (.flaw .noName other.length)

/-- Reads the fields of an object up to its closing brace, at most `fuel` of them. -/
def members (value : List Char → Reading Json) :
    (fuel : Nat) → List Char → Reading (List (String × Json))
  | 0, cs => .error (.flaw .noName cs.length)
  | fuel + 1, cs =>
    match fieldName cs with
    | .error e => .error e
    | .ok (name, afterColon) =>
      match value afterColon with
      | .error e => .error e
      | .ok (v, afterValue) =>
        match skipSpace afterValue with
        | '}' :: rest => .ok ([(name, v)], rest)
        | ',' :: rest =>
          match members value fuel (skipSpace rest) with
          | .error e => .error e
          | .ok (more, rest) => .ok ((name, v) :: more, rest)
        | other => .error (.flaw .noComma other.length)

/-- Reads a value in which arrays and objects are nested less than `depth` deep. -/
def value : (depth : Nat) → List Char → Reading Json
  | 0, _ => .error .tooDeep
  | depth + 1, cs =>
    match cs with
    | '"' :: rest =>
      match string cs.length rest with
      | .error e => .error e
      | .ok (s, rest) => .ok (.str s, rest)
    | '[' :: rest =>
      match skipSpace rest with
      | ']' :: more => .ok (.arr [], more)
      | other =>
        match items (value depth) (other.length + 1) other with
        | .error e => .error e
        | .ok (vs, rest) => .ok (.arr vs, rest)
    | '{' :: rest =>
      match skipSpace rest with
      | '}' :: more => .ok (.obj [], more)
      | other =>
        match members (value depth) (other.length + 1) other with
        | .error e => .error e
        | .ok (fields, rest) => .ok (.obj (Assoc.ofList fields), rest)
    | other => scalar other

/-! ## Texts -/

/-- How deep values may be nested. -/
def maxDepth : Nat := 1000

/-- The place in a text where `left` characters are left. -/
def locate (cs : List Char) (flaw : Flaw) (left : Nat) : SyntaxError :=
  let before := cs.take (cs.length - left)
  ⟨flaw, before.count '\n' + 1, (before.reverse.takeWhile (· != '\n')).length + 1, before.length⟩

/-- A failure with its place in the text. -/
def Failure.toReadError (cs : List Char) : Failure → ReadError
  | .flaw found left => .malformed (locate cs found left)
  | .tooDeep => .tooDeep
  | .tooManyDigits count => .tooManyDigits count

/-- Reads a whole text as one value. -/
def parseChars (cs : List Char) : Except ReadError Json :=
  match value maxDepth (skipSpace cs) with
  | .error e => .error (e.toReadError cs)
  | .ok (v, rest) =>
    match skipSpace rest with
    | [] => .ok v
    | other => .error (.malformed (locate cs .extraData other.length))

/-- Reads a text as one value. A byte order mark in front is refused. -/
def parse (s : String) : Except ReadError Json :=
  match s.toList with
  | '\uFEFF' :: rest => .error (.malformed (locate ('\uFEFF' :: rest) .byteOrderMark (rest.length + 1)))
  | cs => parseChars cs

end Telemetry.Json
