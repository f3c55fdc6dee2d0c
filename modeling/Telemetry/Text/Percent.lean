import Telemetry.Assoc
import Telemetry.Text.Ascii
import Telemetry.Text.Search
import Telemetry.Text.Utf8

/-!
# Percent encoding and query strings

A byte that may not stand for itself in a URL is written as `%` and two hexadecimal digits.
Reading is lenient: a `%` that no two hexadecimal digits follow stands for itself, and bytes
that are no UTF-8 show as U+FFFD.

A query string is a list of `name=value` pieces between ampersands, in which a plus sign is a
space.
-/

namespace Telemetry.Text

/-! ## Percent encoding -/

/-- Characters that a path segment may hold as they are. -/
def isUnreserved (c : Char) : Bool :=
  isLetter c || isDigit c || c == '_' || c == '.' || c == '-' || c == '~'

/-- The two upper case hexadecimal digits of a byte after a percent sign. -/
def percentByte (b : UInt8) : List Char :=
  '%' :: (hexDigits 2 b.toNat).map Char.toUpper

/-- A text with every byte percent-encoded that is not unreserved. -/
def percentEncode (s : String) : String :=
  String.ofList (s.toList.flatMap fun c =>
    if isUnreserved c then [c] else (utf8Bytes c).flatMap percentByte)

/-- The leading percent-encoded bytes of a text and what follows them. -/
def takePercentBytes : List Char → List UInt8 × List Char
  | '%' :: a :: b :: rest =>
    match hexValue? a, hexValue? b with
    | some high, some low =>
      let (bytes, after) := takePercentBytes rest
      (UInt8.ofNat (high * 16 + low) :: bytes, after)
    | _, _ => ([], '%' :: a :: b :: rest)
  | cs => ([], cs)

/-- Percent-encoded bytes are taken from the front. -/
theorem takePercentBytes_length (cs : List Char) :
    (takePercentBytes cs).2.length + (takePercentBytes cs).1.length ≤ cs.length := by
  fun_induction takePercentBytes cs with
  | case1 a b rest high hhigh low hlow bytes after heq ih =>
    simp only [heq] at ih
    simp only [List.length_cons]
    omega
  | case2 => simp
  | case3 => simp

/-- A text with its percent-encoded bytes read as UTF-8, run by run. -/
def percentDecodeChars (cs : List Char) : List Char :=
  match _h : takePercentBytes cs with
  | ([], []) => []
  | ([], c :: rest) => c :: percentDecodeChars rest
  | (b :: bytes, rest) => decodeUtf8Lenient (b :: bytes) ++ percentDecodeChars rest
termination_by cs.length
decreasing_by
  · have := takePercentBytes_length cs
    simp only [_h, List.length_cons, List.length_nil] at this
    omega
  · have := takePercentBytes_length cs
    simp only [_h, List.length_cons] at this
    omega

/-- A text with its percent-encoded bytes read as UTF-8. -/
def percentDecode (s : String) : String :=
  String.ofList (percentDecodeChars s.toList)

/-! ## Query strings -/

/-- A name or value of a query string as the text it stands for. -/
def readFormText (cs : List Char) : String :=
  String.ofList (percentDecodeChars (cs.map fun c => if c = '+' then ' ' else c))

/-- The names and values of a query string in order. Empty pieces are skipped; a piece without
an equals sign is a name with an empty value. -/
def readQueryString (s : String) : List (String × String) :=
  ((splitAt '&' s.toList).filter (!·.isEmpty)).map fun piece =>
    let (name, value) := cutAt '=' piece
    (readFormText name, readFormText value)

/-- The values of each name, names in order of first appearance. -/
def groupByName (pairs : List (String × String)) : List (String × List String) :=
  pairs.foldl (fun groups (name, value) =>
    Assoc.put name ((Assoc.find? name groups).getD [] ++ [value]) groups) []

end Telemetry.Text
