/-!
# Blanks and lines

Which characters are white space and which end a line, with the operations that depend on them:
cutting the white space off both ends of a text, and splitting a text into lines.

White space is the Unicode property `White_Space`. Blanks are white space together with the four
separators U+001C to U+001F. Line boundaries are a smaller class: U+001F and the ordinary spaces are
blanks, but end no line.
-/

namespace Telemetry.Text

/-! ## White space -/

/-- White space: the Unicode property `White_Space`. -/
def isWhite (c : Char) : Bool :=
  let n := c.toNat
  (0x09 ≤ n && n ≤ 0x0D) || n == 0x20 || n == 0x85 || n == 0xA0 || n == 0x1680 ||
    (0x2000 ≤ n && n ≤ 0x200A) || n == 0x2028 || n == 0x2029 || n == 0x202F || n == 0x205F ||
    n == 0x3000

/-- White space, or one of the separators U+001C to U+001F. -/
def isBlank (c : Char) : Bool :=
  isWhite c || (0x1C ≤ c.toNat && c.toNat ≤ 0x1F)

/-- Drops the characters of a class at both ends of a text. -/
def dropEnds (p : Char → Bool) (cs : List Char) : List Char :=
  ((cs.dropWhile p).reverse.dropWhile p).reverse

/-- Drops the blanks at both ends of a text. -/
def strip (cs : List Char) : List Char := dropEnds isBlank cs

/-- Drops the white space at both ends of a text; separators stay. -/
def trim (cs : List Char) : List Char := dropEnds isWhite cs

/-- The text without the blanks at its ends. -/
def stripped (s : String) : String :=
  String.ofList (strip s.toList)

/-! ## Lines -/

/-- Characters that end a line. A carriage return followed by a line feed ends one line only. -/
def isLineBreak (c : Char) : Bool :=
  let n := c.toNat
  (0x0A ≤ n && n ≤ 0x0D) || (0x1C ≤ n && n ≤ 0x1E) || n == 0x85 || n == 0x2028 || n == 0x2029

/-- The lines of a text without their boundaries. A boundary at the end opens no further line. -/
def splitLines : List Char → List (List Char)
  | [] => []
  | '\r' :: '\n' :: rest => [] :: splitLines rest
  | c :: rest =>
    if isLineBreak c then [] :: splitLines rest
    else match splitLines rest with
      | [] => [[c]]
      | line :: more => (c :: line) :: more

end Telemetry.Text
