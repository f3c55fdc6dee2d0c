/-!
# UTF-8

Encoding of texts as bytes, and two ways back: a strict reader, which refuses malformed bytes,
and a lenient one, which shows each malformed piece as U+FFFD. A malformed piece is as long as
the bytes could still have been the start of a character, and at least one byte.

A surrogate is no character, so its three bytes are malformed; a reader may also be told to pass
surrogates, each of which then shows as U+FFFD.
-/

namespace Telemetry.Text

/-- The character shown where bytes or escapes name none. -/
def replacement : Char := '\uFFFD'

/-- The bytes of one character. -/
def utf8Bytes (c : Char) : List UInt8 :=
  let n := c.toNat
  if n < 0x80 then [UInt8.ofNat n]
  else if n < 0x800 then [UInt8.ofNat (0xC0 + n / 0x40), UInt8.ofNat (0x80 + n % 0x40)]
  else if n < 0x10000 then
    [UInt8.ofNat (0xE0 + n / 0x1000), UInt8.ofNat (0x80 + n / 0x40 % 0x40),
      UInt8.ofNat (0x80 + n % 0x40)]
  else
    [UInt8.ofNat (0xF0 + n / 0x40000), UInt8.ofNat (0x80 + n / 0x1000 % 0x40),
      UInt8.ofNat (0x80 + n / 0x40 % 0x40), UInt8.ofNat (0x80 + n % 0x40)]

/-- The bytes of a text. -/
def encodeUtf8 (s : String) : List UInt8 :=
  s.toList.flatMap utf8Bytes

/-- What a leading byte announces: how many bytes follow it, the bits it contributes, and the
range of the first byte after it. -/
def utf8Lead? (passSurrogates : Bool) (b : UInt8) : Option (Nat × Nat × Nat × Nat) :=
  let n := b.toNat
  if 0xC2 ≤ n ∧ n ≤ 0xDF then some (1, n - 0xC0, 0x80, 0xBF)
  else if n = 0xE0 then some (2, 0, 0xA0, 0xBF)
  else if n = 0xED then some (2, 0xD, 0x80, if passSurrogates then 0xBF else 0x9F)
  else if 0xE1 ≤ n ∧ n ≤ 0xEF then some (2, n - 0xE0, 0x80, 0xBF)
  else if n = 0xF0 then some (3, 0, 0x90, 0xBF)
  else if n = 0xF4 then some (3, 4, 0x80, 0x8F)
  else if 0xF1 ≤ n ∧ n ≤ 0xF3 then some (3, n - 0xF0, 0x80, 0xBF)
  else none

/-- Reads the `count` continuation bytes of a character, the first of them in `low` to `high`.
Answers the character, if all are there, and the bytes after those consumed. -/
def utf8Tail (low high : Nat) : (count value : Nat) → List UInt8 → Option Char × List UInt8
  | 0, value, bytes =>
    (some (if 0xD800 ≤ value ∧ value < 0xE000 then replacement else Char.ofNat value), bytes)
  | _ + 1, _, [] => (none, [])
  | count + 1, value, b :: rest =>
    if low ≤ b.toNat ∧ b.toNat ≤ high then
      utf8Tail 0x80 0xBF count (value * 0x40 + b.toNat % 0x40) rest
    else (none, b :: rest)

/-- Reading a continuation never goes back. -/
theorem utf8Tail_length (low high count value : Nat) (bytes : List UInt8) :
    (utf8Tail low high count value bytes).2.length ≤ bytes.length := by
  induction count generalizing low high value bytes with
  | zero => simp [utf8Tail]
  | succ count ih =>
    cases bytes with
    | nil => simp [utf8Tail]
    | cons b rest =>
      rw [utf8Tail]
      split
      · exact Nat.le_succ_of_le (ih ..)
      · exact Nat.le_refl _

/-- The characters of a byte sequence, `none` standing for each malformed piece. -/
def scanUtf8 (passSurrogates : Bool) : List UInt8 → List (Option Char)
  | [] => []
  | b :: rest =>
    if b.toNat < 0x80 then some (Char.ofNat b.toNat) :: scanUtf8 passSurrogates rest
    else match utf8Lead? passSurrogates b with
      | none => none :: scanUtf8 passSurrogates rest
      | some (count, value, low, high) =>
        (utf8Tail low high count value rest).1 ::
          scanUtf8 passSurrogates (utf8Tail low high count value rest).2
termination_by bytes => bytes.length
decreasing_by
  all_goals simp only [List.length_cons]
  · omega
  · omega
  · exact Nat.lt_succ_of_le (utf8Tail_length ..)

/-- The text of a byte sequence, if it is well formed but for surrogates, which are passed. -/
def decodeUtf8? (bytes : List UInt8) : Option (List Char) :=
  (scanUtf8 true bytes).mapM id

/-- The text of a byte sequence, each malformed piece shown as U+FFFD. -/
def decodeUtf8Lenient (bytes : List UInt8) : List Char :=
  (scanUtf8 false bytes).map (·.getD replacement)

/-- The text in which each byte is the character of that number. -/
def decodeLatin1 (bytes : List UInt8) : String :=
  String.ofList (bytes.map (fun b => Char.ofNat b.toNat))

/-- The bytes of a text whose characters are all below U+0100; others become question marks. -/
def encodeLatin1 (s : String) : List UInt8 :=
  s.toList.map (fun c => if c.toNat < 0x100 then UInt8.ofNat c.toNat else 63)

end Telemetry.Text
