import Telemetry.Json.Parser
import Telemetry.Text.Utf16

/-!
# JSON in bytes

The encoding of a JSON text is recognised by its byte order mark, or else by where the zero bytes
stand among its first four: the first two characters of a JSON text are ASCII.
-/

namespace Telemetry.Json

/-- The encodings of JSON texts. -/
inductive Encoding
  | utf8
  | utf16 (order : Text.ByteOrder)
  | utf32 (order : Text.ByteOrder)
deriving DecidableEq, Repr

/-- The encoding that a byte order mark announces, and the bytes after the mark. -/
def markedEncoding? : List UInt8 → Option (Encoding × List UInt8)
  | 0x00 :: 0x00 :: 0xFE :: 0xFF :: rest => some (.utf32 .bigEndian, rest)
  | 0xFF :: 0xFE :: 0x00 :: 0x00 :: rest => some (.utf32 .littleEndian, rest)
  | 0xFE :: 0xFF :: rest => some (.utf16 .bigEndian, rest)
  | 0xFF :: 0xFE :: rest => some (.utf16 .littleEndian, rest)
  | 0xEF :: 0xBB :: 0xBF :: rest => some (.utf8, rest)
  | _ => none

/-- The encoding of bytes without a byte order mark. -/
def guessedEncoding : List UInt8 → Encoding
  | a :: b :: c :: d :: _ =>
    if a = 0 then (if b = 0 then .utf32 .bigEndian else .utf16 .bigEndian)
    else if b = 0 then
      (if c ≠ 0 ∨ d ≠ 0 then .utf16 .littleEndian else .utf32 .littleEndian)
    else .utf8
  | [a, b] =>
    if a = 0 then .utf16 .bigEndian else if b = 0 then .utf16 .littleEndian else .utf8
  | _ => .utf8

/-- The text of bytes in an encoding. -/
def Encoding.decode? : Encoding → List UInt8 → Option (List Char)
  | .utf8, bytes => Text.decodeUtf8? bytes
  | .utf16 order, bytes => Text.decodeUtf16? order bytes
  | .utf32 order, bytes => Text.decodeUtf32? order bytes

/-- The text of bytes in the encoding they show. -/
def decodeBytes? (bytes : List UInt8) : Option (List Char) :=
  match markedEncoding? bytes with
  | some (encoding, rest) => encoding.decode? rest
  | none => (guessedEncoding bytes).decode? bytes

/-- Why bytes could not be read as JSON. -/
inductive BytesError
  | undecodable
  | unreadable (error : ReadError)
deriving DecidableEq, Repr

/-- Reads bytes as one value. -/
def parseBytes (bytes : List UInt8) : Except BytesError Json :=
  match decodeBytes? bytes with
  | none => .error .undecodable
  | some cs => (parseChars cs).mapError .unreadable

end Telemetry.Json
