import Telemetry.Json.Parser
import Telemetry.Json.Printer
import Telemetry.Text.Blank

/-!
# Rows of JSON

A list of values as a text with one value per line, each line ended by a line feed. Reading takes
every boundary of `Text.splitLines` as the end of a line and skips blank lines.
-/

namespace Telemetry.Json.Lines

/-- Writes one value per line. -/
def encode (rows : List Json) : String :=
  String.ofList (rows.flatMap fun row => row.write .compactAscii ++ ['\n'])

/-- Reads the values of the lines that are not blank, up to the first that is no JSON. -/
def decode (text : String) : Except ReadError (List Json) :=
  (((Text.splitLines text.toList).filter (fun line => !(Text.strip line).isEmpty)).mapM
    fun line => parse (String.ofList line))

end Telemetry.Json.Lines
