import Telemetry.Http.Address
import Telemetry.Http.Remote
import Telemetry.Json.Encoding

/-!
# Account limits

A remote service knows how many events an account may send in a month. Its document is read
leniently: anything but a number where the limit should be means that there is none. Everything
that keeps the document from being read is a failure of the service.
-/

namespace Telemetry.Limits

open Http

/-- The whole number that a limit is cut to; a value that is no finite number is no limit. -/
def limitOfValue : Json → Except Fault (Option Int)
  | .int i => if (Double.ofInt i).isFinite then .ok (some i) else .error .outOfRange
  | .float x => .ok x.truncate?
  | _ => .ok none

/-- The monthly limit in a document. -/
def readDocument (document : Json) : Except Fault (Option Int) :=
  match document.field? "limits" with
  | some (.obj limits) => limitOfValue (Json.get "eventsPerMonth" limits)
  | _ => .ok none

/-- The limit in a response of the service. An account that it does not know has none. -/
def readResponse (status : Int) (content : List UInt8) : Except Fault (Option Int) :=
  if status = 404 then .ok none
  else if !isSuccess status then .error (.refusal (.dependency (.limitsStatus status)))
  else match Json.parseBytes content with
    | .ok document => readDocument document
    | .error (.unreadable .tooDeep) => .error .tooDeep
    | .error _ => .error (.refusal (.dependency .limitsMalformed))

/-- The limit in what the service is heard to say. -/
def readReply : Reply → Except Fault (Option Int)
  | .failed reason => .error (.refusal (.dependency (.limitsUnreachable reason)))
  | .response status text => readResponse status (Text.encodeUtf8 text)

/-- The header that carries the service's secret, if there is one. -/
def authorization (secret : Option String) : Option String :=
  match secret with
  | some s => if s = "" then none else some ("Bearer " ++ s)
  | none => none

/-- The path of an account's limit at a service below a path. -/
def accountPath (base account : String) : String :=
  resourcePath base ("users/" ++ Text.percentEncode account)

/-- Asks a service below a path for the limit of an account. -/
def fetch (base : String) (secret : Option String) (account : String) : Online (Option Int) := do
  let reply ← exchange
    ⟨"GET", accountPath base account, [], [("Authorization", authorization secret)], ""⟩
  let limit ← (readReply reply : Except Fault (Option Int))
  return limit

end Telemetry.Limits
