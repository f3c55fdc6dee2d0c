import Telemetry.Gate.Ingest
import Telemetry.Http.Message

/-!
# The ingest endpoint

The plain application in front of a gate: events are posted to `/ingest`, and `/` shows that the
service is there. Whatever stops the gate is answered with an error; the endpoint itself never
fails.
-/

namespace Telemetry.Http.Endpoint

open Gate (Program)

/-- A response that holds a JSON value. -/
def jsonResponse (status : Int) (v : Json) : Response :=
  .ofType status "application/json" (v.render .spacedAscii)

/-- A response that holds nothing but the wording of an error. -/
def errorResponse (status : Int) (message : String) : Response :=
  jsonResponse status (.obj [("error", .str message)])

/-- What `/` answers. -/
def health : Json := .obj [("status", .str "ok"), ("service", .str "wideevent")]

/-- The response to a request that has been through the gate. -/
def ingestResponse : Except Fault Gate.Result → Response
  | .ok result => jsonResponse result.status (.obj result.body)
  | .error _ => errorResponse 500 "Internal Server Error"

/-- Answers a posted event. Also answers which messages have not been read. -/
def ingest (defaultCap : Int) (r : Request) (incoming : List Incoming) :
    Program (Response × List Incoming) := do
  let (raw, _, left) := readPieces incoming
  let result ← (Gate.ingestBytes defaultCap (r.header? "authorization") raw).run
  return (ingestResponse result, left)

/-- Answers a request, if it is one of the hypertext protocol. -/
def serve (defaultCap : Int) (r : Request) (incoming : List Incoming) :
    Program (Option Response × List Incoming) := do
  if !r.plain then return (none, incoming)
  if r.path = "/" then return (some (jsonResponse 200 health), incoming)
  if r.path = "/ingest" then
    if r.verb = "POST" then
      let (response, left) ← ingest defaultCap r incoming
      return (some response, left)
    else return (some (errorResponse 405 "Method Not Allowed"), incoming)
  return (some (.ofType 404 "text/plain" "Not Found"), incoming)

end Telemetry.Http.Endpoint
