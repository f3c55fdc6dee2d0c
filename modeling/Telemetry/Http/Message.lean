import Telemetry.Text.Ascii
import Telemetry.Text.Percent

/-!
# Requests and responses

A request as an application sees it, the messages in which its body arrives, and the messages of
the response. A body comes in pieces; a piece that announces no further one is the last. A client
can end the connection at any time, and once nothing more is to come it has.
-/

namespace Telemetry.Http

/-! ## Requests -/

/-- The headers of a request or response, in order; a name can occur more than once. -/
abbrev Headers := List (String × String)

/-- A request without its body. Only requests of the hypertext protocol are `plain`; applications
see other events of a connection or of the server as well. -/
structure Request where
  plain : Bool
  verb : String
  path : String
  query : String
  headers : Headers
deriving DecidableEq, Repr

/-- The path and the query string of a target. The path is percent-decoded, the query string is
not; it is a text of bytes, each of which is one character. -/
def splitTarget (target : String) : String × String :=
  let (path, query) := Text.cutAt '?' target.toList
  (Text.percentDecode (String.ofList path),
    Text.decodeLatin1 (Text.encodeUtf8 (String.ofList query)))

namespace Request

/-- The first value of a header; the name is written in lower case and matches in any case. -/
def header? (name : String) (r : Request) : Option String :=
  (r.headers.find? fun header => Text.lower header.1 == name).map (·.2)

/-- The first value of a header whose name is written exactly so. -/
def exactHeader? (name : String) (r : Request) : Option String :=
  (r.headers.find? fun header => header.1 == name).map (·.2)

end Request

/-! ## Bodies -/

/-- A message from the client: a piece of the body, which can be absent, and whether more is to
come; or the end of the connection. -/
inductive Incoming
  | piece (bytes : Option (List UInt8)) (more : Bool)
  | disconnect
deriving DecidableEq, Repr

/-- The next message and those after it. -/
def nextMessage : List Incoming → Incoming × List Incoming
  | [] => (.disconnect, [])
  | m :: rest => (m, rest)

/-- Reads pieces up to the last one or the end of the connection. Answers the bytes, whether the
last piece was among them, and the messages that have not been read. -/
def readPieces : List Incoming → List UInt8 × Bool × List Incoming
  | [] => ([], false, [])
  | .disconnect :: rest => ([], false, rest)
  | .piece bytes more :: rest =>
    if more then
      let (later, complete, left) := readPieces rest
      (bytes.getD [] ++ later, complete, left)
    else (bytes.getD [], true, rest)

/-! ## Responses -/

/-- A message to the client: the start of the response, whose headers can be absent; the last piece
of its body; or any other message. What more a message says is a list of names with their values. -/
inductive Message
  | start (status : Int) (headers : Option Headers) (more : List (String × String))
  | body (text : String)
  | other (kind : String) (more : List (String × String))
deriving DecidableEq, Repr

/-- A response in one piece. -/
structure Response where
  status : Int
  headers : Headers
  body : String
deriving DecidableEq, Repr

/-- The messages of a response. -/
def Response.messages (r : Response) : List Message :=
  [.start r.status (some r.headers) [], .body r.body]

/-- A response with a content type. -/
def Response.ofType (status : Int) (contentType body : String) : Response :=
  ⟨status, [("content-type", contentType)], body⟩

end Telemetry.Http
