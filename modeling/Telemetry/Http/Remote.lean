import Telemetry.Error
import Telemetry.World

/-!
# Remote servers

A server that the service is a client of, seen from the client: the requests that it has been sent,
and the answers that it is going to give. A server that has nothing left to say answers with an
empty success.
-/

namespace Telemetry.Http

/-- A request to a remote server. A header may be absent. -/
structure Outgoing where
  verb : String
  path : String
  params : List (String × String)
  headers : List (String × Option String)
  body : String
deriving DecidableEq, Repr

/-- What a client gets: a response, or a failure of the connection. -/
inductive Reply
  | response (status : Int) (text : String)
  | failed (reason : String)
deriving DecidableEq, Repr

/-- A success in the sense of HTTP. -/
def isSuccess (status : Int) : Bool := 200 ≤ status && status ≤ 299

/-- A server with the replies it is going to give, each with the seconds that it takes, and the
requests that it has been sent. -/
structure Remote where
  script : List (Reply × Double)
  sent : List Outgoing

/-- A server and the surroundings in which it is asked. -/
structure Link where
  remote : Remote
  world : World

/-- What can be done over a link. It may stop with a fault, but what was sent stays sent. -/
abbrev Online := ExceptT Fault (StateM Link)

/-- Whether the headers of a request can be sent: they are ASCII. -/
def Outgoing.isSendable (r : Outgoing) : Bool :=
  r.headers.all fun (_, value) => (value.getD "").toList.all fun c => c.toNat < 0x80

/-- The most characters that an address may have. -/
def maxAddress : Nat := 65536

/-- Sends a request and waits for the reply. -/
def exchange (r : Outgoing) : Online Reply := do
  if r.path.length > maxAddress then throw .addressTooLong
  if !r.isSendable then throw .notAscii
  let link ← getThe Link
  let (reply, seconds, rest) := match link.remote.script with
    | (reply, seconds) :: rest => (reply, seconds, rest)
    | [] => (.response 200 "", .zero, [])
  set { link with
    remote := ⟨rest, link.remote.sent ++ [r]⟩
    world := link.world.elapse seconds }
  return reply

/-- Runs something over a link. -/
def Online.over {α : Type} (act : Online α) (link : Link) : Except Fault α × Link :=
  act.run.run link

end Telemetry.Http
