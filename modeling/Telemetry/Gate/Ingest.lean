import Telemetry.Event.Build
import Telemetry.Gate.Call
import Telemetry.Json.Encoding

/-!
# Ingesting events

The way of a request into the store: its key is checked, then the account's monthly quota, then
whether it is a repeated ping; then the record is built and stored. A stage can refuse the request,
and the result names that stage.

Credentials and a known exceeded quota close the gate. Collaborators that are down leave it open:
without the limits service, the usage count or the duplicate check the request goes on, and so it
does when the key's use cannot be noted.
-/

namespace Telemetry.Gate

/-! ## Results -/

/-- The stages of a request. -/
inductive Stage
  | authenticating
  | quotaCheck
  | dupCheck
  | build
  | persist
  | ack
  | rejected
deriving DecidableEq, Repr

/-- The name of a stage. -/
def Stage.name : Stage → String
  | .authenticating => "authenticating"
  | .quotaCheck => "quota_check"
  | .dupCheck => "dup_check"
  | .build => "build"
  | .persist => "persist"
  | .ack => "ack"
  | .rejected => "rejected"

/-- How a request ended. -/
structure Result where
  status : Nat
  body : Json.Object
  stage : Stage
  failedStage : Option Stage
  eventId : Option String

/-- Whether the request was accepted. -/
def Result.accepted (r : Result) : Bool := r.stage == .ack

/-- The result of a request that is accepted, with the id of the event if one was stored. -/
def Result.success (eventId : Option String) : Result :=
  ⟨200, [("success", .bool true)], .ack, none, eventId⟩

/-- The result of a request that a stage refuses. -/
def Result.refused (stage : Stage) (r : Refusal) : Result :=
  ⟨r.status, r.body, .rejected, some stage, none⟩

/-- Runs a stage. If it refuses the request, that is the result. -/
def atStage {α : Type} (stage : Stage) (attempt : Attempt α) (next : α → Attempt Result) :
    Attempt Result :=
  ExceptT.mk do
    match ← attempt.run with
    | .ok a => (next a).run
    | .error (.refusal r) => pure (.ok (.refused stage r))
    | .error fault => pure (.error fault)

/-! ## Credentials -/

/-- The project of a key, if it is bound to one. -/
def boundProject? (key : Key) : Option String :=
  match key.project with
  | some project => if project = "" then none else some project
  | none => none

/-- The usable, bound key of an authorization header, and the time at which it was found usable. -/
def identify (authorization : Option String) : Attempt (Key × Time.DateTime) := do
  match Token.ofHeader? authorization with
  | none => refuse (.credential .missing)
  | some token =>
    match ← Attempt.ask (.findKey (Token.digest token)) with
    | .error _ => refuse (.dependency .credentialLookup)
    | .ok none => refuse (.credential .unknown)
    | .ok (some key) =>
      let now ← Attempt.ask .now
      if ← (key.isUsable now : Except Fault Bool) then
        if (boundProject? key).isNone then refuse .unbound
        return (key, now)
      else refuse (.credential .unusable)

/-- Notes that a key was used at a time, if that works. -/
def noteUse (key : Key) (time : Time.DateTime) : Attempt Unit := do
  let _ ← Attempt.ask (.recordUsage key.id time)

/-- The usable, bound key of an authorization header. Its use is noted. -/
def authenticate (authorization : Option String) : Attempt Key := do
  let (key, now) ← identify authorization
  noteUse key now
  return key

/-! ## Quota -/

/-- The monthly cap where an account has no limit. -/
def defaultMonthlyCap : Int := 10000

/-- Midnight UTC of the first day of the month that it is in UTC. Taking a naive time as local
looks a day back, so the very first day of the calendar has no answer. -/
def monthStart (now : Time.DateTime) : Except Fault Time.DateTime :=
  if !now.isAware && now.wall < Time.day then .error .badValue
  else match now.toUtc? with
    | some utc => .ok utc.monthStart
    | none => .error .outOfRange

/-- The projects whose events count for a key: its account's, and its own. -/
def countedProjects (key : Key) (projects : List String) : List String :=
  match boundProject? key with
  | some project => if projects.contains project then projects else projects ++ [project]
  | none => projects

/-- How many events the account of a key has sent this month, if that can be found out. -/
def monthlyUsage (key : Key) : Attempt (Option Int) := do
  match ← Attempt.ask (.projectsOf key.account) with
  | .error _ => return none
  | .ok projects =>
    let now ← Attempt.ask .now
    match monthStart now with
    | .error _ => return none
    | .ok since =>
      match ← Attempt.ask (.countSince (countedProjects key projects) since) with
      | .error _ => return none
      | .ok current => return some current

/-- Refuses the request if the account of a key has used its monthly allowance. -/
def checkQuota (defaultCap : Int) (key : Key) : Attempt Unit := do
  let limit ← Attempt.ask (.limit key.account)
  let cap := Option.getD limit defaultCap
  match ← monthlyUsage key with
  | some current => if cap ≤ current then refuse (.quotaExceeded current cap)
  | none => return ()

/-! ## Requests -/

/-- The type of events that only show that the connection works; one per project is stored. -/
def pingType : String := "wideevent.ping"

/-- The body of a request: a value, or bytes that were no JSON. -/
inductive Body
  | malformed
  | value (v : Json)

/-- Whether a ping has been stored for a project; if that cannot be found out, it has not. -/
def isRepeatedPing (project : String) : Attempt Bool := do
  match ← Attempt.ask (.hasEventType project pingType) with
  | .ok found => return found
  | .error _ => return false

/-- The fields of a request's body, and whether it is a ping that has been stored already. -/
def checkBody (project : String) (body : Body) : Attempt (Json.Object × Bool) := do
  match body with
  | .malformed => refuse (.request .malformedBody)
  | .value (.obj fields) =>
    if (Json.get "event" fields).isText pingType then
      return (fields, ← isRepeatedPing project)
    else return (fields, false)
  | .value _ => refuse (.request .bodyNotObject)

/-- The record of a request's event. -/
def buildEvent (project : String) (fields : Json.Object) : Attempt Event := do
  let now ← Attempt.ask .now
  Event.build (Attempt.ask .freshId) project now
    ⟨Json.get "event" fields, Json.get "properties" fields, Json.get "timestamp" fields⟩

/-- Stores an event. -/
def persist (event : Event) : Attempt Unit := do
  match ← Attempt.ask (.insert event) with
  | .ok () => return ()
  | .error _ => refuse .notPersisted

/-- Takes one request through all stages. -/
def ingest (defaultCap : Int) (authorization : Option String) (body : Body) : Attempt Result :=
  atStage .authenticating (authenticate authorization) fun key =>
  atStage .quotaCheck (checkQuota defaultCap key) fun () =>
  let project := key.project.getD ""
  atStage .dupCheck (checkBody project body) fun (fields, repeated) =>
  if repeated then pure (.success none)
  else
    atStage .build (buildEvent project fields) fun event =>
    atStage .persist (persist event) fun () =>
    pure (.success (some event.id))

/-- The body that bytes are. No bytes at all are the null value. -/
def readBody (raw : List UInt8) : Except Fault Body :=
  if raw.isEmpty then .ok (.value .null)
  else match Json.parseBytes raw with
    | .ok v => .ok (.value v)
    | .error .undecodable => .ok .malformed
    | .error (.unreadable (.malformed _)) => .ok .malformed
    | .error (.unreadable e) => .error e.toFault

/-- Takes a request with an undecoded body through all stages. -/
def ingestBytes (defaultCap : Int) (authorization : Option String) (raw : List UInt8) :
    Attempt Result := do
  let body ← (readBody raw : Except Fault Body)
  ingest defaultCap authorization body

end Telemetry.Gate
