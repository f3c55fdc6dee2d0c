import Telemetry.Digest.Sha256
import Telemetry.Error
import Telemetry.Text.Blank
import Telemetry.Text.Search
import Telemetry.Time.DateTime

/-!
# Keys

A key opens the service for one project. Its token is shown once; what is kept is the digest of the
token, by which it is found, and the first few characters, by which people recognise it.
-/

namespace Telemetry

/-! ## Tokens -/

namespace Token

/-- The characters in front of every issued token. -/
def mark : String := "we_"

/-- The digest under which a token's key is kept. -/
def digest (token : String) : String := Digest.Sha256.hexDigest token

/-- The part of a token that may be shown. -/
def start (token : String) : String := String.ofList (token.toList.take 8)

/-- The token of an authorization header with the bearer scheme, in any case of its letters. -/
def ofHeader? (authorization : Option String) : Option String := do
  let header ← authorization
  let (scheme, rest) := Text.cutAt ' ' (Text.strip header.toList)
  if Text.lower (String.ofList scheme) = "bearer" then
    let token := Text.strip rest
    if token.isEmpty then none else some (String.ofList token)
  else none

end Token

/-! ## Records -/

/-- A stored key. -/
structure Key where
  id : String
  digest : String
  start : String
  account : String
  project : Option String
  enabled : Bool := true
  expiresAt : Option Time.DateTime := none
  requestCount : Nat := 0
  lastRequest : Option Time.DateTime := none
  name : Option String := none
deriving DecidableEq

/-- The object of a key. -/
def Key.toJson (key : Key) : Json :=
  .obj [("id", .str key.id), ("key_hash", .str key.digest), ("start", .str key.start),
    ("account_id", .str key.account), ("project_id", Json.ofOption .str key.project),
    ("enabled", .bool key.enabled),
    ("expires_at", Json.ofOption (fun t => .str t.text) key.expiresAt),
    ("request_count", .int key.requestCount),
    ("last_request", Json.ofOption (fun t => .str t.text) key.lastRequest),
    ("name", Json.ofOption .str key.name)]

/-- The error of comparing a time that has an offset with one that has none. -/
def mixedTimes : Fault := .wrongType "can't compare offset-naive and offset-aware datetimes"

/-- Whether a key is enabled and not past its expiry. -/
def Key.isUsable (key : Key) (now : Time.DateTime) : Except Fault Bool :=
  if !key.enabled then .ok false
  else match key.expiresAt with
    | none => .ok true
    | some expiry => match expiry.compare? now with
      | some order => .ok (order == .gt)
      | none => .error mixedTimes

end Telemetry
