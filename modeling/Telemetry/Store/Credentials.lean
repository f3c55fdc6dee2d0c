import Telemetry.Key
import Telemetry.Time.Epoch
import Telemetry.World

/-!
# Credentials

The table of projects and the table of keys. Tokens are shown once, when a key is issued; the table
keeps their digests. Times are kept as seconds since 1970 in doubles, and every read gives them back
in UTC.

A key that names a project must name one that exists, and no two rows of a table share an id, no two
keys a digest. Identifiers are drawn before a row is written, so a row that is refused has used them
up all the same.
-/

namespace Telemetry.Store

/-! ## Rows -/

/-- A project of an account. -/
structure Project where
  id : String
  account : String
  name : String
  createdAt : Time.DateTime
deriving DecidableEq

/-- A key together with its token, as it is shown once. -/
structure IssuedKey where
  token : String
  key : Key
deriving DecidableEq

/-- The object of a project. -/
def Project.toJson (project : Project) : Json :=
  .obj [("id", .str project.id), ("account_id", .str project.account), ("name", .str project.name),
    ("created_at", .str project.createdAt.text)]

/-- The object of a key that is shown once. -/
def IssuedKey.toJson (issued : IssuedKey) : Json :=
  .obj [("token", .str issued.token), ("record", issued.key.toJson)]

/-- A row of the table of projects. -/
structure ProjectRow where
  id : String
  account : String
  name : String
  createdAt : Double

/-- A row of the table of keys. -/
structure KeyRow where
  id : String
  digest : String
  start : String
  account : String
  project : Option String
  name : Option String
  enabled : Bool
  expiresAt : Option Double
  requestCount : Nat
  lastRequest : Option Double
  createdAt : Double

/-- The two tables. Rows stand in the order in which they were written. Tables that are held in
memory only are lost when the store is closed. -/
structure Credentials where
  persistent : Bool
  projects : List ProjectRow
  keys : List KeyRow

/-! ## Reading rows -/

/-- The time that a column holds. -/
def readColumnTime (seconds : Double) : Except Fault Time.DateTime :=
  match Time.DateTime.ofEpoch? seconds with
  | some t => .ok t
  | none => .error .badValue

/-- The time that an optional column holds. -/
def readOptionalTime : Option Double → Except Fault (Option Time.DateTime)
  | none => .ok none
  | some seconds => (readColumnTime seconds).map some

/-- The project of a row. -/
def ProjectRow.toProject (row : ProjectRow) : Except Fault Project := do
  let createdAt ← readColumnTime row.createdAt
  pure ⟨row.id, row.account, row.name, createdAt⟩

/-- The key of a row. -/
def KeyRow.toKey (row : KeyRow) : Except Fault Key := do
  let expiresAt ← readOptionalTime row.expiresAt
  let lastRequest ← readOptionalTime row.lastRequest
  pure
    { id := row.id
      digest := row.digest
      start := row.start
      account := row.account
      project := row.project
      enabled := row.enabled
      expiresAt
      requestCount := row.requestCount
      lastRequest
      name := row.name }

namespace Credentials

/-- Empty tables. -/
def empty (persistent : Bool) : Credentials := ⟨persistent, [], []⟩

/-! ## Projects -/

/-- Whether a project exists. -/
def hasProject (c : Credentials) (id : String) : Bool :=
  c.projects.any (·.id == id)

/-- Creates a project; the account and the name must be given. -/
def createProject (account name : Option String) (w : World) (c : Credentials) :
    Except Fault Project × World × Credentials :=
  let (id, w) := w.drawId
  match account, name with
  | some account, some name =>
    if c.hasProject id then (.error .constraint, w, c)
    else
      let project : Project := ⟨id, account, name, w.utcNow⟩
      let row : ProjectRow := ⟨id, account, name, w.utcNow.toEpoch⟩
      (.ok project, w, { c with projects := c.projects ++ [row] })
  | _, _ => (.error .constraint, w, c)

/-- The projects of an account, oldest first. -/
def projectsOf (account : Option String) (c : Credentials) : Except Fault (List Project) :=
  let rows := c.projects.filter fun row => some row.account == account
  (rows.mergeSort fun a b => a.createdAt.le b.createdAt).mapM ProjectRow.toProject

/-- The ids of the projects of an account, oldest first. -/
def projectIdsOf (account : Option String) (c : Credentials) : Except Fault (List String) :=
  (c.projectsOf account).map fun projects => projects.map (·.id)

/-! ## Keys -/

/-- Whether a key may be bound to a project: to none, or to one that exists. -/
def admitsProject (c : Credentials) : Option String → Bool
  | none => true
  | some id => c.hasProject id

/-- Whether no key has an id or a digest. -/
def admitsKey (c : Credentials) (id digest : String) : Bool :=
  !c.keys.any fun row => row.id == id || row.digest == digest

/-- Issues a key. The token is drawn before the key's id. -/
def createKey (account project name : Option String) (expiresAt : Option Time.DateTime) (w : World)
    (c : Credentials) : Except Fault IssuedKey × World × Credentials :=
  let (number, w) := w.drawNumber
  let (id, w) := w.drawId
  let token := Token.mark ++ String.ofList (uniqueHex number)
  match account with
  | none => (.error .constraint, w, c)
  | some account =>
    if c.admitsProject project && c.admitsKey id (Token.digest token) then
      let key : Key :=
        { id
          digest := Token.digest token
          start := Token.start token
          account
          project
          expiresAt
          name }
      let row : KeyRow :=
        { id
          digest := key.digest
          start := key.start
          account
          project
          name
          enabled := true
          expiresAt := expiresAt.map Time.DateTime.toEpoch
          requestCount := 0
          lastRequest := none
          createdAt := w.utcNow.toEpoch }
      (.ok ⟨token, key⟩, w, { c with keys := c.keys ++ [row] })
    else (.error .constraint, w, c)

/-- The key with a digest. -/
def findByDigest (digest : Option String) (c : Credentials) : Except Fault (Option Key) :=
  match c.keys.find? fun row => some row.digest == digest with
  | some row => row.toKey.map some
  | none => .ok none

/-- The keys of a project, oldest first. -/
def keysOf (project : Option String) (c : Credentials) : Except Fault (List Key) :=
  let rows := c.keys.filter fun row => project.isSome && row.project == project
  (rows.mergeSort fun a b => a.createdAt.le b.createdAt).mapM KeyRow.toKey

/-- Changes the key with an id. -/
def updateKey (id : Option String) (change : KeyRow → KeyRow) (c : Credentials) : Credentials :=
  { c with keys := c.keys.map fun row => if some row.id == id then change row else row }

/-- Notes that a key was used at a time. -/
def recordUsage (id : Option String) (time : Option Time.DateTime) (c : Credentials) :
    Credentials :=
  c.updateKey id fun row =>
    { row with
      requestCount := row.requestCount + 1
      lastRequest := time.map Time.DateTime.toEpoch }

/-- Whether an enabled key has an id. -/
def hasEnabledKey (id : Option String) (c : Credentials) : Bool :=
  c.keys.any fun row => some row.id == id && row.enabled

/-- Disables a key, and answers whether there was an enabled one. -/
def revokeKey (id : Option String) (c : Credentials) : Bool × Credentials :=
  (c.hasEnabledKey id, c.updateKey id fun row => { row with enabled := false })

/-- Whether the key of a token can be used now. Without such a key there is no answer. -/
def isUsable (token : String) (w : World) (c : Credentials) : Except Fault Bool := do
  match ← c.findByDigest (some (Token.digest token)) with
  | some key => key.isUsable w.now
  | none => throw .noRecord

/-- Closes the store. What is in memory only is lost. -/
def close (c : Credentials) : Credentials :=
  if c.persistent then c else empty false

end Credentials

end Telemetry.Store
