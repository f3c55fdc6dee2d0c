import Telemetry.Http.Dashboard
import Telemetry.Limits
import Telemetry.Quota.Cache
import Telemetry.Settings
import Telemetry.Store.Credentials
import Telemetry.Store.Warehouse

/-!
# The service

The dashboard with its collaborators: credentials in tables, events in the warehouse, and, if a
limits service is configured, its limits behind a quota cache. When the service starts it creates
what is missing in the warehouse; a warehouse that fails does not keep it from starting.
-/

namespace Telemetry

open Http

/-- The collaborators of the service. -/
structure Service where
  settings : Settings
  world : World
  credentials : Store.Credentials
  warehouse : Remote
  limits : Remote
  quota : Option (Quota.Cache (Option Int))

namespace Service

/-- Whether a limits service is configured. -/
def hasLimits (settings : Settings) : Bool :=
  match settings.limitsUrl with
  | some url => url != ""
  | none => false

/-- A service that has not been started. -/
def create (settings : Settings) (credentials : Store.Credentials) (warehouse limits : Remote)
    (world : World) : Service where
  settings
  world
  credentials
  warehouse
  limits
  quota :=
    if hasLimits settings then
      some (.empty none settings.quotaTtl settings.quotaSweepInterval (some settings.limitsTimeout))
    else none

/-- How the service logs in to the warehouse. -/
def login (s : Service) : Store.Warehouse.Login :=
  ⟨s.settings.database, s.settings.user, s.settings.password⟩

/-- Does something over the link to the warehouse. -/
def atWarehouse {α : Type} (act : Online α) (s : Service) : Except Fault α × Service :=
  let (answer, link) := act.over ⟨s.warehouse, s.world⟩
  (answer, { s with warehouse := link.remote, world := link.world })

/-- Asks the limits service about an account; none if that fails. -/
def askLimit (settings : Settings) (account : String) (link : Link) :
    Option (Option Int) × Link :=
  let base := basePath (settings.limitsUrl.getD "")
  let (answer, link) := (Limits.fetch base settings.limitsSecret account).over link
  (answer.toOption, link)

/-- The limit of an account, through the quota cache. -/
def limitOf (account : String) (s : Service) : Option Int × Service :=
  match s.quota with
  | none => (none, s)
  | some cache =>
    let (value, cache, link) :=
      cache.getNow (askLimit s.settings) account ⟨s.limits, s.world⟩
    (value, { s with quota := some cache, limits := link.remote, world := link.world })

/-- Answers a call. -/
def handle : (c : Gate.Call) → Service → c.Answer × Service
  | .findKey digest, s => (s.credentials.findByDigest (some digest), s)
  | .recordUsage key time, s =>
    (.ok (), { s with credentials := s.credentials.recordUsage (some key) (some time) })
  | .limit account, s => s.limitOf account
  | .projectsOf account, s => (s.credentials.projectIdsOf (some account), s)
  | .countSince projects since, s =>
    s.atWarehouse (Store.Warehouse.countSince s.login projects since)
  | .hasEventType project eventType, s =>
    s.atWarehouse (Store.Warehouse.hasEventType s.login project eventType)
  | .insert event, s => s.atWarehouse (Store.Warehouse.insert s.login event)
  | .query statement, s =>
    let (rows, s) := s.atWarehouse (Store.Warehouse.query s.login statement)
    (rows.map fun rows => rows.map fun columns => ⟨columns, none⟩, s)
  | .now, s => (s.world.utcNow, s)
  | .freshId, s =>
    let (id, world) := s.world.drawId
    (id, { s with world })

/-- Runs a program. -/
def run {α : Type} (program : Gate.Program α) (s : Service) : α × Service :=
  Gate.Program.run handle program s

/-- Starts the service. Only a failure of the warehouse is passed over. -/
def start (s : Service) : Except Fault Unit × Service :=
  match s.atWarehouse (Store.Warehouse.ensureSchema s.login) with
  | (.error (.refusal (.store _)), s) | (.ok (), s) =>
    (.ok (), { s with quota := s.quota.map (·.start) })
  | (.error fault, s) => (.error fault, s)

/-- Stops the service. -/
def stop (s : Service) : Service :=
  { s with
    quota := s.quota.map (·.close)
    credentials := s.credentials.close }

/-- What the root shows. -/
def health : Json := .obj [("status", .str "ok"), ("service", .str "wideevent")]

/-- Answers a request: at the root that the service is there, everywhere else as the dashboard. -/
def serve (r : Request) (incoming : List Incoming) (s : Service) :
    Option Dashboard.Served × Service :=
  if r.plain && Dashboard.isPath r.path "/" then
    if r.verb = "GET" then (some (Dashboard.respond 200 health), s)
    else (some ⟨Dashboard.wrongVerb "GET", none⟩, s)
  else s.run (Dashboard.serve s.settings.defaultCap r incoming)

end Service

end Telemetry
