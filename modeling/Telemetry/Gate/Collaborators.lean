import Telemetry.Gate.Ingest
import Telemetry.Quota.Cache
import Telemetry.Store.Memory
import Telemetry.World

/-!
# A gate over memory

All collaborators of the gate in one state: keys and projects, events in memory, the limits of
accounts behind a quota cache, and a list of collaborators that are down.
-/

namespace Telemetry.Gate

/-- The collaborators that can be down. -/
inductive Collaborator
  | find
  | usage
  | projects
  | insert
  | hasType
  | count
deriving DecidableEq, Repr

/-- What the limits service knows of an account. -/
inductive AccountLimit
  | cap (events : Int)
  | unlimited
  | down
deriving DecidableEq, Repr

/-- Where identifiers come from: a counter of this gate, or the surroundings. -/
inductive IdSource
  | counter (drawn : Nat)
  | unique
deriving DecidableEq, Repr

/-- The state of all collaborators. -/
structure Collaborators where
  world : World
  keys : List Key
  projects : List (String × List String)
  events : List Event
  down : List Collaborator
  ids : IdSource
  usage : List (String × Time.DateTime)
  quota : Option (Quota.Cache (Option Int))
  limits : List (String × AccountLimit)
  asked : List String
  /-- What the store of events answers to statements, and the statements it was asked. -/
  rows : Except Fault (List Query.Row)
  statements : List String

namespace Collaborators

/-- Whether a collaborator is down. -/
def isDown (s : Collaborators) (c : Collaborator) : Bool := s.down.contains c

/-- An answer of a collaborator, or the fault that it is down. -/
def unlessDown {α : Type} (s : Collaborators) (c : Collaborator) (answer : Except Fault α) :
    Except Fault α :=
  if s.isDown c then .error .unreachable else answer

/-- The key with a digest. -/
def findKey (s : Collaborators) (digest : String) : Option Key :=
  s.keys.find? (·.digest == digest)

/-- Stores a key in the place of the one with the same digest. -/
def setKey (key : Key) (s : Collaborators) : Collaborators :=
  if s.keys.any (·.digest == key.digest) then
    { s with keys := s.keys.map fun k => if k.digest == key.digest then key else k }
  else { s with keys := s.keys ++ [key] }

/-- Asks the limits service about an account; an account that it does not know has no limit. The
inner option is the limit, the outer one is none if the service is down. -/
def askLimit (s : Collaborators) (account : String) (asked : List String) :
    Option (Option Int) × List String :=
  let answer := match Assoc.find? account s.limits with
    | some (.cap events) => some (some events)
    | some .down => none
    | some .unlimited | none => some none
  (answer, asked ++ [account])

/-- Draws an identifier. -/
def freshId (s : Collaborators) : String × Collaborators :=
  match s.ids with
  | .counter n => ("id-" ++ Text.integer (n + 1 : Nat), { s with ids := .counter (n + 1) })
  | .unique =>
    let (id, world) := s.world.drawId
    (id, { s with world })

/-- Answers a call. -/
def handle : (c : Call) → Collaborators → c.Answer × Collaborators
  | .findKey digest, s => (s.unlessDown .find (.ok (s.findKey digest)), s)
  | .recordUsage key time, s =>
    if s.isDown .usage then (.error .unreachable, s)
    else (.ok (), { s with usage := s.usage ++ [(key, time)] })
  | .limit account, s =>
    match s.quota with
    | none => (none, s)
    | some cache =>
      let (value, cache, asked) := cache.getNow s.askLimit account s.asked
      (value, { s with quota := some cache, asked })
  | .projectsOf account, s =>
    (s.unlessDown .projects (.ok ((Assoc.find? account s.projects).getD [])), s)
  | .countSince projects since, s =>
    (s.unlessDown .count ((Store.Memory.countSince projects since s.events).map Int.ofNat), s)
  | .hasEventType project eventType, s =>
    (s.unlessDown .hasType (.ok (Store.Memory.hasEventType project eventType s.events)), s)
  | .insert event, s =>
    if s.isDown .insert then (.error .unreachable, s)
    else (.ok (), { s with events := Store.Memory.insert event s.events })
  | .query statement, s => (s.rows, { s with statements := s.statements ++ [statement] })
  | .now, s => (s.world.now, s)
  | .freshId, s => s.freshId

/-- Runs an attempt. -/
def run {α : Type} (attempt : Attempt α) (s : Collaborators) : Except Fault α × Collaborators :=
  Program.run handle attempt.run s

end Collaborators

end Telemetry.Gate
