import Telemetry.Assoc
import Telemetry.Number.Double

/-!
# The quota cache

A cache in front of a slow lookup. A value stays fresh for a while; a getter that finds it stale or
missing starts a fetch, and all getters that come before the fetch has ended wait for that one. A
fetch that fails or takes too long leaves the last known value, or the default, in place, and counts
as an attempt all the same. A sweeper evicts what has been idle for twice the time to live.

The cache is a state with transitions. Fetches and waiting getters are part of the state, so that
every order in which getters, answers, cancellations and clock movements can interleave is a run of
`Cache.act`.
-/

namespace Telemetry.Quota

/-! ## States -/

/-- The value at a key. Before the first fetch has succeeded it is the default. -/
structure Entry (ν : Type) where
  value : ν
  fetchedAt : Double
  inFlight : Bool

/-- A lookup that has been started and has not ended. -/
structure Fetch where
  key : String
  startedAt : Double
deriving DecidableEq

/-- A getter that waits for the fetch of its key. -/
structure Waiter where
  tag : String
  key : String
deriving DecidableEq, Repr

/-- How a getter ends. -/
inductive Outcome (ν : Type)
  | served (value : ν)
  | cancelled
deriving DecidableEq

/-- The cache with its clock, its pending fetches and its waiting getters. -/
structure Cache (ν : Type) where
  default : ν
  ttl : Double
  sweepInterval : Double
  /-- How long a fetch may take, if there is a bound. -/
  timeout : Option Double
  clock : Double
  entries : List (String × Entry ν)
  fetches : List Fetch
  waiting : List Waiter
  /-- When the sweeper wakes, if it has been started. -/
  wake : Option Double
  /-- How many fetches have been started. -/
  fetchCount : Nat

/-- The getters that ended in a transition, with how they ended. -/
abbrev Endings (ν : Type) := List (String × Outcome ν)

namespace Cache

variable {ν : Type}

/-- A cache without entries at time zero. -/
def empty (default : ν) (ttl sweepInterval : Double) (timeout : Option Double) : Cache ν :=
  ⟨default, ttl, sweepInterval, timeout, .zero, [], [], [], none, 0⟩

/-- The time to live where none is given. -/
def defaultTtl : Double := .ofInt 300

/-- The time between sweeps where none is given. -/
def defaultSweepInterval : Double := .ofInt 600

/-- The bound on a fetch where none is given. -/
def defaultTimeout : Double := .ofInt 2

/-- The entry of a key. -/
def entry? (c : Cache ν) (key : String) : Option (Entry ν) := Assoc.find? key c.entries

/-! ## Getting -/

/-- Whether an entry was fetched less than the time to live ago. -/
def isFresh (c : Cache ν) (e : Entry ν) : Bool :=
  (c.clock.sub e.fetchedAt).lt c.ttl

/-- Lets a getter wait for the fetch of its key. -/
def wait (c : Cache ν) (tag key : String) : Cache ν :=
  { c with waiting := c.waiting ++ [⟨tag, key⟩] }

/-- Starts the fetch of a key for an entry and lets a getter wait for it. -/
def startFetch (c : Cache ν) (tag key : String) (e : Entry ν) : Cache ν :=
  { c with
    entries := Assoc.put key { e with inFlight := true } c.entries
    fetches := c.fetches ++ [⟨key, c.clock⟩]
    waiting := c.waiting ++ [⟨tag, key⟩]
    fetchCount := c.fetchCount + 1 }

/-- A getter arrives: it is served at once from a fresh entry, waits for the fetch in flight, or
starts one. -/
def get (c : Cache ν) (tag key : String) : Cache ν × Endings ν :=
  match c.entry? key with
  | none => (c.startFetch tag key ⟨c.default, c.clock, false⟩, [])
  | some e =>
    if e.inFlight then (c.wait tag key, [])
    else if c.isFresh e then (c, [(tag, .served e.value)])
    else (c.startFetch tag key e, [])

/-! ## The end of a fetch -/

/-- The getters that wait for a key, with one outcome for all. -/
def endingsOf (c : Cache ν) (key : String) (outcome : Outcome ν) : Endings ν :=
  (c.waiting.filter (·.key == key)).map fun w => (w.tag, outcome)

/-- The cache after the fetch of a key has ended and its entry has become `e`. -/
def endFetch (c : Cache ν) (key : String) (e : Entry ν) : Cache ν :=
  { c with
    entries := Assoc.put key e c.entries
    fetches := c.fetches.filter (·.key != key)
    waiting := c.waiting.filter (·.key != key) }

/-- Whether a fetch of a key is pending. -/
def isPending (c : Cache ν) (key : String) : Bool :=
  c.fetches.any (·.key == key)

/-- The fetch of a key ends with a value, or without one if it failed: then the entry keeps the
value it has. All getters that wait for it are served. -/
def finish (c : Cache ν) (key : String) (fetched : Option ν) : Cache ν × Endings ν :=
  match c.entry? key with
  | none => (c, [])
  | some e =>
    let value := fetched.getD e.value
    (c.endFetch key ⟨value, c.clock, false⟩, c.endingsOf key (.served value))

/-- The fetch of a key is aborted: the entry stays as it was, and the getters that wait for the
fetch are cancelled. -/
def abort (c : Cache ν) (key : String) : Cache ν × Endings ν :=
  match c.entry? key with
  | none => (c, [])
  | some e => (c.endFetch key { e with inFlight := false }, c.endingsOf key .cancelled)

/-- Whether a fetch has taken as long as it may. -/
def isOverdue (c : Cache ν) (f : Fetch) : Bool :=
  match c.timeout with
  | some timeout => (f.startedAt.add timeout).le c.clock
  | none => false

/-- The fetches that have taken as long as they may end without a value. -/
def expire (c : Cache ν) : Cache ν × Endings ν :=
  (c.fetches.filter c.isOverdue).foldl (fun (c, ended) f =>
    let (c, more) := c.finish f.key none
    (c, ended ++ more)) (c, [])

/-! ## Other transitions -/

/-- A getter is cancelled while it waits. Neither the fetch nor any other getter notices. -/
def cancel (c : Cache ν) (tag : String) : Cache ν × Endings ν :=
  if c.waiting.any (·.tag == tag) then
    ({ c with waiting := c.waiting.filter (·.tag != tag) }, [(tag, .cancelled)])
  else (c, [])

/-- Drops the entry of a key unless it is being fetched. -/
def invalidate (c : Cache ν) (key : String) : Cache ν :=
  match c.entry? key with
  | some e => if e.inFlight then c else { c with entries := Assoc.erase key c.entries }
  | none => c

/-- Whether an entry has been idle for more than twice the time to live. -/
def isExpired (c : Cache ν) (e : Entry ν) : Bool :=
  !e.inFlight && e.fetchedAt.lt (c.clock.sub ((Double.ofInt 2).mul c.ttl))

/-- How many entries a sweep evicts. -/
def expiredCount (c : Cache ν) : Nat :=
  c.entries.countP fun (_, e) => c.isExpired e

/-- Evicts the entries that have been idle for too long. -/
def sweep (c : Cache ν) : Cache ν :=
  { c with entries := c.entries.filter fun (_, e) => !c.isExpired e }

/-- Starts the sweeper unless it runs. -/
def start (c : Cache ν) : Cache ν :=
  match c.wake with
  | some _ => c
  | none => { c with wake := some (c.clock.add c.sweepInterval) }

/-- Stops the sweeper. -/
def close (c : Cache ν) : Cache ν := { c with wake := none }

/-- The sweeper sweeps once if it is time, and then sleeps a full interval. -/
def wakeSweeper (c : Cache ν) : Cache ν :=
  match c.wake with
  | some wake =>
    if wake.le c.clock then { c.sweep with wake := some (c.clock.add c.sweepInterval) } else c
  | none => c

/-- Moves the clock; then the sweeper and the fetches that are due have their turn. -/
def advance (c : Cache ν) (by_ : Double) : Cache ν × Endings ν :=
  ({ c with clock := c.clock.add by_ }).wakeSweeper.expire

/-- Several getters of one key arrive one after the other, before any fetch can end. -/
def getAll (c : Cache ν) (key : String) (tags : List String) : Cache ν × Endings ν :=
  tags.foldl (fun (c, ended) tag =>
    let (c, more) := c.get tag key
    (c, ended ++ more)) (c, [])

/-! ## Runs -/

/-- What can happen to the cache. -/
inductive Action (ν : Type)
  | get (key : String) (tags : List String)
  | complete (key : String) (value : ν)
  | fail (key : String)
  | abort (key : String)
  | cancel (tag : String)
  | advance (by_ : Double)
  | invalidate (key : String)
  | sweep
  | start
  | close

/-- What an action answers. -/
inductive Answer
  | nothing
  | flag (value : Bool)
  | count (n : Nat)
deriving DecidableEq, Repr

/-- The cache after an action, what the action answers, and the getters that it ends. Fetches that
may take no time at all end together with the action that starts them. -/
def act (c : Cache ν) : Action ν → Cache ν × Answer × Endings ν
  | .get key tags =>
    let (c, served) := c.getAll key tags
    let (c, expired) := c.expire
    (c, .nothing, served ++ expired)
  | .complete key value =>
    if c.isPending key then
      let (c, ended) := c.finish key (some value)
      (c, .flag true, ended)
    else (c, .flag false, [])
  | .fail key =>
    if c.isPending key then
      let (c, ended) := c.finish key none
      (c, .flag true, ended)
    else (c, .flag false, [])
  | .abort key =>
    if c.isPending key then
      let (c, ended) := c.abort key
      (c, .flag true, ended)
    else (c, .flag false, [])
  | .cancel tag =>
    let (c, ended) := c.cancel tag
    (c, .flag (!ended.isEmpty), ended)
  | .advance by_ =>
    let (c, ended) := c.advance by_
    (c, .nothing, ended)
  | .invalidate key => (c.invalidate key, .nothing, [])
  | .sweep => (c.sweep, .count c.expiredCount, [])
  | .start => (c.start, .nothing, [])
  | .close => (c.close, .nothing, [])

/-- The value that a single getter is served when the lookup answers at once. `ask` is the
lookup with its own state; it is not asked if the entry is fresh or the fetch may take no time. -/
def getNow {σ : Type} (ask : String → σ → Option ν × σ) (c : Cache ν) (key : String) (s : σ) :
    ν × Cache ν × σ :=
  let value (ended : Endings ν) : ν :=
    match ended with
    | (_, .served v) :: _ => v
    | _ => c.default
  let (c, _, ended) := c.act (.get key [""])
  if c.isPending key then
    let (answer, s) := ask key s
    let (c, ended) := c.finish key answer
    (value ended, c, s)
  else (value ended, c, s)

end Cache

end Telemetry.Quota
