import Telemetry.Proofs.Gate.Program
import Telemetry.Service

/-!
# Requests on their way

A gate serves many requests at a time. Each of them waits for the answer to one call, the calls of
different requests are answered in any order, and in between anything can happen to the
collaborators. These are arbitrary except for one: events are stored in the warehouse.

A session is a request on its way: what is left of its program, and which events it has sent to the
warehouse with what replies.

Main statements: what every step keeps holds of all sessions of all runs (`Reachable.sessions`), and
a request that is served alone is a run (`reachable_alone`).
-/

namespace Telemetry.Gate

open Http

variable {σ α β : Type} {cap : Int}

/-! ## Storing events over a link -/

theorem over_bind (x : Online α) (f : α → Online β) (link : Link) :
    (x >>= f).over link = match x.over link with
      | (.ok a, link) => (f a).over link
      | (.error fault, link) => (.error fault, link) := by
  unfold Online.over
  rw [ExceptT.run_bind, StateT.run_bind]
  show (match x.run.run link with | (r, link) => _) = _
  rcases x.run.run link with ⟨_ | _, _⟩ <;> rfl

theorem over_lift (x : Except Fault α) (link : Link) :
    (liftM x : Online α).over link = (x, link) := by
  cases x <;> rfl

/-- The request that stores an event. -/
def insertRequest (login : Store.Warehouse.Login) (event : Event) : Outgoing where
  verb := "POST"
  path := "/"
  params := [("date_time_input_format", "best_effort"),
    ("query", "INSERT INTO events FORMAT JSONEachRow")]
  headers := login.headers
  body := Event.rowsText [event]

/-- An event that was sent to the warehouse, with the reply; a fault if it could not be sent. -/
structure Insertion where
  event : Event
  reply : Except Fault Reply

/-- What an insertion is answered. -/
def Insertion.answer (i : Insertion) : Except Fault Unit := do
  let reply ← i.reply
  let _ ← Store.Warehouse.accept reply
  return ()

/-- Sends an event to the warehouse, for the reply alone. -/
def sendEvent (login : Store.Warehouse.Login) (event : Event) (link : Link) : Insertion :=
  ⟨event, ((exchange (insertRequest login event)).over link).1⟩

/-- Whether an event is stored is judged by the reply, and by nothing else. -/
theorem insert_answer (login : Store.Warehouse.Login) (event : Event) (link : Link) :
    ((Store.Warehouse.insert login event).over link).1 = (sendEvent login event link).answer := by
  unfold Store.Warehouse.insert Store.Warehouse.post sendEvent insertRequest Insertion.answer
  rw [over_bind, over_bind]
  rcases Online.over (exchange _) link with ⟨fault | reply, link⟩
  · rfl
  · dsimp only
    rw [over_lift]
    show _ = Except.bind (Store.Warehouse.accept reply) _
    cases Store.Warehouse.accept reply <;> rfl

/-! ## Collaborators -/

/-- Collaborators of a gate, which store events in the warehouse over a link. -/
structure Backend (σ : Type) where
  handle : (c : Call) → σ → c.Answer × σ
  login : σ → Store.Warehouse.Login
  link : σ → Link
  stores : ∀ event s, (handle (.insert event) s).1
    = ((Store.Warehouse.insert (login s) event).over (link s)).1

/-- The collaborators of the service. -/
def serviceBackend : Backend Service where
  handle := Service.handle
  login := Service.login
  link := fun s => ⟨s.warehouse, s.world⟩
  stores := fun _ _ => rfl

namespace Backend

/-- The insertion that a call makes, if it is one. -/
def insertions (b : Backend σ) : Call → σ → List Insertion
  | .insert event, s => [sendEvent (b.login s) event (b.link s)]
  | _, _ => []

theorem handle_insert (b : Backend σ) (event : Event) (s : σ) :
    (b.handle (.insert event) s).1 = (sendEvent (b.login s) event (b.link s)).answer := by
  rw [b.stores, insert_answer]

/-- The insertions that a program makes if it is run alone. -/
def allInsertions (b : Backend σ) : Program α → σ → List Insertion
  | .done _, _ => []
  | .call c next, s =>
    b.insertions c s ++ b.allInsertions (next (b.handle c s).1) (b.handle c s).2

end Backend

/-! ## Sessions -/

/-- A request on its way. -/
structure Session where
  rest : Program (Except Fault Result)
  inserted : List Insertion

/-- What a client can send: a body that has been decoded, or bytes. -/
inductive Arrival
  | decoded (authorization : Option String) (body : Body)
  | raw (authorization : Option String) (bytes : List UInt8)

/-- The program of a request. -/
def Arrival.program (cap : Int) : Arrival → Program (Except Fault Result)
  | .decoded authorization body => (ingest cap authorization body).run
  | .raw authorization bytes => (ingestBytes cap authorization bytes).run

/-- A gate with the state of its collaborators and the requests that have arrived so far. -/
structure Gateway (σ : Type) where
  state : σ
  sessions : List Session

/-- What can happen next: a request arrives, a request has its next call answered, or something
else happens to the collaborators. -/
inductive Step (b : Backend σ) (cap : Int) : Gateway σ → Gateway σ → Prop
  | arrive (s : σ) (sessions : List Session) (arrival : Arrival) :
    Step b cap ⟨s, sessions⟩ ⟨s, sessions ++ [⟨arrival.program cap, []⟩]⟩
  | call (s : σ) (before after : List Session) (c : Call)
    (next : c.Answer → Program (Except Fault Result)) (inserted : List Insertion) :
    Step b cap ⟨s, before ++ ⟨.call c next, inserted⟩ :: after⟩
      ⟨(b.handle c s).2,
        before ++ ⟨next (b.handle c s).1, inserted ++ b.insertions c s⟩ :: after⟩
  | other (s t : σ) (sessions : List Session) : Step b cap ⟨s, sessions⟩ ⟨t, sessions⟩

/-- What a gate can come to from when it opens. -/
inductive Reachable (b : Backend σ) (cap : Int) : Gateway σ → Prop
  | opened (s : σ) : Reachable b cap ⟨s, []⟩
  | next {g h : Gateway σ} (hg : Reachable b cap g) (hstep : Step b cap g h) : Reachable b cap h

section Runs

variable {b : Backend σ} {g h : Gateway σ} {P : Session → Prop}

/-- What holds of every request that arrives, and is kept when a call is answered, is kept by every
step. -/
theorem Step.sessions (harrive : ∀ arrival : Arrival, P ⟨arrival.program cap, []⟩)
    (hcall : ∀ s c next inserted, P ⟨.call c next, inserted⟩ →
      P ⟨next (b.handle c s).1, inserted ++ b.insertions c s⟩)
    (hstep : Step b cap g h) (hg : ∀ session ∈ g.sessions, P session) :
    ∀ session ∈ h.sessions, P session := by
  cases hstep with
  | arrive s sessions arrival =>
    intro session hsession
    rcases List.mem_append.mp hsession with hold | hnew
    · exact hg session hold
    · rw [List.mem_singleton.mp hnew]
      exact harrive arrival
  | call s before after c next inserted =>
    intro session hsession
    rcases List.mem_append.mp hsession with hbefore | hrest
    · exact hg session (List.mem_append_left _ hbefore)
    · rcases List.mem_cons.mp hrest with rfl | hafter
      · exact hcall s c next inserted (hg _ (List.mem_append_right _ (.head after)))
      · exact hg session (List.mem_append_right _ (.tail _ hafter))
  | other s t sessions => exact hg

/-- **What holds of every request that arrives, and is kept when a call is answered, holds of every
request in every run.** -/
theorem Reachable.sessions (harrive : ∀ arrival : Arrival, P ⟨arrival.program cap, []⟩)
    (hcall : ∀ s c next inserted, P ⟨.call c next, inserted⟩ →
      P ⟨next (b.handle c s).1, inserted ++ b.insertions c s⟩)
    (hg : Reachable b cap g) : ∀ session ∈ g.sessions, P session := by
  induction hg with
  | opened s => exact fun session hsession => nomatch hsession
  | next _ hstep ih => exact hstep.sessions harrive hcall ih

/-! ## Requests one after the other -/

/-- A request may be served to its end before anything else happens. -/
theorem Reachable.run (p : Program (Except Fault Result)) :
    ∀ {s : σ} {sessions : List Session} {inserted : List Insertion},
      Reachable b cap ⟨s, sessions ++ [⟨p, inserted⟩]⟩ →
      Reachable b cap ⟨(p.run b.handle s).2,
        sessions ++ [⟨.done (p.run b.handle s).1, inserted ++ b.allInsertions p s⟩]⟩ := by
  induction p with
  | done r =>
    intro s sessions inserted hg
    rw [Backend.allInsertions, List.append_nil]
    exact hg
  | call c next ih =>
    intro s sessions inserted hg
    rw [Backend.allInsertions, ← List.append_assoc]
    exact ih _ (hg.next (.call s sessions [] c next inserted))

/-- The gate after one request that is served alone. -/
def alone (b : Backend σ) (cap : Int) (s : σ) (arrival : Arrival) : Gateway σ :=
  ⟨((arrival.program cap).run b.handle s).2,
    [⟨.done ((arrival.program cap).run b.handle s).1, b.allInsertions (arrival.program cap) s⟩]⟩

theorem reachable_alone (b : Backend σ) (cap : Int) (s : σ) (arrival : Arrival) :
    Reachable b cap (alone b cap s arrival) :=
  ((Reachable.opened s).next (.arrive s [] arrival)).run (arrival.program cap)

end Runs

end Telemetry.Gate
