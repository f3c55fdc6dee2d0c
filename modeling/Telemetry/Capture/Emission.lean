import Telemetry.Capture.Middleware

/-!
# Sending captured events

Events are sent in the background, after the request has been served. A transport can fail; the
failure is taken for a refusal, so that it does not get any further. Only a transport that is
cancelled ends what waits for it.
-/

namespace Telemetry.Capture

open Http

variable {σ α : Type}

/-- A transport with a state of its own: it answers whether an event was accepted, or fails. -/
abbrev Transport (σ : Type) := ReadyEvent → σ → Except Fault Bool × σ

/-- Sends an event and takes a failure for a refusal. -/
def deliver (transport : Transport σ) (event : ReadyEvent) (s : σ) : Except Fault Bool × σ :=
  match transport event s with
  | (.error .cancelled, s) => (.error .cancelled, s)
  | (.error _, s) => (.ok false, s)
  | (.ok accepted, s) => (.ok accepted, s)

/-- The layer between two requests: the events that are under way, and the state of the
transport. -/
structure Layer (σ : Type) where
  pending : List ReadyEvent
  transport : σ

namespace Layer

/-- Puts an event under way, if there is one. -/
def dispatch (ready : Option ReadyEvent) (layer : Layer σ) : Layer σ :=
  { layer with pending := layer.pending ++ ready.toList }

/-- Serves a request and puts its event under way. -/
def call (layer : Layer σ) (config : Config) (app : App α) (r : Request) (incoming : List Incoming)
    (context : Context) (w : World) : Served α × Layer σ :=
  let served := serve config app r incoming context w
  (served, layer.dispatch served.ready)

/-- Delivers events one after the other, up to the first that cannot even be refused. Answers what
is still under way. -/
def deliverAll (transport : Transport σ) : List ReadyEvent → σ → Except Fault Unit × Layer σ
  | [], s => (.ok (), ⟨[], s⟩)
  | event :: rest, s =>
    match deliver transport event s with
    | (.ok _, s) => deliverAll transport rest s
    | (.error fault, s) => (.error fault, ⟨rest, s⟩)

/-- Waits until no event is under way any more. -/
def flush (transport : Transport σ) (layer : Layer σ) : Except Fault Unit × Layer σ :=
  deliverAll transport layer.pending layer.transport

end Layer

end Telemetry.Capture
