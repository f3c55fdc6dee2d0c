import Telemetry.Json.Basic

/-!
# Events of requests in progress

While a request is captured its event is the current one, which the application and whatever it
calls can look at and change. A request can be captured inside another one; then its event hides the
outer event until it has been served.
-/

namespace Telemetry.Capture

/-- The events of the requests that are being captured inside each other, the innermost first. -/
abbrev Context := List Json.Object

namespace Context

/-- The current event, none outside of a captured request. -/
def event? (c : Context) : Option Json.Object := c.head?

/-- Changes the current event; outside of a captured request there is nothing to change. -/
def change (event : Json.Object) : Context → Context
  | [] => []
  | _ :: outer => event :: outer

/-- Makes an event the current one. The answer is a token with which that is undone: how many events
there were before. -/
def bind (event : Json.Object) (c : Context) : Nat × Context := (c.length, event :: c)

/-- Goes back to the event that was current when a token was given out. -/
def unbind (token : Nat) (c : Context) : Context := c.drop (c.length - token)

end Context

end Telemetry.Capture
