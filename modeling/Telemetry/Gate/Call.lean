import Telemetry.Event.Basic
import Telemetry.Key
import Telemetry.Query.Row

/-!
# Calls to collaborators

The service works with stores and clocks that it does not own. A program names each call to one of
them and goes on with its answer; who answers, and in which order the calls of several programs are
answered, is left open. Running one program against a handler is the sequential reading.
-/

namespace Telemetry.Gate

/-- A call to a collaborator. -/
inductive Call
  /-- Looks a key up by the digest of its token. -/
  | findKey (digest : String)
  /-- Notes that a key was used. -/
  | recordUsage (key : String) (time : Time.DateTime)
  /-- Asks for the monthly limit of an account; none if there is no limit service. -/
  | limit (account : String)
  /-- Lists the projects of an account. -/
  | projectsOf (account : String)
  /-- Counts the events of some projects that arrived since a time. -/
  | countSince (projects : List String) (since : Time.DateTime)
  /-- Asks whether a project has an event of a type. -/
  | hasEventType (project eventType : String)
  /-- Stores an event. -/
  | insert (event : Event)
  /-- Runs a statement over the stored events. -/
  | query (statement : String)
  /-- Reads the time of day. -/
  | now
  /-- Draws a fresh identifier. -/
  | freshId

/-- What a call is answered with. -/
def Call.Answer : Call → Type
  | .findKey _ => Except Fault (Option Key)
  | .recordUsage .. => Except Fault Unit
  | .limit _ => Option Int
  | .projectsOf _ => Except Fault (List String)
  | .countSince .. => Except Fault Int
  | .hasEventType .. => Except Fault Bool
  | .insert _ => Except Fault Unit
  | .query _ => Except Fault (List Query.Row)
  | .now => Time.DateTime
  | .freshId => String

/-- A program that calls collaborators and ends with a result. -/
inductive Program (α : Type)
  | done (result : α)
  | call (call : Call) (next : call.Answer → Program α)

namespace Program

/-- Goes on with the result of a program. -/
def bind {α β : Type} : Program α → (α → Program β) → Program β
  | .done a, f => f a
  | .call c next, f => .call c fun answer => (next answer).bind f

instance : Monad Program where
  pure := .done
  bind := bind

/-- The program that makes one call. -/
def ask (c : Call) : Program c.Answer := .call c .done

/-- Answers calls one after the other, each with the state that the previous ones left. -/
def run {σ α : Type} (handler : (c : Call) → σ → c.Answer × σ) : Program α → σ → α × σ
  | .done a, s => (a, s)
  | .call c next, s =>
    let (answer, s) := handler c s
    (next answer).run handler s

end Program

/-- A program that can stop with a fault. -/
abbrev Attempt := ExceptT Fault Program

/-- Makes a call inside an attempt. -/
def Attempt.ask (c : Call) : Attempt c.Answer := ExceptT.lift (Program.ask c)

/-- Stops an attempt with a refusal. -/
def refuse {α : Type} (r : Refusal) : Attempt α := throw (.refusal r)

end Telemetry.Gate
