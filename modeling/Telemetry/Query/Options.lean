import Telemetry.Error
import Telemetry.Time.DateTime

/-!
# Query options

What a read query is restricted to besides its filters: a project, always; a window of time, a
type of events and a status, if wanted; and the page. A query without a project does not exist.
-/

namespace Telemetry.Query

/-- The project, window and page of a read query. -/
structure Options where
  project : String
  startTime : Option Time.DateTime
  endTime : Option Time.DateTime
  eventType : Option String
  /-- The word `error` or `success`, a status code, or null for any status. -/
  status : Json
  limit : Nat
  offset : Nat
  project_ne : project ≠ ""

/-- The page size where none is asked for. -/
def defaultLimit : Nat := 100

namespace Options

/-- Options with these values, if there is a project and the page exists. -/
def create (project : String) (startTime endTime : Option Time.DateTime)
    (eventType : Option String) (status : Json) (limit offset : Int) : Except Fault Options :=
  if h : project = "" then .error (.argument .projectMissing)
  else if limit < 0 ∨ offset < 0 then .error (.argument .negativePage)
  else .ok ⟨project, startTime, endTime, eventType, status, limit.toNat, offset.toNat, h⟩

/-- The first page of a project. -/
def ofProject (project : String) (limit : Int) : Except Fault Options :=
  create project none none none .null limit 0

end Options

end Telemetry.Query
