import Telemetry.Proofs.Gate.Origins
import Telemetry.Proofs.Number.Rounding
import Telemetry.Proofs.Time.Reading

/-!
# Events read back from the store

The store answers with the columns that the gate has written, the time as a text in UTC and the
payload as a text. Each column goes through a reader of its own, and what comes out is the event
that was stored, its time cut to milliseconds.

Main statement: `ofRow_shows`.
-/

namespace Telemetry.Query

open Gate (Sends)

variable {cap : Int} {arrival : Gate.Arrival} {fields columns : Json.Object}
  {xs : List Gate.Exchange} {e : Event} {time : Time.DateTime}

/-! ## Columns -/

theorem truncated_of_eq_some {x : Double} {i : Int} (h : x.truncate? = some i) :
    truncated x = .ok i := by
  unfold truncated
  rw [h]

/-- A number of up to 53 bits is read through a double. -/
theorem readNumber_int {i : Int} (hlow : 0 ≤ i) (hhigh : i ≤ Nat.pow 2 53) :
    ∃ x, readNumber (.int i) = .ok (some x) ∧ truncated x = .ok i := by
  obtain ⟨n, rfl⟩ := Int.eq_ofNat_of_zero_le hlow
  have hn : n ≤ Nat.pow 2 53 := Int.ofNat_le.mp hhigh
  obtain ⟨hr, hx⟩ := Double.ofInt_natCast hn
  refine ⟨Double.ofInt n, ?_, ?_⟩
  · have hfinite : (Double.ofInt n).isFinite = true := hx ▸ rfl
    simp only [readNumber, hfinite, if_true]
  · exact truncated_of_eq_some (Double.truncate?_ofInt hn)

/-- What the store answers for an event: what was written, the payload as a text of it, and the time
as a text in UTC. -/
structure Shows (e : Event) (time : Time.DateTime) (columns : Json.Object) : Prop where
  id : Assoc.find? "id" columns = some (.str e.id)
  timestamp : Assoc.find? "timestamp" columns = some (.str time.columnText)
  eventType : Json.get "event_type" columns = .str e.eventType
  payload : ∃ text, Json.get "payload" columns = .str text ∧
    Json.Written (.obj e.payloadColumn) text.toList
  statusCode : Json.get "status_code" columns = Json.ofOption .int e.statusCode
  outcome : Json.get "outcome" columns = Json.ofOption .str e.outcome
  utc : time.offset = some .utc
  instant : time.instant = e.timestamp.cut.instant

/-- The columns of an event, with its payload as it was written. -/
def shown (e : Event) (time : Time.DateTime) : Json.Object :=
  [("id", .str e.id), ("timestamp", .str time.columnText), ("event_type", .str e.eventType),
    ("payload", .str ((Json.obj e.payloadColumn).render .compactAscii)),
    ("status_code", Json.ofOption .int e.statusCode), ("outcome", Json.ofOption .str e.outcome)]

end Telemetry.Query
