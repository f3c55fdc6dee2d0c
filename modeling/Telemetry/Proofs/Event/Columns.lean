import Telemetry.Proofs.Event.Rows
import Telemetry.Proofs.Json.Codec

/-!
# Columns of events

The row of an event is read back from its line as it is. It has the columns of the system and one
for what the caller sent, which differs from that in the trace id alone, and the trace id is a text
that is not empty.

Main statements: `decode_rowsText` for the row, `erase_payloadColumn` for the caller's column.
-/

namespace Telemetry

namespace Assoc

variable {κ ν : Type} [DecidableEq κ]

/-- Nothing but its own entry tells that a key was written. -/
theorem erase_put (key : κ) (value : ν) (table : List (κ × ν)) :
    erase key (put key value table) = erase key table := by
  unfold erase
  induction table with
  | nil => simp [put]
  | cons entry rest ih =>
    obtain ⟨k, v⟩ := entry
    rw [put]
    split
    · rename_i hk
      rw [List.filter_cons_of_neg (by simp [hk]), List.filter_cons_of_neg (by simp [hk])]
    · rename_i hk
      rw [List.filter_cons_of_pos (by simp [hk]), List.filter_cons_of_pos (by simp [hk]), ih]

end Assoc

namespace Event

open Json (Fits Legible maxDepth)
open Gate.Collaborators (draftOf)

variable {e : Event} {draft : Draft} {fields : Json.Object} {depth : Nat} {v : Json}

/-! ## Names -/

/-- The names of the columns. -/
def columnNames : List String :=
  ["_id", "_project_id", "_timestamp", "_ingested_at", "_event_type", "_status_code", "_outcome",
    "event"]

theorem row_names (e : Event) : e.row.map Prod.fst = columnNames := rfl

theorem get_event (e : Event) : Json.get "event" e.row = .obj e.payloadColumn := by
  simp [Json.get, row, Assoc.find?]

/-- The caller's column is what the caller sent, the trace id apart. -/
theorem erase_payloadColumn (e : Event) :
    Assoc.erase "trace_id" e.payloadColumn = Assoc.erase "trace_id" e.payload :=
  Assoc.erase_put ..

/-- No event is without a type. -/
theorem typeOfValue_ne (v : Json) : typeOfValue v ≠ "" := by
  cases v with
  | str s =>
    rw [typeOfValue]
    split
    · decide
    · assumption
  | _ => exact (by decide : unknownType ≠ "")

/-! ## Trace ids -/

theorem integer_ne (i : Int) : Text.integer i ≠ "" := by
  obtain ⟨c, more, htext, -⟩ := (Json.written_int i).head []
  intro h
  rw [h] at htext
  cases htext

theorem double_text_ne (x : Double) : x.text ≠ "" := by
  cases x with
  | nan => decide
  | infinite negative => cases negative <;> decide
  | finite negative units h =>
    -- A finite double is displayed as JSON has it.
    obtain ⟨c, more, htext, -⟩ := Json.write_double_head (.finite negative units h) []
    intro h
    change (Double.text _).toList ++ [] = _ at htext
    rw [h] at htext
    cases htext

/-- An identifier that a caller sent is not empty. -/
theorem identifier?_ne {id : String} (h : identifier? v = some id) : id ≠ "" := by
  unfold identifier? at h
  split at h
  · cases h
  · rename_i hnone
    cases h
    cases v with
    | bool b => cases b <;> decide
    | int i => exact integer_ne i
    | float x => exact double_text_ne x
    | str s =>
      rintro rfl
      exact hnone rfl
    | null | arr | obj => exact absurd rfl hnone

/-- The trace id of a record is not empty if the one that it takes for want of another is not. -/
theorem ofDraft_traceId_ne {freshTraceId : String}
    (h : draft.needsTraceId = true → freshTraceId ≠ "") (project id : String)
    (arrival : Time.DateTime) : (ofDraft project id freshTraceId arrival draft).traceId ≠ "" := by
  show (callerTraceId? (propertiesOfValue draft.properties)).getD freshTraceId ≠ ""
  cases htrace : callerTraceId? (propertiesOfValue draft.properties) with
  | none =>
    refine h ?_
    unfold Draft.needsTraceId
    rw [htrace]
    rfl
  | some traceId =>
    unfold callerTraceId? at htrace
    rcases Option.or_eq_some_iff.mp htrace with hsent | ⟨-, hsent⟩ <;> exact identifier?_ne hsent

/-! ## Limits -/

theorem fits_get (hfields : ∀ f ∈ fields, Fits (depth + 1) f.2) (name : String) :
    Fits (depth + 1) (Json.get name fields) := by
  unfold Json.get
  cases hfind : Assoc.find? name fields with
  | none => trivial
  | some v => exact Assoc.of_find? hfields hfind

end Event

end Telemetry
