import Telemetry.Proofs.Gate.Accounting
import Telemetry.Proofs.Json.Limits
import Telemetry.Proofs.Json.Writing

/-!
# Rows of events

The row as which an event is stored is one line of printable ASCII, whatever the event holds. The
names in it are distinct, since those of the payload were read from a body. What keeps a row from
being JSON is one thing only: a number in the payload that is not finite. Bodies can hold such
numbers, because reading takes more than the standard has.

Main statement: `rowsText_of_body`.
-/

namespace Telemetry

/-! ## Fields -/

theorem Assoc.mem_put_iff {κ ν : Type} [DecidableEq κ] {key : κ} {value : ν} {table : List (κ × ν)}
    (h : (table.map Prod.fst).Nodup) {entry : κ × ν} :
    entry ∈ put key value table ↔ entry = (key, value) ∨ (entry ∈ table ∧ entry.1 ≠ key) := by
  induction table with
  | nil => simp [put]
  | cons first rest ih =>
    obtain ⟨k, v⟩ := first
    rw [List.map_cons, List.nodup_cons] at h
    rw [put]
    split
    · rename_i hk
      subst hk
      have hrest : entry ∈ rest → entry.1 ≠ k := by
        rintro hmem rfl
        exact h.1 (List.mem_map.mpr ⟨entry, hmem, rfl⟩)
      grind
    · rw [List.mem_cons, ih h.2, List.mem_cons]
      grind

namespace Json

theorem allFiniteFields_iff {fields : Object} :
    allFiniteFields fields = true ↔ ∀ f ∈ fields, f.2.allFinite = true := by
  induction fields with
  | nil => simp [allFiniteFields]
  | cons f rest ih =>
    obtain ⟨name, v⟩ := f
    rw [allFiniteFields, Bool.and_eq_true, List.forall_mem_cons, ih]

end Json

namespace Event

variable {e : Event}

/-! ## Rows -/

/-- Every number in the payload of an event is finite, a sent trace id apart: the row has the
resolved one in its place. -/
def PayloadFinite (e : Event) : Prop :=
  ∀ f ∈ e.payload, f.1 ≠ "trace_id" → f.2.allFinite = true

/-- The names in the payload of an event are distinct, at every depth. -/
def PayloadDistinct (e : Event) : Prop := (Json.obj e.payload).NamesDistinct

theorem row_namesDistinct (h : e.PayloadDistinct) : (Json.obj e.row).NamesDistinct := by
  obtain ⟨hnames, hvalues⟩ := Json.namesDistinct_obj_iff.mp h
  have hcolumn : (Json.obj e.payloadColumn).NamesDistinct :=
    Json.namesDistinct_obj_iff.mpr
      ⟨Assoc.nodup_put hnames, Assoc.forall_put (P := Json.NamesDistinct) trivial hvalues⟩
  have hstatus : (Json.ofOption .int e.statusCode).NamesDistinct := by
    cases e.statusCode <;> trivial
  have houtcome : (Json.ofOption .str e.outcome).NamesDistinct := by
    cases e.outcome <;> trivial
  refine Json.namesDistinct_obj_iff.mpr ⟨?_, ?_⟩
  · have hcolumns : ["_id", "_project_id", "_timestamp", "_ingested_at", "_event_type",
        "_status_code", "_outcome", "event"].Nodup := by decide
    exact hcolumns
  · simp only [row, List.forall_mem_cons]
    exact ⟨trivial, trivial, trivial, trivial, trivial, hstatus, houtcome, hcolumn,
      List.forall_mem_nil _⟩

theorem row_allFinite_iff (h : e.PayloadDistinct) :
    (Json.obj e.row).allFinite = true ↔ e.PayloadFinite := by
  have hnames := (Json.namesDistinct_obj_iff.mp h).1
  have hstatus : (Json.ofOption .int e.statusCode).allFinite = true := by
    cases e.statusCode <;> rfl
  have houtcome : (Json.ofOption .str e.outcome).allFinite = true := by
    cases e.outcome <;> rfl
  have hcolumn : (Json.obj e.payloadColumn).allFinite = true ↔ e.PayloadFinite := by
    -- A trace id that was sent is overwritten by a text, so that it does not count.
    show Json.allFiniteFields (Assoc.put "trace_id" (.str e.traceId) e.payload) = true ↔ _
    rw [Json.allFiniteFields_iff]
    constructor
    · exact fun hall f hf hname => hall f ((Assoc.mem_put_iff hnames).mpr (.inr ⟨hf, hname⟩))
    · intro hall f hf
      rcases (Assoc.mem_put_iff hnames).mp hf with rfl | ⟨hf, hname⟩
      · rfl
      · exact hall f hf hname
  rw [← hcolumn]
  show Json.allFiniteFields e.row = true ↔ _
  rw [Json.allFiniteFields_iff]
  simp only [row, List.forall_mem_cons]
  exact ⟨fun hall => hall.2.2.2.2.2.2.2.1,
    fun hpayload => ⟨rfl, rfl, rfl, rfl, rfl, hstatus, houtcome, hpayload,
      List.forall_mem_nil _⟩⟩

/-- The line of an event among the rows. -/
def line (e : Event) : List Char := (Json.obj e.row).write .compactAscii

/-- The row of an event is a line of its own. -/
theorem rowsText_singleton (e : Event) : rowsText [e] = String.ofList (e.line ++ ['\n']) := by
  unfold rowsText Json.Lines.encode
  rw [List.map_singleton, List.flatMap_singleton]
  rfl

/-- How a line says what the row of an event is: in printable ASCII, and as the standard has it just
if the payload's numbers are finite. -/
structure IsLine (e : Event) (line : List Char) : Prop where
  printable : ∀ c ∈ line, Json.IsPrintable c
  standard : e.PayloadFinite → Json.Written (Json.obj e.row).reread line
  beyond : ¬ e.PayloadFinite → ∀ v, ¬ Json.Written v line

theorem isLine (h : e.PayloadDistinct) : IsLine e e.line where
  printable := Json.printable_write _
  standard hfinite := by
    have hrow := (row_allFinite_iff h).mpr hfinite
    rw [Json.reread_eq _ hrow]
    exact Json.written_write true _ (row_namesDistinct h) hrow
  beyond hfinite v hv :=
    hfinite ((row_allFinite_iff h).mp ((Json.exists_written_iff (row_namesDistinct h)).mp ⟨v, hv⟩))

end Event

namespace Gate

open Collaborators (draftOf oneKey handle)

variable {σ : Type} {raw : List UInt8} {fields : Json.Object}

/-! ## Events of bodies -/

/-- The record of a body, whoever answers for the time of day and for identifiers. -/
theorem run_buildEvent_any (handler : (c : Call) → σ → c.Answer × σ) (project : String)
    (fields : Json.Object) (s : σ) :
    ∃ id traceId arrival t, (buildEvent project fields).runWith handler s
      = (.ok (Event.ofDraft project id traceId arrival (draftOf fields)), t) := by
  have hfresh : ∀ s : σ, (Attempt.ask .freshId).runWith handler s
      = (.ok (handler .freshId s).1, (handler .freshId s).2) := fun s => rfl
  have hrun : (buildEvent project fields).runWith handler s = _ :=
    Collaborators.run_build (hfresh (handler .now s).2) (hfresh _) project (handler .now s).1
      (draftOf fields)
  rw [hrun]
  -- An identifier is drawn for the trace only if the body has none.
  split
  · exact ⟨_, _, _, _, rfl⟩
  · exact ⟨_, _, _, _, rfl⟩

theorem payloadDistinct_ofDraft (hnames : (Json.obj fields).NamesDistinct)
    (project id traceId : String) (arrival : Time.DateTime) :
    (Event.ofDraft project id traceId arrival (draftOf fields)).PayloadDistinct := by
  have hfields := (Json.namesDistinct_obj_iff.mp hnames).2
  show (Json.obj (Event.propertiesOfValue (Json.get "properties" fields))).NamesDistinct
  have hproperties : (Json.get "properties" fields).NamesDistinct := by
    unfold Json.get
    cases hfind : Assoc.find? "properties" fields with
    | none => trivial
    | some v => exact Assoc.of_find? hfields hfind
  cases hvalue : Json.get "properties" fields with
  | obj properties =>
    rw [hvalue] at hproperties
    exact hproperties
  | _ => exact ⟨List.nodup_nil, trivial⟩

theorem payloadDistinct_of_body (hread : Json.parseBytes raw = .ok (.obj fields))
    (project id traceId : String) (arrival : Time.DateTime) :
    (Event.ofDraft project id traceId arrival (draftOf fields)).PayloadDistinct :=
  payloadDistinct_ofDraft (Json.namesDistinct_of_parseBytes hread) project id traceId arrival

/-- **The event of every body that is read is stored as one line**, and the line is JSON exactly if
the payload's numbers are finite. -/
theorem rowsText_of_body (hread : Json.parseBytes raw = .ok (.obj fields))
    (handler : (c : Call) → σ → c.Answer × σ) (project : String) (s : σ) :
    ∃ e t, (buildEvent project fields).runWith handler s = (.ok e, t) ∧
      e.payload = Event.propertiesOfValue (Json.get "properties" fields) ∧
      ∃ line, Event.rowsText [e] = String.ofList (line ++ ['\n']) ∧ Event.IsLine e line := by
  obtain ⟨id, traceId, arrival, t, hrun⟩ := run_buildEvent_any handler project fields s
  exact ⟨_, t, hrun, rfl, _, Event.rowsText_singleton _,
    Event.isLine (payloadDistinct_of_body hread project id traceId arrival)⟩

/-- A body with one property. -/
def oneProperty (value : Json) : Json.Object :=
  [("event", .str "x"), ("properties", .obj [("a", value)])]

/-- The bytes of a text, which is in ASCII. -/
def asciiBytes (s : String) : List UInt8 := s.toList.map fun c => UInt8.ofNat c.toNat

theorem rowsText_of_body_integer :
    Json.parseBytes (asciiBytes "\x7b\"event\":\"x\",\"properties\":\x7b\"a\":1\x7d\x7d")
        = .ok (.obj (oneProperty (.int 1))) ∧
      ∃ e t, (buildEvent "project" (oneProperty (.int 1))).runWith handle oneKey = (.ok e, t) ∧
        e.payload = Event.propertiesOfValue (Json.get "properties" (oneProperty (.int 1))) ∧
        ∃ line, Event.rowsText [e] = String.ofList (line ++ ['\n']) ∧ Event.IsLine e line := by
  have hread : Json.parseBytes (asciiBytes "\x7b\"event\":\"x\",\"properties\":\x7b\"a\":1\x7d\x7d")
      = .ok (.obj (oneProperty (.int 1))) := by
    rw [Json.parseBytes, Json.decodeBytes?_ascii (Json.isAscii_of_all (by decide))]
    rfl
  exact ⟨hread, rowsText_of_body hread handle "project" oneKey⟩

/-- A body in which a number is none is read, and its event is stored as a line that is no JSON. -/
theorem nan_row :
    Json.parseBytes (asciiBytes "\x7b\"event\":\"x\",\"properties\":\x7b\"a\":NaN\x7d\x7d")
        = .ok (.obj (oneProperty (.float .nan))) ∧
      ∃ e t, (buildEvent "project" (oneProperty (.float .nan))).runWith handle oneKey = (.ok e, t) ∧
        ∀ line v, Event.rowsText [e] = String.ofList (line ++ ['\n']) → ¬ Json.Written v line := by
  have hread : Json.parseBytes (asciiBytes "\x7b\"event\":\"x\",\"properties\":\x7b\"a\":NaN\x7d\x7d")
      = .ok (.obj (oneProperty (.float .nan))) := by
    rw [Json.parseBytes, Json.decodeBytes?_ascii (Json.isAscii_of_all (by decide))]
    rfl
  obtain ⟨id, traceId, arrival, t, hrun⟩ :=
    run_buildEvent_any handle "project" (oneProperty (.float .nan)) oneKey
  refine ⟨hread, _, t, hrun, fun line v htext hv => ?_⟩
  have hdistinct := payloadDistinct_of_body hread "project" id traceId arrival
  rw [Event.rowsText_singleton, String.ofList_inj] at htext
  rw [← List.append_cancel_right htext] at hv
  refine (Event.isLine hdistinct).beyond (fun hfinite => ?_) v hv
  exact absurd (hfinite ("a", .float .nan) List.mem_cons_self (by decide)) Bool.false_ne_true

end Gate

end Telemetry
