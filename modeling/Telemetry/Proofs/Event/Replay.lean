import Telemetry.Proofs.Event.Columns
import Telemetry.Proofs.Event.Timestamps

/-!
# Building an event again

What a caller sends is settled when the event is built: the type, the trace id, the status code, the
outcome and the time. The row has all of it in the form in which it was settled, so that building
from the row settles nothing anew. Only the time can change, where it has an offset that is written
but not read.

Main statement: `replays_iff`.
-/

namespace Telemetry.Event

open Time.Iso (IsTold)

variable {w e : Event} {draft : Draft} {σ : Type}

/-! ## Columns -/

theorem get_eventType_row (e : Event) : Json.get "_event_type" e.row = .str e.eventType := by
  simp [Json.get, row, Assoc.find?]

theorem get_put_of_ne {name key : String} (h : key ≠ name) (v : Json) (fields : Json.Object) :
    Json.get name (Assoc.put key v fields) = Json.get name fields := by
  rw [Json.get, Assoc.find?_put_of_ne h, Json.get]

/-- Of the properties that settle the status code none is the trace id. -/
theorem firstStatus?_put {names : List String} (h : "trace_id" ∉ names) (v : Json)
    (fields : Json.Object) :
    firstStatus? (Assoc.put "trace_id" v fields) names = firstStatus? fields names := by
  induction names with
  | nil => rfl
  | cons name more ih =>
    rw [List.mem_cons, not_or] at h
    rw [firstStatus?, firstStatus?, get_put_of_ne h.1, ih h.2]

theorem statusCode?_payloadColumn (e : Event) :
    statusCode? e.payloadColumn = statusCode? e.payload :=
  firstStatus?_put (by decide) _ _

theorem outcome?_payloadColumn (e : Event) : outcome? e.payloadColumn = outcome? e.payload :=
  congrArg Json.str? (get_put_of_ne (by decide) _ _)

/-- The trace id in the column of a row is the one that was resolved. -/
theorem callerTraceId?_payloadColumn (h : e.traceId ≠ "") :
    callerTraceId? e.payloadColumn = some e.traceId := by
  have hget : Json.get "trace_id" e.payloadColumn = .str e.traceId := by
    rw [Json.get, payloadColumn, Assoc.find?_put_self, Option.getD_some]
  have hid : identifier? (.str e.traceId) = some e.traceId := by
    simp [identifier?, Json.isNull, Json.isText, Json.isContainer, Json.display, h]
  rw [callerTraceId?, hget, hid, Option.some_or]

/-! ## Records -/

/-- A record is settled: what its payload says is what its fields say, and neither the type nor the
trace id is empty. -/
structure Settled (e : Event) : Prop where
  eventType : e.eventType ≠ ""
  traceId : e.traceId ≠ ""
  statusCode : e.statusCode = statusCode? e.payload
  outcome : e.outcome = outcome? e.payload
  timestamp : e.timestamp.isAware = true

/-- What a row says about its event. -/
def draftOfRow (row : Json.Object) : Draft :=
  ⟨Json.get "_event_type" row, Json.get "event" row, Json.get "_timestamp" row⟩

/-- One event is like another but for its identifier and its arrival: it has the same type, trace
id, status code and outcome, and its row has the same time and the same caller's column. -/
structure Replayed (w e : Event) : Prop where
  eventType : e.eventType = w.eventType
  traceId : e.traceId = w.traceId
  statusCode : e.statusCode = w.statusCode
  outcome : e.outcome = w.outcome
  timestamp : Json.get "_timestamp" e.row = Json.get "_timestamp" w.row
  column : Json.get "event" e.row = Json.get "event" w.row

theorem readTimestamp?_eq_some {v : Json} {t : Time.DateTime} (h : readTimestamp? v = some t) :
    ∃ read, (∃ s, Time.Iso.read? s = some read) ∧ read.withZone = t := by
  cases v with
  | str s =>
    rw [readTimestamp?] at h
    split at h
    · cases h
    · obtain ⟨read, hread, rfl⟩ := Option.map_eq_some_iff.mp h
      exact ⟨read, ⟨s, hread⟩, rfl⟩
  | _ => cases h

/-- The time that a value names is never lost. -/
theorem isTold_readTimestamp? {v : Json} {t : Time.DateTime} (h : readTimestamp? v = some t) :
    IsTold t.offset := by
  obtain ⟨read, ⟨s, hread⟩, rfl⟩ := readTimestamp?_eq_some h
  have htold := Time.Iso.isTold_of_read? hread
  intro o ho
  cases hoffset : read.offset with
  | none =>
    cases (congrArg (Option.getD · Time.Offset.utc) hoffset).symm.trans (Option.some.inj ho)
    exact fun hne => absurd rfl hne
  | some kept =>
    cases (congrArg (Option.getD · Time.Offset.utc) hoffset).symm.trans (Option.some.inj ho)
    exact htold kept hoffset

variable {project id freshTraceId : String} {arrival : Time.DateTime}

/-- The time that is read from a row. -/
theorem timestamp_ofRow (h : w.timestamp.isAware = true) :
    (ofDraft project id freshTraceId arrival (draftOfRow w.row)).timestamp
      = { w.timestamp.cut with offset := w.timestamp.offset.map .kept } := by
  obtain ⟨o, ho⟩ := Option.isSome_iff_exists.mp h
  have hdraft : (draftOfRow w.row).timestamp = .str w.timestamp.millisText := get_timestamp_row w
  rw [timestamp_ofDraft, hdraft, readTimestamp?_millisText, Option.getD_some, ho]
  rfl

/-- The text of a time is the same once it has been read, if its offset is kept. -/
theorem millisText_ofRow_iff (h : w.timestamp.isAware = true) :
    (ofDraft project id freshTraceId arrival (draftOfRow w.row)).timestamp.millisText
      = w.timestamp.millisText ↔ IsTold w.timestamp.offset := by
  obtain ⟨o, ho⟩ := Option.isSome_iff_exists.mp h
  rw [timestamp_ofRow h, Time.Iso.isTold_iff, ho, Option.map_some, Option.some_inj]
  constructor
  · intro htext
    exact Time.DateTime.kept_of_millisText (t := w.timestamp.cut) ho
      (htext.trans w.timestamp.millisText_cut.symm)
  · intro hkept
    rw [hkept, ← ho]
    exact w.timestamp.millisText_cut

/-- **A settled record is built again from its row**, exactly if the offset of its time is kept. -/
theorem Settled.replayed_iff (h : Settled w) (project id freshTraceId : String)
    (arrival : Time.DateTime) :
    Replayed w (ofDraft project id freshTraceId arrival (draftOfRow w.row)) ↔
      IsTold w.timestamp.offset := by
  have hproperties : propertiesOfValue (draftOfRow w.row).properties = w.payloadColumn :=
    congrArg propertiesOfValue (get_event w)
  have htrace :
      (ofDraft project id freshTraceId arrival (draftOfRow w.row)).traceId = w.traceId := by
    show (callerTraceId? (propertiesOfValue _)).getD freshTraceId = _
    rw [hproperties, callerTraceId?_payloadColumn h.traceId, Option.getD_some]
  have htimestamp : Json.get "_timestamp"
      (ofDraft project id freshTraceId arrival (draftOfRow w.row)).row
        = Json.get "_timestamp" w.row ↔ IsTold w.timestamp.offset := by
    rw [get_timestamp_row, get_timestamp_row, Json.str.injEq, millisText_ofRow_iff h.timestamp]
  refine ⟨fun hreplayed => htimestamp.mp hreplayed.timestamp, fun htold => ⟨?_, htrace, ?_, ?_,
    htimestamp.mpr htold, ?_⟩⟩
  · show typeOfValue (Json.get "_event_type" w.row) = _
    rw [get_eventType_row, typeOfValue, if_neg h.eventType]
  · show statusCode? (propertiesOfValue _) = _
    rw [hproperties, statusCode?_payloadColumn, h.statusCode]
  · show outcome? (propertiesOfValue _) = _
    rw [hproperties, outcome?_payloadColumn, h.outcome]
  · have hpayload : (ofDraft project id freshTraceId arrival (draftOfRow w.row)).payload
        = w.payloadColumn := hproperties
    rw [get_event, get_event, payloadColumn, htrace, hpayload, payloadColumn, Assoc.put_put]

/-! ## Identifiers from a factory -/

/-- A record is built with identifiers of the factory, the one for the trace only if the caller sent
none. -/
theorem exists_run_build (factory : StateM σ String) (project : String) (arrival : Time.DateTime)
    (draft : Draft) (s : σ) : ∃ id freshTraceId,
      ((build factory project arrival draft).run s).1
        = ofDraft project id freshTraceId arrival draft ∧
      (draft.needsTraceId = true → ∃ t, freshTraceId = (factory.run t).1) := by
  unfold build
  cases hneeds : draft.needsTraceId with
  | true =>
    exact ⟨(factory.run s).1, (factory.run (factory.run s).2).1, rfl, fun _ => ⟨_, rfl⟩⟩
  | false => exact ⟨(factory.run s).1, "", rfl, fun h => nomatch h⟩

/-- **A settled record is built again from its row wherever identifiers come from**, exactly if the
offset of its time is kept. -/
theorem Settled.rebuilt_iff (h : Settled w) :
    (∀ {τ : Type} (again : StateM τ String) (project : String) (arrival : Time.DateTime) (t : τ),
      Replayed w ((build again project arrival (draftOfRow w.row)).run t).1) ↔
        IsTold w.timestamp.offset := by
  constructor
  · intro hreplayed
    obtain ⟨id, freshTraceId, hbuild, -⟩ :=
      exists_run_build (pure "" : StateM Unit String) "" w.timestamp (draftOfRow w.row) ()
    have hagain := hreplayed (pure "" : StateM Unit String) "" w.timestamp ()
    rw [hbuild] at hagain
    exact (h.replayed_iff _ _ _ _).mp hagain
  · intro htold τ again project arrival t
    obtain ⟨id, freshTraceId, hbuild, -⟩ :=
      exists_run_build again project arrival (draftOfRow w.row) t
    rw [hbuild]
    exact (h.replayed_iff _ _ _ _).mpr htold

/-- A value as a stamp is what a draft has for its time. -/
theorem buildStamped_value {m : Type → Type} [Monad m] [LawfulMonad m] (freshId : m String)
    (project : String) (arrival : Time.DateTime) (eventType properties v : Json) :
    buildStamped freshId project arrival eventType properties (.value v)
      = build freshId project arrival ⟨eventType, properties, v⟩ := by
  have hneeds (timestamp : Json) : (Draft.mk eventType properties timestamp).needsTraceId
      = (callerTraceId? (propertiesOfValue properties)).isNone := rfl
  unfold buildStamped build
  simp only [hneeds, bind_assoc, pure_bind]
  refine bind_congr fun id => ?_
  split
  · rw [bind_assoc]
    simp only [pure_bind]
    rfl
  · rw [pure_bind]
    rfl

theorem Stamp.isAware_time? {stamp : Stamp} {t : Time.DateTime} (h : stamp.time? = some t) :
    t.isAware = true := by
  cases stamp with
  | time sent =>
    cases h
    rfl
  | value v =>
    obtain ⟨read, -, rfl⟩ := readTimestamp?_eq_some h
    rfl

variable {factory : StateM σ String}

/-- The record of what a caller sends is settled. -/
theorem settled_buildStamped (hids : ∀ s, (factory.run s).1 ≠ "")
    (harrival : arrival.isAware = true) (project : String) (eventType properties : Json)
    (stamp : Stamp) (s : σ) :
    Settled ((buildStamped factory project arrival eventType properties stamp).run s).1 ∧
      ((buildStamped factory project arrival eventType properties stamp).run s).1.timestamp
        = stamp.time?.getD arrival := by
  obtain ⟨id, freshTraceId, hbuild, hfresh⟩ :=
    exists_run_build factory project arrival ⟨eventType, properties, .null⟩ s
  have hrun : ((buildStamped factory project arrival eventType properties stamp).run s).1
      = { ofDraft project id freshTraceId arrival ⟨eventType, properties, .null⟩ with
          timestamp := stamp.time?.getD arrival } := by
    rw [← hbuild]
    rfl
  have htrace :
      (ofDraft project id freshTraceId arrival ⟨eventType, properties, .null⟩).traceId ≠ "" := by
    refine ofDraft_traceId_ne (fun hneeds => ?_) project id arrival
    obtain ⟨t, rfl⟩ := hfresh hneeds
    exact hids t
  rw [hrun]
  refine ⟨⟨typeOfValue_ne _, htrace, rfl, rfl, ?_⟩, rfl⟩
  show (stamp.time?.getD arrival).isAware = true
  cases htime : stamp.time? with
  | none => exact harrival
  | some t => exact Stamp.isAware_time? htime

/-- **Building an event again changes nothing but its identifier and its arrival**, whatever a
caller sends and wherever identifiers come from, exactly if the offset of its time is none that is
lost: the time is read from the row, and a time that has been read is never lost. -/
theorem replays_iff (hids : ∀ s, (factory.run s).1 ≠ "") (harrival : arrival.isAware = true)
    (project : String) (eventType properties : Json) (stamp : Stamp) (s : σ) :
    let w := ((buildStamped factory project arrival eventType properties stamp).run s).1
    ((∀ {τ : Type} (again : StateM τ String) (project : String) (arrival : Time.DateTime) (t : τ),
        Replayed w ((build again project arrival (draftOfRow w.row)).run t).1) ↔
      IsTold (stamp.time?.getD arrival).offset) ∧
    (∀ v, stamp = .value v → stamp.time?.isSome = true →
      IsTold (stamp.time?.getD arrival).offset) := by
  obtain ⟨hsettled, htime⟩ :=
    settled_buildStamped hids harrival project eventType properties stamp s
  refine ⟨?_, ?_⟩
  · rw [← htime]
    exact hsettled.rebuilt_iff
  · rintro v rfl hread
    obtain ⟨t, ht⟩ := Option.isSome_iff_exists.mp hread
    rw [ht, Option.getD_some]
    exact isTold_readTimestamp? ht

/-! ## Instances -/

/-- Identifiers that count up. -/
def countedIds : StateM Nat String := fun n => (Text.integer n, n + 1)

theorem countedIds_ne (n : Nat) : (countedIds.run n).1 ≠ "" := integer_ne n

/-- A noon whose clock is off by a number of microseconds. -/
def noonOff (micros : Int) (h : micros.natAbs < Time.day) : Time.DateTime :=
  ⟨63839707200000000, by decide, some ⟨micros, by omega⟩⟩

/-- Properties of which none but the request id is as it should be. -/
def oddProperties : Json :=
  .obj [("trace_id", .null), ("request_id", .int 7), ("status_code", .null),
    ("statusCode", .str "200"), ("http_status", .int 500), ("outcome", .bool true)]

theorem replays_odd :
    let w := ((buildStamped countedIds "proj" (noonOff (-1000000) (by decide)) .null oddProperties
      (.value (.str "2024-02-30"))).run 0).1
    (∀ n, (countedIds.run n).1 ≠ "") ∧ (noonOff (-1000000) (by decide)).isAware = true ∧
      (w.traceId = "7" ∧ w.statusCode = none ∧ w.outcome = none) ∧
      ∀ arrival, Replayed w ((build countedIds "proj" arrival (draftOfRow w.row)).run 1).1 := by
  have haware : (noonOff (-1000000) (by decide)).isAware = true := rfl
  have hodd := replays_iff countedIds_ne haware "proj" .null oddProperties
    (.value (.str "2024-02-30")) 0
  refine ⟨countedIds_ne, haware, by decide +kernel, fun arrival => ?_⟩
  refine hodd.1.mpr ?_ countedIds "proj" arrival 1
  exact Time.Iso.isTold_iff.mpr (by decide +kernel)

/-- The event of an empty request that arrived when the clock was half a second off UTC. -/
def arrivedOffByHalf : Event :=
  ((buildStamped countedIds "proj" (noonOff 500000 (by decide)) .null (.obj []) (.value .null)).run
    0).1

theorem arrivedOffByHalf_replayed :
    Json.get "_timestamp" arrivedOffByHalf.row = .str "2024-01-01T12:00:00.000+00:00:00.500000" ∧
      ∀ arrival,
        let e := ((build countedIds "proj" arrival (draftOfRow arrivedOffByHalf.row)).run 2).1
        Json.get "_timestamp" e.row = .str "2024-01-01T12:00:00.000+00:00" ∧
          ¬ Replayed arrivedOffByHalf e := by
  have hwritten : Json.get "_timestamp" arrivedOffByHalf.row
      = .str "2024-01-01T12:00:00.000+00:00:00.500000" := by
    rw [get_timestamp_row]
    exact congrArg Json.str (by decide +kernel)
  refine ⟨hwritten, fun arrival => ?_⟩
  obtain ⟨id, freshTraceId, hbuild, -⟩ :=
    exists_run_build countedIds "proj" arrival (draftOfRow arrivedOffByHalf.row) 2
  dsimp only
  rw [hbuild]
  have hread : Json.get "_timestamp"
      (ofDraft "proj" id freshTraceId arrival (draftOfRow arrivedOffByHalf.row)).row
        = .str "2024-01-01T12:00:00.000+00:00" := by
    rw [get_timestamp_row, timestamp_ofRow rfl]
    exact congrArg Json.str (by decide +kernel)
  refine ⟨hread, fun hreplayed => ?_⟩
  have hsame := hread.symm.trans (hreplayed.timestamp.trans hwritten)
  exact absurd (Json.str.inj hsame) (by decide)

end Telemetry.Event
