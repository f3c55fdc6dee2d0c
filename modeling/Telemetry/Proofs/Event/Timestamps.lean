import Telemetry.Delivery
import Telemetry.Proofs.Event.Rows
import Telemetry.Proofs.Time.Reading

/-!
# Times of captured events

A captured event is sent with its time as a text in milliseconds, and the gate reads that text. What
the gate stores is the time that was sent, cut to milliseconds and in the same zone, unless the zone
is off by less than a second; such an offset is written, but read as UTC. A naive time is taken for
UTC.

Main statement: `survives_iff`.
-/

namespace Telemetry

namespace Time.DateTime

variable {t : DateTime}

/-! ## Texts of cut times -/

/-- The text in milliseconds knows nothing of what is cut off. -/
theorem millisText_cut (t : DateTime) : t.cut.millisText = t.millisText := by
  have hparts : t.cut.date = t.date ∧ t.cut.hour = t.hour ∧ t.cut.minute = t.minute ∧
      t.cut.seconds = t.seconds ∧ t.cut.micros / 1000 = t.micros / 1000 := by
    unfold date hour minute seconds micros sinceMidnight cut
    simp only [show day = 86400000000 from rfl, show second = 1000000 from rfl]
    refine ⟨congrArg Date.ofDays ?_, ?_, ?_, ?_, ?_⟩ <;> omega
  obtain ⟨hdate, hhour, hminute, hseconds, hmicros⟩ := hparts
  unfold millisText dateText clockText
  rw [hdate, hhour, hminute, hseconds, hmicros]
  rfl

/-- An offset of less than a second has a fraction in its text. -/
theorem point_mem_offsetText {o : Offset} (hne : o.micros ≠ 0) (hshort : o.micros.natAbs < second) :
    '.' ∈ (offsetText o).toList := by
  have hfraction : o.micros.natAbs % second ≠ 0 := by
    rw [Nat.mod_eq_of_lt hshort]
    omega
  unfold offsetText
  simp [hfraction]

/-- The text of a time is that of its wall clock with the text of its zone behind it. -/
theorem millisText_zone (t : DateTime) :
    t.millisText = millisText { t with offset := none } ++ t.zoneText := by
  have hdate : dateText 4 { t with offset := none } = t.dateText 4 := rfl
  have hclock : clockText { t with offset := none } = t.clockText := rfl
  have hmicros : micros { t with offset := none } = t.micros := rfl
  have hzone : zoneText { t with offset := none } = "" := rfl
  unfold millisText
  rw [hdate, hclock, hmicros, hzone, String.append_empty]

/-- A time keeps its text only if its offset is kept. -/
theorem kept_of_millisText {o : Offset} (h : t.offset = some o)
    (htext : millisText { t with offset := some o.kept } = t.millisText) : o.kept = o := by
  rw [millisText_zone, millisText_zone t, String.append_right_inj, zoneText, zoneText, h] at htext
  dsimp only at htext
  by_contra hlost
  have hshort : o.micros ≠ 0 ∧ o.micros.natAbs < second := by
    rw [Offset.kept_eq_self_iff] at hlost
    omega
  have hutc : o.kept = .utc := if_pos hshort.2
  have hpoint := point_mem_offsetText hshort.1 hshort.2
  rw [← htext, hutc] at hpoint
  exact absurd hpoint (by decide)

end Time.DateTime

namespace Event

/-- What is read from the text of a time, whatever its zone. -/
theorem readTimestamp?_millisText (t : Time.DateTime) :
    readTimestamp? (.str t.millisText)
      = some { t.cut with offset := some (t.offset.getD .utc).kept } := by
  have hread := Time.DateTime.read?_millisText t
  have hne : t.millisText ≠ "" := by
    intro hempty
    rw [hempty] at hread
    cases hread
  rw [readTimestamp?, if_neg hne, hread]
  obtain ⟨wall, hwall, offset⟩ := t
  cases offset <;> rfl

theorem timestamp_ofDraft (project id traceId : String) (arrival : Time.DateTime) (draft : Draft) :
    (ofDraft project id traceId arrival draft).timestamp
      = (readTimestamp? draft.timestamp).getD arrival := rfl

theorem get_timestamp_row (e : Event) :
    Json.get "_timestamp" e.row = .str e.timestamp.millisText := by
  simp [Json.get, row, Assoc.find?]

end Event

namespace ReadyEvent

variable {e : ReadyEvent}

/-! ## Times in bodies -/

theorem get_timestamp_body (e : ReadyEvent) :
    Json.get "timestamp" e.body = .str e.timestamp.millisText := by
  simp [Json.get, body, Assoc.find?]

/-- The time of a captured event survives being sent. An aware one is read from the body as it is,
cut to milliseconds, and the row of the event that a gate builds from the body has the text of the
body; a naive one is read as the same wall clock in UTC. -/
structure Survives (e : ReadyEvent) : Prop where
  read : e.timestamp.isAware = true →
    Event.readTimestamp? (Json.get "timestamp" e.body) = some e.timestamp.cut
  row : e.timestamp.isAware = true → ∀ {σ : Type} (handler : (c : Gate.Call) → σ → c.Answer × σ)
    (project : String) (s : σ), ∃ event after,
      (Gate.buildEvent project e.body).runWith handler s = (.ok event, after) ∧
        Json.get "_timestamp" event.row = Json.get "timestamp" e.body
  naive : e.timestamp.isAware = false →
    Event.readTimestamp? (Json.get "timestamp" e.body)
      = some { e.timestamp.cut with offset := some .utc }

theorem read_body (e : ReadyEvent) : Event.readTimestamp? (Json.get "timestamp" e.body)
    = some { e.timestamp.cut with offset := some (e.timestamp.offset.getD .utc).kept } := by
  rw [get_timestamp_body, Event.readTimestamp?_millisText]

/-- Where the time is read as it is, the row of the record has its text. -/
theorem row_of_read (h : Event.readTimestamp? (Json.get "timestamp" e.body) = some e.timestamp.cut)
    (project id traceId : String) (arrival : Time.DateTime) :
    Json.get "_timestamp"
        (Event.ofDraft project id traceId arrival (Gate.Collaborators.draftOf e.body)).row
      = Json.get "timestamp" e.body := by
  have htime : (Event.ofDraft project id traceId arrival
      (Gate.Collaborators.draftOf e.body)).timestamp = e.timestamp.cut := by
    have hdraft : (Gate.Collaborators.draftOf e.body).timestamp = Json.get "timestamp" e.body := rfl
    rw [Event.timestamp_ofDraft, hdraft, h, Option.getD_some]
  rw [Event.get_timestamp_row, htime, Time.DateTime.millisText_cut, get_timestamp_body]

theorem survives_of_naive (hoffset : e.timestamp.offset = none) : Survives e := by
  have hnaive : ¬ e.timestamp.isAware = true := by
    rw [Time.DateTime.isAware, hoffset]
    exact Bool.false_ne_true
  refine ⟨fun h => absurd h hnaive, fun h => absurd h hnaive, fun _ => ?_⟩
  rw [read_body, hoffset]
  rfl

theorem survives_iff_kept {o : Time.Offset} (hoffset : e.timestamp.offset = some o) :
    Survives e ↔ o.kept = o := by
  have hread := read_body e
  rw [hoffset, Option.getD_some] at hread
  have haware : e.timestamp.isAware = true := by
    rw [Time.DateTime.isAware, hoffset]
    rfl
  constructor
  · intro hsurvives
    have hsame := congrArg (Option.map Time.DateTime.offset)
      (hread.symm.trans (hsurvives.read haware))
    exact Option.some.inj ((Option.some.inj hsame).trans hoffset)
  · intro hkept
    have hcut : Event.readTimestamp? (Json.get "timestamp" e.body) = some e.timestamp.cut := by
      rw [hread, hkept, ← hoffset]
      rfl
    refine ⟨fun _ => hcut, fun _ σ handler project s => ?_, fun h => ?_⟩
    · obtain ⟨id, traceId, arrival, after, hrun⟩ :=
        Gate.run_buildEvent_any handler project e.body s
      exact ⟨_, after, hrun, row_of_read hcut project id traceId arrival⟩
    · rw [haware] at h
      cases h

/-- **The time of a captured event survives being sent, exactly if reading keeps its offset**: it
has none, or one of zero, or one of a second at least. -/
theorem survives_iff (e : ReadyEvent) : Survives e ↔ Time.Iso.IsTold e.timestamp.offset := by
  cases hoffset : e.timestamp.offset with
  | none => exact iff_of_true (survives_of_naive hoffset) fun _ h => nomatch h
  | some o =>
    rw [survives_iff_kept hoffset, Time.Iso.isTold_iff, Option.map_some, Option.some_inj]

/-- An event whose clock is off by half a second. -/
def offByHalf : ReadyEvent :=
  ⟨"tick", .obj [], ⟨63839664000000000, by decide, some ⟨500000, by decide⟩⟩⟩

/-- Its time is written with its offset and read as one in UTC. -/
theorem offByHalf_lost :
    offByHalf.timestamp.millisText = "2024-01-01T00:00:00.000+00:00:00.500000" ∧
    Event.readTimestamp? (Json.get "timestamp" offByHalf.body)
      = some { offByHalf.timestamp with offset := some .utc } ∧ ¬ Survives offByHalf := by
  have hread : Event.readTimestamp? (Json.get "timestamp" offByHalf.body)
      = some { offByHalf.timestamp with offset := some .utc } := read_body offByHalf
  refine ⟨by decide +kernel, hread, fun hsurvives => ?_⟩
  have hsame := congrArg (Option.map Time.DateTime.offset) (hread.symm.trans (hsurvives.read rfl))
  exact absurd hsame (by decide +kernel)

end ReadyEvent

end Telemetry
