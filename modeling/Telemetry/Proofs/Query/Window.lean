import Telemetry.Event.Basic
import Telemetry.Proofs.Sql.Piece
import Telemetry.Proofs.Time.Instants
import Telemetry.Query.Predicate

/-!
# Windows of time

A row holds the time of its event cut to milliseconds, with its offset. A query bounds it by instants
in UTC, which are cut to milliseconds as well. So a window finds every event inside of it, and one
outside only if it is less than a millisecond away.

Main statement: `window_edges`.
-/

namespace Telemetry.Query

open Sql Time

variable {o : Options} {filters : List Condition} {operator : String} {t : DateTime}

/-- A reading of which the year in UTC has four digits, as all years of a column have. -/
def Dated (t : DateTime) : Prop := ∃ utc, t.toUtc? = some utc ∧ 1000 ≤ utc.date.year

/-- The time compared with a literal that is taken in UTC, to the millisecond. -/
def timeComparison (operator : String) (raw : List Char) : List Lexeme :=
  [.word "_timestamp".toList, .mark ' '] ++ operator.toList.map .mark ++
    [.mark ' ', .word "toDateTime64".toList, .opening, .literal raw, .mark ',', .mark ' ',
      .word "3".toList, .mark ',', .mark ' ', .literal "UTC".toList, .closing]

/-- A conjunct bounds the time by an instant: the text in its literal stands for the instant, and it
is among the conjuncts of every read query with the options. -/
structure Bounds (operator : String) (o : Options) (t : DateTime) (c : String) (instant : Int) :
    Prop where
  compiled : boundConjunct operator (some t) = .ok [c]
  compares : ∃ raw, lexemes? c.toList = some (timeComparison operator raw) ∧
    Stamp.instant? (unescape raw) = some instant
  conjunct : ∀ filters cs, conjuncts o filters = .ok cs → c ∈ cs

/-! ## Literals of instants -/

theorem lexemes?_timeLiteral (hoperator : operator = ">=" ∨ operator = "<=") (text : String) :
    lexemes? ("_timestamp " ++ operator ++ " " ++
        ("toDateTime64(" ++ textLiteral text ++ ", 3, 'UTC')")).toList
      = some (timeComparison operator (escapeChars text.toList)) := by
  have hfront : lexemes? ("_timestamp " ++ operator ++ " toDateTime64(").toList
      = some ([.word "_timestamp".toList, .mark ' '] ++ operator.toList.map .mark ++
        [.mark ' ', .word "toDateTime64".toList, .opening]) := by
    rcases hoperator with rfl | rfl <;> decide
  have hback : lexemes? ", 3, 'UTC')".toList = some [.mark ',', .mark ' ', .word "3".toList,
      .mark ',', .mark ' ', .literal "UTC".toList, .closing] := by decide
  have hliteral := lexemes?_textLiteral text
  have hall := scan_append hfront (scan_append hliteral hback (.inr rfl)) (.inr rfl)
  have hblank : " toDateTime64(".toList = " ".toList ++ "toDateTime64(".toList := by decide
  simp only [String.toList_append, hblank, List.append_assoc] at hall ⊢
  refine hall.trans ?_
  simp [timeComparison]

/-- The instant in the literal of a reading is that of the reading, cut to milliseconds. -/
theorem instant?_literal {utc : DateTime} (h : t.toUtc? = some utc) (hyear : 1000 ≤ utc.date.year) :
    Stamp.instant? (unescape (escapeChars utc.columnText.toList))
      = some (t.instant - t.instant % 1000) := by
  obtain ⟨hutc, hwall⟩ := DateTime.toUtc?_eq_some h
  rw [unescape_escapeChars, DateTime.instant?_columnText hyear, ← hwall]
  have hcut : utc.cut.wall = utc.wall / 1000 * 1000 := rfl
  exact congrArg some (by omega)

/-! ## Conjuncts of bounds -/

/-- The conjuncts of the bounds are among those of a read query. -/
theorem bounds_subset {cs : List String} (h : conjuncts o filters = .ok cs) :
    ∃ lower upper, boundConjunct ">=" o.startTime = .ok lower ∧
      boundConjunct "<=" o.endTime = .ok upper ∧ lower ⊆ cs ∧ upper ⊆ cs := by
  obtain ⟨own, hown, h⟩ := bind_eq_ok h
  obtain ⟨lower, hlower, hown⟩ := bind_eq_ok hown
  obtain ⟨upper, hupper, hown⟩ := bind_eq_ok hown
  obtain ⟨status, -, hown⟩ := bind_eq_ok hown
  cases hown
  cases h
  refine ⟨lower, upper, hlower, hupper, ?_, ?_⟩
  · intro c hc
    simp [hc]
  · intro c hc
    simp [hc]

theorem exists_boundConjunct (hoperator : operator = ">=" ∨ operator = "<=") (ht : Dated t) :
    ∃ c, boundConjunct operator (some t) = .ok [c] ∧
      ∃ raw, lexemes? c.toList = some (timeComparison operator raw) ∧
        Stamp.instant? (unescape raw) = some (t.instant - t.instant % 1000) := by
  obtain ⟨utc, hutc, hyear⟩ := ht
  refine ⟨"_timestamp " ++ operator ++ " " ++
    ("toDateTime64(" ++ textLiteral utc.columnText ++ ", 3, 'UTC')"), ?_, _,
    lexemes?_timeLiteral hoperator utc.columnText, instant?_literal hutc hyear⟩
  rw [boundConjunct, timeLiteral, hutc]
  rfl

theorem exists_lowerBound (hstart : o.startTime = some t) (ht : Dated t) :
    ∃ c, Bounds ">=" o t c (t.instant - t.instant % 1000) := by
  obtain ⟨c, hc, hcompares⟩ := exists_boundConjunct (Or.inl rfl) ht
  refine ⟨c, hc, hcompares, fun filters cs hcs => ?_⟩
  obtain ⟨lower, upper, hlower, -, hsubset, -⟩ := bounds_subset hcs
  rw [hstart, hc] at hlower
  cases hlower
  exact hsubset List.mem_cons_self

theorem exists_upperBound (hstop : o.endTime = some t) (ht : Dated t) :
    ∃ c, Bounds "<=" o t c (t.instant - t.instant % 1000) := by
  obtain ⟨c, hc, hcompares⟩ := exists_boundConjunct (Or.inr rfl) ht
  refine ⟨c, hc, hcompares, fun filters cs hcs => ?_⟩
  obtain ⟨lower, upper, -, hupper, -, hsubset⟩ := bounds_subset hcs
  rw [hstop, hc] at hupper
  cases hupper
  exact hsubset List.mem_cons_self

theorem exists_boundConjuncts (hoperator : operator = ">=" ∨ operator = "<=")
    {bound : Option DateTime} (hdated : ∀ t, bound = some t → Dated t) :
    ∃ cs, boundConjunct operator bound = .ok cs := by
  cases bound with
  | none => exact ⟨[], rfl⟩
  | some t =>
    obtain ⟨c, hc, -⟩ := exists_boundConjunct hoperator (hdated t rfl)
    exact ⟨[c], hc⟩

/-- Bounds never fail a read. -/
theorem exists_conjuncts {status : List String}
    (hbounds : ∀ t, o.startTime = some t ∨ o.endTime = some t → Dated t)
    (hstatus : o.statusConjuncts = .ok status) (filters : List Condition) :
    ∃ cs, conjuncts o filters = .ok cs := by
  obtain ⟨lower, hlower⟩ := exists_boundConjuncts (Or.inl rfl) fun t ht => hbounds t (Or.inl ht)
  obtain ⟨upper, hupper⟩ := exists_boundConjuncts (Or.inr rfl) fun t ht => hbounds t (Or.inr ht)
  rw [conjuncts, Options.conjuncts, hlower, hupper, hstatus]
  exact ⟨_, rfl⟩

/-! ## Edges -/

/-- **A window loses no event at its edges.** What the row of an event holds as its time lies between
the instants in the conjuncts of a window if the event lies in the window. Conversely, an event that
is found is less than a millisecond outside of a bound. -/
theorem window_edges {e : Event} (hoffset : (e.timestamp.offset.getD .utc).micros % 1000 = 0)
    (hbounds : ∀ t, o.startTime = some t ∨ o.endTime = some t → Dated t) :
    ∃ text stored, Assoc.find? "_timestamp" e.row = some (.str text) ∧
      Stamp.instant? text.toList = some stored ∧
      (∀ start, o.startTime = some start → ∃ c lower, Bounds ">=" o start c lower ∧
        (start.instant ≤ e.timestamp.instant → lower ≤ stored) ∧
        (lower ≤ stored → start.instant - e.timestamp.instant < 1000)) ∧
      (∀ stop, o.endTime = some stop → ∃ c upper, Bounds "<=" o stop c upper ∧
        (e.timestamp.instant ≤ stop.instant → stored ≤ upper) ∧
        (stored ≤ upper → e.timestamp.instant - stop.instant < 1000)) ∧
      ∀ status, o.statusConjuncts = .ok status → ∀ filters, ∃ cs, conjuncts o filters = .ok cs := by
  have hcolumn : Assoc.find? "_timestamp" e.row = some (.str e.timestamp.millisText) := rfl
  have hstored : Stamp.instant? e.timestamp.millisText.toList
      = some (e.timestamp.instant - e.timestamp.instant % 1000) := by
    rw [DateTime.instant?_millisText, DateTime.instant_cut hoffset]
  refine ⟨_, _, hcolumn, hstored, fun start hstart => ?_, fun stop hstop => ?_,
    fun status hstatus filters => exists_conjuncts hbounds hstatus filters⟩
  -- Both sides are cut down to whole milliseconds, and cutting keeps the order.
  · obtain ⟨c, hc⟩ := exists_lowerBound hstart (hbounds start (Or.inl hstart))
    exact ⟨c, _, hc, by omega, by omega⟩
  · obtain ⟨c, hc⟩ := exists_upperBound hstop (hbounds stop (Or.inr hstop))
    exact ⟨c, _, hc, by omega, by omega⟩

/-- A checkout in the middle of a millisecond, two hours east of UTC. -/
def checkout : Event where
  id := "id"
  project := "store"
  eventType := "checkout"
  timestamp := ⟨63850576089123456, by decide, some ⟨7200000000, by decide⟩⟩
  ingestedAt := ⟨63850576089123456, by decide, some ⟨7200000000, by decide⟩⟩
  traceId := "id"
  payload := []
  statusCode := none
  outcome := none

/-- A window of a single microsecond in which the checkout is: from a reading without an offset to
one half an hour behind UTC. -/
def checkoutWindow : Options :=
  ⟨"store", some ⟨63850568889123456, by decide, none⟩,
    some ⟨63850567089123456, by decide, some ⟨-1800000000, by decide⟩⟩, none, .null, 100, 0,
    by decide⟩

theorem window_edges_checkout :
    (checkout.timestamp.offset.getD .utc).micros % 1000 = 0 ∧
    (∀ t, checkoutWindow.startTime = some t ∨ checkoutWindow.endTime = some t → Dated t) ∧
    ∃ stored start stop c d lower upper,
      Stamp.instant? "2024-05-06T07:08:09.123+02:00".toList = some stored ∧
      Bounds ">=" checkoutWindow start c lower ∧ Bounds "<=" checkoutWindow stop d upper ∧
      lower ≤ stored ∧ stored ≤ upper := by
  have hoffset : (checkout.timestamp.offset.getD .utc).micros % 1000 = 0 := by decide
  have hbounds : ∀ t, checkoutWindow.startTime = some t ∨ checkoutWindow.endTime = some t →
      Dated t := by
    rintro t (ht | ht) <;> cases ht
    · exact ⟨⟨63850568889123456, by decide, some .utc⟩, by decide +kernel, by decide +kernel⟩
    · exact ⟨⟨63850568889123456, by decide, some .utc⟩, by decide +kernel, by decide +kernel⟩
  obtain ⟨text, stored, htext, hstored, hstart, hstop, -⟩ := window_edges hoffset hbounds
  have hwritten : Assoc.find? "_timestamp" checkout.row
      = some (.str "2024-05-06T07:08:09.123+02:00") := by rfl
  cases hwritten.symm.trans htext
  obtain ⟨c, lower, hc, hlower, -⟩ := hstart _ rfl
  obtain ⟨d, upper, hd, hupper, -⟩ := hstop _ rfl
  exact ⟨hoffset, hbounds, stored, _, _, c, d, lower, upper, hstored, hc, hd,
    hlower (by decide), hupper (by decide)⟩

end Telemetry.Query
