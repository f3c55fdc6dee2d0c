import Telemetry.Proofs.Time.Calendar
import Telemetry.Proofs.Time.Epoch
import Telemetry.Query.Params

/-!
# Noise among the parameters

A parameter whose value means nothing where a time, a status or a number is wanted is as good as
absent. Reading the options never fails, and the page stays within its bounds. What can make a read
fail nevertheless is a time that means something: one with an offset, at either end of the calendar,
where the same instant has no reading in UTC.

Main statement: `tolerates`.
-/

namespace Telemetry.Time.DateTime

/-- The instant of a reading is in the years 1 to 9999 in UTC. -/
def InCalendar (t : DateTime) : Prop := 0 ≤ t.instant ∧ t.instant < wallEnd

theorem inCalendar_of_naive {t : DateTime} (h : t.offset = none) : t.InCalendar := by
  have hinstant : t.instant = (t.wall : Int) := by
    rw [instant, h]
    exact Int.sub_zero _
  have hrange := t.inRange
  unfold InCalendar
  omega

theorem exists_toUtc? {t : DateTime} (h : t.InCalendar) : ∃ utc, t.toUtc? = some utc :=
  ⟨_, dif_pos h⟩

theorem toUtc?_eq_none {t : DateTime} (h : ¬ t.InCalendar) : t.toUtc? = none := dif_neg h

/-- Seconds since 1970 are read as an instant of the calendar. -/
theorem inCalendar_of_ofEpoch? {seconds : Double} {t : DateTime} (h : ofEpoch? seconds = some t) :
    t.InCalendar := by
  unfold ofEpoch? at h
  obtain ⟨whole, -, h⟩ := Option.bind_eq_some_iff.mp h
  obtain ⟨micros, -, h⟩ := Option.bind_eq_some_iff.mp h
  have hinstant := (instant_of_ofWall? h).1
  unfold ofWall? at h
  split at h
  · rename_i hwall
    unfold InCalendar
    rw [hinstant]
    exact hwall
  · cases h

end Telemetry.Time.DateTime

namespace Telemetry.Query.Params

open Time (DateTime)

variable {params : Params} {project name other raw : String} {o : Options}

/-! ## Noise -/

/-- A parameter whose first value means nothing where a time, a status or a number is wanted; one
that is missing or blank means nothing either. -/
inductive Noise (params : Params) : String → Prop
  | since (h : (params.first? "since").bind readBound? = none) : Noise params "since"
  | upto (h : (params.first? "until").bind readBound? = none) : Noise params "until"
  | status (h : ((params.first? "status").map readStatus).getD .null = .null) :
    Noise params "status"
  | limit (h : (params.first? "limit").bind Numeral.readInt? = none) : Noise params "limit"
  | offset (h : (params.first? "offset").bind Numeral.readInt? = none) : Noise params "offset"

theorem first?_erase_self (params : Params) (name : String) :
    first? (Assoc.erase name params) name = none := by
  unfold first?
  rw [Assoc.find?_erase_self]

theorem first?_erase_of_ne (h : name ≠ other) (params : Params) :
    first? (Assoc.erase name params) other = params.first? other := by
  unfold first?
  rw [Assoc.find?_erase_of_ne h]

theorem readClamped_of_none {given : Option String} (h : given.bind Numeral.readInt? = none)
    (default low high : Int) : readClamped given default low high = default := by
  unfold readClamped
  rw [h]

/-- A clamped number is within its bounds if its default is. -/
theorem readClamped_mem (given : Option String) {default low high : Int}
    (h : low ≤ default ∧ default ≤ high) :
    low ≤ readClamped given default low high ∧ readClamped given default low high ≤ high := by
  unfold readClamped
  split <;> omega

/-- **Noise is as good as absent.** -/
theorem Noise.options_erase (h : Noise params name) (project : String) :
    options project (Assoc.erase name params) = options project params := by
  unfold options
  cases h with
  | since h | upto h => simp only [first?_erase_self, first?_erase_of_ne, h, Option.bind_none, ne_eq,
      String.reduceEq, not_false_eq_true]
  | status h => simp only [first?_erase_self, first?_erase_of_ne, h, Option.map_none,
      Option.getD_none, ne_eq, String.reduceEq, not_false_eq_true]
  | limit h | offset h =>
    have hnone : (none : Option String).bind Numeral.readInt? = none := rfl
    simp only [first?_erase_self, first?_erase_of_ne, readClamped_of_none h,
      readClamped_of_none hnone, ne_eq, String.reduceEq, not_false_eq_true]

theorem Noise.isReserved (h : Noise params name) : name ∈ reservedNames := by
  cases h <;> decide

/-- Parameters with a meaning of their own ask for no conditions. -/
theorem filters_erase (h : name ∈ reservedNames) (params : Params) :
    filters (Assoc.erase name params) = filters params := by
  unfold filters Assoc.erase
  -- Both sides filter the same list, so the two tests can be compared entry by entry.
  rw [List.filter_filter]
  refine congrArg (List.flatMap _) (List.filter_congr fun entry _ => ?_)
  by_cases hname : entry.1 = name
  · simp [hname, h]
  · simp [hname]

/-! ## Times outside the calendar -/

/-- A text is no number, but a time whose instant is outside the years 1 to 9999 in UTC. -/
def OffCalendar (raw : String) : Prop :=
  Numeral.readDouble? raw = none ∧ ∃ t, Time.Iso.read? raw = some t ∧ ¬ t.InCalendar

/-- Only an offset takes a time out of the calendar. -/
theorem OffCalendar.offset_ne_none (h : OffCalendar raw) :
    ∃ t, Time.Iso.read? raw = some t ∧ t.offset ≠ none := by
  obtain ⟨-, t, hread, hout⟩ := h
  exact ⟨t, hread, fun hnaive => hout (DateTime.inCalendar_of_naive hnaive)⟩

theorem inCalendar_iff {t : DateTime} (h : readBound? raw = some t) :
    t.InCalendar ↔ ¬ OffCalendar raw := by
  unfold readBound? at h
  cases hnumber : Numeral.readDouble? raw with
  | none =>
    rw [hnumber] at h
    obtain ⟨found, hfound, rfl⟩ := Option.map_eq_some_iff.mp h
    constructor
    · rintro hin ⟨-, other, hother, hout⟩
      cases hfound.symm.trans hother
      exact hout hin
    · exact fun hnot => Classical.byContradiction fun hout => hnot ⟨hnumber, found, hfound, hout⟩
  | some seconds =>
    rw [hnumber] at h
    dsimp only at h
    split at h
    · cases h
    -- Seconds since 1970 come to a time of the calendar or to none.
    · refine ⟨fun _ hoff => ?_, fun _ => DateTime.inCalendar_of_ofEpoch? h⟩
      rw [OffCalendar, hnumber] at hoff
      exact nomatch hoff.1

/-- The bounds among the parameters are texts that are numbers, nothing, or times in the
calendar. -/
def BoundsInCalendar (params : Params) : Prop :=
  ∀ name ∈ ["since", "until"], ∀ raw, params.first? name = some raw → ¬ OffCalendar raw

theorem bound_inCalendar_iff (params : Params) (name : String) :
    (∀ t, (params.first? name).bind readBound? = some t → t.InCalendar) ↔
      ∀ raw, params.first? name = some raw → ¬ OffCalendar raw := by
  cases params.first? name with
  | none => exact iff_of_true (fun _ h => nomatch h) (fun _ h => nomatch h)
  | some raw =>
    rw [Option.bind_some]
    constructor
    · rintro hin _ ⟨⟩ ⟨hnumber, t, hread, hout⟩
      have hbound : readBound? raw = some t.withZone := by
        rw [readBound?, hnumber]
        exact congrArg (Option.map _) hread
      exact hout (hin t.withZone hbound)
    · exact fun hnot t hread => (inCalendar_iff hread).mpr (hnot raw rfl)

/-! ## The predicate -/

/-- A bound has a conjunct just if its instant is in the calendar. -/
theorem boundConjunct_cases (operator : String) (bound : Option DateTime) :
    ((∃ cs, boundConjunct operator bound = .ok cs) ∧ ∀ t, bound = some t → t.InCalendar) ∨
      (boundConjunct operator bound = .error .outOfRange ∧
        ¬ ∀ t, bound = some t → t.InCalendar) := by
  cases bound with
  | none => exact Or.inl ⟨⟨[], rfl⟩, fun _ h => nomatch h⟩
  | some t =>
    simp only [Option.some.injEq, forall_eq']
    by_cases hin : t.InCalendar
    · obtain ⟨utc, hutc⟩ := DateTime.exists_toUtc? hin
      have hconjunct : boundConjunct operator (some t) = .ok ["_timestamp " ++ operator ++ " " ++
          ("toDateTime64(" ++ Sql.textLiteral utc.columnText ++ ", 3, 'UTC')")] := by
        rw [boundConjunct, Sql.timeLiteral, hutc]
        rfl
      exact Or.inl ⟨⟨_, hconjunct⟩, hin⟩
    · refine Or.inr ⟨?_, hin⟩
      rw [boundConjunct, Sql.timeLiteral, DateTime.toUtc?_eq_none hin]
      rfl

/-- Where the status is one that can be asked for, only the bounds can fail. -/
theorem predicate_cases {status : List String} (hstatus : o.statusConjuncts = .ok status)
    (conditions : List Condition) :
    ((∃ text, predicate o conditions = .ok text) ∧
        (∀ t, o.startTime = some t → t.InCalendar) ∧ ∀ t, o.endTime = some t → t.InCalendar) ∨
      (predicate o conditions = .error .outOfRange ∧
        ¬ ((∀ t, o.startTime = some t → t.InCalendar) ∧
          ∀ t, o.endTime = some t → t.InCalendar)) := by
  -- The lower bound is written first, so its failure hides that of the upper one.
  rcases boundConjunct_cases ">=" o.startTime with ⟨⟨lower, hlower⟩, hstart⟩ | ⟨hlower, hout⟩
  · rcases boundConjunct_cases "<=" o.endTime with ⟨⟨upper, hupper⟩, hend⟩ | ⟨hupper, hout⟩
    · have hown : o.conjuncts =
          .ok (o.projectConjunct :: lower ++ upper ++ o.typeConjuncts ++ status) := by
        rw [Options.conjuncts, hlower, hupper, hstatus]
        rfl
      have htext : predicate o conditions = .ok (Text.joinWith " AND "
          (o.projectConjunct :: lower ++ upper ++ o.typeConjuncts ++ status ++
            acceptedConjuncts conditions)) := by
        rw [predicate, conjuncts, hown]
        rfl
      exact Or.inl ⟨⟨_, htext⟩, hstart, hend⟩
    · refine Or.inr ⟨?_, fun hin => hout hin.2⟩
      rw [predicate, conjuncts, Options.conjuncts, hlower, hupper]
      rfl
  · refine Or.inr ⟨?_, fun hin => hout hin.1⟩
    rw [predicate, conjuncts, Options.conjuncts, hlower]
    rfl

/-- What a status parameter means can always be asked for. -/
theorem statusConjuncts_of_read
    (h : o.status = ((params.first? "status").map readStatus).getD .null) :
    ∃ status, o.statusConjuncts = .ok status := by
  unfold Options.statusConjuncts
  rw [h]
  cases params.first? "status" with
  | none => exact ⟨[], rfl⟩
  | some raw =>
    rw [Option.map_some, Option.getD_some, readStatus]
    split
    · rename_i hword
      rcases hword with hword | hword <;> (rw [hword]; exact ⟨_, rfl⟩)
    · cases Numeral.readInt? raw with
      | none => exact ⟨[], rfl⟩
      | some code => exact ⟨_, rfl⟩

/-! ## All parameters -/

/-- What parameters come to within a project, whatever they hold: options with a page in its
bounds, which do not change when noise is taken out. -/
structure Tolerates (project : String) (params : Params) (o : Options) : Prop where
  options : Params.options project params = .ok o
  limit : 1 ≤ o.limit ∧ o.limit ≤ 1000
  offset : o.offset ≤ 2147483647
  noise : ∀ name, Noise params name →
    Params.options project (Assoc.erase name params) = .ok o ∧
      filters (Assoc.erase name params) = filters params

/-- The options of all parameters, with what their window and status are read from. -/
theorem exists_tolerates (hproject : project ≠ "") (params : Params) :
    ∃ o, Tolerates project params o ∧
      o.startTime = (params.first? "since").bind readBound? ∧
      o.endTime = (params.first? "until").bind readBound? ∧
      o.status = ((params.first? "status").map readStatus).getD .null := by
  have hlimit := readClamped_mem (params.first? "limit")
    (by decide : (1 : Int) ≤ defaultLimit ∧ defaultLimit ≤ maxLimit)
  have hoffset := readClamped_mem (params.first? "offset")
    (by decide : (0 : Int) ≤ 0 ∧ 0 ≤ maxOffset)
  have hoptions : ∃ o, options project params = .ok o ∧
      o.limit = (readClamped (params.first? "limit") defaultLimit 1 maxLimit).toNat ∧
      o.offset = (readClamped (params.first? "offset") 0 0 maxOffset).toNat ∧
      o.startTime = (params.first? "since").bind readBound? ∧
      o.endTime = (params.first? "until").bind readBound? ∧
      o.status = ((params.first? "status").map readStatus).getD .null := by
    unfold options Options.create
    rw [dif_neg hproject, if_neg (by omega)]
    exact ⟨_, rfl, rfl, rfl, rfl, rfl, rfl⟩
  obtain ⟨o, ho, hsize, hstart, hread⟩ := hoptions
  unfold maxLimit at hlimit
  unfold maxOffset at hoffset
  refine ⟨o, ⟨ho, ?_, ?_, fun name hnoise => ⟨?_, filters_erase hnoise.isReserved params⟩⟩, hread⟩
  · rw [hsize]
    unfold maxLimit
    omega
  · rw [hstart]
    unfold maxOffset
    omega
  · rw [hnoise.options_erase, ho]

/-- **All parameters come to options, and noise changes nothing.** The predicate of these options
exists just if the bounds are in the calendar. -/
theorem tolerates (hproject : project ≠ "") (params : Params) :
    ∃ o, Tolerates project params o ∧
      ((∃ text, predicate o (filters params) = .ok text) ↔ BoundsInCalendar params) := by
  obtain ⟨o, ho, hstart, hend, hstatus⟩ := exists_tolerates hproject params
  refine ⟨o, ho, ?_⟩
  have hbounds : BoundsInCalendar params ↔
      (∀ t, o.startTime = some t → t.InCalendar) ∧ ∀ t, o.endTime = some t → t.InCalendar := by
    rw [hstart, hend, bound_inCalendar_iff, bound_inCalendar_iff]
    simp only [BoundsInCalendar, List.forall_mem_cons, List.not_mem_nil, false_implies,
      implies_true, and_true]
  rw [hbounds]
  obtain ⟨status, hconjuncts⟩ := statusConjuncts_of_read hstatus
  rcases predicate_cases hconjuncts (filters params) with ⟨htext, hin⟩ | ⟨herror, hout⟩
  · exact iff_of_true htext hin
  · refine iff_of_false ?_ hout
    rw [herror]
    rintro ⟨_, ⟨⟩⟩

/-- Parameters with noise for a time, a status and a number, and with a field. -/
def noisy : Params :=
  [("since", ["soon"]), ("status", ["2xx"]), ("limit", ["many"]), ("route", ["/a"])]

theorem tolerates_noisy :
    "proj_1" ≠ "" ∧ BoundsInCalendar noisy ∧
      ∃ o, Tolerates "proj_1" noisy o ∧ ∃ text, predicate o (filters noisy) = .ok text := by
  have hproject : "proj_1" ≠ "" := by decide
  have hread : Time.Iso.read? "soon" = none := by decide +kernel
  have hbounds : BoundsInCalendar noisy := by
    simp only [BoundsInCalendar, List.forall_mem_cons, List.not_mem_nil, false_implies,
      implies_true, and_true]
    have hsince : noisy.first? "since" = some "soon" := by decide +kernel
    have hupto : noisy.first? "until" = none := by decide +kernel
    rw [hsince, hupto]
    constructor
    · rintro _ ⟨⟩ ⟨-, t, ht, -⟩
      cases hread.symm.trans ht
    · rintro _ ⟨⟩
  obtain ⟨o, ho, htext⟩ := tolerates hproject noisy
  exact ⟨hproject, hbounds, o, ho, htext.mpr hbounds⟩

/-- Midnight of the first day of the calendar, an hour ahead of UTC: a time like any other, but one
without a reading in UTC. -/
theorem predicate_before_calendar :
    (options "proj_1" [("since", ["0001-01-01T00:00:00+01:00"])]).bind
      (fun o => predicate o (filters [("since", ["0001-01-01T00:00:00+01:00"])])) =
        .error .outOfRange := rfl

end Telemetry.Query.Params
