import Telemetry.Proofs.Time.Reading

/-!
# Instants of texts

The instant that a text with a date, a time of day to the millisecond and an offset stands for. A
text without an offset is one in UTC. An offset has hours and minutes, and seconds and microseconds
where it is not in whole minutes or seconds.

Main statements: `instant?_millisText` and `instant?_columnText`.
-/

namespace Telemetry.Time

namespace Stamp

/-! ## Fields -/

/-- The number that this many digits write, and what stands behind them. -/
def number? (width : Nat) (cs : List Char) : Option (Nat × List Char) :=
  if (cs.take width).length = width ∧ (cs.take width).all Text.isDigit = true then
    some (Text.decimalValue (cs.take width), cs.drop width)
  else none

/-- The number in a field behind a mark. -/
def field? (mark : Char) (width : Nat) : List Char → Option (Nat × List Char)
  | c :: rest => if c = mark then number? width rest else none
  | [] => none

/-- A year, a month and a day of the calendar with hyphens between them. -/
def date? (cs : List Char) : Option (Date × List Char) := do
  let (year, cs) ← number? 4 cs
  let (month, cs) ← field? '-' 2 cs
  let (day, cs) ← field? '-' 2 cs
  if Date.Valid ⟨year, month, day⟩ then some (⟨year, month, day⟩, cs) else none

/-- A time of day to the millisecond, in microseconds since midnight. -/
def clock? (cs : List Char) : Option (Nat × List Char) := do
  let (hour, cs) ← number? 2 cs
  let (minute, cs) ← field? ':' 2 cs
  let (seconds, cs) ← field? ':' 2 cs
  let (millis, cs) ← field? '.' 3 cs
  if hour < 24 ∧ minute < 60 ∧ seconds < 60 then
    some (((hour * 60 + minute) * 60 + seconds) * second + millis * 1000, cs)
  else none

/-- A field that can be left out at the end of a text, where it is zero. -/
def optional? (mark : Char) (width : Nat) : List Char → Option (Nat × List Char)
  | [] => some (0, [])
  | cs => field? mark width cs

/-- The size of an offset in microseconds. -/
def size? (cs : List Char) : Option Nat := do
  let (hours, cs) ← number? 2 cs
  let (minutes, cs) ← field? ':' 2 cs
  let (seconds, cs) ← optional? ':' 2 cs
  let (micros, cs) ← optional? '.' 6 cs
  if cs = [] ∧ hours < 24 ∧ minutes < 60 ∧ seconds < 60 then
    some (((hours * 60 + minutes) * 60 + seconds) * second + micros)
  else none

/-- An offset in microseconds, east of UTC or west of it; none is the one of UTC. -/
def zone? : List Char → Option Int
  | [] => some 0
  | '+' :: cs => (size? cs).map fun (n : Nat) => (n : Int)
  | '-' :: cs => (size? cs).map fun (n : Nat) => -(n : Int)
  | _ => none

/-- A separator between date and time. -/
def separator? : List Char → Option (List Char)
  | c :: rest => if c = 'T' ∨ c = ' ' then some rest else none
  | [] => none

/-- The instant that a text stands for, in microseconds since the start of the year 1 in UTC. -/
def instant? (cs : List Char) : Option Int := do
  let (date, cs) ← date? cs
  let cs ← separator? cs
  let (micros, cs) ← clock? cs
  let offset ← zone? cs
  some ((date.toDays * day + micros : Nat) - offset)

variable {width n : Nat}

/-! ## Reading what is written -/

theorem number?_padded (hwidth : 0 < width) (h : n < 10 ^ width) (rest : List Char) :
    number? width ((Text.paddedDecimal width n).toList ++ rest) = some (n, rest) := by
  have hlength := Text.length_paddedDecimal hwidth h
  have hdigits : (Text.paddedDecimal width n).toList.all Text.isDigit = true := by
    rw [List.all_eq_true]
    intro c hc
    exact Text.isDigit_of_mem_paddedDecimal hc
  rw [number?, List.take_left' hlength, List.drop_left' hlength, if_pos ⟨hlength, hdigits⟩,
    Text.decimalValue_paddedDecimal]

theorem field?_padded (mark : Char) (hwidth : 0 < width) (h : n < 10 ^ width) (rest : List Char) :
    field? mark width (mark :: ((Text.paddedDecimal width n).toList ++ rest)) = some (n, rest) := by
  rw [field?, if_pos rfl, number?_padded hwidth h]

theorem optional?_padded (mark : Char) (hwidth : 0 < width) (h : n < 10 ^ width)
    (rest : List Char) : optional? mark width (mark :: ((Text.paddedDecimal width n).toList ++ rest))
      = some (n, rest) := by
  rw [optional?, field?_padded mark hwidth h]
  exact List.cons_ne_nil _ _

theorem date?_written {d : Date} (hd : d.Valid) (rest : List Char) :
    date? ((Text.paddedDecimal 4 d.year).toList ++ '-' :: ((Text.paddedDecimal 2 d.month).toList ++
      '-' :: ((Text.paddedDecimal 2 d.day).toList ++ rest))) = some (d, rest) := by
  have hyear : d.year < 10 ^ 4 := Nat.lt_of_le_of_lt hd.2.1 (by decide)
  have hmonth : d.month < 10 ^ 2 := Nat.lt_of_le_of_lt hd.2.2.2.1 (by decide)
  simp only [date?, number?_padded (by decide) hyear, field?_padded '-' (by decide) hmonth,
    field?_padded '-' (by decide) (Iso.day_lt hd), Option.bind_eq_bind, Option.bind_some]
  exact if_pos hd

theorem clock?_written {hour minute seconds millis : Nat} (hhour : hour < 24) (hminute : minute < 60)
    (hseconds : seconds < 60) (hmillis : millis < 1000) (rest : List Char) :
    clock? ((Text.paddedDecimal 2 hour).toList ++ ':' :: ((Text.paddedDecimal 2 minute).toList ++
      ':' :: ((Text.paddedDecimal 2 seconds).toList ++
        '.' :: ((Text.paddedDecimal 3 millis).toList ++ rest))))
      = some (((hour * 60 + minute) * 60 + seconds) * second + millis * 1000, rest) := by
  have two_digits {k : Nat} (hk : k < 60) : k < 10 ^ 2 := Nat.lt_trans hk (by decide)
  simp only [clock?, number?_padded (by decide) (two_digits (Nat.lt_trans hhour (by decide))),
    field?_padded ':' (by decide) (two_digits hminute),
    field?_padded ':' (by decide) (two_digits hseconds),
    field?_padded '.' (by decide) (show millis < 10 ^ 3 from hmillis), Option.bind_eq_bind,
    Option.bind_some]
  exact if_pos ⟨hhour, hminute, hseconds⟩

theorem size?_written {hours minutes seconds micros : Nat} {rest more : List Char}
    (hhours : hours < 24) (hminutes : minutes < 60) (hseconds : seconds < 60)
    (hrest : optional? ':' 2 rest = some (seconds, more))
    (hmore : optional? '.' 6 more = some (micros, [])) :
    size? ((Text.paddedDecimal 2 hours).toList ++ ':' ::
        ((Text.paddedDecimal 2 minutes).toList ++ rest))
      = some (((hours * 60 + minutes) * 60 + seconds) * second + micros) := by
  have hhour : hours < 10 ^ 2 := Nat.lt_trans hhours (by decide)
  have hminute : minutes < 10 ^ 2 := Nat.lt_trans hminutes (by decide)
  simp only [size?, number?_padded (by decide) hhour, field?_padded ':' (by decide) hminute, hrest,
    hmore, Option.bind_eq_bind, Option.bind_some]
  exact if_pos ⟨trivial, hhours, hminutes, hseconds⟩

end Stamp

open Stamp

namespace DateTime

/-! ## Offsets -/

/-- Behind the minutes of an offset stand its seconds and microseconds, as far as they are not
zero. -/
theorem exists_toList_offsetText (o : Offset) : ∃ rest more,
    (offsetText o).toList = (if o.micros < 0 then '-' else '+') ::
      ((Text.paddedDecimal 2 (o.micros.natAbs / second / 3600)).toList ++ ':' ::
        ((Text.paddedDecimal 2 (o.micros.natAbs / second / 60 % 60)).toList ++ rest)) ∧
    optional? ':' 2 rest = some (o.micros.natAbs / second % 60, more) ∧
    optional? '.' 6 more = some (o.micros.natAbs % second, []) := by
  have hsign : (if o.micros < 0 then "-" else "+").toList
      = [if o.micros < 0 then '-' else '+'] := by
    split <;> rfl
  have hcolon : ":".toList = [':'] := rfl
  have hpoint : ".".toList = ['.'] := rfl
  have hseconds : o.micros.natAbs / second % 60 < 10 ^ 2 :=
    Nat.lt_trans (Nat.mod_lt _ (by decide)) (by decide : 60 < 10 ^ 2)
  have hmicros : o.micros.natAbs % second < 10 ^ 6 := Nat.mod_lt _ (by decide)
  by_cases hwhole : o.micros.natAbs % second = 0
  · by_cases hminutes : o.micros.natAbs / second % 60 = 0
    · refine ⟨[], [], ?_, ?_, ?_⟩
      · simp [offsetText, two, hsign, hcolon, hwhole, hminutes]
      · rw [hminutes, optional?]
      · rw [hwhole, optional?]
    · refine ⟨':' :: ((Text.paddedDecimal 2 (o.micros.natAbs / second % 60)).toList ++ []), [], ?_,
        optional?_padded ':' (by decide) hseconds [], ?_⟩
      · simp [offsetText, two, hsign, hcolon, hwhole, hminutes]
      · rw [hwhole, optional?]
  · refine ⟨_, _, ?_, optional?_padded ':' (by decide) hseconds _,
      optional?_padded '.' (by decide) hmicros []⟩
    simp [offsetText, two, hsign, hcolon, hpoint, hwhole]

theorem zone?_offsetText (o : Offset) : zone? (offsetText o).toList = some o.micros := by
  obtain ⟨rest, more, htext, hrest, hmore⟩ := exists_toList_offsetText o
  obtain ⟨hlow, hhigh⟩ := o.bounded
  have hday : day = 86400000000 := rfl
  have hsecond : second = 1000000 := rfl
  have hhours : o.micros.natAbs / second / 3600 < 24 := by
    rw [hsecond]
    omega
  have hminutes : o.micros.natAbs / second / 60 % 60 < 60 := Nat.mod_lt _ (by decide)
  have hseconds : o.micros.natAbs / second % 60 < 60 := Nat.mod_lt _ (by decide)
  have hsize := size?_written hhours hminutes hseconds hrest hmore
  have hparts : ((o.micros.natAbs / second / 3600 * 60 + o.micros.natAbs / second / 60 % 60) * 60
      + o.micros.natAbs / second % 60) * second + o.micros.natAbs % second = o.micros.natAbs := by
    rw [hsecond]
    omega
  rw [hparts] at hsize
  rw [htext]
  by_cases hneg : o.micros < 0
  · rw [if_pos hneg, zone?, hsize, Option.map_some]
    exact congrArg some (by omega)
  · rw [if_neg hneg, zone?, hsize, Option.map_some]
    exact congrArg some (by omega)

theorem zone?_zoneText (t : DateTime) :
    zone? t.zoneText.toList = some (t.offset.getD .utc).micros := by
  unfold zoneText
  cases t.offset with
  | none => rfl
  | some o => exact zone?_offsetText o

/-! ## Texts of readings -/

variable {t : DateTime}

/-- The fields of a reading with its fraction cut to milliseconds. -/
theorem toList_millis {width : Nat} {separator : String} {c : Char}
    (hyear : Text.paddedDecimal width t.date.year = Text.paddedDecimal 4 t.date.year)
    (hseparator : separator.toList = [c]) (zone : List Char) :
    (t.dateText width ++ separator ++ t.clockText ++ "." ++
        Text.paddedDecimal 3 (t.micros / 1000)).toList ++ zone
      = (Text.paddedDecimal 4 t.date.year).toList ++ '-' ::
        ((Text.paddedDecimal 2 t.date.month).toList ++ '-' ::
          ((Text.paddedDecimal 2 t.date.day).toList ++ c ::
            ((Text.paddedDecimal 2 t.hour).toList ++ ':' ::
              ((Text.paddedDecimal 2 t.minute).toList ++ ':' ::
                ((Text.paddedDecimal 2 t.seconds).toList ++ '.' ::
                  ((Text.paddedDecimal 3 (t.micros / 1000)).toList ++ zone)))))) := by
  have hhyphen : "-".toList = ['-'] := rfl
  have hcolon : ":".toList = [':'] := rfl
  have hpoint : ".".toList = ['.'] := rfl
  unfold dateText clockText two
  dsimp only
  simp only [hyear, String.toList_append, hhyphen, hseparator, hcolon, hpoint, List.append_assoc,
    List.cons_append, List.nil_append]

theorem instant?_millis {width : Nat} (separator : String) {c : Char} {zone : List Char}
    {offset : Int}
    (hyear : Text.paddedDecimal width t.date.year = Text.paddedDecimal 4 t.date.year)
    (hseparator : separator.toList = [c]) (hc : c = 'T' ∨ c = ' ') (hzone : zone? zone = some offset) :
    instant? ((t.dateText width ++ separator ++ t.clockText ++ "." ++
        Text.paddedDecimal 3 (t.micros / 1000)).toList ++ zone)
      = some ((t.cut.wall : Int) - offset) := by
  rw [toList_millis hyear hseparator, instant?, date?_written t.valid_date, Option.bind_eq_bind,
    Option.bind_some]
  simp only [separator?, if_pos hc, clock?_written t.hour_lt t.minute_lt t.seconds_lt t.millis_lt,
    hzone, Option.bind_eq_bind, Option.bind_some, t.wall_cut]

/-- **The text of a row stands for the instant of the reading cut to milliseconds.** -/
theorem instant?_millisText (t : DateTime) : instant? t.millisText.toList = some t.cut.instant := by
  rw [millisText, String.toList_append]
  exact instant?_millis "T" rfl rfl (Or.inl rfl) (zone?_zoneText t)

/-- **The text of a column stands for the reading cut to milliseconds as one in UTC**, where the
year has four digits. -/
theorem instant?_columnText (h : 1000 ≤ t.date.year) :
    instant? t.columnText.toList = some (t.cut.wall : Int) := by
  have hyear : Text.paddedDecimal 1 t.date.year = Text.paddedDecimal 4 t.date.year := by
    rw [Text.paddedDecimal_of_le (by decide : 1 ≤ 3 + 1) h,
      Text.paddedDecimal_of_le (by decide : 4 ≤ 3 + 1) h]
  have hutc : zone? [] = some 0 := rfl
  have hread := instant?_millis " " hyear rfl (Or.inr rfl) hutc
  rw [List.append_nil, Int.sub_zero] at hread
  exact hread

end DateTime

end Telemetry.Time
