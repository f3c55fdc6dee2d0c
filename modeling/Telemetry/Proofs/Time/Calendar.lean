import Telemetry.Gate.Ingest

/-!
# Months

Every day has a date that exists. The date of a day and the number of a date undo each other in one
direction, which ties the first day of a month to its number. From this follows where a month begins
for the usage that is counted: at midnight UTC of the first day of the month that it is in UTC,
whatever the offset of the clock.

Main statements: `toDays_ofDays`, `valid_ofDays`, `monthStart_eq_ok`.
-/

namespace Telemetry.Time

/-! ## Dates and day numbers -/

theorem one_le_month (lengths : List Nat) (n : Nat) : 1 ≤ (monthAndDay lengths n).1 := by
  induction lengths generalizing n with
  | nil => exact Nat.le_refl 1
  | cons length more ih =>
    rw [monthAndDay]
    split
    · exact Nat.le_refl 1
    · exact Nat.le_succ_of_le (ih _)

/-- The days of the months before, and the days before in the month. -/
theorem days_monthAndDay (lengths : List Nat) (n : Nat) :
    (lengths.take ((monthAndDay lengths n).1 - 1)).foldr (· + ·) 0
      + ((monthAndDay lengths n).2 - 1) = n := by
  induction lengths generalizing n with
  | nil => simp [monthAndDay]
  | cons length more ih =>
    rw [monthAndDay]
    split
    · simp
    · rename_i hlong
      obtain ⟨m, hm⟩ : ∃ m, (monthAndDay more (n - length)).1 = m + 1 :=
        Nat.exists_eq_succ_of_ne_zero (Nat.ne_of_gt (one_le_month more (n - length)))
      have hrest := ih (n - length)
      rw [hm, Nat.add_sub_cancel] at hrest
      dsimp only
      rw [hm, Nat.add_sub_cancel, List.take_succ_cons, List.foldr_cons, Nat.add_assoc, hrest]
      omega

/-- A year of the cycle of 400 years: its century, its group of four years and its place in it. -/
theorem daysBeforeYear_cycle {century four single : Nat} (hcentury : century ≤ 3) (hfour : four ≤ 24)
    (hsingle : single ≤ 3) (cycle : Nat) :
    daysBeforeYear (cycle * 400 + century * 100 + four * 4 + single + 1)
      = cycle * 146097 + century * 36524 + four * 1461 + single * 365 := by
  unfold daysBeforeYear
  dsimp only
  omega

/-- **The date of a day has that day's number.** -/
theorem toDays_ofDays (n : Nat) : (Date.ofDays n).toDays = n := by
  have hcentury : min 3 (n % 146097 / 36524) ≤ 3 := Nat.min_le_left ..
  -- The last century of a cycle is longer by a day, and so is the last year of a group of four.
  have hfour : (n % 146097 - min 3 (n % 146097 / 36524) * 36524) / 1461 ≤ 24 := by omega
  have hsingle : min 3 ((n % 146097 - min 3 (n % 146097 / 36524) * 36524) % 1461 / 365) ≤ 3 :=
    Nat.min_le_left ..
  unfold Date.toDays Date.ofDays
  dsimp only
  rw [daysBeforeYear_cycle hcentury hfour hsingle, Nat.add_assoc, days_monthAndDay]
  omega

/-- A day of a year is in one of its months. -/
theorem monthAndDay_of_lt {lengths : List Nat} {n : Nat} (h : n < lengths.foldr (· + ·) 0) :
    (monthAndDay lengths n).1 ≤ lengths.length ∧ 1 ≤ (monthAndDay lengths n).2 ∧
      (monthAndDay lengths n).2 ≤ lengths.getD ((monthAndDay lengths n).1 - 1) 0 := by
  induction lengths generalizing n with
  | nil => exact absurd h (Nat.not_lt_zero n)
  | cons length more ih =>
    rw [List.foldr_cons] at h
    rw [monthAndDay]
    split
    · rename_i hfirst
      exact ⟨Nat.succ_le_succ (Nat.zero_le _), Nat.succ_le_succ (Nat.zero_le _), hfirst⟩
    · obtain ⟨hmonth, hday, hlength⟩ := ih (n := n - length) (by omega)
      obtain ⟨m, hm⟩ : ∃ m, (monthAndDay more (n - length)).1 = m + 1 :=
        Nat.exists_eq_succ_of_ne_zero (Nat.ne_of_gt (one_le_month more (n - length)))
      dsimp only
      rw [hm] at hmonth hlength ⊢
      exact ⟨Nat.succ_le_succ hmonth, hday, hlength⟩

/-- The year of a day and the day in it: the last day of a year of 366 days is that of a leap
year. -/
theorem ofDays_eq (n : Nat) : ∃ year inYear,
    Date.ofDays n = ⟨year, (monthAndDay (monthLengths (isLeap year)) inYear).1,
      (monthAndDay (monthLengths (isLeap year)) inYear).2⟩ ∧
    daysBeforeYear year + inYear = n ∧ 1 ≤ year ∧
    inYear < (monthLengths (isLeap year)).foldr (· + ·) 0 := by
  refine ⟨_, _, rfl, ?_, Nat.le_add_left .., ?_⟩
  · rw [daysBeforeYear_cycle (Nat.min_le_left ..) (by omega) (Nat.min_le_left ..)]
    omega
  · have hsum : ∀ leap : Bool, (monthLengths leap).foldr (· + ·) 0 = if leap then 366 else 365 := by
      decide
    rw [hsum]
    split
    · omega
    · rename_i hcommon
      rw [isLeap, Bool.and_eq_true, Bool.or_eq_true, beq_iff_eq, beq_iff_eq, bne_iff_ne] at hcommon
      omega

/-- **Every day of the years 1 to 9999 is a date of the calendar.** -/
theorem valid_ofDays {n : Nat} (h : n < 3652059) : (Date.ofDays n).Valid := by
  obtain ⟨year, inYear, hdate, hn, hyear, hinYear⟩ := ofDays_eq n
  have hlast : year ≤ 9999 := by
    unfold daysBeforeYear at hn
    dsimp only at hn
    omega
  obtain ⟨hmonth, hday, hlength⟩ := monthAndDay_of_lt hinYear
  rw [hdate]
  exact ⟨hyear, hlast, one_le_month _ _, hmonth, hday, hlength⟩

/-- The first day of the month of a date. -/
def Date.firstOfMonth (d : Date) : Date := { d with day := 1 }

theorem toDays_firstOfMonth (d : Date) : d.firstOfMonth.toDays = d.toDays - (d.day - 1) := by
  unfold Date.firstOfMonth Date.toDays
  dsimp only
  omega

namespace DateTime

/-! ## The month in UTC -/

/-- The instant of the first midnight UTC of the month that it is in UTC. -/
def utcMonth (now : DateTime) : Int :=
  ((Date.ofDays (now.instant.toNat / day)).firstOfMonth.toDays * day : Nat)

-- Both by cases, since comparing the readings themselves would divide by the length of a day.
theorem wall_monthStart_eq (t : DateTime) : t.monthStart.wall
    = t.wall / day * day - ((Date.ofDays (t.wall / day)).day - 1) * day := by
  obtain ⟨wall, hwall, offset⟩ := t
  exact Eq.refl (wall / day * day - ((Date.ofDays (wall / day)).day - 1) * day)

theorem offset_monthStart (t : DateTime) : t.monthStart.offset = t.offset := by
  obtain ⟨wall, hwall, offset⟩ := t
  exact Eq.refl offset

theorem wall_monthStart (t : DateTime) :
    t.monthStart.wall = (Date.ofDays (t.wall / day)).firstOfMonth.toDays * day := by
  rw [wall_monthStart_eq, toDays_firstOfMonth, toDays_ofDays, ← Nat.sub_mul]

theorem toUtc?_eq_some {now utc : DateTime} (h : now.toUtc? = some utc) :
    utc.offset = some .utc ∧ (utc.wall : Int) = now.instant := by
  unfold toUtc? ofWall? at h
  split at h
  · rename_i hrange
    cases h
    exact ⟨rfl, Int.toNat_of_nonneg hrange.1⟩
  · cases h

theorem instant_of_utc {t : DateTime} (h : t.offset = some .utc) : t.instant = t.wall := by
  unfold instant
  rw [h]
  exact Int.sub_zero _

theorem isAware_of_utc {t : DateTime} (h : t.offset = some .utc) : t.isAware = true := by
  unfold isAware
  rw [h]
  rfl

end DateTime

theorem isAware_monthStart {now utc : DateTime} (h : now.toUtc? = some utc) :
    utc.monthStart.isAware = true :=
  DateTime.isAware_of_utc ((DateTime.offset_monthStart utc).trans (DateTime.toUtc?_eq_some h).1)

theorem instant_monthStart {now utc : DateTime} (h : now.toUtc? = some utc) :
    utc.monthStart.instant = now.utcMonth := by
  obtain ⟨hoffset, hwall⟩ := DateTime.toUtc?_eq_some h
  have hdays : now.instant.toNat = utc.wall := by rw [← hwall, Int.toNat_natCast]
  rw [DateTime.instant_of_utc ((DateTime.offset_monthStart utc).trans hoffset)]
  unfold DateTime.utcMonth
  rw [hdays, ← DateTime.wall_monthStart]

/-- **The month begins at midnight UTC of its first day**, whatever the offset of the clock. -/
theorem monthStart_eq_ok {now since : DateTime} (h : Gate.monthStart now = .ok since) :
    since.isAware = true ∧ since.instant = now.utcMonth := by
  unfold Gate.monthStart at h
  split at h
  · cases h
  · split at h
    · rename_i utc hutc
      cases h
      exact ⟨isAware_monthStart hutc, instant_monthStart hutc⟩
    · cases h

/-- Every clock with an offset is in some month, unless it is in none of the years in UTC. -/
theorem monthStart_of_aware {now utc : DateTime} (haware : now.isAware = true)
    (h : now.toUtc? = some utc) : Gate.monthStart now = .ok utc.monthStart := by
  have hnaive : ¬ (!now.isAware && decide (now.wall < Time.day)) = true := by
    rw [haware, Bool.not_true, Bool.false_and]
    exact Bool.false_ne_true
  unfold Gate.monthStart
  rw [if_neg hnaive, h]

end Telemetry.Time
