import Telemetry.Proofs.Number.Elapsed
import Telemetry.Time.Epoch

/-!
# Instants that survive as seconds since 1970

An instant becomes the double nearest to its seconds since 1970, and comes back as the microsecond
nearest to that double, although on the way back the fraction of a second is rounded once more. Which
instants come back is decided by the distance between neighbouring doubles: up to 2³³ seconds it is
less than a microsecond, so that all of them do.

Main statements: `toEpoch_mono`, `ofEpoch?_toEpoch`, `kept_of_near`.
-/

namespace Telemetry.Time

open Double

theorem second_pos : 0 < second := by decide

/-! ## Rounding the whole and rounding the fraction

All that matters about the number of units in one is that it is a large power of two, so it is a
variable here. -/

section

variable {k one micros : Nat}

/-- Up to this distance neighbouring doubles are less than a microsecond apart. -/
def nearEnd : Nat := 8589934592 * second

/-- Up to there the nearest double is less than half a microsecond off, by a margin that the second
rounding cannot use up. -/
theorem roundUnits_near (hone : one = Nat.pow 2 k * 17179869184) (h : micros < nearEnd) :
    2 * (roundUnits (micros * one) second * second)
        ≤ 2 * (micros * one) + 16384000000 * Nat.pow 2 k ∧
      2 * (micros * one)
        ≤ 2 * (roundUnits (micros * one) second * second) + 16384000000 * Nat.pow 2 k := by
  have hpos : 0 < one := by
    rw [hone]
    exact Nat.mul_pos (Nat.two_pow_pos k) (by decide)
  have hlt : micros * one / second < Nat.pow 2 (k + 14 + 53) := by
    have hmul : micros * one < nearEnd * one := Nat.mul_lt_mul_of_pos_right h hpos
    rw [Nat.div_lt_iff_lt_mul second_pos,
      show Nat.pow 2 (k + 14 + 53) = Nat.pow 2 k * 147573952589676412928 from Nat.pow_add 2 k 67,
      Nat.mul_assoc]
    unfold nearEnd second at hmul
    unfold second
    omega
  have hspacing : spacing (micros * one / second) ≤ Nat.pow 2 k * 16384 := by
    rw [show Nat.pow 2 k * 16384 = Nat.pow 2 (k + 14) from (Nat.pow_add 2 k 14).symm]
    exact Nat.le_of_dvd (Nat.two_pow_pos _) (spacing_dvd_of_lt hlt)
  have hup := two_mul_roundUnits_le (micros * one) second
  have hdown := le_two_mul_roundUnits second_pos (micros * one)
  unfold second at *
  omega

theorem roundDiv_near (hone : one = Nat.pow 2 k * 17179869184) (h : micros < nearEnd) :
    roundDiv (roundUnits (micros * one) second * second) one = micros := by
  have hpow : 0 < Nat.pow 2 k := Nat.two_pow_pos k
  obtain ⟨hup, hdown⟩ := roundUnits_near hone h
  refine roundDiv_eq_of_near (by omega) ?_ ?_
  · omega
  · omega

theorem spacing_fraction (hone : one = Nat.pow 2 k * 17179869184) (units : Nat) :
    spacing (units % one * second) ∣ Nat.pow 2 (k + 1) := by
  have hpow : 0 < Nat.pow 2 k := Nat.two_pow_pos k
  have hmod : units % one < one := Nat.mod_lt units (by omega)
  refine spacing_dvd_of_lt ?_
  rw [show Nat.pow 2 (k + 1 + 53) = Nat.pow 2 k * 18014398509481984 from Nat.pow_add 2 k 54]
  unfold second
  omega

/-- Nearby the whole seconds are not more than there are microseconds, and the fraction is rounded to
the rest of them. -/
theorem roundDiv_fraction_near (hone : one = Nat.pow 2 k * 17179869184) (h : micros < nearEnd)
    {units : Nat} (hunits : units = roundUnits (micros * one) second) :
    units / one * second + roundDiv (roundUnits (units % one * second) 1) one = micros := by
  have hpow : 0 < Nat.pow 2 k := Nat.two_pow_pos k
  have hpos : 0 < one := by omega
  have hsplit : units / one * one + units % one = units := Nat.div_add_mod' units one
  obtain ⟨hup, hdown⟩ := roundUnits_near hone h
  rw [← hunits] at hup hdown
  have hwhole : units / one * second ≤ micros := by
    refine Nat.le_of_lt_succ (Nat.lt_of_mul_lt_mul_right (a := one) ?_)
    rw [Nat.mul_right_comm, Nat.succ_mul]
    unfold second at *
    omega
  have hle : spacing (units % one * second / 1) ≤ Nat.pow 2 k * 2 := by
    rw [Nat.div_one, show Nat.pow 2 k * 2 = Nat.pow 2 (k + 1) from (Nat.pow_add 2 k 1).symm]
    exact Nat.le_of_dvd (Nat.two_pow_pos _) (spacing_fraction hone units)
  have hfractionUp := two_mul_roundUnits_le (units % one * second) 1
  have hfractionDown := le_two_mul_roundUnits Nat.one_pos (units % one * second)
  have hfraction : roundDiv (roundUnits (units % one * second) 1) one
      = micros - units / one * second := by
    have hrest : (micros - units / one * second) * one
        = micros * one - units / one * one * second := by
      rw [Nat.sub_mul, Nat.mul_right_comm]
    refine roundDiv_eq_of_near hpos ?_ ?_
    · rw [hrest]
      unfold second at *
      omega
    · rw [hrest]
      unfold second at *
      omega
  rw [hfraction]
  omega

/-- Far away the neighbours are so far apart that the fraction is short, and rounding leaves it
alone. -/
theorem roundUnits_fraction_far (hone : one = Nat.pow 2 k * 17179869184) (h : nearEnd ≤ micros)
    {units : Nat} (hunits : units = roundUnits (micros * one) second) :
    roundUnits (units % one * second) 1 = units % one * second := by
  have hone' : Nat.pow 2 (k + 15) ∣ one := by
    rw [hone, show Nat.pow 2 k * 17179869184 = Nat.pow 2 (k + 34) from (Nat.pow_add 2 k 34).symm]
    exact Nat.pow_dvd_pow 2 (by omega)
  have hlarge : Nat.pow 2 (k + 15 + 52) ≤ micros * one / second := by
    rw [Nat.le_div_iff_mul_le second_pos,
      show Nat.pow 2 (k + 15 + 52) = Nat.pow 2 k * 147573952589676412928 from
        Nat.pow_add 2 k 67, Nat.mul_assoc]
    have hmul : nearEnd * one ≤ micros * one := Nat.mul_le_mul_right one h
    unfold nearEnd second at hmul
    unfold second
    omega
  have hstep : Nat.pow 2 (k + 15) ∣ units := by
    rw [hunits]
    exact Nat.dvd_trans (two_pow_dvd_spacing hlarge) (Nat.dvd_mul_left _ _)
  have hfraction : Nat.pow 2 (k + 1) ∣ units % one :=
    Nat.dvd_trans (Nat.pow_dvd_pow 2 (by omega)) ((Nat.dvd_mod_iff hone').mpr hstep)
  have hexact : spacing (units % one * second) ∣ units % one * second :=
    Nat.dvd_trans (Nat.dvd_trans (spacing_fraction hone units) hfraction) (Nat.dvd_mul_right _ _)
  have hself := roundUnits_eq_self Nat.one_pos hexact
  rwa [Nat.mul_one] at hself

/-- **The fraction may be rounded on its own**: with its whole seconds put back, it gives the
microsecond nearest to the double. -/
theorem roundDiv_fraction (hone : one = Nat.pow 2 k * 17179869184) (micros : Nat) {units : Nat}
    (hunits : units = roundUnits (micros * one) second) :
    units / one * second + roundDiv (roundUnits (units % one * second) 1) one
      = roundDiv (units * second) one := by
  rcases Nat.lt_or_ge micros nearEnd with hnear | hfar
  · rw [roundDiv_fraction_near hone hnear hunits, hunits, roundDiv_near hone hnear]
  · have hpow : 0 < Nat.pow 2 k := Nat.two_pow_pos k
    have hsplit : units / one * one + units % one = units := Nat.div_add_mod' units one
    have heven : units / one * second % 2 = 0 := by
      unfold second
      omega
    rw [roundUnits_fraction_far hone hfar hunits, ← roundDiv_add (by omega) heven,
      Nat.mul_right_comm, ← Nat.add_mul, hsplit]

end

/-! ## There -/

/-- The count of units of the double that is nearest to a number of microseconds, in seconds. -/
def nearestSeconds (micros : Nat) : Nat := roundUnits (micros * unitsPerOne) second

/-- The number of microseconds that is nearest to the double nearest to a number of microseconds. -/
def readBack (micros : Nat) : Nat := roundDiv (nearestSeconds micros * second) unitsPerOne

/-- One is a power of two of units, not too large. -/
theorem exists_unitsPerOne : ∃ k, k ≤ 1040 ∧ unitsPerOne = Nat.pow 2 k * 17179869184 :=
  ⟨1040, Nat.le_refl 1040, by decide +kernel⟩

namespace DateTime

/-- How far an instant is from 1970, in microseconds. -/
def distance (t : DateTime) : Nat := (t.instant - epoch).natAbs

theorem distance_lt (t : DateTime) : t.distance < Nat.pow 2 59 := by
  have hwall := t.inRange
  obtain ⟨hlow, hhigh⟩ := (t.offset.getD .utc).bounded
  show t.distance < 576460752303423488
  unfold distance instant
  unfold wallEnd day second at hwall
  unfold day second at hlow hhigh
  unfold epoch day second
  omega

theorem representable_nearestSeconds (t : DateTime) : Representable (nearestSeconds t.distance) := by
  obtain ⟨k, hk, hone⟩ := exists_unitsPerOne
  have hscaled : t.distance * unitsPerOne ≤ Nat.pow 2 59 * unitsPerOne :=
    Nat.mul_le_mul_right _ (Nat.le_of_lt t.distance_lt)
  refine representable_roundUnits_of_le (k := k + 93) (by omega) second_pos ?_
  rw [show Nat.pow 2 (k + 93) = Nat.pow 2 k * 9903520314283042199192993792 from Nat.pow_add 2 k 93]
  refine Nat.le_trans hscaled ?_
  rw [hone, Nat.mul_assoc, show Nat.pow 2 59 = 576460752303423488 from rfl]
  unfold second
  omega

theorem toEpoch_eq (t : DateTime) :
    t.toEpoch = .finite (decide (t.instant < epoch)) (nearestSeconds t.distance)
      t.representable_nearestSeconds := by
  have hsign : (decide (t.instant - epoch < 0) != decide ((second : Int) < 0))
      = decide (t.instant < epoch) := by
    rw [show decide ((second : Int) < 0) = false from rfl, Bool.bne_false]
    exact decide_eq_decide.mpr (by omega)
  unfold toEpoch ofQuotient ofRatio ofUnitQuotient
  rw [hsign]
  exact ofUnits_of_representable _ t.representable_nearestSeconds

/-- **The order of instants is kept.** -/
theorem toEpoch_mono {t u : DateTime} (h : t.instant ≤ u.instant) :
    t.toEpoch.le u.toEpoch = true := by
  have hmono {m n : Nat} (hmn : m ≤ n) : nearestSeconds m ≤ nearestSeconds n :=
    roundUnits_mono second_pos (Nat.mul_le_mul_right _ hmn)
  rw [toEpoch_eq, toEpoch_eq, le_finite_iff]
  unfold signed
  by_cases ht : t.instant < epoch <;> by_cases hu : u.instant < epoch
  · -- Before 1970 what is earlier is farther away.
    have hfar := hmono (m := u.distance) (n := t.distance) (by unfold distance; omega)
    simpa only [ht, hu, decide_true, if_true, Int.neg_le_neg_iff, Int.ofNat_le] using hfar
  · simp only [ht, hu, decide_true, decide_false, if_true, Bool.false_eq_true, if_false]
    omega
  · omega
  · have hfar := hmono (m := t.distance) (n := u.distance) (by unfold distance; omega)
    simpa only [ht, hu, decide_false, Bool.false_eq_true, if_false, Int.ofNat_le] using hfar

/-! ## And back -/

theorem representable_second : Representable (second * unitsPerOne) := by decide +kernel

theorem ofInt_second :
    Double.ofInt second = .finite false (second * unitsPerOne) representable_second := by
  have hself := roundUnits_eq_self Nat.one_pos representable_second.2
  rw [Nat.mul_one] at hself
  unfold Double.ofInt ofRatio ofUnitQuotient
  rw [show (second : Int).natAbs = second from rfl, hself]
  exact ofUnits_of_representable _ representable_second

theorem mul_ofInt_second {units : Nat} (negative : Bool) (h : Representable units)
    (hproduct : Representable (roundUnits (units * second) 1)) :
    mul (.finite negative units h) (.ofInt second)
      = .finite negative (roundUnits (units * second) 1) hproduct := by
  have hround := roundUnits_mul_mul unitsPerOne_pos (units * second) 1
  rw [Nat.one_mul, Nat.mul_assoc] at hround
  rw [ofInt_second]
  show ofUnits (negative != false) (roundUnits (units * (second * unitsPerOne)) unitsPerOne) = _
  rw [hround, Bool.bne_false]
  exact ofUnits_of_representable _ hproduct

theorem truncate?_finite {units : Nat} (negative : Bool) (h : Representable units) :
    truncate? (.finite negative units h) = some (signed negative (units / unitsPerOne)) := by
  cases negative with
  | false => exact congrArg some (Int.ofNat_tdiv units unitsPerOne).symm
  | true =>
    have hneg : Int.tdiv (-(units : Int)) unitsPerOne = -((units / unitsPerOne : Nat) : Int) := by
      rw [Int.neg_tdiv, Int.ofNat_tdiv]
    exact congrArg some hneg

theorem signed_mul_add (negative : Bool) (a n b : Nat) :
    signed negative a * n + signed negative b = signed negative (a * n + b) := by
  unfold signed
  cases negative with
  | false =>
    simp only [Bool.false_eq_true, if_false]
    rw [Int.natCast_add, Int.natCast_mul]
  | true =>
    simp only [if_true]
    rw [Int.natCast_add, Int.natCast_mul, Int.neg_add, Int.neg_mul]

theorem ofEpoch?_finite (negative : Bool) {units : Nat} (h : Representable units) :
    ofEpoch? (.finite negative units h) = ofWall? (signed negative (units / unitsPerOne * second
      + roundDiv (roundUnits (units % unitsPerOne * second) 1) unitsPerOne) + epoch)
      (some .utc) := by
  have hpart : Representable (units % unitsPerOne) :=
    ⟨Nat.lt_of_le_of_lt (Nat.mod_le units unitsPerOne) h.1, spacing_dvd_mod h.2 1074⟩
  have hproduct : Representable (roundUnits (units % unitsPerOne * second) 1) := by
    obtain ⟨k, hk, hone⟩ := exists_unitsPerOne
    have hmod : units % unitsPerOne < unitsPerOne := Nat.mod_lt units unitsPerOne_pos
    refine representable_roundUnits_of_le (k := k + 54) (by omega) Nat.one_pos ?_
    rw [show Nat.pow 2 (k + 54) = Nat.pow 2 k * 18014398509481984 from Nat.pow_add 2 k 54]
    rw [hone] at hmod ⊢
    unfold second
    omega
  have hfraction : fraction (.finite negative units h)
      = .finite negative (units % unitsPerOne) hpart := ofUnits_of_representable _ hpart
  have hmicros : nearest? (.finite negative (roundUnits (units % unitsPerOne * second) 1) hproduct)
      = some (signed negative (roundDiv (roundUnits (units % unitsPerOne * second) 1)
          unitsPerOne)) := rfl
  unfold ofEpoch?
  rw [truncate?_finite, hfraction, mul_ofInt_second _ _ hproduct, hmicros, ← signed_mul_add]
  rfl

/-! ## There and back -/

variable {t u : DateTime}

/-- **What comes back is the nearest microsecond to the nearest double**, if it is in the years 1 to
9999. -/
theorem ofEpoch?_toEpoch (t : DateTime) :
    ofEpoch? t.toEpoch
      = ofWall? (signed (decide (t.instant < epoch)) (readBack t.distance) + epoch) (some .utc) := by
  obtain ⟨k, -, hone⟩ := exists_unitsPerOne
  have hround : nearestSeconds t.distance / unitsPerOne * second
      + roundDiv (roundUnits (nearestSeconds t.distance % unitsPerOne * second) 1) unitsPerOne
        = readBack t.distance := roundDiv_fraction hone t.distance rfl
  rw [toEpoch_eq, ofEpoch?_finite, hround]

theorem signed_distance (t : DateTime) :
    signed (decide (t.instant < epoch)) t.distance + epoch = t.instant := by
  unfold signed distance
  split
  · rename_i h
    have := of_decide_eq_true h
    omega
  · rename_i h
    have := mt decide_eq_true h
    omega

theorem instant_of_ofWall? {wall : Int} (h : ofWall? wall (some .utc) = some u) :
    u.instant = wall ∧ u.isAware = true := by
  unfold ofWall? at h
  split at h
  · rename_i hwall
    cases h
    refine ⟨?_, rfl⟩
    show ((wall.toNat : Nat) : Int) - 0 = wall
    omega
  · cases h

/-- An instant in the years 1 to 9999 that the nearest double determines to the microsecond. -/
structure Kept (t : DateTime) : Prop where
  low : 0 ≤ t.instant
  high : t.instant < wallEnd
  exact : readBack t.distance = t.distance

/-- **Every instant within 2³³ seconds of 1970 is kept.** -/
theorem kept_of_near (h : t.distance < nearEnd) : t.Kept := by
  obtain ⟨k, -, hone⟩ := exists_unitsPerOne
  have hdistance := h
  unfold distance nearEnd epoch day second at hdistance
  refine ⟨by omega, ?_, roundDiv_near hone h⟩
  unfold wallEnd day second
  omega

theorem Kept.exists_ofEpoch? (h : t.Kept) :
    ∃ u, ofEpoch? t.toEpoch = some u ∧ u.instant = t.instant ∧ u.isAware = true := by
  have hback : ofEpoch? t.toEpoch = ofWall? t.instant (some .utc) := by
    rw [ofEpoch?_toEpoch, h.exact, signed_distance]
  obtain ⟨u, hu⟩ : ∃ u, ofWall? t.instant (some .utc) = some u := ⟨_, dif_pos ⟨h.low, h.high⟩⟩
  exact ⟨u, hback.trans hu, instant_of_ofWall? hu⟩

theorem kept_of_ofEpoch? (hu : ofEpoch? t.toEpoch = some u) (hsame : u.instant = t.instant) :
    t.Kept := by
  rw [ofEpoch?_toEpoch] at hu
  have hinstant := (instant_of_ofWall? hu).1
  rw [hsame] at hinstant
  have hself := signed_distance t
  have hrange : 0 ≤ t.instant ∧ t.instant < wallEnd := by
    unfold ofWall? at hu
    split at hu
    · rename_i hwall
      rwa [← hinstant] at hwall
    · cases hu
  refine ⟨hrange.1, hrange.2, ?_⟩
  unfold signed at hinstant hself
  split at hself <;> omega

end DateTime

end Telemetry.Time
