import Mathlib.Data.Nat.GCD.Basic
import Mathlib.Tactic.Ring
import Telemetry.Proofs.Query.ReadBack
import Telemetry.Query.Plan

/-!
# Percentages of totals

A rate is computed in three steps: the ratio of two counts, a hundred times that, and a half more.
Each step rounds, and each keeps the order. So the rate exceeds `k` percent exactly if the ratio is
past one double, and, since the ratio of counts of 53 bits is never in the middle between
neighbours, exactly if the counts are past that middle, the cutoff of `k`. The rate is the
percentage rounded to the nearest integer exactly if no cutoff falls between the percentage and a
half. Up to 2⁴⁵ events that is so except at four exact halves.

Main statement: `stats_rounds_iff`.
-/

namespace Telemetry

/-! ## Operations on positive doubles -/

namespace Double

variable {u v num den : Nat}

theorem ofUnitQuotient_finite {k : Nat} (hk : k < 2098) (hden : 0 < den)
    (h : num ≤ Nat.pow 2 k * den) :
    ∃ hr, ofUnitQuotient false num den = .finite false (roundUnits num den) hr :=
  ⟨_, ofUnits_of_representable false (representable_roundUnits_of_le hk hden h)⟩

/-- A count that need not be divided is rounded to a double. -/
theorem ofUnitQuotient_one {k : Nat} (hk : k < 2098) (h : num ≤ Nat.pow 2 k) :
    roundUnits num 1 ≤ Nat.pow 2 k ∧
      ∃ hr, ofUnitQuotient false num 1 = .finite false (roundUnits num 1) hr := by
  have hone : num ≤ Nat.pow 2 k * 1 := by rwa [Nat.mul_one]
  exact ⟨roundUnits_le Nat.one_pos (spacing_dvd_two_pow k) hone,
    ofUnitQuotient_finite hk Nat.one_pos hone⟩

theorem mul_finite (hu : Representable u) (hv : Representable v) :
    (finite false u hu).mul (finite false v hv) = ofUnitQuotient false (u * v) unitsPerOne := rfl

theorem mul_ofInt {n : Nat} (hu : Representable u) (hn : n ≤ Nat.pow 2 53) :
    (finite false u hu).mul (ofInt n) = ofUnitQuotient false (u * n) 1 := by
  obtain ⟨hr, hinteger⟩ := ofInt_natCast hn
  have hscaled := roundUnits_mul_mul unitsPerOne_pos (u * n) 1
  rw [Nat.one_mul, Nat.mul_assoc] at hscaled
  rw [hinteger, mul_finite, ofUnitQuotient, ofUnitQuotient, hscaled]

theorem add_finite (hu : Representable u) (hv : Representable v) (hpos : 0 < v) :
    (finite false u hu).add (finite false v hv) = ofUnitQuotient false (u + v) 1 := by
  have hsum : (u : Int) + v = (u + v : Nat) := rfl
  have hne : ((u + v : Nat) : Int) ≠ 0 := by omega
  have hsign : decide (((u + v : Nat) : Int) < 0) = false := decide_eq_false (by omega)
  show (if (u : Int) + v = 0 then ofUnits (false && false) 0
    else ofUnitQuotient ((u : Int) + v < 0) ((u : Int) + v).natAbs 1) = _
  rw [hsum, if_neg hne, hsign, Int.natAbs_natCast]

theorem floor?_finite (hu : Representable u) :
    (finite false u hu).floor? = some ((u / unitsPerOne : Nat) : Int) := by
  show some (Int.fdiv u unitsPerOne) = _
  rw [Int.fdiv_eq_ediv_of_nonneg _ (Int.natCast_nonneg _), Int.natCast_ediv]

/-- The number of units in a half. -/
def unitsPerHalf : Nat := Nat.pow 2 1073

theorem unitsPerHalf_mul : unitsPerHalf * Nat.pow 2 1 = unitsPerOne := by
  rw [unitsPerHalf, two_pow_mul, unitsPerOne]

theorem representable_unitsPerHalf : Representable unitsPerHalf :=
  ⟨Nat.pow_lt_pow_right (by decide) (by decide), spacing_dvd_two_pow 1073⟩

/-- A half is a double. -/
theorem ofRatio_half :
    ofRatio false 1 2 = .finite false unitsPerHalf representable_unitsPerHalf := by
  have hround : roundUnits (unitsPerHalf * Nat.pow 2 1) 2 = unitsPerHalf :=
    roundUnits_eq_self (by decide : 0 < 2) representable_unitsPerHalf.2
  rw [ofRatio, ofUnitQuotient, Nat.one_mul, ← unitsPerHalf_mul, hround]
  exact ofUnits_of_representable false representable_unitsPerHalf

/-- The middle between neighbours below one is no ratio of counts of 53 bits. -/
theorem middle_ne {z n : Nat} (hz : spacing z ∣ z) (hone : z < Nat.pow 2 60) (hden : 0 < den)
    (hmax : den ≤ Nat.pow 2 53) : (2 * z + spacing z) * den ≠ n * Nat.pow 2 61 := by
  intro hmiddle
  obtain ⟨e, he, hspacing⟩ : ∃ e, e ≤ 7 ∧ spacing z = 2 ^ e := by
    refine ⟨z.log2 - 52, ?_, rfl⟩
    rcases Nat.eq_zero_or_pos z with rfl | hpos
    · exact Nat.zero_le _
    · have hlog := (Nat.log2_lt (Nat.ne_of_gt hpos)).mpr hone
      omega
  obtain ⟨m, hm⟩ := hz
  rw [hspacing] at hm hmiddle
  -- The middle is an odd number of half distances, so that all twos are in the divisor.
  have hodd : (2 * m + 1) * den = 2 ^ (61 - e) * n := by
    refine Nat.eq_of_mul_eq_mul_left (Nat.two_pow_pos e) ?_
    calc 2 ^ e * ((2 * m + 1) * den) = (2 * z + 2 ^ e) * den := by
          rw [hm]
          ring
      _ = n * 2 ^ 61 := hmiddle
      _ = 2 ^ e * (2 ^ (61 - e) * n) := by
          rw [← Nat.mul_assoc, ← Nat.pow_add, Nat.add_sub_cancel' (by omega), Nat.mul_comm]
  have hdvd : 2 ^ (61 - e) ∣ den := by
    refine Nat.Coprime.dvd_of_dvd_mul_left ?_ (Dvd.intro n hodd.symm)
    exact Nat.Coprime.pow_left _
      ((Nat.coprime_mul_left_add_right 2 1 m).mpr (Nat.coprime_one_right 2))
  have hle : 2 ^ 54 ≤ den :=
    Nat.le_trans (Nat.pow_le_pow_right (by decide) (by omega)) (Nat.le_of_dvd hden hdvd)
  exact absurd (Nat.le_trans hle hmax) (by decide)

end Double

namespace Query

open Double (unitsPerOne unitsPerHalf spacing roundUnits)

variable {k part total : Nat}

/-! ## Ratios in percent -/

/-- The percent that is shown for a ratio of so many units. -/
def shownPercent (units : Nat) : Nat :=
  roundUnits (roundUnits (units * 100) 1 + unitsPerHalf) 1 / unitsPerOne

/-- Every step of the computation keeps the order. -/
theorem shownPercent_mono {units more : Nat} (h : units ≤ more) :
    shownPercent units ≤ shownPercent more :=
  Nat.div_le_div_right (Double.roundUnits_mono Nat.one_pos (Nat.add_le_add_right
    (Double.roundUnits_mono Nat.one_pos (Nat.mul_le_mul_right 100 h)) _))

theorem shownPercent_le {units : Nat} (h : units ≤ unitsPerOne) : shownPercent units ≤ 100 :=
  Nat.le_trans (shownPercent_mono h) (by decide +kernel)

/-- The percent that is shown for a ratio in units of 2⁻⁶⁰. -/
def shownFine (ratio : Nat) : Nat :=
  roundUnits (roundUnits (ratio * 100) 1 + Nat.pow 2 59) 1 / Nat.pow 2 60

theorem unitsPerHalf_eq : unitsPerHalf = Nat.pow 2 59 * Nat.pow 2 1014 := by
  rw [Double.two_pow_mul, unitsPerHalf]

theorem unitsPerOne_eq : unitsPerOne = Nat.pow 2 60 * Nat.pow 2 1014 := by
  rw [Double.two_pow_mul, unitsPerOne]

/-- The size of the unit does not matter for a ratio with all bits in use. -/
theorem shownPercent_scaled {ratio : Nat} (h : Nat.pow 2 52 ≤ ratio) :
    shownPercent (ratio * Nat.pow 2 1014) = shownFine ratio := by
  have hproduct : roundUnits (ratio * Nat.pow 2 1014 * 100) 1
      = roundUnits (ratio * 100) 1 * Nat.pow 2 1014 := by
    rw [Nat.mul_right_comm]
    refine Double.roundUnits_scaled Nat.one_pos ?_ 1014
    rw [Nat.div_one]
    exact Nat.le_trans h (Nat.le_mul_of_pos_right ratio (by decide))
  have hsum : roundUnits ((roundUnits (ratio * 100) 1 + Nat.pow 2 59) * Nat.pow 2 1014) 1
      = roundUnits (roundUnits (ratio * 100) 1 + Nat.pow 2 59) 1 * Nat.pow 2 1014 := by
    refine Double.roundUnits_scaled Nat.one_pos ?_ 1014
    rw [Nat.div_one]
    exact Nat.le_trans (by decide) (Nat.le_add_left (Nat.pow 2 59) _)
  rw [shownPercent, hproduct, unitsPerHalf_eq, ← Nat.add_mul, hsum, unitsPerOne_eq]
  exact Nat.mul_div_mul_right _ _ (Nat.two_pow_pos 1014)

/-- The ratio of a part is at most one. -/
theorem ratio_finite (hle : part ≤ total) (hpos : 0 < total) :
    roundUnits (part * unitsPerOne) total ≤ unitsPerOne ∧
      ∃ hr, Double.ofUnitQuotient false (part * unitsPerOne) total
        = .finite false (roundUnits (part * unitsPerOne) total) hr := by
  have htop : part * unitsPerOne ≤ unitsPerOne * total := by
    rw [Nat.mul_comm unitsPerOne]
    exact Nat.mul_le_mul_right _ hle
  exact ⟨Double.roundUnits_le hpos (Double.spacing_dvd_two_pow 1074) htop,
    Double.ofUnitQuotient_finite (by decide : 1074 < 2098) hpos htop⟩

/-- A part of a total in percent is what is shown for the ratio. -/
theorem percentage_natCast (hle : part ≤ total) (hpos : 0 < total) :
    percentage part total = .ok (shownPercent (roundUnits (part * unitsPerOne) total) : Nat) := by
  obtain ⟨hone, hr, hratio⟩ := ratio_finite hle hpos
  have hquotient : Double.ofQuotient part total = .finite false _ hr := hratio
  generalize roundUnits (part * unitsPerOne) total = ratio at *
  have hhundred : ratio * 100 ≤ Nat.pow 2 1081 :=
    Nat.le_trans (Nat.mul_le_mul_right 100 hone) (by decide +kernel)
  obtain ⟨hpercent, hp, hproduct⟩ := Double.ofUnitQuotient_one (by decide : 1081 < 2098) hhundred
  have hmul : (Double.finite false ratio hr).mul (.ofInt 100) = .finite false _ hp :=
    (Double.mul_ofInt hr (by decide : 100 ≤ Nat.pow 2 53)).trans hproduct
  have hmore : roundUnits (ratio * 100) 1 + unitsPerHalf ≤ Nat.pow 2 1082 :=
    Nat.le_trans (Nat.add_le_add_right hpercent _) (by decide +kernel)
  obtain ⟨-, hs, hsum⟩ := Double.ofUnitQuotient_one (by decide : 1082 < 2098) hmore
  have hadd : (Double.finite false _ hp).add (.ofRatio false 1 2) = .finite false _ hs := by
    rw [Double.ofRatio_half]
    exact (Double.add_finite hp _ (Nat.two_pow_pos 1073)).trans hsum
  have hfinite : (!(Double.finite false ratio hr).isFinite) = false := rfl
  unfold percentage
  rw [hquotient]
  dsimp only
  rw [hfinite, if_neg Bool.false_ne_true, hmul, hadd, Double.floor?_finite]
  rfl

/-! ## Cutoffs -/

/-- The largest double, in units of 2⁻⁶⁰, that is shown as at most `k` percent. It is one of those
around the ratio of `k` and a half percent. -/
def lastShown (k : Nat) : Nat :=
  let near := roundUnits ((2 * k + 1) * Nat.pow 2 60) 200
  let below := near - spacing (near - 1)
  if shownFine near ≤ k then near
  else if shownFine below ≤ k then below
  else below - spacing (below - 1)

theorem lastShown_spec : ∀ k < 100, spacing (lastShown k) ∣ lastShown k ∧
    Nat.pow 2 52 ≤ lastShown k ∧ lastShown k < Nat.pow 2 60 ∧ shownFine (lastShown k) ≤ k ∧
      k < shownFine (lastShown k + spacing (lastShown k)) := by
  decide +kernel

/-- Twice the middle between the last double that is shown as at most `k` percent and the next. -/
def cutoff (k : Nat) : Nat := 2 * lastShown k + spacing (lastShown k)

/-- The percents whose halves are shown as no more than they. -/
def lowHalves : List Nat := [14, 28, 56, 57]

/-- A cutoff is closer to its half than any other ratio of counts of 45 bits, and below it but for
four of them. -/
theorem cutoff_spec : ∀ k < 100,
    ((cutoff k * 100 : Int) - (2 * k + 1) * Nat.pow 2 60).natAbs * Nat.pow 2 45 < Nat.pow 2 60 ∧
      ((cutoff k * 100 : Int) - (2 * k + 1) * Nat.pow 2 60 < 0 ↔ k ∉ lowHalves) := by
  decide +kernel

/-- **The ratio of two counts is shown as more than `k` percent exactly if it is past the cutoff of
`k`.** -/
theorem lt_shownPercent_iff (hk : k < 100) (htotal : 0 < total) (hmax : total ≤ Nat.pow 2 53) :
    k < shownPercent (roundUnits (part * unitsPerOne) total) ↔
      cutoff k * total < part * Nat.pow 2 61 := by
  obtain ⟨hdvd, hbits, hone, hlast, hnext⟩ := lastShown_spec k hk
  have hspacing := Double.spacing_mul hbits 1014
  have hscaled : spacing (lastShown k * Nat.pow 2 1014) ∣ lastShown k * Nat.pow 2 1014 := by
    rw [hspacing]
    exact Nat.mul_dvd_mul_right hdvd _
  have hmiddle : (2 * (lastShown k * Nat.pow 2 1014) + spacing (lastShown k * Nat.pow 2 1014))
      * total = cutoff k * total * Nat.pow 2 1014 := by
    rw [hspacing, cutoff]
    ring
  have hratio : 2 * (part * unitsPerOne) = part * Nat.pow 2 61 * Nat.pow 2 1014 := by
    have hsixtyOne : Nat.pow 2 61 = 2 * Nat.pow 2 60 := rfl
    rw [unitsPerOne_eq, hsixtyOne]
    ring
  have hpow : 0 < Nat.pow 2 1014 := Nat.two_pow_pos 1014
  constructor
  · intro hshown
    by_contra hnot
    have hbelow : part * Nat.pow 2 61 < cutoff k * total :=
      Nat.lt_of_le_of_ne (Nat.le_of_not_lt hnot) (Double.middle_ne hdvd hone htotal hmax).symm
    have hle := Double.roundUnits_le_of_lt_middle htotal hscaled
      (by rw [hmiddle, hratio]; exact Nat.mul_lt_mul_of_pos_right hbelow hpow)
    have hmono := shownPercent_mono hle
    rw [shownPercent_scaled hbits] at hmono
    omega
  · intro habove
    have hle := Double.next_le_roundUnits_of_middle_lt htotal hscaled
      (by rw [hmiddle, hratio]; exact Nat.mul_lt_mul_of_pos_right habove hpow)
    rw [hspacing, ← Nat.add_mul] at hle
    have hmono := shownPercent_mono hle
    rw [shownPercent_scaled (Nat.le_add_right_of_le hbits)] at hmono
    exact Nat.lt_of_lt_of_le hnext hmono

/-! ## Rates -/

/-- The percentage of a part, rounded to the nearest integer, a half upward. -/
def nearestPercent (part total : Int) : Int := (200 * part + total) / (2 * total)

section Counts

variable {part total : Int} (hpos : 0 < total)
include hpos

theorem lt_nearestPercent_iff {k : Int} :
    k < nearestPercent part total ↔ (2 * k + 1) * total ≤ 200 * part := by
  have htwice : 0 < 2 * total := by omega
  rw [← Int.add_one_le_iff, nearestPercent, Int.le_ediv_iff_mul_le htwice]
  have hmul : (k + 1) * (2 * total) = (2 * k + 1) * total + total := by ring
  omega

theorem nearestPercent_nonneg (h : 0 ≤ part) : 0 ≤ nearestPercent part total := by
  have hlt : -1 < nearestPercent part total := (lt_nearestPercent_iff hpos).mpr (by omega)
  omega

theorem nearestPercent_le (h : part ≤ total) : nearestPercent part total ≤ 100 := by
  have hlt : ¬ 100 < nearestPercent part total := by
    rw [lt_nearestPercent_iff hpos]
    omega
  omega

/-- A half is rounded up. -/
theorem nearestPercent_half {k : Int} (h : 200 * part = (2 * k + 1) * total) :
    nearestPercent part total = k + 1 := by
  have hlow : k < nearestPercent part total := (lt_nearestPercent_iff hpos).mpr h.ge
  have hhigh : ¬ k + 1 < nearestPercent part total := by
    rw [lt_nearestPercent_iff hpos, h, Int.not_le]
    exact Int.mul_lt_mul_of_pos_right (by omega) hpos
  omega

/-- Where the part is at a half, so is the rest. -/
theorem nearestPercent_sub_half {k : Int} (h : 200 * part = (2 * k + 1) * total) :
    nearestPercent (total - part) total = 100 - k := by
  have hrest : 200 * (total - part) = (2 * (99 - k) + 1) * total := by
    rw [Int.mul_sub, h]
    ring
  rw [nearestPercent_half hpos hrest]
  ring

theorem nearestPercent_mul_le (part : Int) :
    (2 * nearestPercent part total - 1) * total ≤ 200 * part := by
  calc (2 * nearestPercent part total - 1) * total
      = (2 * (nearestPercent part total - 1) + 1) * total := by ring
    _ ≤ 200 * part := (lt_nearestPercent_iff hpos).mp (Int.sub_one_lt_of_le (Int.le_refl _))

theorem lt_nearestPercent_mul (part : Int) :
    200 * part < (2 * nearestPercent part total + 1) * total :=
  Int.not_le.mp (mt (lt_nearestPercent_iff hpos).mpr (Int.lt_irrefl _))

/-- The percentages of a part and of the rest make up a hundred, or one more where both are halves
that are rounded up. -/
theorem nearestPercent_add (part : Int) :
    let sum := nearestPercent part total + nearestPercent (total - part) total
    (sum = 100 ∨ sum = 101) ∧ (sum = 101 ↔ ∃ k : Int, 200 * part = (2 * k + 1) * total) := by
  have hpart := nearestPercent_mul_le hpos part
  have hrest := nearestPercent_mul_le hpos (total - part)
  have hpart' := lt_nearestPercent_mul hpos part
  have hrest' := lt_nearestPercent_mul hpos (total - part)
  have hhalf (k : Int) (h : 200 * part = (2 * k + 1) * total) :=
    And.intro (nearestPercent_half hpos h) (nearestPercent_sub_half hpos h)
  generalize nearestPercent part total = a at *
  generalize nearestPercent (total - part) total = b at *
  have hleast : 2 * (a + b) - 2 ≤ 200 := by
    refine Int.le_of_mul_le_mul_right ?_ hpos
    calc (2 * (a + b) - 2) * total = (2 * a - 1) * total + (2 * b - 1) * total := by ring
      _ ≤ 200 * part + 200 * (total - part) := Int.add_le_add hpart hrest
      _ = 200 * total := by ring
  have hmost : 200 < 2 * (a + b) + 2 := by
    refine Int.lt_of_mul_lt_mul_right ?_ hpos.le
    calc 200 * total = 200 * part + 200 * (total - part) := by ring
      _ < (2 * a + 1) * total + (2 * b + 1) * total := Int.add_lt_add hpart' hrest'
      _ = (2 * (a + b) + 2) * total := by ring
  refine ⟨by omega, fun hsum => ⟨a - 1, ?_⟩, fun ⟨k, hk⟩ => ?_⟩
  · -- The bound of the rest is then an upper bound of the part.
    have hsplit : (2 * b - 1) * total = 200 * total - (2 * a - 1) * total := by
      rw [show b = 101 - a by omega]
      ring
    rw [show 2 * (a - 1) + 1 = 2 * a - 1 by ring]
    omega
  · obtain ⟨ha, hb⟩ := hhalf k hk
    omega

end Counts

/-! ## Cutoffs and halves -/

/-- The counts are on the same side of the cutoff of `k` as of `k` and a half percent. -/
def CutAtHalf (k : Nat) (part total : Int) : Prop :=
  cutoff k * total < part * Nat.pow 2 61 ↔ (2 * k + 1) * total ≤ 200 * part

/-- **A rate is the rounded percentage exactly if no cutoff comes between the percentage and a
half.** -/
theorem percentage_rounds_iff {part total : Int} (hnonneg : 0 ≤ part) (hle : part ≤ total)
    (hpos : 0 < total) (hmax : total ≤ Nat.pow 2 53) :
    ∃ rate, percentage part total = .ok rate ∧ (0 ≤ rate ∧ rate ≤ 100) ∧
      (rate = nearestPercent part total ↔ ∀ k < 100, CutAtHalf k part total) := by
  have hfloor := nearestPercent_nonneg hpos hnonneg
  have hceiling := nearestPercent_le hpos hle
  have hnearest (k : Nat) : k < nearestPercent part total ↔ (2 * k + 1) * total ≤ 200 * part :=
    lt_nearestPercent_iff hpos
  obtain ⟨p, rfl⟩ := Int.eq_ofNat_of_zero_le hnonneg
  obtain ⟨t, rfl⟩ := Int.eq_ofNat_of_zero_le hpos.le
  replace hle : p ≤ t := Int.ofNat_le.mp hle
  replace hpos : 0 < t := Int.ofNat_lt.mp hpos
  replace hmax : t ≤ Nat.pow 2 53 := Int.ofNat_le.mp hmax
  have hshown := shownPercent_le (ratio_finite hle hpos).1
  have hcut (k : Nat) (hk : k < 100) :
      k < shownPercent (roundUnits (p * unitsPerOne) t) ↔ cutoff k * t < p * Nat.pow 2 61 :=
    lt_shownPercent_iff hk hpos hmax
  refine ⟨_, percentage_natCast hle hpos, by omega, ?_⟩
  generalize shownPercent (roundUnits (p * unitsPerOne) t) = rate at *
  have hcast (k : Nat) : (cutoff k : Int) * t < p * Nat.pow 2 61 ↔
      cutoff k * t < p * Nat.pow 2 61 := by
    rw [← Int.natCast_mul, ← Int.natCast_mul, Int.ofNat_lt]
  constructor
  · intro hrate k hk
    rw [CutAtHalf, hcast, ← hcut k hk, ← hnearest k, ← hrate, Int.ofNat_lt]
  · intro hall
    have hsame (k : Nat) (hk : k < 100) : k < rate ↔ (k : Int) < nearestPercent p t := by
      rw [hcut k hk, ← hcast, hnearest k]
      exact hall k hk
    generalize nearestPercent p t = q at *
    obtain ⟨q, rfl⟩ := Int.eq_ofNat_of_zero_le hfloor
    by_contra hne
    -- The lesser of the two tells them apart.
    have hless := hsame (min rate q) (by omega)
    omega

/-- Counts of 45 bits are past a cutoff as they are past its half, but for the halves themselves. -/
theorem cutAtHalf_iff {k : Nat} (hk : k < 100) {part total : Int} (hpos : 0 < total)
    (hmax : total ≤ Nat.pow 2 45) :
    CutAtHalf k part total ↔ (200 * part = (2 * k + 1) * total → k ∉ lowHalves) := by
  obtain ⟨hnear, hbelow⟩ := cutoff_spec k hk
  have hcut : (cutoff k * 100 - (2 * k + 1) * Nat.pow 2 60 : Int) * total
      = 100 * (cutoff k * total) - (2 * k + 1) * total * Nat.pow 2 60 := by ring
  generalize (cutoff k * 100 - (2 * k + 1) * Nat.pow 2 60 : Int) = gap at *
  have hsmall : (gap * total).natAbs < Nat.pow 2 60 := by
    rw [Int.natAbs_mul]
    exact Nat.lt_of_le_of_lt (Nat.mul_le_mul_left _ (by omega)) hnear
  have hzero : gap * total < 0 ↔ gap < 0 := by
    constructor
    · intro h
      by_contra hge
      exact absurd (Int.mul_nonneg (Int.not_lt.mp hge) hpos.le) (Int.not_le.mpr h)
    · exact fun h => Int.mul_neg_of_neg_of_pos h hpos
  unfold CutAtHalf
  generalize gap * total = shift at *
  generalize (cutoff k : Int) * total = cut at *
  generalize (2 * k + 1 : Int) * total = half at *
  have hsixty : ((Nat.pow 2 60 : Nat) : Int) = 1152921504606846976 := by decide
  have hsixtyOne : ((Nat.pow 2 61 : Nat) : Int) = 2305843009213693952 := by decide
  rw [hsixty] at hcut
  rw [hsixtyOne, ← hbelow, ← hzero]
  rcases Int.lt_trichotomy (200 * part) half with hless | rfl | hmore
  · refine iff_of_true (iff_of_false ?_ (Int.not_le.mpr hless)) fun heq => absurd heq hless.ne
    omega
  · rw [iff_true_right (Int.le_refl _), imp_iff_right rfl]
    omega
  · refine iff_of_true (iff_of_true ?_ hmore.le) fun heq => absurd heq hmore.ne'
    omega

/-- Up to 2⁴⁵ events a rate is the rounded percentage but for four halves. -/
theorem cutAtHalf_all_iff {total : Int} (hpos : 0 < total) (hmax : total ≤ Nat.pow 2 45)
    (part : Int) : (∀ k < 100, CutAtHalf k part total) ↔
      ∀ k ∈ lowHalves, 200 * part ≠ (2 * k + 1) * total := by
  have hlow : ∀ k ∈ lowHalves, k < 100 := by decide
  constructor
  · intro hall k hk hhalf
    exact (cutAtHalf_iff (hlow k hk) hpos hmax).mp (hall k (hlow k hk)) hhalf hk
  · intro hall k hk
    exact (cutAtHalf_iff hk hpos hmax).mpr fun hhalf hmem => hall k hmem hhalf

/-! ## Totals -/

/-- A row counts events: so many in all, of which so many are errors. -/
structure Row.Counts (row : Row) (total errors : Int) : Prop where
  columns : ∃ fields, row.fields = .ok fields ∧ Json.get "total" fields = .int total ∧
    Json.get "errors" fields = .int errors
  errors_nonneg : 0 ≤ errors
  errors_le : errors ≤ total
  total_pos : 0 < total
  total_le : total ≤ Nat.pow 2 53

/-- Totals have the counts, and the rates are the percentages rounded to the nearest integer, a half
upward. -/
structure Stats.Rounded (s : Stats) (total errors : Int) : Prop where
  total_eq : s.total = total
  errors_eq : s.errors = errors
  errorRate : s.errorRate = nearestPercent errors total
  successRate : s.successRate = nearestPercent (total - errors) total
  errorRange : 0 ≤ s.errorRate ∧ s.errorRate ≤ 100
  successRange : 0 ≤ s.successRate ∧ s.successRate ≤ 100
  sum : s.errorRate + s.successRate = 100 ∨ s.errorRate + s.successRate = 101
  sum_eq_iff : s.errorRate + s.successRate = 101 ↔ ∃ k : Int, 200 * errors = (2 * k + 1) * total

theorem readCount_int {i : Int} (hnonneg : 0 ≤ i) (hmax : i ≤ Nat.pow 2 53) :
    readCount (.int i) = .ok i := by
  obtain ⟨x, hread, htruncated⟩ := readNumber_int hnonneg hmax
  rw [readCount, hread]
  exact htruncated

variable {row : Row} {more : List Row} {total errors : Int}

theorem ofCounts_ok {errorRate successRate : Int} (hpos : 0 < total)
    (herror : percentage errors total = .ok errorRate)
    (hsuccess : percentage (total - errors) total = .ok successRate) :
    Stats.ofCounts total errors = .ok ⟨total, errors, errorRate, successRate⟩ := by
  rw [Stats.ofCounts, if_neg hpos.ne', herror, hsuccess]
  rfl

/-- Totals are read from the first row. -/
theorem ofRows_cons (h : row.Counts total errors) (more : List Row) :
    Stats.ofRows (row :: more) = Stats.ofCounts total errors := by
  obtain ⟨fields, hfields, htotal, herrors⟩ := h.columns
  have hreadTotal : readCount (Json.get "total" fields) = .ok total :=
    htotal ▸ readCount_int h.total_pos.le h.total_le
  have hreadErrors : readCount (Json.get "errors" fields) = .ok errors :=
    herrors ▸ readCount_int h.errors_nonneg (Int.le_trans h.errors_le h.total_le)
  unfold Stats.ofRows
  dsimp only
  rw [hfields]
  show (readCount (Json.get "total" fields) >>= fun total =>
    readCount (Json.get "errors" fields) >>= fun errors => Stats.ofCounts total errors) = _
  rw [hreadTotal, hreadErrors]
  rfl

/-- The totals of counts are the counts and two rates, which are the rounded percentages exactly if
no cutoff comes between. -/
theorem ofRows_counts (h : row.Counts total errors) (more : List Row) :
    ∃ s, Stats.ofRows (row :: more) = .ok s ∧ s.total = total ∧ s.errors = errors ∧
      (0 ≤ s.errorRate ∧ s.errorRate ≤ 100) ∧ (0 ≤ s.successRate ∧ s.successRate ≤ 100) ∧
      (s.Rounded total errors ↔
        ∀ k < 100, CutAtHalf k errors total ∧ CutAtHalf k (total - errors) total) := by
  have hnonneg := h.errors_nonneg
  have hle := h.errors_le
  have hpos := h.total_pos
  have hmax := h.total_le
  obtain ⟨errorRate, herrorRate, herrorRange, herrorIff⟩ :=
    percentage_rounds_iff hnonneg hle hpos hmax
  obtain ⟨successRate, hsuccessRate, hsuccessRange, hsuccessIff⟩ :=
    percentage_rounds_iff (Int.sub_nonneg_of_le hle) (Int.sub_le_self total hnonneg) hpos hmax
  refine ⟨⟨total, errors, errorRate, successRate⟩, ?_, rfl, rfl, herrorRange, hsuccessRange, ?_⟩
  · rw [ofRows_cons h]
    exact ofCounts_ok hpos herrorRate hsuccessRate
  constructor
  · intro hrounded k hk
    exact ⟨herrorIff.mp hrounded.errorRate k hk, hsuccessIff.mp hrounded.successRate k hk⟩
  · intro hall
    have herror := herrorIff.mpr fun k hk => (hall k hk).1
    have hsuccess := hsuccessIff.mpr fun k hk => (hall k hk).2
    have hsum := nearestPercent_add hpos errors
    rw [← herror, ← hsuccess] at hsum
    exact ⟨rfl, rfl, herror, hsuccess, herrorRange, hsuccessRange, hsum.1, hsum.2⟩

section Plans

variable {o : Options} {filters : List Condition} {plan : Plan Stats}
  {store : String → Except Fault (List Row)} (hplan : Plan.stats o filters = .ok plan)
  (hstore : ∀ statement ∈ plan.statements, store statement.text = .ok (row :: more))
include hplan hstore

theorem run_stats : plan.run store = Stats.ofRows (row :: more) := by
  obtain ⟨cs, hcs, hask⟩ := bind_eq_ok hplan
  cases hask
  show (store _ >>= Stats.ofRows) = _
  rw [hstore _ List.mem_cons_self]
  rfl

/-- **The rates that are answered are the rounded percentages exactly if no cutoff comes between a
percentage and a half.** Up to 2⁴⁵ events that is so but for the halves above 14, 28, 56 and 57
percent. The counts are answered as they are, and the rates are between 0 and 100, in any case. -/
theorem stats_rounds_iff (hrow : row.Counts total errors) :
    ∃ s, plan.run store = .ok s ∧ s.total = total ∧ s.errors = errors ∧
      (0 ≤ s.errorRate ∧ s.errorRate ≤ 100) ∧ (0 ≤ s.successRate ∧ s.successRate ≤ 100) ∧
      (s.Rounded total errors ↔
        ∀ k < 100, CutAtHalf k errors total ∧ CutAtHalf k (total - errors) total) ∧
      (total ≤ Nat.pow 2 45 → (s.Rounded total errors ↔ ∀ k ∈ lowHalves,
        200 * errors ≠ (2 * k + 1) * total ∧ 200 * (total - errors) ≠ (2 * k + 1) * total)) := by
  obtain ⟨s, hread, htotal, herrors, herrorRange, hsuccessRange, hiff⟩ := ofRows_counts hrow more
  refine ⟨s, (run_stats hplan hstore).trans hread, htotal, herrors, herrorRange, hsuccessRange,
    hiff, fun hsmall => ?_⟩
  rw [hiff, forall₂_and, forall₂_and, cutAtHalf_all_iff hrow.total_pos hsmall errors,
    cutAtHalf_all_iff hrow.total_pos hsmall (total - errors)]

end Plans

/-! ## Instances -/

/-- A row of two counts. -/
def countsRow (total errors : Int) : Row :=
  ⟨.obj [("total", .int total), ("errors", .int errors)], none⟩

theorem counts_countsRow (hnonneg : 0 ≤ errors) (hle : errors ≤ total) (hpos : 0 < total)
    (hmax : total ≤ Nat.pow 2 53) : (countsRow total errors).Counts total errors :=
  ⟨⟨_, rfl, by simp [Json.get, Assoc.find?], by simp [Json.get, Assoc.find?]⟩, hnonneg, hle, hpos,
    hmax⟩

/-- The options of a read of a whole project. -/
def unfiltered : Options := ⟨"proj", none, none, none, .null, 100, 0, by decide⟩

/-- A store that has the same answer to every statement. -/
def answering (rows : List Row) : String → Except Fault (List Row) := fun _ => .ok rows

theorem stats_rounds_bothUp : ∃ plan, Plan.stats unfiltered [] = .ok plan ∧
    (countsRow 200 27).Counts 200 27 ∧
    ∃ s, plan.run (answering [countsRow 200 27]) = .ok s ∧ s.Rounded 200 27 := by
  have hcounts : (countsRow 200 27).Counts 200 27 :=
    counts_countsRow (by decide) (by decide) (by decide) (by decide)
  obtain ⟨plan, hplan⟩ : ∃ plan, Plan.stats unfiltered [] = .ok plan := ⟨_, rfl⟩
  have hstore : ∀ statement ∈ plan.statements,
      answering [countsRow 200 27] statement.text = .ok [countsRow 200 27] := fun _ _ => rfl
  obtain ⟨s, hrun, -, -, -, -, -, hiff⟩ := stats_rounds_iff hplan hstore hcounts
  exact ⟨plan, hplan, hcounts, s, hrun, (hiff (by decide)).mpr (by decide)⟩

theorem run_countsRow {part total : Nat} (hpart : part ≤ total) (hpos : 0 < total)
    (hmax : total ≤ Nat.pow 2 53) : ∃ plan, Plan.stats unfiltered [] = .ok plan ∧
      plan.run (answering [countsRow total part]) = .ok ⟨total, part,
        (shownPercent (roundUnits (part * unitsPerOne) total) : Nat),
        (shownPercent (roundUnits ((total - part) * unitsPerOne) total) : Nat)⟩ := by
  have hcounts : (countsRow total part).Counts total part :=
    counts_countsRow (Int.natCast_nonneg _) (Int.ofNat_le.mpr hpart) (Int.ofNat_lt.mpr hpos)
      (Int.ofNat_le.mpr hmax)
  have hrest := percentage_natCast (Nat.sub_le total part) hpos
  rw [Int.natCast_sub hpart] at hrest
  obtain ⟨plan, hplan⟩ : ∃ plan, Plan.stats unfiltered [] = .ok plan := ⟨_, rfl⟩
  have hstore : ∀ statement ∈ plan.statements,
      answering [countsRow total part] statement.text = .ok [countsRow total part] :=
    fun _ _ => rfl
  refine ⟨plan, hplan, ?_⟩
  rw [run_stats hplan hstore, ofRows_cons hcounts]
  exact ofCounts_ok hcounts.total_pos (percentage_natCast hpart hpos) hrest

/-- Of 200 events, 14.5 percent are shown as 14; and of 4·10¹³, less than 79.5 percent as 80. -/
theorem stats_misrounded :
    (∃ plan, Plan.stats unfiltered [] = .ok plan ∧
      plan.run (answering [countsRow 200 29]) = .ok ⟨200, 29, 14, 86⟩) ∧
    ¬ Stats.Rounded ⟨200, 29, 14, 86⟩ 200 29 ∧
    (∃ plan, Plan.stats unfiltered [] = .ok plan ∧
      plan.run (answering [countsRow 39505259889239 31406681611945])
        = .ok ⟨39505259889239, 31406681611945, 80, 21⟩) ∧
    ¬ Stats.Rounded ⟨39505259889239, 31406681611945, 80, 21⟩ 39505259889239 31406681611945 := by
  have hfew := run_countsRow (by decide : 29 ≤ 200) (by decide) (by decide)
  have hmany := run_countsRow (by decide : 31406681611945 ≤ 39505259889239) (by decide) (by decide)
  have hshown : shownPercent (roundUnits (29 * unitsPerOne) 200) = 14 ∧
      shownPercent (roundUnits ((200 - 29) * unitsPerOne) 200) = 86 ∧
      shownPercent (roundUnits (31406681611945 * unitsPerOne) 39505259889239) = 80 ∧
      shownPercent (roundUnits ((39505259889239 - 31406681611945) * unitsPerOne) 39505259889239)
        = 21 := by
    decide +kernel
  obtain ⟨hfewErrors, hfewRest, hmanyErrors, hmanyRest⟩ := hshown
  rw [hfewErrors, hfewRest] at hfew
  rw [hmanyErrors, hmanyRest] at hmany
  refine ⟨hfew, fun h => ?_, hmany, fun h => ?_⟩
  · exact absurd h.errorRate (by decide)
  · exact absurd h.errorRate (by decide)

end Query

end Telemetry
