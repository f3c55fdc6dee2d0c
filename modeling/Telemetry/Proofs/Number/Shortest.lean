import Mathlib.Data.Nat.Digits.Defs
import Telemetry.Number.Shortest
import Telemetry.Proofs.Number.Rounding

/-!
# The shortest decimal reads back

The decimal that is chosen for a double reads as the double. A decimal of seventeen digits that is
nearest to the double always does: seventeen digits stand closer together than doubles do. So the
search for the shortest decimal ends, and what it finds reads back, however the digits and the
power of ten are shared out between mantissa and exponent.

Main statements: `readsAs_shortest`, `ofDecimal_of_readsAs`.
-/

namespace Telemetry.Double

variable {z num den units digits : Nat} {exponent : Int} {negative : Bool}

/-! ## What is near to a double -/

theorem lt_mul_spacing (n : Nat) : n < 2 ^ 53 * spacing n := by
  calc n < 2 ^ (n.log2 + 1) := Nat.lt_log2_self
    _ ≤ 2 ^ (53 + (n.log2 - 52)) := Nat.pow_le_pow_right (by decide) (by omega)
    _ = 2 ^ 53 * spacing n := Nat.pow_add 2 53 (n.log2 - 52)

/-- Neighbours of a quotient that is near to a count stand no farther apart than those of the
count. -/
theorem spacing_dvd_of_near (hden : 0 < den) (hz : spacing z ∣ z)
    (hhigh : num * 2 ^ 54 < z * den * 2 ^ 54 + z * den) : spacing (num / den) ∣ z := by
  rcases Nat.lt_or_ge (num / den) (2 ^ 53 * spacing z) with hlt | hge
  · refine Nat.dvd_trans (spacing_dvd_of_lt (k := z.log2 - 52) ?_) hz
    rwa [Nat.add_comm, Nat.pow_eq, Nat.pow_add]
  · -- The count is a whole number of steps below the next power of two, the quotient is not.
    exfalso
    obtain ⟨k, hk⟩ := hz
    have hsteps : k + 1 ≤ 2 ^ 53 := by
      refine Nat.lt_of_mul_lt_mul_left (a := spacing z) ?_
      rw [← hk, Nat.mul_comm]
      exact lt_mul_spacing z
    have hbelow : z * den + spacing z * den ≤ 2 ^ 53 * (spacing z * den) := by
      calc z * den + spacing z * den = (k + 1) * (spacing z * den) := by
            rw [Nat.add_mul, Nat.one_mul, ← Nat.mul_assoc, Nat.mul_comm k, ← hk]
        _ ≤ 2 ^ 53 * (spacing z * den) := Nat.mul_le_mul_right _ hsteps
    have habove : 2 ^ 53 * (spacing z * den) ≤ num := by
      rw [← Nat.mul_assoc]
      exact (Nat.le_div_iff_mul_le hden).mp hge
    have hpos : 0 < spacing z * den := Nat.mul_pos (spacing_pos z) hden
    omega

/-- **A quotient that is nearer to a double than one part in 2⁵⁴ rounds to it.** -/
theorem roundUnits_eq_of_near (hden : 0 < den) (hz : spacing z ∣ z)
    (hlow : z * den * 2 ^ 54 < num * 2 ^ 54 + z * den)
    (hhigh : num * 2 ^ 54 < z * den * 2 ^ 54 + z * den) : roundUnits num den = z := by
  obtain ⟨k, hk⟩ := spacing_dvd_of_near hden hz hhigh
  have hpos : 0 < spacing (num / den) * den := Nat.mul_pos (spacing_pos _) hden
  have hcount : z * den = k * (spacing (num / den) * den) := by
    rw [← Nat.mul_assoc, Nat.mul_comm k, ← hk]
  have hbelow : num < 2 ^ 53 * (spacing (num / den) * den) := by
    rw [← Nat.mul_assoc]
    exact (Nat.div_lt_iff_lt_mul hden).mp (lt_mul_spacing _)
  -- At most 2⁵³ steps, so that half a step is one part in 2⁵⁴ at least.
  have hsteps : k ≤ 2 ^ 53 := by
    by_contra hmany
    have hle : (2 ^ 53 + 1) * (spacing (num / den) * den) ≤ z * den := by
      rw [hcount]
      exact Nat.mul_le_mul_right _ (by omega)
    omega
  have hsize : z * den ≤ 2 ^ 53 * (spacing (num / den) * den) := by
    rw [hcount]
    exact Nat.mul_le_mul_right _ hsteps
  have hround : roundDiv num (den * spacing (num / den)) = k := by
    rw [Nat.mul_comm den]
    refine roundDiv_eq_of_near hpos ?_ ?_
    · rw [← hcount]
      omega
    · rw [← hcount]
      omega
  unfold roundUnits
  dsimp only
  rw [hround, Nat.mul_comm, ← hk]

/-! ## Decimals -/

theorem digitCount_le_iff {n k : Nat} (hk : 0 < k) : digitCount n ≤ k ↔ n < 10 ^ k :=
  Nat.length_toDigits_le_iff (by decide) hk

theorem digitCount_pos (n : Nat) : 0 < digitCount n := Nat.length_toDigits_pos

theorem lt_pow_digitCount (n : Nat) : n < 10 ^ digitCount n :=
  (digitCount_le_iff (digitCount_pos n)).mp (Nat.le_refl _)

theorem pow_le_of_digitCount {n : Nat} (hn : 0 < n) : 10 ^ (digitCount n - 1) ≤ n := by
  rcases Nat.eq_zero_or_pos (digitCount n - 1) with hzero | hpos
  · rw [hzero]
    exact hn
  · refine Nat.le_of_not_lt fun hlt => ?_
    have := (digitCount_le_iff hpos).mpr hlt
    have := digitCount_pos n
    omega

/-- The count of units that is nearest to a decimal. -/
def decimalUnits (digits : Nat) (exponent : Int) : Nat :=
  if exponent ≥ 0 then roundUnits (digits * Nat.pow 10 exponent.toNat * unitsPerOne) 1
  else roundUnits (digits * unitsPerOne) (Nat.pow 10 exponent.natAbs)

theorem readsAs_iff : readsAs units digits exponent = true ↔ decimalUnits digits exponent = units := by
  unfold readsAs decimalUnits
  exact beq_iff_eq

theorem decimalUnits_mul_ten (digits : Nat) (exponent : Int) :
    decimalUnits (digits * 10) exponent = decimalUnits digits (exponent + 1) := by
  unfold decimalUnits
  rcases Int.lt_or_le exponent 0 with hneg | hpos
  · rw [if_neg (Int.not_le.mpr hneg)]
    obtain ⟨k, rfl⟩ : ∃ k : Nat, exponent = -(k + 1 : Nat) := ⟨exponent.natAbs - 1, by omega⟩
    have hsplit : digits * 10 * unitsPerOne = digits * unitsPerOne * 10 := Nat.mul_right_comm ..
    have hpow : Nat.pow 10 (-((k + 1 : Nat) : Int)).natAbs = Nat.pow 10 k * 10 := by
      rw [Int.natAbs_neg, Int.natAbs_natCast]
      rfl
    rw [hsplit, hpow, roundUnits_mul_mul (by decide)]
    cases k with
    | zero => simp
    | succ k =>
      rw [if_neg (by omega)]
      congr 2
  · rw [if_pos hpos, if_pos (by omega)]
    have hpow : Nat.pow 10 (exponent + 1).toNat = 10 * Nat.pow 10 exponent.toNat := by
      rw [Int.toNat_add hpos (by decide)]
      exact Nat.pow_succ'
    rw [hpow, Nat.mul_assoc digits]

/-- Zeros may be shifted between the digits and the power of ten. -/
theorem decimalUnits_mul_pow (digits k : Nat) (exponent : Int) :
    decimalUnits (digits * 10 ^ k) exponent = decimalUnits digits (exponent + k) := by
  induction k generalizing exponent with
  | zero => simp
  | succ k ih =>
    rw [Nat.pow_succ, ← Nat.mul_assoc, decimalUnits_mul_ten, ih]
    congr 1
    omega

/-! ## Seventeen digits -/

theorem unitsPerOne_le : unitsPerOne ≤ 10 ^ 324 := by decide +kernel

/-- Where the point of a double stands: it has at least the power of ten in front of it. -/
theorem pow_le_of_decimalPoint (hunits : units ≠ 0) {k : Nat}
    (hpoint : decimalPoint units = (k : Int) + 1 - 324) :
    10 ^ k * unitsPerOne ≤ units * 10 ^ 324 := by
  have hpos : 0 < units * Nat.pow 10 324 / unitsPerOne :=
    Nat.div_pos (Nat.le_trans unitsPerOne_le (Nat.le_mul_of_pos_left _ (by omega))) unitsPerOne_pos
  have hcount : digitCount (units * Nat.pow 10 324 / unitsPerOne) - 1 = k := by
    unfold decimalPoint at hpoint
    omega
  have hle := pow_le_of_digitCount hpos
  rw [hcount] at hle
  exact (Nat.le_div_iff_mul_le unitsPerOne_pos).mp hle

/-- The quotient of a double and a power of ten, in whole numbers. -/
def scaled (units : Nat) (exponent : Int) : Nat × Nat :=
  if exponent ≥ 0 then (units, unitsPerOne * Nat.pow 10 exponent.toNat)
  else (units * Nat.pow 10 exponent.natAbs, unitsPerOne)

theorem scaled_pos (units : Nat) (exponent : Int) : 0 < (scaled units exponent).2 := by
  unfold scaled
  split
  · exact Nat.mul_pos unitsPerOne_pos (Nat.pow_pos (by decide))
  · dsimp only
    exact unitsPerOne_pos

/-- Seventeen digits in front of the point: the power of ten is small beside the double. -/
theorem le_scaled (hunits : units ≠ 0) : 10 ^ 16 * (scaled units (decimalPoint units - 17)).2
    ≤ (scaled units (decimalPoint units - 17)).1 := by
  obtain ⟨k, hk⟩ : ∃ k : Nat, decimalPoint units = (k : Int) + 1 - 324 := by
    have hpos := digitCount_pos (units * Nat.pow 10 324 / unitsPerOne)
    refine ⟨digitCount (units * Nat.pow 10 324 / unitsPerOne) - 1, ?_⟩
    unfold decimalPoint
    omega
  have hle := pow_le_of_decimalPoint hunits hk
  have hcancel : 0 < 10 ^ 324 := Nat.pow_pos (by decide)
  rw [hk]
  unfold scaled
  generalize unitsPerOne = one at hle ⊢
  split
  · obtain ⟨e, rfl⟩ : ∃ e : Nat, k = e + 16 + 324 := ⟨k - 340, by omega⟩
    have he : (((e + 16 + 324 : Nat) : Int) + 1 - 324 - 17).toNat = e := by omega
    rw [he, Nat.pow_eq]
    rw [Nat.pow_add, Nat.pow_add] at hle
    generalize 10 ^ 324 = tail at hle hcancel
    refine Nat.le_of_mul_le_mul_right (c := tail) ?_ hcancel
    calc 10 ^ 16 * (one * 10 ^ e) * tail = 10 ^ e * 10 ^ 16 * tail * one := by ac_rfl
      _ ≤ units * tail := hle
  · obtain ⟨m, hm⟩ : ∃ m : Nat, k + m = 16 + 324 := ⟨340 - k, by omega⟩
    have he : ((k : Int) + 1 - 324 - 17).natAbs = m := by omega
    have hpow : 10 ^ k * 10 ^ m = 10 ^ 16 * 10 ^ 324 := by rw [← Nat.pow_add, hm, Nat.pow_add]
    rw [he, Nat.pow_eq]
    generalize 10 ^ 324 = tail at hle hcancel hpow
    refine Nat.le_of_mul_le_mul_right (c := tail) ?_ hcancel
    calc 10 ^ 16 * one * tail = 10 ^ k * 10 ^ m * one := by rw [hpow]; ac_rfl
      _ = 10 ^ k * one * 10 ^ m := by ac_rfl
      _ ≤ units * tail * 10 ^ m := Nat.mul_le_mul_right _ hle
      _ = units * 10 ^ m * tail := by ac_rfl

/-- A decimal is compared with a double in the units of their quotient. -/
theorem decimalUnits_eq_of_near (hspacing : spacing units ∣ units) (digits : Nat)
    (hlow : (scaled units exponent).1 * 2 ^ 54
      < digits * (scaled units exponent).2 * 2 ^ 54 + (scaled units exponent).1)
    (hhigh : digits * (scaled units exponent).2 * 2 ^ 54
      < (scaled units exponent).1 * 2 ^ 54 + (scaled units exponent).1) :
    decimalUnits digits exponent = units := by
  unfold decimalUnits
  unfold scaled at hlow hhigh
  generalize unitsPerOne = one at hlow hhigh ⊢
  split
  · rename_i hpos
    rw [if_pos hpos] at hlow hhigh
    dsimp only at hlow hhigh
    have hcount : digits * Nat.pow 10 exponent.toNat * one
        = digits * (one * Nat.pow 10 exponent.toNat) := by ac_rfl
    rw [hcount]
    generalize digits * (one * Nat.pow 10 exponent.toNat) = num at hlow hhigh ⊢
    refine roundUnits_eq_of_near Nat.one_pos hspacing ?_ ?_
    · rw [Nat.mul_one]
      exact hlow
    · rw [Nat.mul_one]
      exact hhigh
  · rename_i hneg
    rw [if_neg hneg] at hlow hhigh
    exact roundUnits_eq_of_near (Nat.pow_pos (by decide)) hspacing hlow hhigh

/-- The decimal of so many digits that is nearest to a double. -/
def nearestDigits (units : Nat) (exponent : Int) : Nat :=
  roundDiv (scaled units exponent).1 (scaled units exponent).2

theorem shortOfLength?_of_near {point : Int} {count : Nat}
    (h : readsAs units (nearestDigits units (point - count)) (point - count) = true) :
    shortOfLength? units point count
      = some ⟨nearestDigits units (point - count), point - count⟩ := by
  unfold nearestDigits scaled at h ⊢
  unfold shortOfLength?
  dsimp only
  generalize (if point - (count : Int) ≥ 0 then
    (units, unitsPerOne * Nat.pow 10 (point - (count : Int)).toNat)
    else (units * Nat.pow 10 (point - (count : Int)).natAbs, unitsPerOne)) = quotient at h ⊢
  rw [if_pos h]

/-- Half a unit in the seventeenth digit is less than one part in 2⁵⁴. -/
theorem near_roundDiv (hden : 0 < den) (hsize : 10 ^ 16 * den ≤ num) :
    num * 2 ^ 54 < roundDiv num den * den * 2 ^ 54 + num ∧
      roundDiv num den * den * 2 ^ 54 < num * 2 ^ 54 + num := by
  have hup := two_mul_roundDiv_le num den
  have hdown := le_two_mul_roundDiv hden num
  generalize roundDiv num den * den = near at *
  omega

/-- **The nearest decimal of seventeen digits reads back.** -/
theorem readsAs_nearestDigits (hunits : units ≠ 0) (hspacing : spacing units ∣ units) :
    readsAs units (nearestDigits units (decimalPoint units - 17)) (decimalPoint units - 17)
      = true := by
  obtain ⟨hlow, hhigh⟩ :=
    near_roundDiv (scaled_pos units (decimalPoint units - 17)) (le_scaled hunits)
  rw [readsAs_iff, nearestDigits]
  exact decimalUnits_eq_of_near hspacing _ hlow hhigh

theorem readsAs_of_shortOfLength? {count : Nat} {point : Int} {d : Decimal}
    (h : shortOfLength? units point count = some d) :
    readsAs units d.digits d.exponent = true := by
  unfold shortOfLength? at h
  dsimp only at h
  generalize (if point - (count : Int) ≥ 0 then
    (units, unitsPerOne * Nat.pow 10 (point - (count : Int)).toNat)
    else (units * Nat.pow 10 (point - (count : Int)).natAbs, unitsPerOne)) = quotient at h
  split at h
  · rename_i hreads
    cases h
    exact hreads
  · obtain ⟨hreads, hd⟩ := Option.ite_none_right_eq_some.mp h
    cases hd
    exact hreads

/-- **The shortest decimal of a double reads back.** -/
theorem readsAs_shortest (hunits : units ≠ 0) (hspacing : spacing units ∣ units) :
    readsAs units (shortest units).digits (shortest units).exponent = true := by
  have hshortest : shortest units = ((List.range 17).findSome?
      fun k => shortOfLength? units (decimalPoint units) (k + 1)).getD ⟨0, 0⟩ := by
    rw [shortest]
  have hfound : ((List.range 17).findSome?
      fun k => shortOfLength? units (decimalPoint units) (k + 1)).isSome = true :=
    List.findSome?_isSome_iff.mpr ⟨16, by decide, by
      rw [shortOfLength?_of_near (readsAs_nearestDigits hunits hspacing)]
      rfl⟩
  obtain ⟨d, hd⟩ := Option.isSome_iff_exists.mp hfound
  rw [hshortest, hd, Option.getD_some]
  obtain ⟨k, -, hk⟩ := List.exists_of_findSome?_eq_some hd
  exact readsAs_of_shortOfLength? hk

/-! ## Reading a decimal -/

theorem digits_pos_of_readsAs (hunits : units ≠ 0) (h : readsAs units digits exponent = true) :
    0 < digits := by
  rcases Nat.eq_zero_or_pos digits with rfl | hpos
  · have hzero (den : Nat) : roundUnits 0 den = 0 := by simp [roundUnits, roundDiv]
    unfold readsAs at h
    simp only [Nat.zero_mul, hzero, ite_self, beq_iff_eq] at h
    exact absurd h.symm hunits
  · exact hpos

theorem roundUnits_of_small (h : 2 * num < den) : roundUnits num den = 0 := by
  have hquotient : num / den = 0 := Nat.div_eq_of_lt (by omega)
  have hspacing : spacing 0 = 1 := by decide
  unfold roundUnits
  dsimp only
  rw [hquotient, hspacing, Nat.mul_one, Nat.mul_one]
  refine roundDiv_eq_of_near (by omega) ?_ ?_
  · omega
  · omega

/-- Too far out in front of the point, a decimal is larger than any double. -/
theorem le_decimalUnits_of_large (hdigits : 0 < digits)
    (hlarge : exponent + digitCount digits > 310) : 2 ^ 2098 ≤ decimalUnits digits exponent := by
  have hcount := pow_le_of_digitCount hdigits
  have hbound : 2 ^ 2098 ≤ 10 ^ 310 * unitsPerOne := by decide +kernel
  have hspacing : spacing (2 ^ 2098) ∣ 2 ^ 2098 := spacing_dvd_two_pow 2098
  unfold decimalUnits
  split
  · refine le_roundUnits Nat.one_pos hspacing ?_
    rw [Nat.mul_one]
    refine Nat.le_trans hbound (Nat.mul_le_mul_right _ ?_)
    calc 10 ^ 310 ≤ 10 ^ (digitCount digits - 1 + exponent.toNat) :=
          Nat.pow_le_pow_right (by decide) (by omega)
      _ = 10 ^ (digitCount digits - 1) * 10 ^ exponent.toNat := Nat.pow_add ..
      _ ≤ digits * Nat.pow 10 exponent.toNat := Nat.mul_le_mul_right _ hcount
  · refine le_roundUnits (Nat.pow_pos (by decide)) hspacing ?_
    calc 2 ^ 2098 * Nat.pow 10 exponent.natAbs
        ≤ 10 ^ 310 * unitsPerOne * Nat.pow 10 exponent.natAbs := Nat.mul_le_mul_right _ hbound
      _ = 10 ^ (310 + exponent.natAbs) * unitsPerOne := by
          rw [Nat.pow_add, Nat.mul_right_comm, Nat.pow_eq]
      _ ≤ 10 ^ (digitCount digits - 1) * unitsPerOne :=
          Nat.mul_le_mul_right _ (Nat.pow_le_pow_right (by decide) (by omega))
      _ ≤ digits * unitsPerOne := Nat.mul_le_mul_right _ hcount

/-- Too far out behind the point, a decimal rounds to zero. -/
theorem decimalUnits_of_small (hsmall : exponent + digitCount digits < -330) :
    decimalUnits digits exponent = 0 := by
  have hbound : 2 * unitsPerOne < 10 ^ 330 := by decide +kernel
  unfold decimalUnits
  rw [if_neg (by omega)]
  refine roundUnits_of_small ?_
  calc 2 * (digits * unitsPerOne) = digits * (2 * unitsPerOne) := Nat.mul_left_comm ..
    _ ≤ 10 ^ digitCount digits * (2 * unitsPerOne) :=
        Nat.mul_le_mul_right _ (Nat.le_of_lt (lt_pow_digitCount digits))
    _ < 10 ^ digitCount digits * 10 ^ 330 :=
        Nat.mul_lt_mul_of_pos_left hbound (Nat.pow_pos (by decide))
    _ = 10 ^ (digitCount digits + 330) := (Nat.pow_add ..).symm
    _ ≤ Nat.pow 10 exponent.natAbs := Nat.pow_le_pow_right (by decide) (by omega)

/-- **A decimal that reads as a double gives the double.** The cuts for exponents far out do not
concern it. -/
theorem ofDecimal_of_readsAs (negative : Bool) (hunits : units ≠ 0) (hr : Representable units)
    (h : readsAs units digits exponent = true) :
    ofDecimal negative digits exponent = .finite negative units hr := by
  have hdigits := digits_pos_of_readsAs hunits h
  rw [readsAs_iff] at h
  have hrange : ¬ exponent + digitCount digits > 310 ∧ ¬ exponent + digitCount digits < -330 := by
    constructor
    · intro hlarge
      have hle := le_decimalUnits_of_large hdigits hlarge
      rw [h] at hle
      exact Nat.not_le.mpr hr.1 hle
    · intro hsmall
      exact hunits (h.symm.trans (decimalUnits_of_small hsmall))
  have hvalue : ofDecimal negative digits exponent
      = ofUnits negative (decimalUnits digits exponent) := by
    unfold ofDecimal decimalUnits
    dsimp only
    rw [if_neg (by omega), if_neg hrange.1, if_neg hrange.2]
    split <;> rfl
  rw [hvalue, h, ofUnits_of_representable negative hr]

end Telemetry.Double
