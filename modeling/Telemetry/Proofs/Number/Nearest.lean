import Mathlib.Algebra.Order.Group.Abs
import Mathlib.Algebra.Order.Ring.Int
import Telemetry.Proofs.Number.Rounding

/-!
# The nearest double

A quotient is rounded to a double than which no other one is nearer to it, whether it lies above the
quotient or below.

Main statement: `isNearest_ofRatio`.
-/

namespace Telemetry.Double

variable {z num den : Nat}

/-! ## Counts of units -/

/-- From below no double is nearer than the one that a quotient is rounded to. -/
theorem add_roundUnits_le (hden : 0 < den) (hz : spacing z ∣ z) (h : z * den ≤ num) :
    z * den + roundUnits num den * den ≤ 2 * num := by
  rcases Nat.lt_or_ge num (roundUnits num den * den) with hup | hdown
  swap
  · omega
  obtain ⟨m, hzm, hm, hdvd⟩ := exists_step_between hz ((Nat.le_div_iff_mul_le hden).mpr h)
  -- It was rounded up, so it passed a whole distance between neighbours.
  have hlt : m < roundUnits num den :=
    Nat.lt_of_mul_lt_mul_right (Nat.lt_of_le_of_lt ((Nat.le_div_iff_mul_le hden).mp hm) hup)
  have hstep : spacing (num / den) ∣ roundUnits num den := Nat.dvd_mul_left _ _
  have hgap := add_le_of_dvd hdvd hstep hlt
  have hle : (z + spacing (num / den)) * den ≤ roundUnits num den * den :=
    Nat.mul_le_mul_right den (by omega)
  have herror := two_mul_roundUnits_le num den
  rw [Nat.add_mul, Nat.mul_comm (spacing _)] at hle
  omega

/-- Nor from above. -/
theorem le_add_roundUnits (hden : 0 < den) (hz : spacing z ∣ z) (h : num ≤ z * den) :
    2 * num ≤ z * den + roundUnits num den * den := by
  rcases Nat.lt_or_ge (roundUnits num den * den) num with hdown | hup
  swap
  · omega
  have hfloor : num / den ≤ z := Nat.div_le_of_le_mul (by rwa [Nat.mul_comm])
  have hlt : roundUnits num den < z := Nat.lt_of_mul_lt_mul_right (Nat.lt_of_lt_of_le hdown h)
  have hstep : spacing (num / den) ∣ roundUnits num den := Nat.dvd_mul_left _ _
  have hdvd : spacing (num / den) ∣ z := Nat.dvd_trans (spacing_dvd_spacing hfloor) hz
  have hle : (roundUnits num den + spacing (num / den)) * den ≤ z * den :=
    Nat.mul_le_mul_right den (add_le_of_dvd hstep hdvd hlt)
  have herror := le_two_mul_roundUnits hden num
  rw [Nat.add_mul, Nat.mul_comm (spacing _)] at hle
  omega

/-- **A quotient is rounded to a count than which no other that a double can hold is nearer.** -/
theorem roundUnits_nearest (hden : 0 < den) (hz : spacing z ∣ z) (num : Nat) :
    |((roundUnits num den * den : Nat) : Int) - num| ≤ |((z * den : Nat) : Int) - num| := by
  rcases Nat.le_total (z * den) num with hlow | hhigh
  · have hpassed := Nat.mul_le_mul_right den (le_roundUnits hden hz hlow)
    have hsum := add_roundUnits_le hden hz hlow
    rw [abs_of_nonpos (a := ((z * den : Nat) : Int) - num) (by omega), abs_le]
    omega
  · have hpassed := Nat.mul_le_mul_right den (roundUnits_le hden hz hhigh)
    have hsum := le_add_roundUnits hden hz hhigh
    rw [abs_of_nonneg (a := ((z * den : Nat) : Int) - num) (by omega), abs_le]
    omega

/-! ## Doubles -/

/-- A finite double than which no other one is nearer to `num / den`. Distances are told in units,
multiplied by `den`. -/
def IsNearest (x : Double) (num den : Nat) : Prop :=
  ∃ u : Int, x.units? = some u ∧ ∀ (y : Double) (v : Int), y.units? = some v →
    |u * den - (num * unitsPerOne : Nat)| ≤ |v * den - (num * unitsPerOne : Nat)|

/-- **A quotient that is at most one becomes the nearest double.** -/
theorem isNearest_ofRatio (hden : 0 < den) (h : num ≤ den) :
    (ofRatio false num den).IsNearest num den := by
  have hunits : num * unitsPerOne ≤ Nat.pow 2 1074 * den := by
    rw [Nat.mul_comm (Nat.pow 2 1074), ← unitsPerOne]
    exact Nat.mul_le_mul_right _ h
  have hround := ofUnits_of_representable false
    (representable_roundUnits_of_le (by decide) hden hunits)
  refine ⟨roundUnits (num * unitsPerOne) den, congrArg units? hround, fun y v hy => ?_⟩
  cases y with
  | nan => cases hy
  | infinite => cases hy
  | finite negative z hz =>
    cases negative with
    | false =>
      obtain rfl := Option.some.inj hy
      exact roundUnits_nearest hden hz.2 _
    | true =>
      -- A double below zero is farther off than zero is.
      obtain rfl := Option.some.inj hy
      have hzero := roundUnits_nearest hden (Nat.dvd_zero (spacing 0)) (num * unitsPerOne)
      have hpos : 0 ≤ (z : Int) * den := Int.natCast_nonneg (z * den)
      refine hzero.trans ?_
      rw [if_pos rfl, Int.neg_mul, abs_of_nonpos, abs_of_nonpos] <;> omega

end Telemetry.Double
