import Mathlib.Algebra.Order.Ring.Int
import Telemetry.Proofs.Number.Rounding

/-!
# Elapsed time

How much time lies between two readings of a clock, where readings and spans are doubles and the
difference of two readings is rounded. A reading that lies more than twice a span back stays at
least that span back for good; rounding cannot undo that. Where the rounded difference is no less
than a span, the exact one falls short of it by one part in 2⁵³ at most.

Main statements: `not_sub_lt_of_lt_cutoff`, `exact_of_not_sub_lt`.
-/

namespace Telemetry.Double

variable {x y z : Double} {i a b d : Int} {s t c : Bool} {u v w : Nat}
  {hu : Representable u} {hv : Representable v} {hw : Representable w}

/-! ## Order -/

@[simp] theorem lt_finite_iff :
    (finite s u hu).lt (finite t v hv) = true ↔ signed s u < signed t v := by
  simp [lt, compare?, signed, compare_lt_iff_lt]

@[simp] theorem le_finite_iff :
    (finite s u hu).le (finite t v hv) = true ↔ signed s u ≤ signed t v := by
  have hcompare : (finite s u hu).compare? (finite t v hv)
      = some (compare (signed s u) (signed t v)) := rfl
  unfold le
  rw [hcompare]
  cases h : compare (signed s u) (signed t v) with
  | lt => simpa using Int.le_of_lt (compare_lt_iff_lt.mp h)
  | eq => simpa using Int.le_of_eq (compare_eq_iff_eq.mp h)
  | gt => simpa using compare_gt_iff_gt.mp h

theorem signed_neg (s : Bool) (u : Nat) : signed (!s) u = -signed s u := by
  cases s <;> simp [signed]

/-- What has a place in the order is no NaN. -/
theorem le_self_of_le (h : x.le y = true) : x.le x = true ∧ y.le y = true := by
  cases x <;> cases y <;> simp_all [le, compare?]

theorem le_self_of_lt_sub (h : x.lt (y.sub z) = true) : y.le y = true := by
  cases y with
  | nan => cases x <;> cases h
  | infinite a => cases a <;> rfl
  | finite => exact le_finite_iff.mpr (Int.le_refl _)

theorem le_trans (hxy : x.le y = true) (hyz : y.le z = true) : x.le z = true := by
  cases x with
  | nan => cases hxy
  | infinite a =>
    cases y with
    | nan => cases hxy
    | infinite b =>
      cases z with
      | nan => cases hyz
      | infinite c => revert a b c; decide
      | finite => revert a b; simp [le, compare?]
    | finite =>
      cases z with
      | nan => cases hyz
      | infinite c => revert a c; simp [le, compare?]
      | finite => revert a; simp [le, compare?]
  | finite =>
    cases y with
    | nan => cases hxy
    | infinite b =>
      cases z with
      | nan => cases hyz
      | infinite c => revert b c; simp [le, compare?]
      | finite => revert b; simp [le, compare?]
    | finite =>
      cases z with
      | nan => cases hyz
      | infinite c => revert c; simp [le, compare?]
      | finite =>
        rw [le_finite_iff] at *
        exact Int.le_trans hxy hyz

/-- Opposites are ordered the other way around. -/
theorem neg_lt_neg : y.neg.lt x.neg = x.lt y := by
  cases x with
  | nan => cases y <;> rfl
  | infinite a =>
    cases y with
    | nan => rfl
    | infinite b => revert a b; decide
    | finite => cases a <;> rfl
  | finite s u hu =>
    cases y with
    | nan => rfl
    | infinite b => cases b <;> rfl
    | finite t v hv =>
      rw [Bool.eq_iff_iff, neg, neg, lt_finite_iff, lt_finite_iff, signed_neg, signed_neg]
      exact Int.neg_lt_neg_iff

/-! ## Rounded counts -/

theorem neg_ofUnitQuotient (s : Bool) (num den : Nat) :
    (ofUnitQuotient s num den).neg = ofUnitQuotient (!s) num den := by
  unfold ofUnitQuotient ofUnits
  split <;> rfl

/-- A double is below the nearest double to an exact count only if it is below the count. -/
theorem lt_of_lt_ofUnitQuotient (hi : i ≠ 0)
    (h : (finite c w hw).lt (ofUnitQuotient (i < 0) i.natAbs 1) = true) : signed c w < i := by
  have hsign : (!decide (i < 0)) = decide (-i < 0) := by
    rw [← decide_not, decide_eq_decide]
    omega
  rw [← neg_lt_neg, neg_ofUnitQuotient, hsign, ← Int.natAbs_neg] at h
  have hneg : -i < signed (!c) w := lt_of_ofUnitQuotient_lt h
  rw [signed_neg] at hneg
  omega

/-- A difference of finite doubles is the exact one, rounded. -/
theorem sub_finite (s t : Bool) (hu : Representable u) (hv : Representable v) :
    (finite s u hu).sub (finite t v hv)
      = if signed s u - signed t v = 0 then ofUnits (s && !t) 0
        else ofUnitQuotient (signed s u - signed t v < 0) (signed s u - signed t v).natAbs 1 := by
  have hsum : (if s then -(u : Int) else u) + (if !t then -(v : Int) else v)
      = signed s u - signed t v := by
    unfold signed
    cases s <;> cases t <;> simp <;> omega
  simp only [sub, neg, add]
  rw [hsum]

/-- A double is below a rounded difference only if it is below the exact difference. -/
theorem exact_of_lt_sub (h : (finite c w hw).lt ((finite s u hu).sub (finite t v hv)) = true) :
    signed c w < signed s u - signed t v := by
  rw [sub_finite] at h
  split at h
  · rename_i hzero
    rw [ofUnits_of_representable _ representable_zero, lt_finite_iff] at h
    rw [hzero]
    simpa [signed] using h
  · rename_i hne
    exact lt_of_lt_ofUnitQuotient hne h

/-! ## Twice a span -/

theorem spacing_dvd_two_mul (h : spacing u ∣ u) : spacing (2 * u) ∣ 2 * u := by
  rcases Nat.eq_zero_or_pos u with rfl | hpos
  · exact Nat.dvd_zero _
  have hlog : (2 * u).log2 = u.log2 + 1 := Nat.log2_two_mul (by omega)
  refine Nat.dvd_trans ?_ (Nat.mul_dvd_mul_left 2 h)
  unfold spacing
  rw [hlog]
  calc Nat.pow 2 (u.log2 + 1 - 52) ∣ Nat.pow 2 (u.log2 - 52 + 1) := Nat.pow_dvd_pow 2 (by omega)
    _ = 2 * Nat.pow 2 (u.log2 - 52) := Nat.pow_succ'

/-- Twice a finite double is exact, or too large. -/
theorem two_mul_finite (c : Bool) (hw : Representable w) :
    (ofInt 2).mul (finite c w hw) = ofUnits c (2 * w) := by
  have htwo : ofInt 2 = ofUnits false (2 * unitsPerOne) := by decide +kernel
  have hrepr : Representable (2 * unitsPerOne) := by decide +kernel
  rw [htwo, ofUnits_of_representable _ hrepr]
  show ofUnits (false != c) (roundUnits (2 * unitsPerOne * w) unitsPerOne) = _
  rw [Nat.mul_right_comm, roundUnits_eq_self unitsPerOne_pos (spacing_dvd_two_mul hw.2),
    Bool.false_bne]

theorem signed_nonneg (h : zero.le (finite c w hw) = true) : 0 ≤ signed c w := by
  have h0 : signed false 0 ≤ signed c w := le_finite_iff.mp h
  exact h0

/-- Nothing is below what an infinite span leaves. -/
theorem not_lt_sub_infinite (x y : Double) : x.lt (y.sub (infinite false)) = false := by
  cases y with
  | nan => cases x <;> rfl
  | infinite a =>
    cases a with
    | false => cases x <;> rfl
    | true =>
      cases x with
      | infinite b => cases b <;> rfl
      | _ => rfl
  | finite =>
    cases x with
    | infinite b => cases b <;> rfl
    | _ => rfl

/-- No time that has passed since an infinite past is short. -/
theorem not_sub_infinite_lt (x y : Double) : (x.sub (infinite true)).lt y = false := by
  cases x with
  | nan => cases y <;> rfl
  | infinite a =>
    cases a with
    | true => cases y <;> rfl
    | false =>
      cases y with
      | infinite b => cases b <;> rfl
      | _ => rfl
  | finite =>
    cases y with
    | infinite b => cases b <;> rfl
    | _ => rfl

/-- Where the spans and the past reading are finite. Of the other two readings, finite ones have
exact distances that agree; an infinite one leaves no time or all of it. -/
theorem not_sub_lt_of_lt_cutoff_finite {at_ now : Double} {c' : Bool} {w' : Nat}
    {hw' : Representable w'} (hc : 0 ≤ signed c w) (hdouble : signed c' w' = 2 * signed c w)
    (hcut : (finite s u hu).lt (at_.sub (finite c' w' hw')) = true) (hnow : at_.le now = true) :
    (now.sub (finite s u hu)).lt (finite c w hw) = false := by
  cases at_ with
  | nan => cases hcut
  | infinite a =>
    cases a with
    | true => cases hcut
    | false =>
      cases now with
      | infinite b =>
        cases b with
        | true => cases hnow
        | false => rfl
      | _ => cases hnow
  | finite t v hv =>
    cases now with
    | nan => cases hnow
    | infinite b =>
      cases b with
      | true => cases hnow
      | false => rfl
    | finite n r hr =>
      refine Bool.eq_false_iff.mpr fun hlt => ?_
      have helapsed : signed n r - signed s u < signed c w := exact_of_sub_lt hlt _ _ _ rfl rfl rfl
      have hpast : signed s u < signed t v - signed c' w' := exact_of_lt_sub hcut
      have hlater : signed t v ≤ signed n r := le_finite_iff.mp hnow
      omega

/-- **A reading that lies more than twice a span back is at least the span back from then on**, as
the rounded differences of the clock measure it. -/
theorem not_sub_lt_of_lt_cutoff {past at_ now span : Double}
    (hcut : past.lt (at_.sub ((ofInt 2).mul span)) = true) (hnow : at_.le now = true)
    (hspan : zero.le span = true) : (now.sub past).lt span = false := by
  have hlarge : ∀ z, z = infinite false → (ofInt 2).mul span ≠ z := by
    rintro z rfl hinf
    rw [hinf, not_lt_sub_infinite] at hcut
    cases hcut
  cases span with
  | nan => cases hspan
  | infinite c =>
    cases c with
    | true => cases hspan
    | false => exact absurd (by decide +kernel) (hlarge _ rfl)
  | finite c w hw =>
    have hc := signed_nonneg hspan
    rw [two_mul_finite] at hcut hlarge
    unfold ofUnits at hcut hlarge
    split at hcut
    · cases past with
      | nan => cases hcut
      | infinite b =>
        cases b with
        | true => exact not_sub_infinite_lt _ _
        | false =>
          cases h : at_.sub (finite c (2 * w) ‹_›) with
          | infinite b => rw [h] at hcut; cases b <;> cases hcut
          | _ => rw [h] at hcut; cases hcut
      | finite s u hu =>
        refine not_sub_lt_of_lt_cutoff_finite hc ?_ hcut hnow
        unfold signed
        split <;> omega
    · -- Twice a negative span is never too large.
      rename_i hnot
      rw [dif_neg hnot] at hlarge
      cases c with
      | false => exact absurd rfl (hlarge _ rfl)
      | true =>
        have hzero : w = 0 := by
          simp only [signed, if_true] at hc
          omega
        exact absurd (hzero ▸ representable_zero) hnot

/-! ## What rounding can hide -/

/-- Half the distance between neighbours is one part in 2⁵³ at most. -/
theorem roundUnits_one_le (n : Nat) : 2 ^ 53 * roundUnits n 1 ≤ (2 ^ 53 + 1) * n := by
  rcases Nat.lt_or_ge n.log2 52 with hsmall | hbig
  · -- Small counts are exact.
    have hspacing : spacing n = 1 := by
      unfold spacing
      rw [Nat.sub_eq_zero_of_le (Nat.le_of_lt hsmall)]
    have hexact : roundUnits (n * 1) 1 = n :=
      roundUnits_eq_self Nat.one_pos (hspacing ▸ Nat.one_dvd n)
    rw [Nat.mul_one] at hexact
    rw [hexact]
    omega
  · have hpos : n ≠ 0 := by
      rintro rfl
      cases hbig
    have hspacing : 2 ^ 52 * spacing n ≤ n := by
      calc 2 ^ 52 * spacing n = 2 ^ n.log2 := by
            rw [spacing, Nat.pow_eq, ← Nat.pow_add, Nat.add_sub_cancel' hbig]
        _ ≤ n := Nat.log2_self_le hpos
    have herror := two_mul_roundUnits_le n 1
    rw [Nat.div_one, Nat.mul_one, Nat.one_mul] at herror
    omega

/-- A rounded difference that is a double already is exact. -/
theorem le_of_not_sub_lt (h : (x.sub y).lt z = false) (hx : x.units? = some a)
    (hy : y.units? = some b) (hzd : z.units? = some d) (hrepr : Representable (a - b).natAbs) :
    d ≤ a - b := by
  cases x with
  | nan => cases hx
  | infinite _ => cases hx
  | finite s u hu =>
  cases y with
  | nan => cases hy
  | infinite _ => cases hy
  | finite t v hv =>
  cases z with
  | nan => cases hzd
  | infinite _ => cases hzd
  | finite c w hw =>
  obtain rfl : signed s u = a := Option.some.inj hx
  obtain rfl : signed t v = b := Option.some.inj hy
  obtain rfl : signed c w = d := Option.some.inj hzd
  rw [sub_finite] at h
  generalize signed s u - signed t v = i at h hrepr ⊢
  by_contra hshort
  refine Bool.eq_false_iff.mp h ?_
  split
  · rw [ofUnits_of_representable _ representable_zero, lt_finite_iff]
    have hzero : signed (s && !t) 0 = 0 := by
      unfold signed
      split <;> rfl
    omega
  · have hexact : roundUnits i.natAbs 1 = i.natAbs := by
      have hself := roundUnits_eq_self Nat.one_pos hrepr.2
      rwa [Nat.mul_one] at hself
    have hvalue : signed (decide (i < 0)) i.natAbs = i := by
      unfold signed
      by_cases hneg : i < 0
      · rw [if_pos (decide_eq_true hneg)]
        omega
      · rw [if_neg (by simpa using hneg)]
        omega
    rw [ofUnitQuotient, hexact, ofUnits_of_representable _ hrepr, lt_finite_iff, hvalue]
    omega

/-- **A rounded difference that is no less than a span hides one part in 2⁵³ at most**: so far the
exact difference may fall short of it. -/
theorem exact_of_not_sub_lt (h : (x.sub y).lt z = false) (hz : zero.le z = true)
    (hx : x.units? = some a) (hy : y.units? = some b) (hzd : z.units? = some d) :
    (2 ^ 53 - 1) * d ≤ 2 ^ 53 * (a - b) := by
  cases x with
  | nan => cases hx
  | infinite _ => cases hx
  | finite s u hu =>
  cases y with
  | nan => cases hy
  | infinite _ => cases hy
  | finite t v hv =>
  cases z with
  | nan => cases hzd
  | infinite _ => cases hzd
  | finite c w hw =>
  obtain rfl : signed s u = a := Option.some.inj hx
  obtain rfl : signed t v = b := Option.some.inj hy
  obtain rfl : signed c w = d := Option.some.inj hzd
  have hpos := signed_nonneg hz
  rw [sub_finite] at h
  generalize signed s u - signed t v = i at h ⊢
  by_contra hshort
  refine Bool.eq_false_iff.mp h ?_
  have hone : (0 : Nat) < 1 := Nat.one_pos
  split
  · rw [ofUnits_of_representable _ representable_zero, lt_finite_iff]
    have hzero : signed (s && !t) 0 = 0 := by
      unfold signed
      split <;> rfl
    omega
  · rename_i hne
    unfold ofUnitQuotient ofUnits
    rcases Int.lt_or_gt_of_ne hne with hneg | hpos'
    · -- What is below zero stays below when it is rounded.
      have hround : 1 ≤ roundUnits i.natAbs 1 := le_roundUnits hone (by decide) (by omega)
      rw [decide_eq_true hneg]
      split
      · rw [lt_finite_iff]
        have : signed true (roundUnits i.natAbs 1) = -(roundUnits i.natAbs 1 : Int) := rfl
        omega
      · rfl
    · have herror := roundUnits_one_le i.natAbs
      have hspan : signed c w ≤ w := by
        unfold signed
        split <;> omega
      have hround : (roundUnits i.natAbs 1 : Int) < signed c w := by omega
      have hrepr : Representable (roundUnits i.natAbs 1) :=
        representable_roundUnits hone (Nat.lt_of_le_of_lt (by omega) hw.1)
      rw [dif_pos hrepr, decide_eq_false (by omega), lt_finite_iff]
      exact hround

end Telemetry.Double
