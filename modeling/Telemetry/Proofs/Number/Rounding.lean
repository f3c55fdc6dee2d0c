import Mathlib.Data.Int.Order.Basic
import Telemetry.Number.Double

/-!
# Rounding to the nearest double

What rounding a quotient to an integer, and to a count of units that a double can hold, is bounded
by: a count that can be held is not passed, and the error is at most half the distance between
neighbours, so that the middle between neighbours tells which of them a quotient becomes. A
difference of doubles is rounded, so it may be off; but it is below a double only if the exact
difference is.

Main statements: `le_roundUnits`, `roundUnits_le`, `roundUnits_mono`, `roundUnits_le_of_lt_middle`,
`next_le_roundUnits_of_middle_lt`, `exact_of_sub_lt`.
-/

namespace Telemetry.Double

variable {n z num den : Nat}

/-! ## The nearest integer -/

theorem le_roundDiv (hden : 0 < den) (h : n * den ≤ num) : n ≤ roundDiv num den := by
  have hfloor : n ≤ num / den := (Nat.le_div_iff_mul_le hden).mpr h
  unfold roundDiv
  dsimp only
  split <;> omega

theorem roundDiv_le (hden : 0 < den) (h : num ≤ n * den) : roundDiv num den ≤ n := by
  have hsplit : num / den * den + num % den = num := Nat.div_add_mod' num den
  unfold roundDiv
  dsimp only
  rcases Nat.lt_or_ge (num / den) n with hlt | hge
  · split <;> omega
  · -- The floor has reached the bound already, so nothing is left over.
    have hmul : n * den ≤ num / den * den := Nat.mul_le_mul_right den hge
    have hfloor : num / den ≤ n := Nat.div_le_of_le_mul (by rwa [Nat.mul_comm])
    rw [if_neg (by omega)]
    exact hfloor

/-- Rounding up goes by half the divisor at most. -/
theorem two_mul_roundDiv_le (num den : Nat) :
    2 * (roundDiv num den * den) ≤ 2 * num + den := by
  have hsplit : num / den * den + num % den = num := Nat.div_add_mod' num den
  unfold roundDiv
  dsimp only
  split
  · rw [Nat.add_mul, Nat.one_mul]
    omega
  · omega

/-- Rounding down goes by half the divisor at most. -/
theorem le_two_mul_roundDiv (hden : 0 < den) (num : Nat) :
    2 * num ≤ 2 * (roundDiv num den * den) + den := by
  have hsplit : num / den * den + num % den = num := Nat.div_add_mod' num den
  have hmod : num % den < den := Nat.mod_lt num hden
  unfold roundDiv
  dsimp only
  split
  · rw [Nat.add_mul, Nat.one_mul]
    omega
  · omega

/-- The integer that is nearer than half the divisor is the nearest. -/
theorem roundDiv_eq_of_near (hden : 0 < den) (hlow : 2 * (n * den) < 2 * num + den)
    (hhigh : 2 * num < 2 * (n * den) + den) : roundDiv num den = n := by
  have hup := two_mul_roundDiv_le num den
  have hdown := le_two_mul_roundDiv hden num
  refine Nat.le_antisymm (Nat.le_of_lt_succ ?_) (Nat.le_of_lt_succ ?_)
  · refine Nat.lt_of_mul_lt_mul_right (a := den) ?_
    rw [Nat.succ_mul]
    omega
  · refine Nat.lt_of_mul_lt_mul_right (a := den) ?_
    rw [Nat.succ_mul]
    omega

theorem roundDiv_mono {m : Nat} (hden : 0 < den) (h : m ≤ n) :
    roundDiv m den ≤ roundDiv n den := by
  rcases Nat.eq_or_lt_of_le h with rfl | hlt
  · exact Nat.le_refl _
  · -- Two different numbers are less than a whole divisor of rounding apart.
    have hup := two_mul_roundDiv_le m den
    have hdown := le_two_mul_roundDiv hden n
    refine Nat.le_of_lt_succ (Nat.lt_of_mul_lt_mul_right (a := den) ?_)
    rw [Nat.succ_mul]
    omega

/-- An even number of whole divisors stays out of the rounding; an odd number would turn ties
around. -/
theorem roundDiv_add (hden : 0 < den) (heven : n % 2 = 0) (num : Nat) :
    roundDiv (n * den + num) den = n + roundDiv num den := by
  have hdiv : (n * den + num) / den = n + num / den := by
    rw [Nat.add_comm, Nat.add_mul_div_right _ _ hden, Nat.add_comm]
  have hmod : (n * den + num) % den = num % den := by
    rw [Nat.add_comm, Nat.add_mul_mod_self_right]
  have hparity : (n + num / den) % 2 = num / den % 2 := by omega
  unfold roundDiv
  dsimp only
  rw [hdiv, hmod, hparity]
  split <;> omega

theorem roundDiv_mul_mul {k : Nat} (hk : 0 < k) (num den : Nat) :
    roundDiv (num * k) (den * k) = roundDiv num den := by
  have hless : den * k < 2 * (num % den * k) ↔ den < 2 * (num % den) := by
    rw [← Nat.mul_assoc]
    exact Nat.mul_lt_mul_right hk
  have htie : 2 * (num % den * k) = den * k ↔ 2 * (num % den) = den := by
    rw [← Nat.mul_assoc]
    exact Nat.mul_right_cancel_iff hk
  unfold roundDiv
  dsimp only
  simp only [Nat.mul_div_mul_right _ _ hk, Nat.mul_mod_mul_right, hless, htie]

/-! ## The distance between neighbours -/

theorem log2_mono {m : Nat} (h : m ≤ n) : m.log2 ≤ n.log2 := by
  rcases Nat.eq_zero_or_pos m with rfl | hm
  · simp
  · exact (Nat.le_log2 (by omega)).mpr (Nat.le_trans (Nat.log2_self_le (by omega)) h)

theorem two_pow_mul (k m : Nat) : Nat.pow 2 k * Nat.pow 2 m = Nat.pow 2 (k + m) :=
  (Nat.pow_add 2 k m).symm

theorem unitsPerOne_pos : 0 < unitsPerOne := by decide +kernel

theorem spacing_pos (n : Nat) : 0 < spacing n := Nat.two_pow_pos _

/-- Two different multiples of a step are a step apart at least. -/
theorem add_le_of_dvd {m step : Nat} (hm : step ∣ m) (hn : step ∣ n) (h : m < n) :
    m + step ≤ n := by
  have hgap := Nat.le_of_dvd (Nat.sub_pos_of_lt h) (Nat.dvd_sub hn hm)
  omega

theorem spacing_dvd_spacing {m : Nat} (h : m ≤ n) : spacing m ∣ spacing n :=
  Nat.pow_dvd_pow 2 (Nat.sub_le_sub_right (log2_mono h) 52)

theorem spacing_two_pow (k : Nat) : spacing (Nat.pow 2 k) = Nat.pow 2 (k - 52) :=
  congrArg (fun n => Nat.pow 2 (n - 52)) Nat.log2_two_pow

theorem spacing_dvd_two_pow (k : Nat) : spacing (Nat.pow 2 k) ∣ Nat.pow 2 k := by
  rw [spacing_two_pow]
  exact Nat.pow_dvd_pow 2 (Nat.sub_le k 52)

theorem spacing_dvd_two_pow_log2 (n : Nat) : spacing n ∣ Nat.pow 2 n.log2 :=
  Nat.pow_dvd_pow 2 (Nat.sub_le _ 52)

theorem spacing_dvd_of_lt {k : Nat} (h : n < Nat.pow 2 (k + 53)) : spacing n ∣ Nat.pow 2 k := by
  have hlog : n.log2 ≤ k + 52 := by
    rcases Nat.eq_zero_or_pos n with rfl | hpos
    · simp
    · exact Nat.le_of_lt_succ ((Nat.log2_lt (by omega)).mpr h)
  exact Nat.pow_dvd_pow 2 (by omega)

theorem two_pow_dvd_spacing {k : Nat} (h : Nat.pow 2 (k + 52) ≤ n) : Nat.pow 2 k ∣ spacing n := by
  have hpos : 0 < n := Nat.lt_of_lt_of_le (Nat.two_pow_pos _) h
  have hlog : k + 52 ≤ n.log2 := (Nat.le_log2 (by omega)).mpr h
  exact Nat.pow_dvd_pow 2 (by omega)

/-- What a count leaves over beyond a power of two is held by a double if the count is. -/
theorem spacing_dvd_mod (hz : spacing z ∣ z) (k : Nat) :
    spacing (z % Nat.pow 2 k) ∣ z % Nat.pow 2 k := by
  have hpow : spacing (z % Nat.pow 2 k) ∣ Nat.pow 2 k :=
    Nat.dvd_trans (spacing_dvd_spacing (Nat.le_of_lt (Nat.mod_lt z (Nat.two_pow_pos k))))
      (spacing_dvd_two_pow k)
  have hall : spacing (z % Nat.pow 2 k) ∣ z :=
    Nat.dvd_trans (spacing_dvd_spacing (Nat.mod_le z (Nat.pow 2 k))) hz
  exact (Nat.dvd_mod_iff hpow).mpr hall

/-! ## The nearest count of units -/

theorem le_roundUnits_of_dvd (hden : 0 < den) (hz : spacing (num / den) ∣ z)
    (h : z * den ≤ num) : z ≤ roundUnits num den := by
  obtain ⟨k, rfl⟩ := hz
  unfold roundUnits
  dsimp only
  rw [Nat.mul_comm]
  refine Nat.mul_le_mul_right _ (le_roundDiv (Nat.mul_pos hden (spacing_pos _)) ?_)
  calc k * (den * spacing (num / den)) = spacing (num / den) * k * den := by
        rw [Nat.mul_comm den, ← Nat.mul_assoc, Nat.mul_comm k]
    _ ≤ num := h

theorem roundUnits_le_of_dvd (hden : 0 < den) (hz : spacing (num / den) ∣ z)
    (h : num ≤ z * den) : roundUnits num den ≤ z := by
  obtain ⟨k, rfl⟩ := hz
  unfold roundUnits
  dsimp only
  rw [Nat.mul_comm (spacing _) k]
  refine Nat.mul_le_mul_right _ (roundDiv_le (Nat.mul_pos hden (spacing_pos _)) ?_)
  calc num ≤ spacing (num / den) * k * den := h
    _ = k * (den * spacing (num / den)) := by
        rw [Nat.mul_comm den, ← Nat.mul_assoc, Nat.mul_comm k]

/-- From a count that a double can hold to a higher count there is a whole number of distances
between the neighbours of the higher one. -/
theorem exists_step_between (hz : spacing z ∣ z) (h : z ≤ n) :
    ∃ m, z ≤ m ∧ m ≤ n ∧ spacing n ∣ m := by
  rcases Nat.eq_zero_or_pos z with rfl | hpos
  · exact ⟨0, Nat.le_refl 0, Nat.zero_le n, Nat.dvd_zero _⟩
  rcases Nat.lt_or_ge z (Nat.pow 2 n.log2) with hlt | hge
  · -- The power of two between them is a multiple of the distance between neighbours.
    have hne : n ≠ 0 := by omega
    exact ⟨_, Nat.le_of_lt hlt, Nat.log2_self_le hne, spacing_dvd_two_pow_log2 n⟩
  · have hlog : z.log2 = n.log2 :=
      Nat.le_antisymm (log2_mono h) ((Nat.le_log2 (by omega)).mpr hge)
    have hspacing : spacing n = spacing z := by
      unfold spacing
      rw [hlog]
    exact ⟨z, Nat.le_refl z, h, hspacing ▸ hz⟩

/-- **A count that a double can hold is not passed from above.** -/
theorem le_roundUnits (hden : 0 < den) (hz : spacing z ∣ z) (h : z * den ≤ num) :
    z ≤ roundUnits num den := by
  obtain ⟨m, hzm, hm, hdvd⟩ := exists_step_between hz ((Nat.le_div_iff_mul_le hden).mpr h)
  exact Nat.le_trans hzm (le_roundUnits_of_dvd hden hdvd ((Nat.le_div_iff_mul_le hden).mp hm))

/-- **A count that a double can hold is not passed from below.** -/
theorem roundUnits_le (hden : 0 < den) (hz : spacing z ∣ z) (h : num ≤ z * den) :
    roundUnits num den ≤ z :=
  have hle : num / den ≤ z := Nat.div_le_of_le_mul (by rwa [Nat.mul_comm])
  roundUnits_le_of_dvd hden (Nat.dvd_trans (spacing_dvd_spacing hle) hz) h

theorem roundUnits_eq_self (hden : 0 < den) (hz : spacing z ∣ z) :
    roundUnits (z * den) den = z :=
  Nat.le_antisymm (roundUnits_le hden hz (Nat.le_refl _)) (le_roundUnits hden hz (Nat.le_refl _))

/-- **Rounding keeps the order.** -/
theorem roundUnits_mono {m : Nat} (hden : 0 < den) (h : m ≤ n) :
    roundUnits m den ≤ roundUnits n den := by
  have hdiv : m / den ≤ n / den := Nat.div_le_div_right h
  rcases Nat.eq_or_lt_of_le (log2_mono hdiv) with hlog | hlog
  · have hspacing : spacing (m / den) = spacing (n / den) := by
      unfold spacing
      rw [hlog]
    unfold roundUnits
    dsimp only
    rw [hspacing]
    exact Nat.mul_le_mul_right _ (roundDiv_mono (Nat.mul_pos hden (spacing_pos _)) h)
  · -- A power of two lies between them.
    have hne : n / den ≠ 0 := by
      intro hzero
      rw [hzero] at hlog
      exact absurd hlog (by simp)
    have hbelow : m / den < Nat.pow 2 (n / den).log2 :=
      Nat.lt_of_lt_of_le Nat.lt_log2_self (Nat.pow_le_pow_right (by decide) hlog)
    have hlow : m ≤ Nat.pow 2 (n / den).log2 * den :=
      Nat.le_of_lt ((Nat.div_lt_iff_lt_mul hden).mp hbelow)
    have hhigh : Nat.pow 2 (n / den).log2 * den ≤ n :=
      (Nat.le_div_iff_mul_le hden).mp (Nat.log2_self_le hne)
    exact Nat.le_trans (roundUnits_le hden (spacing_dvd_two_pow _) hlow)
      (le_roundUnits hden (spacing_dvd_two_pow _) hhigh)

theorem roundUnits_mul_mul {k : Nat} (hk : 0 < k) (num den : Nat) :
    roundUnits (num * k) (den * k) = roundUnits num den := by
  unfold roundUnits
  dsimp only
  rw [Nat.mul_div_mul_right _ _ hk, Nat.mul_right_comm den k, roundDiv_mul_mul hk]

/-- The error of rounding up is at most half the distance between neighbours. -/
theorem two_mul_roundUnits_le (num den : Nat) :
    2 * (roundUnits num den * den) ≤ 2 * num + den * spacing (num / den) := by
  have h := two_mul_roundDiv_le num (den * spacing (num / den))
  unfold roundUnits
  dsimp only
  rw [Nat.mul_assoc, Nat.mul_comm (spacing _) den]
  exact h

/-- The error of rounding down is at most half the distance between neighbours. -/
theorem le_two_mul_roundUnits (hden : 0 < den) (num : Nat) :
    2 * num ≤ 2 * (roundUnits num den * den) + den * spacing (num / den) := by
  have h := le_two_mul_roundDiv (Nat.mul_pos hden (spacing_pos (num / den))) num
  unfold roundUnits
  dsimp only
  rw [Nat.mul_assoc, Nat.mul_comm (spacing _) den]
  exact h

theorem spacing_dvd_roundUnits (hden : 0 < den) (num : Nat) :
    spacing (roundUnits num den) ∣ roundUnits num den := by
  have hstep : spacing (num / den) ∣ roundUnits num den := Nat.dvd_mul_left _ _
  have hnum : num ≤ Nat.pow 2 ((num / den).log2 + 1) * den := by
    have hlt : num / den < Nat.pow 2 ((num / den).log2 + 1) := Nat.lt_log2_self
    exact Nat.le_of_lt ((Nat.div_lt_iff_lt_mul hden).mp hlt)
  have htop : roundUnits num den ≤ Nat.pow 2 ((num / den).log2 + 1) :=
    roundUnits_le hden (spacing_dvd_two_pow _) hnum
  rcases Nat.lt_or_eq_of_le htop with hlt | heq
  · -- Below the next power of two the neighbours stand no farther apart than where it was rounded.
    rcases Nat.eq_zero_or_pos (roundUnits num den) with hzero | hpos
    · rw [hzero]
      exact Nat.dvd_zero _
    · have hlog : (roundUnits num den).log2 ≤ (num / den).log2 :=
        Nat.le_of_lt_succ ((Nat.log2_lt (by omega)).mpr hlt)
      exact Nat.dvd_trans (Nat.pow_dvd_pow 2 (Nat.sub_le_sub_right hlog 52)) hstep
  · rw [heq]
    exact spacing_dvd_two_pow _

/-- What rounding gives is held by a double unless it is too large. -/
theorem representable_roundUnits (hden : 0 < den) (h : roundUnits num den < Nat.pow 2 2098) :
    Representable (roundUnits num den) :=
  ⟨h, spacing_dvd_roundUnits hden num⟩

theorem representable_roundUnits_of_le {k : Nat} (hk : k < 2098) (hden : 0 < den)
    (h : num ≤ Nat.pow 2 k * den) : Representable (roundUnits num den) := by
  have hle : roundUnits num den ≤ Nat.pow 2 k := roundUnits_le hden (spacing_dvd_two_pow k) h
  have hlt : Nat.pow 2 k < Nat.pow 2 2098 := Nat.pow_lt_pow_right (by decide) hk
  exact representable_roundUnits hden (Nat.lt_of_le_of_lt hle hlt)

/-! ## The middle between neighbours -/

/-- The next count is at most the next power of two. -/
theorem add_spacing_le (hz : spacing z ∣ z) : z + spacing z ≤ Nat.pow 2 (z.log2 + 1) :=
  add_le_of_dvd hz (Nat.pow_dvd_pow 2 (by omega)) Nat.lt_log2_self

/-- Between neighbours the distance is the same. -/
theorem spacing_eq_of_between (hz : spacing z ∣ z) (hlow : z ≤ n) (hhigh : n < z + spacing z) :
    spacing n = spacing z := by
  have htop : n < Nat.pow 2 (z.log2 + 1) := Nat.lt_of_lt_of_le hhigh (add_spacing_le hz)
  have hlog : n.log2 ≤ z.log2 := by
    rcases Nat.eq_zero_or_pos n with rfl | hpos
    · exact Nat.zero_le _
    · exact Nat.le_of_lt_succ ((Nat.log2_lt (by omega)).mpr htop)
  unfold spacing
  rw [Nat.le_antisymm hlog (log2_mono hlow)]

/-- What stands one distance above a count that a double can hold is held too. -/
theorem spacing_dvd_next (hz : spacing z ∣ z) : spacing (z + spacing z) ∣ z + spacing z := by
  rcases Nat.lt_or_eq_of_le (add_spacing_le hz) with hlt | heq
  · have hlog : (z + spacing z).log2 ≤ z.log2 :=
      Nat.le_of_lt_succ ((Nat.log2_lt (by have := spacing_pos z; omega)).mpr hlt)
    exact Nat.dvd_trans (Nat.pow_dvd_pow 2 (Nat.sub_le_sub_right hlog 52))
      (Nat.dvd_add hz (Nat.dvd_refl _))
  · rw [heq]
    exact spacing_dvd_two_pow _

/-- **A quotient below the middle between neighbours does not round to the upper one.** -/
theorem roundUnits_le_of_lt_middle (hden : 0 < den) (hz : spacing z ∣ z)
    (h : 2 * num < (2 * z + spacing z) * den) : roundUnits num den ≤ z := by
  rcases Nat.lt_or_ge (z * den) num with hlow | hle
  swap
  · exact roundUnits_le hden hz hle
  have hstep : spacing (num / den) = spacing z := by
    refine spacing_eq_of_between hz ((Nat.le_div_iff_mul_le hden).mpr (Nat.le_of_lt hlow)) ?_
    rw [Nat.div_lt_iff_lt_mul hden]
    rw [Nat.add_mul, Nat.mul_assoc] at h
    rw [Nat.add_mul]
    omega
  have herror := two_mul_roundUnits_le num den
  rw [hstep] at herror
  have hlt : roundUnits num den < z + spacing z := by
    refine Nat.lt_of_mul_lt_mul_right (a := den) ?_
    rw [Nat.add_mul, Nat.mul_assoc] at h
    rw [Nat.add_mul]
    rw [Nat.mul_comm den] at herror
    omega
  have hdvd : spacing z ∣ roundUnits num den := hstep ▸ Nat.dvd_mul_left _ _
  by_contra hgt
  exact Nat.not_le_of_lt hlt (add_le_of_dvd hz hdvd (Nat.lt_of_not_le hgt))

/-- **A quotient above the middle between neighbours rounds to the upper one at least.** -/
theorem next_le_roundUnits_of_middle_lt (hden : 0 < den) (hz : spacing z ∣ z)
    (h : (2 * z + spacing z) * den < 2 * num) : z + spacing z ≤ roundUnits num den := by
  rcases Nat.lt_or_ge num ((z + spacing z) * den) with hlt | hge
  swap
  · exact le_roundUnits hden (spacing_dvd_next hz) hge
  rw [Nat.add_mul] at hlt
  rw [Nat.add_mul, Nat.mul_assoc] at h
  have hstep : spacing (num / den) = spacing z := by
    refine spacing_eq_of_between hz ((Nat.le_div_iff_mul_le hden).mpr (by omega)) ?_
    rw [Nat.div_lt_iff_lt_mul hden, Nat.add_mul]
    exact hlt
  have herror := le_two_mul_roundUnits hden num
  rw [hstep, Nat.mul_comm den] at herror
  have hgt : z < roundUnits num den := by
    refine Nat.lt_of_mul_lt_mul_right (a := den) ?_
    omega
  have hdvd : spacing z ∣ roundUnits num den := hstep ▸ Nat.dvd_mul_left _ _
  exact add_le_of_dvd hz hdvd hgt

/-! ## The size of a unit -/

section Scale

variable (hn : Nat.pow 2 52 ≤ n) (k : Nat)
include hn

theorem log2_scaled {m : Nat} (hlow : n * Nat.pow 2 k ≤ m) (hhigh : m < (n + 1) * Nat.pow 2 k) :
    m.log2 = n.log2 + k := by
  have hpos : 0 < n := Nat.lt_of_lt_of_le (Nat.two_pow_pos 52) hn
  have hfirst : Nat.pow 2 (n.log2 + k) ≤ m := by
    rw [← two_pow_mul]
    exact Nat.le_trans (Nat.mul_le_mul_right _ (Nat.log2_self_le (Nat.ne_of_gt hpos))) hlow
  have hlast : m < Nat.pow 2 (n.log2 + k + 1) := by
    rw [Nat.add_right_comm, ← two_pow_mul]
    exact Nat.lt_of_lt_of_le hhigh (Nat.mul_le_mul_right _ Nat.lt_log2_self)
  have hne : m ≠ 0 := Nat.ne_of_gt (Nat.lt_of_lt_of_le (Nat.two_pow_pos _) hfirst)
  exact (Nat.log2_eq_iff hne).mpr ⟨hfirst, hlast⟩

/-- Counts with all bits in use stand in proportion to their distances. -/
theorem spacing_scaled {m : Nat} (hlow : n * Nat.pow 2 k ≤ m)
    (hhigh : m < (n + 1) * Nat.pow 2 k) : spacing m = spacing n * Nat.pow 2 k := by
  have hpos : 0 < n := Nat.lt_of_lt_of_le (Nat.two_pow_pos 52) hn
  have hbits : 52 ≤ n.log2 := (Nat.le_log2 (Nat.ne_of_gt hpos)).mpr hn
  unfold spacing
  rw [log2_scaled hn k hlow hhigh, Nat.sub_add_comm hbits]
  exact Nat.pow_add 2 _ k

theorem spacing_mul : spacing (n * Nat.pow 2 k) = spacing n * Nat.pow 2 k :=
  spacing_scaled hn k (Nat.le_refl _)
    (Nat.mul_lt_mul_of_pos_right (Nat.lt_succ_self n) (Nat.two_pow_pos k))

end Scale

/-- **Rounding knows no unit** where all bits are in use. -/
theorem roundUnits_scaled (hden : 0 < den) (h : Nat.pow 2 52 ≤ num / den) (k : Nat) :
    roundUnits (num * Nat.pow 2 k) den = roundUnits num den * Nat.pow 2 k := by
  have hlow : num / den * Nat.pow 2 k ≤ num * Nat.pow 2 k / den := by
    rw [Nat.le_div_iff_mul_le hden, Nat.mul_right_comm]
    exact Nat.mul_le_mul_right _ (Nat.div_mul_le_self num den)
  have hhigh : num * Nat.pow 2 k / den < (num / den + 1) * Nat.pow 2 k := by
    rw [Nat.div_lt_iff_lt_mul hden, Nat.mul_right_comm]
    exact Nat.mul_lt_mul_of_pos_right (Nat.lt_mul_of_div_lt (Nat.lt_succ_self _) hden)
      (Nat.two_pow_pos k)
  have hpow : 0 < Nat.pow 2 k := Nat.two_pow_pos k
  unfold roundUnits
  dsimp only
  rw [spacing_scaled h k hlow hhigh, ← Nat.mul_assoc den, roundDiv_mul_mul hpow, Nat.mul_assoc]

theorem ofUnits_of_representable {units : Nat} (negative : Bool) (h : Representable units) :
    ofUnits negative units = .finite negative units h := dif_pos h

/-! ## Integers -/

/-- Integers of up to 53 bits are doubles. -/
theorem ofInt_natCast (h : n ≤ Nat.pow 2 53) :
    ∃ hr, ofInt n = .finite false (n * unitsPerOne) hr := by
  have hpow : Nat.pow 2 53 * unitsPerOne = Nat.pow 2 (1074 + 53) := by
    rw [Nat.mul_comm, unitsPerOne, two_pow_mul]
  have hle : n * unitsPerOne ≤ Nat.pow 2 (1074 + 53) := hpow ▸ Nat.mul_le_mul_right _ h
  have hdvd : spacing (n * unitsPerOne) ∣ n * unitsPerOne := by
    rcases Nat.lt_or_eq_of_le hle with hlt | heq
    · exact Nat.dvd_trans (spacing_dvd_of_lt hlt) (Nat.dvd_mul_left ..)
    · rw [heq]
      exact spacing_dvd_two_pow _
  have hr : Representable (n * unitsPerOne) :=
    ⟨Nat.lt_of_le_of_lt hle (Nat.pow_lt_pow_right (by decide) (by decide)), hdvd⟩
  refine ⟨hr, ?_⟩
  have hround := roundUnits_eq_self Nat.one_pos hdvd
  rw [Nat.mul_one] at hround
  have hsign : decide ((n : Int) < 0) = false :=
    decide_eq_false (Int.not_lt.mpr (Int.natCast_nonneg n))
  rw [ofInt, hsign, ofRatio, ofUnitQuotient, Int.natAbs_natCast, hround]
  exact ofUnits_of_representable false hr

/-- An integer of up to 53 bits is what is left of its double without a fraction. -/
theorem truncate?_ofInt (h : n ≤ Nat.pow 2 53) : (ofInt n).truncate? = some (n : Int) := by
  obtain ⟨hr, hx⟩ := ofInt_natCast h
  have hunits : ((n * unitsPerOne : Nat) : Int).tdiv unitsPerOne = n := by
    rw [Int.natCast_mul]
    exact Int.mul_tdiv_cancel _ (Int.natCast_ne_zero.mpr (Nat.ne_of_gt unitsPerOne_pos))
  rw [hx]
  exact congrArg some hunits

/-! ## Differences -/

/-- The signed count of units of a sign and a count. -/
def signed (negative : Bool) (units : Nat) : Int := if negative then -(units : Int) else units

/-- The exact difference of two doubles is below a third. -/
def ExactlyBelow (x y z : Double) : Prop :=
  ∀ a b d, x.units? = some a → y.units? = some b → z.units? = some d → a - b < d

/-- The nearest double to an exact count is below a double only if the count is. -/
theorem lt_of_ofUnitQuotient_lt {i : Int} {c : Bool} {w : Nat} {hw : Representable w}
    (h : (ofUnitQuotient (i < 0) i.natAbs 1).lt (.finite c w hw) = true) : i < signed c w := by
  by_contra hge
  rw [Int.not_lt] at hge
  have hone : (0 : Nat) < 1 := Nat.one_pos
  unfold ofUnitQuotient ofUnits at h
  unfold signed at hge
  split at h
  · simp only [lt, compare?, beq_iff_eq, Option.some.injEq, compare_lt_iff_lt,
      decide_eq_true_eq] at h
    rcases Bool.eq_false_or_eq_true c with rfl | rfl
    · simp only [if_true] at h hge
      split at h
      · -- Both are negative, and what is nearer to zero stays so.
        have : roundUnits i.natAbs 1 ≤ w := roundUnits_le hone hw.2 (by omega)
        omega
      · omega
    · simp only [Bool.false_eq_true, if_false] at h hge
      have : w ≤ roundUnits i.natAbs 1 := le_roundUnits hone hw.2 (by omega)
      rw [if_neg (by omega)] at h
      omega
  · rename_i hnot
    -- What is too large for a double is below another one only if it is negative.
    have hlt : i < 0 := by
      by_contra hpos
      simp [lt, compare?, hpos] at h
    have hc : c = true := by
      rcases Bool.eq_false_or_eq_true c with rfl | rfl
      · rfl
      · simp only [Bool.false_eq_true, if_false] at hge
        omega
    rw [hc, if_pos rfl] at hge
    have hle : roundUnits i.natAbs 1 ≤ w := roundUnits_le hone hw.2 (by omega)
    exact hnot (representable_roundUnits hone (Nat.lt_of_le_of_lt hle hw.1))

/-- **A rounded difference is below a double only if the exact difference is.** -/
theorem exact_of_sub_lt {x y z : Double} (h : (x.sub y).lt z = true) : ExactlyBelow x y z := by
  intro a b d ha hb hd
  cases x with
  | nan => cases ha
  | infinite _ => cases ha
  | finite s u hu =>
  cases y with
  | nan => cases hb
  | infinite _ => cases hb
  | finite t v hv =>
  cases z with
  | nan => cases hd
  | infinite _ => cases hd
  | finite c w hw =>
  obtain rfl : signed s u = a := Option.some.inj ha
  obtain rfl : signed t v = b := Option.some.inj hb
  obtain rfl : signed c w = d := Option.some.inj hd
  have hsum : (if s then -(u : Int) else u) + (if !t then -(v : Int) else v)
      = signed s u - signed t v := by
    unfold signed
    cases s <;> cases t <;> simp <;> omega
  simp only [sub, neg, add] at h
  rw [hsum] at h
  split at h
  · rename_i hzero
    rw [hzero]
    rw [ofUnits_of_representable _ representable_zero] at h
    simpa [lt, compare?, signed, compare_lt_iff_lt] using h
  · exact lt_of_ofUnitQuotient_lt h

end Telemetry.Double
