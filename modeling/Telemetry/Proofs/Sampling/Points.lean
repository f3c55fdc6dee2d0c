import Telemetry.Proofs.Sampling.Rules

/-!
# Points and rates

The point of an event is at least zero and below one, whether it comes from the trace id or from
chance. A rate is a double between zero and one. So a rate of one takes every point and a rate of
zero takes none.

Main statements: `inUnit_traceBucket`, `Policy.Valid.rate`, `inUnit_of_pointOf`.
-/

namespace Telemetry

open Double

/-- From zero on and below one. -/
structure InUnit (x : Double) : Prop where
  low : zero.le x = true
  high : x.lt (.ofInt 1) = true

namespace Sampling

variable {policy : Policy} {draw point : Double} {event : Json.Object}

/-! ## Points -/

theorem place?_zero : zero.place? = some (.ofInt 0) := by
  rw [Place.ofInt_zero]
  rfl

theorem representable_one : Representable unitsPerOne := by decide +kernel

theorem ofInt_one : Double.ofInt 1 = .finite false unitsPerOne representable_one := by
  decide +kernel

theorem place?_one : (Double.ofInt 1).place? = some (.ofInt 1) := by
  rw [ofInt_one, Place.ofInt_one]
  rfl

theorem eq_one_of_place {x : Double} (h : x.place? = some (.ofInt 1)) : x = .ofInt 1 := by
  have hpos := unitsPerOne_pos
  rw [ofInt_one]
  cases x with
  | nan => cases h
  | infinite negative => cases negative <;> simp [place?] at h
  | finite s u hu =>
    rw [place?, Option.some.injEq, Place.ofInt_one, Place.ofUnits_inj] at h
    cases s with
    | true =>
      simp only [signed, if_true] at h
      omega
    | false =>
      rw [finite.injEq]
      exact ⟨rfl, Int.ofNat_inj.mp h⟩

theorem inUnit_zero : InUnit .zero := ⟨by decide +kernel, by decide +kernel⟩

/-- **The point of a trace id is at least zero and below one.** -/
theorem inUnit_traceBucket (traceId : String) : InUnit (traceBucket traceId) := by
  have hbuckets : 0 < buckets := by decide
  have hmono : djb2 traceId % buckets * unitsPerOne ≤ (buckets - 1) * unitsPerOne :=
    Nat.mul_le_mul_right _ (Nat.le_sub_one_of_lt (Nat.mod_lt _ hbuckets))
  have hlast : roundUnits ((buckets - 1) * unitsPerOne) buckets < unitsPerOne := by decide +kernel
  have hunits := (roundUnits_mono hbuckets hmono).trans_lt hlast
  have hlarge : unitsPerOne < Nat.pow 2 2098 := by decide +kernel
  have hrepresentable := representable_roundUnits hbuckets (hunits.trans hlarge)
  have hpoint : (traceBucket traceId).place? =
      some (.ofUnits (roundUnits (djb2 traceId % buckets * unitsPerOne) buckets)) := by
    rw [traceBucket, ofRatio, ofUnitQuotient, ofUnits_of_representable _ hrepresentable]
    rfl
  refine ⟨le_iff.mpr ⟨_, _, place?_zero, hpoint, ?_⟩, lt_iff.mpr ⟨_, _, hpoint, place?_one, ?_⟩⟩
  · rw [Place.ofInt_zero, Place.ofUnits_le]
    exact Int.natCast_nonneg _
  · rw [Place.ofInt_one, Place.ofUnits_lt]
    exact Int.ofNat_lt.mpr hunits

theorem inUnit_of_pointOf (hdraw : InUnit draw) (h : pointOf draw event = .ok point) :
    InUnit point := by
  unfold pointOf at h
  dsimp only at h
  split at h
  · obtain ⟨text, -, rfl⟩ := map_eq_ok h
    exact inUnit_traceBucket text
  · cases h
    exact hdraw

/-! ## Rates -/

theorem rate_of_compare {x : Double} {low high : Ordering} (hlow : x.compareInt? 0 = some low)
    (hhigh : x.compareInt? 1 = some high) (hl : low ≠ .lt) (hh : high ≠ .gt) :
    zero.le x = true ∧ x.le (.ofInt 1) = true := by
  obtain ⟨a, ha, hle⟩ := (compareInt?_ne_lt_iff hlow).mp hl
  obtain ⟨b, hb, hge⟩ := (compareInt?_ne_gt_iff hhigh).mp hh
  exact ⟨le_iff.mpr ⟨_, _, place?_zero, ha, hle⟩, le_iff.mpr ⟨_, _, hb, place?_one, hge⟩⟩

/-- **A rate is between zero and one.** -/
theorem rate_of_value {v : Json} {rate : Double} (h : rateOfValue v = .ok rate) :
    zero.le rate = true ∧ rate.le (.ofInt 1) = true := by
  have hends : ∀ i : Int, i = 0 ∨ i = 1 →
      zero.le (.ofInt i) = true ∧ (Double.ofInt i).le (.ofInt 1) = true := by
    rintro i (rfl | rfl) <;> decide +kernel
  cases v with
  | bool b =>
    cases b with
    | false => exact Except.ok.inj h ▸ hends 0 (.inl rfl)
    | true => exact Except.ok.inj h ▸ hends 1 (.inr rfl)
  | int i =>
    simp only [rateOfValue, compareRate?, Option.some.injEq] at h
    split at h
    · rename_i hrange
      rw [compare_eq_iff_eq, compare_eq_iff_eq, compare_gt_iff_gt, compare_lt_iff_lt] at hrange
      exact Except.ok.inj h ▸ hends i (by omega)
    · cases h
  | float x =>
    simp only [rateOfValue, compareRate?] at h
    split at h
    · rename_i hrange
      obtain rfl := Except.ok.inj h
      rcases hrange with ⟨hlow | hlow, hhigh | hhigh⟩ <;>
        exact rate_of_compare hlow hhigh (by decide) (by decide)
    · cases h
  | _ => cases h

/-- A policy that can be created and has a number for its threshold. -/
structure Policy.Valid (policy : Policy) : Prop where
  created : ∃ rate, Policy.create rate policy.keepErrors policy.slowThreshold policy.keepPaths
    policy.keepUsers = .ok policy
  threshold : policy.slowThreshold.IsNumber

theorem Policy.valid_of_rate {v : Json} (hrate : rateOfValue v = .ok policy.rate)
    (hthreshold : policy.slowThreshold.IsNumber) : policy.Valid := by
  refine ⟨⟨v, ?_⟩, hthreshold⟩
  rw [Policy.create, hrate]
  rfl

theorem Policy.Valid.rate (h : policy.Valid) :
    zero.le policy.rate = true ∧ policy.rate.le (.ofInt 1) = true := by
  obtain ⟨value, hcreated⟩ := h.created
  obtain ⟨rate, hrate, hpolicy⟩ := bind_eq_ok hcreated
  have hsame := congrArg Policy.rate (Except.ok.inj hpolicy)
  exact hsame ▸ rate_of_value hrate

/-- A rate of one takes every point. -/
theorem lt_rate_of_one (hpoint : InUnit point) (h : policy.rate = .ofInt 1) :
    point.lt policy.rate = true :=
  h ▸ hpoint.high

/-- A rate of zero takes no point. -/
theorem not_lt_rate_of_zero (hpoint : InUnit point) (h : policy.rate.isZero = true) :
    point.lt policy.rate = false := by
  rw [← Bool.not_eq_true, lt_iff]
  rintro ⟨a, b, ha, hb, hlt⟩
  obtain ⟨low, a', hlow, ha', hle⟩ := le_iff.mp hpoint.low
  obtain rfl := Option.some.inj (hb.symm.trans (isZero_iff.mp h))
  obtain rfl := Option.some.inj (hlow.symm.trans place?_zero)
  obtain rfl := Option.some.inj (ha.symm.trans ha')
  exact absurd hle (not_le_of_gt hlt)

/-- With a rate of one every decision is to keep the event. -/
theorem kept_of_rate_one {kept : Bool} (hdraw : InUnit draw)
    (h : keeps policy draw event = .ok kept) (hone : policy.rate = .ofInt 1) : kept = true := by
  rcases keeps_cases h with ⟨hkept, -⟩ | ⟨-, point, hpoint, rfl⟩
  · exact hkept
  · exact lt_rate_of_one (inUnit_of_pointOf hdraw hpoint) hone

end Sampling

end Telemetry
