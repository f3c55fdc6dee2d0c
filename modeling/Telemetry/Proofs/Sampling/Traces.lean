import Telemetry.Event.Build
import Telemetry.Proofs.Sampling.Points

/-!
# One trace, one decision

Normal events of one trace are meant to be kept or dropped together, whatever is drawn. The sampler
takes a trace id by its truth, while the record of an event takes every scalar but null and the
empty text for one. Zero and false lie between the two: for them the sampler draws, so that one of
two events of the same trace can be kept and the other one dropped.

Main statement: `decidesAlike_iff`.
-/

namespace Telemetry.Sampling

open Double (lt_iff le_iff isZero_iff)

variable {policy : Policy} {draw : Double} {event : Json.Object} {v : Json}

/-! ## Trace ids -/

/-- A value identifies a trace: it is one of those that the record of an event takes for a trace id
of the caller's, and it has a text. -/
def Identifies (v : Json) : Prop := ∃ text, Event.identifier? v = some text ∧ v.shown = .ok text

theorem identifies_int {i : Int} (h : i.natAbs < Nat.pow 10 Json.maxIntegerDigits) :
    Identifies (.int i) := by
  refine ⟨Text.integer i, rfl, ?_⟩
  have hflaw : (Json.int i).displayFlaw? Json.maxDepth = none := if_pos h
  rw [Json.shown, hflaw]
  rfl

/-- The event has a point that nothing drawn can change, if its trace id counts. -/
theorem pointOf_of_truthy {text : String} (htrace : Json.get "trace_id" event = v)
    (htruthy : v.isTruthy = true) (htext : v.shown = .ok text) (draw : Double) :
    pointOf draw event = .ok (traceBucket text) := by
  rw [pointOf, htrace, htext, if_pos htruthy]
  rfl

theorem pointOf_of_falsy (htrace : Json.get "trace_id" event = v) (hfalsy : v.isTruthy = false)
    (draw : Double) : pointOf draw event = .ok draw := by
  rw [pointOf, htrace, hfalsy]
  rfl

theorem Identifies.exists_point (h : Identifies v) (htrace : Json.get "trace_id" event = v)
    (draw : Double) : ∃ point, pointOf draw event = .ok point := by
  obtain ⟨text, -, htext⟩ := h
  cases htruthy : v.isTruthy with
  | true => exact ⟨_, pointOf_of_truthy htrace htruthy htext draw⟩
  | false => exact ⟨_, pointOf_of_falsy htrace htruthy draw⟩

/-! ## Rates between zero and one -/

/-- A rate that is not zero takes the lowest point. -/
theorem Policy.Valid.zero_lt_rate (h : policy.Valid) (hzero : ¬ policy.rate.isZero = true) :
    Double.zero.lt policy.rate = true := by
  obtain ⟨low, place, hlow, hplace, hle⟩ := le_iff.mp h.rate.1
  obtain rfl := Option.some.inj (hlow.symm.trans place?_zero)
  refine lt_iff.mpr ⟨_, _, hlow, hplace, lt_of_le_of_ne hle fun heq => hzero ?_⟩
  rw [isZero_iff, hplace, heq]

/-- A rate that is not one is a point itself, and does not take it. -/
theorem Policy.Valid.inUnit_rate (h : policy.Valid) (hone : policy.rate ≠ .ofInt 1) :
    InUnit policy.rate := by
  obtain ⟨place, high, hplace, hhigh, hle⟩ := le_iff.mp h.rate.2
  obtain rfl := Option.some.inj (hhigh.symm.trans place?_one)
  refine ⟨h.rate.1, lt_iff.mpr ⟨_, _, hplace, hhigh, lt_of_le_of_ne hle fun heq => hone ?_⟩⟩
  rw [heq] at hplace
  exact eq_one_of_place hplace

/-! ## Events of one trace -/

/-- A policy decides alike on the normal events of a trace, whatever is drawn for them. -/
def Policy.DecidesAlike (policy : Policy) (traceId : Json) : Prop :=
  ∀ (e₁ e₂ : Json.Object) (d₁ d₂ : Double), policy.IsNormal e₁ → policy.IsNormal e₂ →
    Json.get "trace_id" e₁ = traceId → Json.get "trace_id" e₂ = traceId → InUnit d₁ → InUnit d₂ →
    ∃ kept, keeps policy d₁ e₁ = .ok kept ∧ keeps policy d₂ e₂ = .ok kept

/-- An event of which nothing but the trace id is known. -/
def bare (traceId : Json) : Json.Object := [("trace_id", traceId)]

theorem trace_bare (traceId : Json) : Json.get "trace_id" (bare traceId) = traceId := rfl

theorem isNormal_bare (policy : Policy) (traceId : Json) : policy.IsNormal (bare traceId) := by
  have hanswers : policy.answers (bare traceId) = List.replicate 4 (.ok false) := by
    cases hkeep : policy.keepErrors <;> rw [Policy.answers, hkeep] <;> rfl
  intro answer hmem
  rw [hanswers] at hmem
  exact List.eq_of_mem_replicate hmem

/-- **Normal events of one trace are decided alike exactly if their trace id counts for the
sampler**, or the rate is zero or one, so that nothing is left to chance. -/
theorem decidesAlike_iff (hpolicy : policy.Valid) (hv : Identifies v) :
    policy.DecidesAlike v ↔
      v.isTruthy = true ∨ policy.rate.isZero = true ∨ policy.rate = .ofInt 1 := by
  constructor
  · intro halike
    by_contra hnone
    rw [not_or, not_or, Bool.not_eq_true] at hnone
    obtain ⟨hfalsy, hzero, hone⟩ := hnone
    have hdecision (draw : Double) : keeps policy draw (bare v) = .ok (draw.lt policy.rate) := by
      rw [(isNormal_bare policy v).keeps_eq, pointOf_of_falsy (trace_bare v) hfalsy]
      rfl
    -- The lowest draw is below the rate, and the rate itself is not.
    obtain ⟨kept, hkept, hdropped⟩ := halike _ _ _ _ (isNormal_bare policy v)
      (isNormal_bare policy v) (trace_bare v) (trace_bare v) inUnit_zero (hpolicy.inUnit_rate hone)
    rw [hdecision, hpolicy.zero_lt_rate hzero] at hkept
    rw [hdecision, ← Except.ok.inj hkept, Except.ok.injEq] at hdropped
    obtain ⟨a, b, ha, hb, hlt⟩ := lt_iff.mp hdropped
    obtain rfl := Option.some.inj (ha.symm.trans hb)
    exact lt_irrefl a hlt
  · intro hcounts e₁ e₂ d₁ d₂ hnormal₁ hnormal₂ htrace₁ htrace₂ hd₁ hd₂
    obtain ⟨p₁, hp₁⟩ := hv.exists_point htrace₁ d₁
    obtain ⟨p₂, hp₂⟩ := hv.exists_point htrace₂ d₂
    rw [hnormal₁.keeps_eq, hnormal₂.keeps_eq, hp₁, hp₂]
    have hunit₁ := inUnit_of_pointOf hd₁ hp₁
    have hunit₂ := inUnit_of_pointOf hd₂ hp₂
    rcases hcounts with htruthy | hzero | hone
    · obtain ⟨text, -, htext⟩ := hv
      rw [pointOf_of_truthy htrace₁ htruthy htext, Except.ok.injEq] at hp₁
      rw [pointOf_of_truthy htrace₂ htruthy htext, Except.ok.injEq] at hp₂
      exact ⟨_, rfl, by rw [← hp₁, ← hp₂]; rfl⟩
    · refine ⟨false, ?_, ?_⟩
      · exact congrArg Except.ok (not_lt_rate_of_zero hunit₁ hzero)
      · exact congrArg Except.ok (not_lt_rate_of_zero hunit₂ hzero)
    · refine ⟨true, ?_, ?_⟩
      · exact congrArg Except.ok (lt_rate_of_one hunit₁ hone)
      · exact congrArg Except.ok (lt_rate_of_one hunit₂ hone)

/-- A policy that keeps half of the normal events. -/
def half : Policy := ⟨.ofRatio false 1 2, true, .int 2000, [], []⟩

theorem valid_half : half.Valid := by
  have hrate : rateOfValue (.float (.ofRatio false 1 2)) = .ok half.rate :=
    ok_of_toOption (by decide +kernel)
  exact Policy.valid_of_rate hrate trivial

theorem decidesAlike_seven :
    half.Valid ∧ Identifies (.int 7) ∧ half.DecidesAlike (.int 7) := by
  have hseven : Identifies (.int 7) := identifies_int (by decide +kernel)
  exact ⟨valid_half, hseven, (decidesAlike_iff valid_half hseven).mpr (.inl rfl)⟩

/-- Of two events of the trace zero one is kept and the other one dropped. -/
theorem zero_split : half.Valid ∧ Identifies (.int 0) ∧ ¬ half.DecidesAlike (.int 0) := by
  refine ⟨valid_half, identifies_int (by decide +kernel), fun halike => ?_⟩
  have hhigh : InUnit half.rate := ⟨by decide +kernel, by decide +kernel⟩
  have hkept : keeps half .zero (bare (.int 0)) = .ok true := ok_of_toOption (by decide +kernel)
  have hdropped : keeps half half.rate (bare (.int 0)) = .ok false :=
    ok_of_toOption (by decide +kernel)
  obtain ⟨kept, h₁, h₂⟩ := halike (bare (.int 0)) (bare (.int 0)) .zero half.rate
    (isNormal_bare _ _) (isNormal_bare _ _) rfl rfl inUnit_zero hhigh
  rw [hkept] at h₁
  rw [hdropped, ← Except.ok.inj h₁] at h₂
  cases h₂

end Telemetry.Sampling
