import Telemetry.Event.Build
import Telemetry.Proofs.Number.Rounding
import Telemetry.Proofs.Sampling.Points

/-!
# Errors among sampled events

Two parts of the service call an event an error. The record of an event is one by the status code
and the outcome that are taken out of its properties, the status code from any of the names under
which it may be sent. The sampler reads the properties themselves, the status code under its first
name alone and as a double.

Main statement: `alwaysKept_iff`, which says for which of the errors in the first sense a policy
that keeps errors can be relied on.
-/

namespace Telemetry

/-! ## Integers as doubles -/

namespace Double

/-- The least integer that is rounded to infinity. -/
def overflow : Nat := Nat.pow 2 1024 - Nat.pow 2 970

theorem ofInt_eq (i : Int) :
    ofInt i = ofUnits (i < 0) (roundUnits (i.natAbs * unitsPerOne) 1) := rfl

theorem isFinite_ofUnits (negative : Bool) (units : Nat) :
    (ofUnits negative units).isFinite = true ↔ Representable units := by
  unfold ofUnits
  split
  · rename_i h
    exact iff_of_true rfl h
  · rename_i h
    exact iff_of_false Bool.false_ne_true h

/-- **The integers below `overflow` are those that doubles can stand for.** -/
theorem isFinite_ofInt (i : Int) : (ofInt i).isFinite = true ↔ i.natAbs < overflow := by
  rw [ofInt_eq, isFinite_ofUnits]
  constructor
  · intro h
    by_contra hlarge
    have hmono : overflow * unitsPerOne ≤ i.natAbs * unitsPerOne :=
      Nat.mul_le_mul_right _ (Nat.le_of_not_lt hlarge)
    have hfirst : roundUnits (overflow * unitsPerOne) 1 = Nat.pow 2 2098 := by decide +kernel
    have hle := roundUnits_mono Nat.one_pos hmono
    rw [hfirst] at hle
    exact absurd h.1 (Nat.not_lt.mpr hle)
  · intro h
    have hmono : i.natAbs * unitsPerOne ≤ (overflow - 1) * unitsPerOne :=
      Nat.mul_le_mul_right _ (Nat.le_sub_one_of_lt h)
    have hlast : roundUnits ((overflow - 1) * unitsPerOne) 1 < Nat.pow 2 2098 := by decide +kernel
    exact representable_roundUnits Nat.one_pos
      (Nat.lt_of_le_of_lt (roundUnits_mono Nat.one_pos hmono) hlast)

/-- A whole number that a double can stand for keeps its place above a smaller one. -/
theorem le_ofInt {i : Int} (hlow : 400 ≤ i) (h : (ofInt i).isFinite = true) :
    (ofInt i).compareInt? 400 ≠ some .lt := by
  have hgrid : spacing (400 * unitsPerOne) ∣ 400 * unitsPerOne := by decide +kernel
  have hle : 400 * unitsPerOne ≤ roundUnits (i.natAbs * unitsPerOne) 1 := by
    refine le_roundUnits Nat.one_pos hgrid ?_
    rw [Nat.mul_one]
    exact Nat.mul_le_mul_right _ (by omega)
  have hpositive : decide (i < 0) = false := by simp; omega
  rw [ofInt_eq, isFinite_ofUnits] at h
  rw [ofInt_eq, ofUnits_of_representable _ h, hpositive]
  intro hlt
  have hless := compare_lt_iff_lt.mp (Option.some.inj hlt)
  simp only [Bool.false_eq_true, if_false] at hless
  omega

/-- A double whose integer part is not below 400 is not below 400. -/
theorem le_of_truncate? {x : Double} {n : Int} (h : x.truncate? = some n) (hlow : 400 ≤ n) :
    x.isNan = false ∧ x.compareInt? 400 ≠ some .lt := by
  cases x with
  | nan => cases h
  | infinite negative => cases h
  | finite negative units hunits =>
    obtain ⟨u, hu, rfl⟩ := Option.map_eq_some_iff.mp h
    refine ⟨rfl, fun hlt => ?_⟩
    have hless := compare_lt_iff_lt.mp (Option.some.inj hlt)
    rw [Option.some.inj hu] at hless
    have hpos : (0 : Int) < unitsPerOne := Int.natCast_pos.mpr unitsPerOne_pos
    have hnonneg : 0 ≤ u := by
      by_contra hneg
      have hzero := Int.tdiv_le_tdiv hpos (Int.le_of_lt (Int.not_le.mp hneg))
      rw [Int.zero_tdiv] at hzero
      omega
    rw [Int.tdiv_eq_ediv_of_nonneg hnonneg, Int.le_ediv_iff_mul_le hpos] at hlow
    omega

end Double

/-! ## Errors by their record -/

namespace Event

/-- The record of an event is that of an error: a status code from 400 on, or an outcome that says
so. -/
def IsError (e : Event) : Prop :=
  (∃ n, e.statusCode = some n ∧ 400 ≤ n) ∨ e.outcome = some "error"

end Event

namespace Sampling

open Event (ofDraft propertiesOfValue statusCode? firstStatus? statusOfValue?)

variable {properties : Json.Object} {policy : Policy} {draw : Double}

/-- An event is kept by every policy that keeps errors, whatever else the policy says and whatever
is drawn. -/
def AlwaysKept (properties : Json.Object) : Prop :=
  ∀ (rate slowThreshold : Json) (keepPaths keepUsers : List String) (policy : Policy)
    (draw : Double), Policy.create rate true slowThreshold keepPaths keepUsers = .ok policy →
    keeps policy draw properties = .ok true

/-- The sampler can read the status code of an event: it is there under its first name, and a double
can stand for it if it is an integer. -/
structure StatusReadable (properties : Json.Object) : Prop where
  present : (Json.get "status_code" properties).isNull = false
  bounded : ∀ i, Json.get "status_code" properties = .int i → i.natAbs < Double.overflow

/-! ## Errors by their properties -/

theorem isText_eq_true {v : Json} {s : String} : v.isText s = true ↔ v.str? = some s := by
  cases v <;> simp [Json.isText, Json.str?]

theorem keepErrors_create {rate slowThreshold : Json} {keepErrors : Bool}
    {keepPaths keepUsers : List String}
    (h : Policy.create rate keepErrors slowThreshold keepPaths keepUsers = .ok policy) :
    policy.keepErrors = keepErrors := by
  obtain ⟨share, -, h⟩ := bind_eq_ok h
  cases h
  rfl

/-- What the sampler takes for an error is kept. -/
theorem keeps_of_isError (hpolicy : policy.keepErrors = true)
    (h : isError properties = .ok true) (draw : Double) :
    keeps policy draw properties = .ok true := by
  unfold keeps
  rw [hpolicy, h]
  rfl

/-- What stops the test for errors stops the sampler. -/
theorem keeps_of_isError_error {fault : Fault} (hpolicy : policy.keepErrors = true)
    (h : isError properties = .error fault) (draw : Double) :
    keeps policy draw properties = .error fault := by
  unfold keeps
  rw [hpolicy, h]
  rfl

/-- A policy under which nothing but errors is kept. -/
def errorsOnly : Policy := ⟨.zero, true, .float (.infinite false), [], []⟩

theorem create_errorsOnly :
    Policy.create (.int 0) true (.float (.infinite false)) [] [] = .ok errorsOnly := by
  have hzero : Double.ofInt 0 = .zero := by decide +kernel
  show Except.ok _ = Except.ok _
  rw [hzero]
  rfl

/-- No point of a trace id is below zero. -/
theorem traceBucket_not_lt_zero (traceId : String) : (traceBucket traceId).lt .zero = false := by
  unfold traceBucket Double.ofRatio Double.ofUnitQuotient Double.ofUnits
  split
  · rw [Double.lt, beq_eq_false_iff_ne]
    intro hlt
    have hless := compare_lt_iff_lt.mp (Option.some.inj hlt)
    simp only [Bool.false_eq_true, if_false] at hless
    omega
  · rfl

/-- What the sampler takes for no error goes through the other tests one after the other. -/
theorem keeps_of_not_isError (h : isError properties = .ok false) (draw : Double) :
    keeps policy draw properties = (do
      if ← isSlow policy properties then return true
      if hasKeptPath policy properties then return true
      if ← hasKeptUser policy properties then return true
      inShare policy draw properties) := by
  unfold keeps
  rw [h]
  cases policy.keepErrors <;> rfl

/-! ## Nothing but errors -/

/-- A policy under which nothing is kept, or nothing but errors. -/
def sparse (keepErrors : Bool) : Policy := { errorsOnly with keepErrors := keepErrors }

theorem isError_of_matches_sparse {keepErrors : Bool}
    (h : (sparse keepErrors).Matches properties) :
    keepErrors = true ∧ isError properties = .ok true := by
  cases h with
  | outcome on houtcome => exact ⟨on, isError_iff.mpr (.inl houtcome)⟩
  | status on hx hplace hle => exact ⟨on, isError_iff.mpr (.inr ⟨_, _, hx, hplace, hle⟩)⟩
  | slow hx hplace hbound hlt =>
    cases hbound
    exact absurd hlt not_top_lt
  | path hpath hpart hin => cases hpart
  | user hnull hempty hname hmem => cases hmem

/-- Of what the sampler takes for no error, there is a policy that keeps none. -/
theorem keeps_errorsOnly (h : isError properties = .ok false) :
    keeps errorsOnly .zero properties ≠ .ok true := by
  intro hkeeps
  rcases keeps_cases hkeeps with ⟨-, hmatches⟩ | ⟨-, point, hpoint, hlt⟩
  · have hsparse : (sparse true).Matches properties := hmatches
    have hyes := (isError_of_matches_sparse hsparse).2
    rw [h] at hyes
    cases hyes
  · rw [not_lt_rate_of_zero (inUnit_of_pointOf inUnit_zero hpoint) rfl] at hlt
    cases hlt

/-! ## What the sampler can see -/

theorem isError_of_outcome (h : (Json.get "outcome" properties).isText "error" = true) :
    isError properties = .ok true := if_pos h

/-- Without an outcome that says so, the status code decides. -/
theorem isError_of_number {number : Option Double}
    (hnot : (Json.get "outcome" properties).isText "error" = false)
    (h : numberOfValue (Json.get "status_code" properties) = .ok number) :
    isError properties = .ok (number.any fun x => x.compareInt? 400 != some .lt) := by
  unfold isError
  rw [hnot, h]
  cases number <;> rfl

theorem numberOfValue_int (i : Int) : numberOfValue (.int i) =
    if (Double.ofInt i).isFinite then .ok (some (.ofInt i)) else .error .outOfRange := by
  rw [numberOfValue]

theorem statusCode?_of_present (h : (Json.get "status_code" properties).isNull = false) :
    statusCode? properties = statusOfValue? (Json.get "status_code" properties) := by
  unfold statusCode? Event.statusNames firstStatus?
  cases hvalue : Json.get "status_code" properties with
  | null => rw [hvalue] at h; cases h
  | _ => rfl

/-- A status code of an error that the sampler can read is one for the sampler. -/
theorem isError_of_status {n : Int} (hreadable : StatusReadable properties)
    (hstatus : statusCode? properties = some n) (hlow : 400 ≤ n) :
    isError properties = .ok true := by
  by_cases hout : (Json.get "outcome" properties).isText "error" = true
  · exact isError_of_outcome hout
  · rw [Bool.not_eq_true] at hout
    rw [statusCode?_of_present hreadable.present] at hstatus
    have hbounded := hreadable.bounded
    cases hvalue : Json.get "status_code" properties with
    | int i =>
      rw [hvalue] at hstatus
      obtain rfl : i = n := Option.some.inj hstatus
      have hfinite := (Double.isFinite_ofInt i).mpr (hbounded i hvalue)
      have hread : numberOfValue (Json.get "status_code" properties) = .ok (some (.ofInt i)) := by
        rw [hvalue, numberOfValue_int, if_pos hfinite]
      have hplace := bne_iff_ne.mpr (Double.le_ofInt hlow hfinite)
      rw [isError_of_number hout hread, Option.any_some, hplace]
    | float x =>
      rw [hvalue] at hstatus
      obtain ⟨hnumber, hplace⟩ := Double.le_of_truncate? hstatus hlow
      have hread : numberOfValue (Json.get "status_code" properties) = .ok (some x) := by
        rw [hvalue, numberOfValue, hnumber]
        rfl
      rw [isError_of_number hout hread, Option.any_some, bne_iff_ne.mpr hplace]
    | _ => rw [hvalue] at hstatus; cases hstatus

/-- A status code that the sampler cannot read is no error for it, or stops it. -/
theorem isError_of_not_readable (hout : (Json.get "outcome" properties).isText "error" = false)
    (h : ¬ StatusReadable properties) :
    isError properties = .ok false ∨ isError properties = .error .outOfRange := by
  by_cases hnull : (Json.get "status_code" properties).isNull = true
  · left
    have hread : numberOfValue (Json.get "status_code" properties) = .ok none := by
      cases hvalue : Json.get "status_code" properties with
      | null => rfl
      | _ => rw [hvalue] at hnull; cases hnull
    rw [isError_of_number hout hread]
    rfl
  · right
    rw [Bool.not_eq_true] at hnull
    obtain ⟨i, hvalue, hlarge⟩ : ∃ i, Json.get "status_code" properties = .int i ∧
        ¬ i.natAbs < Double.overflow := by
      by_contra hno
      refine h ⟨hnull, fun i hvalue => ?_⟩
      by_contra hlarge
      exact hno ⟨i, hvalue, hlarge⟩
    have hinfinite : (Double.ofInt i).isFinite = false := by
      rw [← Bool.not_eq_true, Double.isFinite_ofInt]
      exact hlarge
    have hread : numberOfValue (Json.get "status_code" properties) = .error .outOfRange := by
      rw [hvalue, numberOfValue_int, hinfinite]
      rfl
    unfold isError
    rw [hout, hread]
    rfl

/-! ## The main statement -/

variable {project id freshTraceId : String} {arrival : Time.DateTime} {draft : Event.Draft}

/-- **An error is kept by every policy that keeps errors exactly if the sampler can see it**: its
outcome says so, or its status code is there under the first of its names and fits into a double. -/
theorem alwaysKept_iff (h : (ofDraft project id freshTraceId arrival draft).IsError) :
    AlwaysKept (propertiesOfValue draft.properties) ↔
      (ofDraft project id freshTraceId arrival draft).outcome = some "error" ∨
        StatusReadable (propertiesOfValue draft.properties) := by
  have houtcome : (ofDraft project id freshTraceId arrival draft).outcome = some "error" ↔
      (Json.get "outcome" (propertiesOfValue draft.properties)).isText "error" = true :=
    isText_eq_true.symm
  rw [houtcome]
  constructor
  · intro hkept
    by_contra hneither
    obtain ⟨hout, hreadable⟩ := not_or.mp hneither
    rw [Bool.not_eq_true] at hout
    have hall := hkept _ _ _ _ errorsOnly .zero create_errorsOnly
    rcases isError_of_not_readable hout hreadable with hno | hfault
    · exact keeps_errorsOnly hno hall
    · rw [keeps_of_isError_error rfl hfault] at hall
      cases hall
  · intro hseen rate slowThreshold keepPaths keepUsers policy draw hpolicy
    refine keeps_of_isError (keepErrors_create hpolicy) ?_ draw
    rcases hseen with hout | hreadable
    · exact isError_of_outcome hout
    · rcases h with ⟨n, hstatus, hlow⟩ | hout
      · exact isError_of_status hreadable hstatus hlow
      · exact isError_of_outcome (houtcome.mp hout)

/-- An event whose status code, a fraction, stands beside another one. -/
def twoStatuses : Event.Draft where
  eventType := .str "checkout"
  properties := .obj [("statusCode", .int 200), ("status_code", .float (.ofRatio false 9999 20))]
  timestamp := .null

theorem alwaysKept_twoStatuses :
    (ofDraft "p" "e" "t" default twoStatuses).IsError ∧
      AlwaysKept (propertiesOfValue twoStatuses.properties) := by
  have herror : (ofDraft "p" "e" "t" default twoStatuses).IsError :=
    .inl ⟨499, by decide +kernel, by decide⟩
  exact ⟨herror, (alwaysKept_iff herror).mpr (.inr ⟨rfl, nofun⟩)⟩

/-- An event with the status code of an error under another name. -/
def camelCased : Event.Draft where
  eventType := .str "checkout"
  properties := .obj [("statusCode", .int 500), ("trace_id", .str "t")]
  timestamp := .null

/-- Its record is that of an error, and a policy that keeps errors drops it. -/
theorem camelCased_dropped :
    (ofDraft "p" "e" "t" default camelCased).IsError ∧
      ∃ policy, Policy.create (.int 0) true (.int 2000) [] [] = .ok policy ∧
        keeps policy .zero (propertiesOfValue camelCased.properties) = .ok false := by
  have hzero : Policy.create (.int 0) true (.int 2000) [] []
      = .ok ⟨.zero, true, .int 2000, [], []⟩ := by
    have hshare : Double.ofInt 0 = .zero := by decide +kernel
    show Except.ok _ = Except.ok _
    rw [hshare]
  refine ⟨.inl ⟨500, rfl, by decide⟩, _, hzero, ?_⟩
  have hplain : isError (propertiesOfValue camelCased.properties) = .ok false := rfl
  rw [keeps_of_not_isError hplain]
  show Except.ok ((traceBucket "t").lt .zero) = .ok false
  rw [traceBucket_not_lt_zero]

end Sampling

end Telemetry
