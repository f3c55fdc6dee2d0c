import Mathlib.Order.WithBot
import Telemetry.Json.Basic
import Telemetry.Proofs.Number.Elapsed

/-!
# The order of numbers

Doubles, integers and truth values have their places in one linear order: counts of units, with an
infinity at either end. A NaN has no place. Numbers are compared by their places, whatever kind they
are of, and nothing is rounded for it.

Main statements: `Double.lt_iff`, `Double.le_iff`, `Double.compareInt?_gt_iff`.
-/

namespace Telemetry

/-! ## Places -/

/-- A place among numbers: a count of units, or one of the infinities. -/
def Place := WithBot (WithTop Int)

instance : LinearOrder Place := @WithBot.linearOrder _ (@WithTop.linearOrder _ Int.instLinearOrder)

instance : BoundedOrder Place where
  top := ((⊤ : WithTop Int) : WithBot (WithTop Int))
  le_top _ := @le_top (WithBot (WithTop Int)) _ _ _
  bot := (⊥ : WithBot (WithTop Int))
  bot_le _ := @bot_le (WithBot (WithTop Int)) _ _ _

namespace Place

/-- The place of a count of units. -/
def ofUnits (units : Int) : Place := ((units : WithTop Int) : WithBot (WithTop Int))

/-- The place of a whole number. -/
def ofInt (i : Int) : Place := ofUnits (i * Double.unitsPerOne)

variable {u v : Int}

@[simp] theorem ofUnits_lt : ofUnits u < ofUnits v ↔ u < v :=
  WithBot.coe_lt_coe.trans WithTop.coe_lt_coe

@[simp] theorem ofUnits_le : ofUnits u ≤ ofUnits v ↔ u ≤ v :=
  WithBot.coe_le_coe.trans WithTop.coe_le_coe

@[simp] theorem ofUnits_lt_top (u : Int) : ofUnits u < ⊤ :=
  WithBot.coe_lt_coe.mpr (WithTop.coe_lt_top u)

@[simp] theorem bot_lt_ofUnits (u : Int) : ⊥ < ofUnits u := WithBot.bot_lt_coe _

@[simp] theorem ofUnits_inj : ofUnits u = ofUnits v ↔ u = v :=
  WithBot.coe_inj.trans WithTop.coe_inj

@[simp] theorem ofInt_lt_top (i : Int) : ofInt i < ⊤ := ofUnits_lt_top _

@[simp] theorem bot_lt_ofInt (i : Int) : ⊥ < ofInt i := bot_lt_ofUnits _

@[simp] theorem top_ne_ofInt (i : Int) : ⊤ ≠ ofInt i := (ofInt_lt_top i).ne'

@[simp] theorem bot_ne_ofInt (i : Int) : ⊥ ≠ ofInt i := (bot_lt_ofInt i).ne

@[simp] theorem ofUnits_ne_top (u : Int) : ofUnits u ≠ ⊤ := (ofUnits_lt_top u).ne

@[simp] theorem ofUnits_ne_bot (u : Int) : ofUnits u ≠ ⊥ := (bot_lt_ofUnits u).ne'

@[simp] theorem top_ne_ofUnits (u : Int) : ⊤ ≠ ofUnits u := (ofUnits_ne_top u).symm

@[simp] theorem bot_ne_ofUnits (u : Int) : ⊥ ≠ ofUnits u := (ofUnits_ne_bot u).symm

instance : Nontrivial Place := ⟨⊥, ofUnits 0, bot_ne_ofUnits 0⟩

theorem ofInt_zero : ofInt 0 = ofUnits 0 := by rw [ofInt, Int.zero_mul]

theorem ofInt_one : ofInt 1 = ofUnits Double.unitsPerOne := by rw [ofInt, Int.one_mul]

end Place

/-- The place of a double; a NaN has none. -/
def Double.place? : Double → Option Place
  | .nan => none
  | .infinite negative => some (if negative then ⊥ else ⊤)
  | .finite negative units _ => some (.ofUnits (signed negative units))

/-- The place of a number; other values have none. -/
def Json.place? : Json → Option Place
  | .bool b => some (.ofInt (if b then 1 else 0))
  | .int i => some (.ofInt i)
  | .float x => x.place?
  | _ => none

/-- A value that can be compared with numbers. -/
def Json.IsNumber : Json → Prop
  | .bool _ | .int _ | .float _ => True
  | _ => False

/-! ## Comparisons -/

namespace Double

variable {x y : Double} {i : Int}

/-- **A double is below another one if its place is.** -/
theorem lt_iff : x.lt y = true ↔ ∃ a b, x.place? = some a ∧ y.place? = some b ∧ a < b := by
  cases x with
  | nan => simp [lt, compare?, place?]
  | infinite a =>
    cases y with
    | nan => simp [lt, compare?, place?]
    | infinite b => cases a <;> cases b <;> simp [lt, compare?, place?]
    | finite t v hv => cases a <;> simp [lt, compare?, place?]
  | finite s u hu =>
    cases y with
    | nan => simp [lt, compare?, place?]
    | infinite b => cases b <;> simp [lt, compare?, place?]
    | finite t v hv => simp [lt_finite_iff, place?]

/-- **A double is below another one or equal to it if its place is.** -/
theorem le_iff : x.le y = true ↔ ∃ a b, x.place? = some a ∧ y.place? = some b ∧ a ≤ b := by
  cases x with
  | nan => simp [le, compare?, place?]
  | infinite a =>
    cases y with
    | nan => simp [le, compare?, place?]
    | infinite b => cases a <;> cases b <;> simp [le, compare?, place?]
    | finite t v hv => cases a <;> simp [le, compare?, place?]
  | finite s u hu =>
    cases y with
    | nan => simp [le, compare?, place?]
    | infinite b => cases b <;> simp [le, compare?, place?]
    | finite t v hv => simp [le_finite_iff, place?]

theorem compareInt?_finite {s : Bool} {u : Nat} (hu : Representable u) :
    (finite s u hu).compareInt? i = some (compare (signed s u) (i * unitsPerOne)) := rfl

theorem compareInt?_gt_iff :
    x.compareInt? i = some .gt ↔ ∃ a, x.place? = some a ∧ Place.ofInt i < a := by
  cases x with
  | nan => simp [compareInt?, place?]
  | infinite a => cases a <;> simp [compareInt?, place?]
  | finite s u hu =>
    rw [compareInt?_finite, Option.some_inj, compare_gt_iff_gt, place?]
    simp only [Option.some.injEq, exists_eq_left', Place.ofInt, Place.ofUnits_lt]

theorem compareInt?_lt_iff :
    x.compareInt? i = some .lt ↔ ∃ a, x.place? = some a ∧ a < Place.ofInt i := by
  cases x with
  | nan => simp [compareInt?, place?]
  | infinite a => cases a <;> simp [compareInt?, place?]
  | finite s u hu =>
    rw [compareInt?_finite, Option.some_inj, compare_lt_iff_lt, place?]
    simp only [Option.some.injEq, exists_eq_left', Place.ofInt, Place.ofUnits_lt]

theorem compareInt?_isSome {order : Ordering} (h : x.compareInt? i = some order) :
    ∃ a, x.place? = some a := by
  cases x with
  | nan => cases h
  | infinite negative => exact ⟨_, rfl⟩
  | finite s u hu => exact ⟨_, rfl⟩

theorem compareInt?_ne_lt_iff {order : Ordering} (h : x.compareInt? i = some order) :
    order ≠ .lt ↔ ∃ a, x.place? = some a ∧ Place.ofInt i ≤ a := by
  obtain ⟨a, ha⟩ := compareInt?_isSome h
  have hlt : order = .lt ↔ a < Place.ofInt i := by
    rw [← Option.some_inj, ← h, compareInt?_lt_iff, ha]
    simp
  rw [Ne, hlt, ha]
  simp

theorem compareInt?_ne_gt_iff {order : Ordering} (h : x.compareInt? i = some order) :
    order ≠ .gt ↔ ∃ a, x.place? = some a ∧ a ≤ Place.ofInt i := by
  obtain ⟨a, ha⟩ := compareInt?_isSome h
  have hgt : order = .gt ↔ Place.ofInt i < a := by
    rw [← Option.some_inj, ← h, compareInt?_gt_iff, ha]
    simp
  rw [Ne, hgt, ha]
  simp

theorem isZero_iff : x.isZero = true ↔ x.place? = some (.ofInt 0) := by
  rw [Place.ofInt_zero]
  cases x with
  | nan => simp [isZero, place?]
  | infinite negative => cases negative <;> simp [isZero, place?]
  | finite s u hu => cases s <;> simp [isZero, place?, signed]

theorem exists_place? (h : x.isNan = false) : ∃ place, x.place? = some place := by
  cases x with
  | nan => cases h
  | infinite negative => exact ⟨_, rfl⟩
  | finite s u hu => exact ⟨_, rfl⟩

theorem isNan_of_isFinite (h : x.isFinite = true) : x.isNan = false := by
  cases x with
  | finite s u hu => rfl
  | _ => cases h

theorem lt_of_lt_of_le {z : Double} (hxy : x.lt y = true) (hyz : y.le z = true) :
    x.lt z = true := by
  obtain ⟨a, b, ha, hb, hab⟩ := lt_iff.mp hxy
  obtain ⟨b', c, hb', hc, hbc⟩ := le_iff.mp hyz
  obtain rfl : b = b' := Option.some.inj (hb.symm.trans hb')
  exact lt_iff.mpr ⟨a, c, ha, hc, hab.trans_le hbc⟩

end Double

end Telemetry
