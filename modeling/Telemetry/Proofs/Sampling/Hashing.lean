import Mathlib.Algebra.BigOperators.Fin
import Mathlib.Tactic.Ring
import Telemetry.Proofs.Number.Nearest
import Telemetry.Proofs.Sampling.Points
import Telemetry.Proofs.Text.Utf16

/-!
# The hash of a trace id

The hash multiplies by 33 and adds, unit by unit, and cuts what it has to 32 bits each time. Nothing
is lost by that: the result is the polynomial in 33 that has the units for its coefficients, cut
once. So the hash of a text goes on from the hash of its first part, whatever that part was.

Main statement: `djb2_eq_polynomial`.
-/

namespace Telemetry.Sampling

open Text (InUnits16 units16 encodeUtf16 decodeUtf16? readUnits16)

/-! ## Polynomials -/

/-- The value at 33 of the polynomial with these coefficients: a first value and the units behind
it, the last of which is the constant. -/
def polynomial (value : Nat) (units : List Nat) : Nat :=
  value * 33 ^ units.length + ∑ i : Fin units.length, units[i] * 33 ^ (units.length - (i + 1))

theorem polynomial_nil (value : Nat) : polynomial value [] = value := by
  simp [polynomial]

/-- A unit becomes a part of the value. -/
theorem polynomial_cons (value n : Nat) (units : List Nat) :
    polynomial value (n :: units) = polynomial (value * 33 + n) units := by
  have hsum : ∑ i : Fin (n :: units).length, (n :: units)[i] * 33 ^ ((n :: units).length - (i + 1))
      = n * 33 ^ units.length + ∑ i : Fin units.length, units[i] * 33 ^ (units.length - (i + 1)) :=
    (Fin.sum_univ_succ _).trans (by simp)
  rw [polynomial, hsum, polynomial, List.length_cons]
  ring

/-- **A value that units are added to one by one is their polynomial.** -/
theorem foldl_eq_polynomial (value : Nat) (units : List Nat) :
    units.foldl (fun value n => value * 33 + n) value = polynomial value units := by
  induction units generalizing value with
  | nil => exact (polynomial_nil value).symm
  | cons n units ih => rw [List.foldl_cons, ih, polynomial_cons]

/-- **Cutting at every step loses nothing against cutting once at the end.** The units may be any,
halves of pairs on their own among them. -/
theorem foldl_hashStep (value : Nat) (units : List Nat) :
    units.foldl hashStep (value % 2 ^ 32) = polynomial value units % 2 ^ 32 := by
  induction units generalizing value with
  | nil => rw [List.foldl_nil, polynomial_nil]
  | cons n units ih =>
    have hstep : hashStep (value % 2 ^ 32) n = (value * 33 + n) % 2 ^ 32 := by
      show (value % 2 ^ 32 * 33 + n) % 2 ^ 32 = _
      rw [Nat.add_mod, Nat.mod_mul_mod, ← Nat.add_mod]
    rw [List.foldl_cons, hstep, ih, polynomial_cons]

/-! ## Texts -/

theorem djb2_eq (s : String) : djb2 s = polynomial 5381 (units16 s.toList) % 2 ^ 32 :=
  foldl_hashStep 5381 _

example : djb2 "a" = 5381 * 33 + 97 := by decide +kernel

/-- **A hash goes on from the hash of a first part.** -/
theorem djb2_append (s t : String) :
    djb2 (s ++ t) = polynomial (djb2 s) (units16 t.toList) % 2 ^ 32 := by
  have hcut : djb2 s % 2 ^ 32 = djb2 s := by rw [djb2_eq, Nat.mod_mod]
  rw [← foldl_hashStep, hcut, djb2, String.toList_append, Text.units16_append, List.foldl_append]
  rfl

/-! ## Bytes -/

/-- The hash of bytes, taken two at a time with the lower one first. They are put together bit by
bit, and what is above 32 bits is masked. -/
def hashBytes (value : Nat) : List UInt8 → Nat
  | low :: high :: bytes =>
    hashBytes ((value * 33 + (low.toNat ||| high.toNat <<< 8)) &&& 0xFFFFFFFF) bytes
  | _ => value

theorem hashBytes_cons (value : Nat) (low high : UInt8) (bytes : List UInt8) :
    hashBytes value (low :: high :: bytes)
      = hashBytes (hashStep value (high.toNat * 0x100 + low.toNat)) bytes := by
  have hunit : low.toNat ||| high.toNat <<< 8 = high.toNat * 0x100 + low.toNat := by
    rw [Nat.or_comm, ← Nat.shiftLeft_add_eq_or_of_lt low.toNat_lt, Nat.shiftLeft_eq]
  have hmask (n : Nat) : n &&& 0xFFFFFFFF = n % 2 ^ 32 := Nat.and_two_pow_sub_one_eq_mod n 32
  rw [hashBytes, hunit, hmask]
  rfl

/-- **Bytes are hashed as the units that they are read as**, whether these are a text or not. -/
theorem hashBytes_of_readUnits16 : ∀ {bytes : List UInt8} {units : List Nat},
    readUnits16 .littleEndian bytes = some units →
      ∀ value, hashBytes value bytes = units.foldl hashStep value
  | [], _, h, _ => by
    cases h
    rfl
  | [_], _, h, _ => by cases h
  | low :: high :: bytes, _, h, value => by
    obtain ⟨units, hunits, rfl⟩ := Option.map_eq_some_iff.mp h
    rw [hashBytes_cons, List.foldl_cons]
    exact hashBytes_of_readUnits16 hunits _

/-- The bytes of a text have the hash of the text. -/
theorem hashBytes_encodeUtf16 (s : String) :
    hashBytes 5381 (encodeUtf16 .littleEndian s.toList) = djb2 s :=
  hashBytes_of_readUnits16 (Text.readUnits16_encodeUtf16 .littleEndian _) 5381

/-! ## Points -/

theorem isNearest_traceBucket (traceId : String) :
    (traceBucket traceId).IsNearest (djb2 traceId % 10000) 10000 := by
  have hlt : djb2 traceId % buckets < buckets := Nat.mod_lt _ (by decide)
  exact Double.isNearest_ofRatio (by decide) hlt.le

/-! ## The hash -/

/-- **The hash of a text is the polynomial of its units, cut to 32 bits.** The units are the
characters up to U+FFFF and the surrogates of all others. The hash of a text with another one behind
it is told by the hash of the first and the units of the second. Cutting at every step loses nothing
against cutting once at the end. The bytes of a text are hashed like the text, and bytes of units
that are no text, such as half of a pair, like these units. The point of a text is the double nearest
to its hash modulo 10000, divided by 10000; it is at least zero and below one. -/
theorem djb2_eq_polynomial (s : String) :
    (∀ units, InUnits16 s.toList units ↔ units = units16 s.toList) ∧
      djb2 s = polynomial 5381 (units16 s.toList) % 2 ^ 32 ∧
      (∀ t, djb2 (s ++ t) = polynomial (djb2 s) (units16 t.toList) % 2 ^ 32) ∧
      (∀ (value : Nat) (units : List Nat), units.foldl hashStep (value % 2 ^ 32)
        = units.foldl (fun value n => value * 33 + n) value % 2 ^ 32) ∧
      decodeUtf16? .littleEndian (encodeUtf16 .littleEndian s.toList) = some s.toList ∧
      djb2 s = hashBytes 5381 (encodeUtf16 .littleEndian s.toList) ∧
      (∀ bytes units, readUnits16 .littleEndian bytes = some units →
        hashBytes 5381 bytes = polynomial 5381 units % 2 ^ 32) ∧
      (traceBucket s).IsNearest (djb2 s % 10000) 10000 ∧ InUnit (traceBucket s) := by
  refine ⟨fun _ => Text.inUnits16_iff, djb2_eq s, djb2_append s, fun value units => ?_,
    Text.decodeUtf16?_encodeUtf16 .littleEndian _, (hashBytes_encodeUtf16 s).symm,
    fun bytes units hunits => ?_, isNearest_traceBucket s, inUnit_traceBucket s⟩
  · rw [foldl_hashStep, foldl_eq_polynomial]
  · rw [hashBytes_of_readUnits16 hunits]
    exact foldl_hashStep 5381 units

/-- The first half of a pair alone is hashed as the unit that it is. -/
theorem djb2_eq_polynomial_unpaired : readUnits16 .littleEndian [0x00, 0xD8] = some [0xD800] ∧
    hashBytes 5381 [0x00, 0xD8] = polynomial 5381 [0xD800] % 2 ^ 32 := by
  have hunits : readUnits16 .littleEndian [0x00, 0xD8] = some [0xD800] := rfl
  obtain ⟨-, -, -, -, -, -, hbytes, -, -⟩ := djb2_eq_polynomial ""
  exact ⟨hunits, hbytes _ _ hunits⟩

end Telemetry.Sampling
