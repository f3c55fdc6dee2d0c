import Telemetry.Text.Utf16

/-!
# Texts in UTF-16

A character up to U+FFFF is one sixteen-bit unit and any other one a pair of surrogates, of which
there is just one. So a text stands in one sequence of units and comes back from it; and it comes
back from its bytes, whichever byte of a unit is the first.

Main statements: `inUnits16_iff`, `charsOfUnits16_units16`, `decodeUtf16?_encodeUtf16`.
-/

namespace Telemetry.Text

variable {c : Char} {cs : List Char} {n high low : Nat} {units : List Nat} {order : ByteOrder}

/-! ## Characters -/

theorem toNat_valid (c : Char) : c.toNat < 0x110000 ∧ ¬ (0xD800 ≤ c.toNat ∧ c.toNat < 0xE000) := by
  have hvalid : c.toNat < 0xD800 ∨ 0xDFFF < c.toNat ∧ c.toNat < 0x110000 := c.valid
  omega

/-- A character is no surrogate. -/
theorem not_surrogate (c : Char) :
    isHighSurrogate c.toNat = false ∧ isLowSurrogate c.toNat = false := by
  have hvalid := (toNat_valid c).2
  unfold isHighSurrogate isLowSurrogate
  simp only [Bool.and_eq_false_iff, decide_eq_false_iff_not]
  omega

/-- Two surrogates that stand for a character. -/
structure IsPair (high low : Nat) (c : Char) : Prop where
  first : isHighSurrogate high = true
  second : isLowSurrogate low = true
  code : c.toNat = 0x10000 + (high - 0xD800) * 0x400 + (low - 0xDC00)

theorem isHighSurrogate_iff : isHighSurrogate n = true ↔ 0xD800 ≤ n ∧ n < 0xDC00 := by
  rw [isHighSurrogate, Bool.and_eq_true, decide_eq_true_eq, decide_eq_true_eq]

theorem isLowSurrogate_iff : isLowSurrogate n = true ↔ 0xDC00 ≤ n ∧ n < 0xE000 := by
  rw [isLowSurrogate, Bool.and_eq_true, decide_eq_true_eq, decide_eq_true_eq]

/-- Surrogates have sixteen bits. -/
theorem IsPair.lt (h : IsPair high low c) : high < 0x10000 ∧ low < 0x10000 := by
  have hhigh := isHighSurrogate_iff.mp h.first
  have hlow := isLowSurrogate_iff.mp h.second
  omega

theorem charUnits16_unit (h : c.toNat < 0x10000) : charUnits16 c = [c.toNat] := if_pos h

theorem IsPair.charUnits16 (h : IsPair high low c) : charUnits16 c = [high, low] := by
  obtain ⟨hhigh, hlow, hcode⟩ := h
  rw [isHighSurrogate_iff] at hhigh
  rw [isLowSurrogate_iff] at hlow
  have hunits : Text.charUnits16 c
      = [0xD800 + (c.toNat - 0x10000) / 0x400, 0xDC00 + (c.toNat - 0x10000) % 0x400] :=
    if_neg (by omega)
  have hfirst : 0xD800 + (c.toNat - 0x10000) / 0x400 = high := by omega
  have hsecond : 0xDC00 + (c.toNat - 0x10000) % 0x400 = low := by omega
  rw [hunits, hfirst, hsecond]

/-- Above U+FFFF every character has its pair. -/
theorem exists_pair (h : 0x10000 ≤ c.toNat) : ∃ high low, IsPair high low c := by
  have hvalid := (toNat_valid c).1
  refine ⟨0xD800 + (c.toNat - 0x10000) / 0x400, 0xDC00 + (c.toNat - 0x10000) % 0x400, ?_, ?_, ?_⟩
  · rw [isHighSurrogate_iff]
    omega
  · rw [isLowSurrogate_iff]
    omega
  · omega

/-- **A character is one unit or a pair.** -/
theorem charUnits16_cases (c : Char) :
    (c.toNat < 0x10000 ∧ charUnits16 c = [c.toNat]) ∨
      ∃ high low, IsPair high low c ∧ charUnits16 c = [high, low] := by
  rcases Nat.lt_or_ge c.toNat 0x10000 with hunit | hpair
  · exact .inl ⟨hunit, charUnits16_unit hunit⟩
  · obtain ⟨high, low, h⟩ := exists_pair hpair
    exact .inr ⟨high, low, h, h.charUnits16⟩

/-! ## Texts in units -/

/-- A text stands in units: each character up to U+FFFF in its own, and any other in a pair. -/
inductive InUnits16 : List Char → List Nat → Prop
  | nil : InUnits16 [] []
  | unit {c : Char} {cs : List Char} {units : List Nat} (hc : c.toNat < 0x10000)
      (h : InUnits16 cs units) : InUnits16 (c :: cs) (c.toNat :: units)
  | pair {c : Char} {cs : List Char} {high low : Nat} {units : List Nat} (hc : IsPair high low c)
      (h : InUnits16 cs units) : InUnits16 (c :: cs) (high :: low :: units)

theorem inUnits16_units16 (cs : List Char) : InUnits16 cs (units16 cs) := by
  induction cs with
  | nil => exact .nil
  | cons c cs ih =>
    rw [units16, List.flatMap_cons]
    rcases charUnits16_cases c with ⟨hunit, h⟩ | ⟨high, low, hpair, h⟩
    · rw [h]
      exact .unit hunit ih
    · rw [h]
      exact .pair hpair ih

/-- **A text stands in one sequence of units.** -/
theorem inUnits16_iff : InUnits16 cs units ↔ units = units16 cs := by
  constructor
  · intro h
    induction h with
    | nil => rfl
    | unit hc _ ih => rw [units16, List.flatMap_cons, charUnits16_unit hc, ih]; rfl
    | pair hc _ ih => rw [units16, List.flatMap_cons, hc.charUnits16, ih]; rfl
  · rintro rfl
    exact inUnits16_units16 cs

example : units16 ['a', Char.ofNat 0x1F600] = [0x61, 0xD83D, 0xDE00] := by decide

theorem units16_append (cs ds : List Char) : units16 (cs ++ ds) = units16 cs ++ units16 ds :=
  List.flatMap_append

/-- Units have sixteen bits. -/
theorem lt_of_mem_units16 (h : n ∈ units16 cs) : n < 0x10000 := by
  obtain ⟨c, -, hn⟩ := List.mem_flatMap.mp h
  rcases charUnits16_cases c with ⟨hunit, hc⟩ | ⟨high, low, hpair, hc⟩
  · rw [hc, List.mem_singleton] at hn
    rwa [hn]
  · obtain ⟨hhigh, hlow⟩ := hpair.lt
    rw [hc, List.mem_cons, List.mem_singleton] at hn
    rcases hn with rfl | rfl
    · exact hhigh
    · exact hlow

/-! ## Texts out of units -/

theorem charsOfUnits16_char (c : Char) (units : List Nat) :
    charsOfUnits16 (c.toNat :: units) = c :: charsOfUnits16 units := by
  have hchar : unitChar c.toNat = c := by
    unfold unitChar
    rw [(not_surrogate c).1, (not_surrogate c).2]
    exact Char.ofNat_toNat c
  cases units with
  | nil => exact congrArg (· :: []) hchar
  | cons n rest =>
    rw [charsOfUnits16, (not_surrogate c).1, hchar]
    rfl

theorem IsPair.charsOfUnits16 (h : IsPair high low c) (units : List Nat) :
    charsOfUnits16 (high :: low :: units) = c :: charsOfUnits16 units := by
  have hchar : pairChar high low = c := by
    rw [pairChar, ← h.code, Char.ofNat_toNat]
  rw [Text.charsOfUnits16, h.first, h.second, hchar]
  rfl

theorem charsOfUnits16_unit (h : charUnits16 c = [n]) (units : List Nat) :
    charsOfUnits16 (n :: units) = c :: charsOfUnits16 units := by
  rcases charUnits16_cases c with ⟨-, hc⟩ | ⟨high, low, -, hc⟩
  · obtain rfl := List.singleton_inj.mp (hc.symm.trans h)
    exact charsOfUnits16_char c units
  · simp [hc] at h

theorem charsOfUnits16_pair (h : charUnits16 c = [high, low]) (units : List Nat) :
    charsOfUnits16 (high :: low :: units) = c :: charsOfUnits16 units := by
  rcases charUnits16_cases c with ⟨-, hc⟩ | ⟨first, second, hpair, hc⟩
  · simp [hc] at h
  · obtain ⟨rfl, rfl⟩ : first = high ∧ second = low := by simpa [hc] using h
    exact hpair.charsOfUnits16 units

/-- **A text comes back from its units.** -/
theorem charsOfUnits16_units16 (cs : List Char) : charsOfUnits16 (units16 cs) = cs := by
  have h := inUnits16_units16 cs
  generalize units16 cs = units at h
  induction h with
  | nil => rfl
  | unit _ _ ih => rw [charsOfUnits16_char, ih]
  | pair hc _ ih => rw [hc.charsOfUnits16, ih]

/-! ## Bytes -/

/-- The two bytes of a unit. -/
def unitBytes : ByteOrder → Nat → List UInt8
  | .bigEndian, n => [UInt8.ofNat (n / 0x100), UInt8.ofNat (n % 0x100)]
  | .littleEndian, n => [UInt8.ofNat (n % 0x100), UInt8.ofNat (n / 0x100)]

/-- The bytes of a text in sixteen-bit units. -/
def encodeUtf16 (order : ByteOrder) (cs : List Char) : List UInt8 :=
  (units16 cs).flatMap (unitBytes order)

theorem toNat_byte (h : n < 0x100) : (UInt8.ofNat n).toNat = n := UInt8.toNat_ofNat_of_lt' h

/-- A unit is read from its two bytes, whatever follows them. -/
theorem readUnits16_unitBytes (h : n < 0x10000) (bytes : List UInt8) :
    readUnits16 order (unitBytes order n ++ bytes) = (readUnits16 order bytes).map (n :: ·) := by
  have hhigh : (UInt8.ofNat (n / 0x100)).toNat = n / 0x100 := toNat_byte (by omega)
  have hlow : (UInt8.ofNat (n % 0x100)).toNat = n % 0x100 := toNat_byte (by omega)
  have hsum : n / 0x100 * 0x100 + n % 0x100 = n := by omega
  cases order with
  | bigEndian =>
    simp only [unitBytes, List.cons_append, List.nil_append, readUnits16, hhigh, hlow, hsum]
  | littleEndian =>
    simp only [unitBytes, List.cons_append, List.nil_append, readUnits16, hhigh, hlow, hsum]

theorem readUnits16_encodeUtf16 (order : ByteOrder) (cs : List Char) :
    readUnits16 order (encodeUtf16 order cs) = some (units16 cs) := by
  have hall (units : List Nat) (h : ∀ n ∈ units, n < 0x10000) :
      readUnits16 order (units.flatMap (unitBytes order)) = some units := by
    induction units with
    | nil => rfl
    | cons n units ih =>
      rw [List.flatMap_cons, readUnits16_unitBytes (h n List.mem_cons_self),
        ih fun m hm => h m (List.mem_cons_of_mem n hm), Option.map_some]
  exact hall (units16 cs) fun _ => lt_of_mem_units16

/-- **A text comes back from its bytes**, in either order. -/
theorem decodeUtf16?_encodeUtf16 (order : ByteOrder) (cs : List Char) :
    decodeUtf16? order (encodeUtf16 order cs) = some cs := by
  rw [decodeUtf16?, readUnits16_encodeUtf16, Option.map_some, charsOfUnits16_units16]

end Telemetry.Text
