import Mathlib.Data.List.Basic
import Telemetry.Proofs.Http.Headers
import Telemetry.Proofs.Text.Utf16

/-!
# Texts in UTF-8

A text comes back from its bytes: each character is read from the bytes that it was written as,
whatever follows them. The bytes of ASCII are the characters themselves.

Main statement: `decodeUtf8?_encodeUtf8`.
-/

namespace Telemetry.Text

variable {c : Char} {n low high count value : Nat} {b : UInt8} {bytes rest : List UInt8}

/-! ## Bytes behind the first -/

theorem utf8Tail_done (c : Char) (low high : Nat) (bytes : List UInt8) :
    utf8Tail low high 0 c.toNat bytes = (some c, bytes) := by
  rw [utf8Tail, if_neg (toNat_valid c).2, Char.ofNat_toNat]

/-- A byte behind the first adds six bits. -/
theorem utf8Tail_byte (hn : n < 0x100) (hlow : low ≤ n) (hhigh : n ≤ high) :
    utf8Tail low high (count + 1) value (UInt8.ofNat n :: bytes)
      = utf8Tail 0x80 0xBF count (value * 0x40 + n % 0x40) bytes := by
  rw [utf8Tail, toNat_byte hn, if_pos ⟨hlow, hhigh⟩]

/-- The last byte of a character. -/
theorem utf8Tail_last (c : Char) (hvalue : value = c.toNat / 0x40)
    (hlow : low ≤ 0x80 + c.toNat % 0x40) (hhigh : 0x80 + c.toNat % 0x40 ≤ high) :
    utf8Tail low high 1 value (UInt8.ofNat (0x80 + c.toNat % 0x40) :: bytes) = (some c, bytes) := by
  have hsum : value * 0x40 + (0x80 + c.toNat % 0x40) % 0x40 = c.toNat := by omega
  rw [utf8Tail_byte (by omega) hlow hhigh, hsum, utf8Tail_done]

/-- The last but one. -/
theorem utf8Tail_two (c : Char) (hvalue : value = c.toNat / 0x1000)
    (hlow : low ≤ 0x80 + c.toNat / 0x40 % 0x40) (hhigh : 0x80 + c.toNat / 0x40 % 0x40 ≤ high) :
    utf8Tail low high 2 value (UInt8.ofNat (0x80 + c.toNat / 0x40 % 0x40) ::
      UInt8.ofNat (0x80 + c.toNat % 0x40) :: bytes) = (some c, bytes) := by
  rw [utf8Tail_byte (by omega) hlow hhigh]
  exact utf8Tail_last c (by omega) (by omega) (by omega)

/-! ## First bytes -/

/-- The first byte of two. -/
theorem utf8Lead?_two (pass : Bool) (hlow : 0x80 ≤ n) (hhigh : n < 0x800) :
    utf8Lead? pass (UInt8.ofNat (0xC0 + n / 0x40)) = some (1, n / 0x40, 0x80, 0xBF) := by
  unfold utf8Lead?
  rw [toNat_byte (by omega)]
  dsimp only
  rw [if_pos (by omega), Nat.add_sub_cancel_left]

/-- The first byte of three. What it takes next leaves out what two bytes can say. -/
theorem utf8Lead?_three (pass : Bool) (hlow : 0x800 ≤ n) (hhigh : n < 0x10000)
    (hsurrogate : ¬ (0xD800 ≤ n ∧ n < 0xE000)) :
    ∃ low high, utf8Lead? pass (UInt8.ofNat (0xE0 + n / 0x1000)) = some (2, n / 0x1000, low, high) ∧
      low ≤ 0x80 + n / 0x40 % 0x40 ∧ 0x80 + n / 0x40 % 0x40 ≤ high := by
  unfold utf8Lead?
  rw [toNat_byte (by omega)]
  dsimp only
  rw [if_neg (by omega)]
  by_cases hzero : n / 0x1000 = 0
  · rw [if_pos (by omega), hzero]
    exact ⟨_, _, rfl, by omega, by omega⟩
  · rw [if_neg (by omega)]
    by_cases hsplit : n / 0x1000 = 0xD
    -- Behind this byte surrogates would come next.
    · rw [if_pos (by omega), hsplit]
      refine ⟨_, _, rfl, by omega, ?_⟩
      split <;> omega
    · rw [if_neg (by omega), if_pos (by omega), Nat.add_sub_cancel_left]
      exact ⟨_, _, rfl, by omega, by omega⟩

/-- The first byte of four. -/
theorem utf8Lead?_four (pass : Bool) (hlow : 0x10000 ≤ n) (hhigh : n < 0x110000) :
    ∃ low high, utf8Lead? pass (UInt8.ofNat (0xF0 + n / 0x40000))
        = some (3, n / 0x40000, low, high) ∧
      low ≤ 0x80 + n / 0x1000 % 0x40 ∧ 0x80 + n / 0x1000 % 0x40 ≤ high := by
  unfold utf8Lead?
  rw [toNat_byte (by omega)]
  dsimp only
  rw [if_neg (by omega), if_neg (by omega), if_neg (by omega), if_neg (by omega)]
  by_cases hzero : n / 0x40000 = 0
  · rw [if_pos (by omega), hzero]
    exact ⟨_, _, rfl, by omega, by omega⟩
  · rw [if_neg (by omega)]
    by_cases hfour : n / 0x40000 = 4
    · rw [if_pos (by omega), hfour]
      exact ⟨_, _, rfl, by omega, by omega⟩
    · rw [if_neg (by omega), if_pos (by omega), Nat.add_sub_cancel_left]
      exact ⟨_, _, rfl, by omega, by omega⟩

/-! ## Characters -/

/-- A character is read where its first byte announces the others. -/
theorem scanUtf8_lead {pass : Bool} (hb : 0x80 ≤ b.toNat)
    (hlead : utf8Lead? pass b = some (count, value, low, high))
    (htail : utf8Tail low high count value bytes = (some c, rest)) :
    scanUtf8 pass (b :: bytes) = some c :: scanUtf8 pass rest := by
  rw [scanUtf8, if_neg (Nat.not_lt.mpr hb), hlead]
  dsimp only
  rw [htail]

/-- A character of ASCII is one byte. -/
theorem utf8Bytes_ascii (h : c.toNat < 0x80) : utf8Bytes c = [UInt8.ofNat c.toNat] := by
  unfold utf8Bytes
  exact if_pos h

/-- **A character is read from its bytes**, whatever follows them. -/
theorem scanUtf8_char (pass : Bool) (c : Char) (rest : List UInt8) :
    scanUtf8 pass (utf8Bytes c ++ rest) = some c :: scanUtf8 pass rest := by
  obtain ⟨hmost, hsurrogate⟩ := toNat_valid c
  by_cases hone : c.toNat < 0x80
  · rw [utf8Bytes_ascii hone, List.singleton_append, scanUtf8, toNat_byte (by omega), if_pos hone,
      Char.ofNat_toNat]
  unfold utf8Bytes
  dsimp only
  rw [if_neg hone]
  by_cases htwo : c.toNat < 0x800
  · rw [if_pos htwo]
    refine scanUtf8_lead ?_ (utf8Lead?_two pass (Nat.not_lt.mp hone) htwo)
      (utf8Tail_last c rfl (by omega) (by omega))
    rw [toNat_byte (by omega)]
    omega
  rw [if_neg htwo]
  by_cases hthree : c.toNat < 0x10000
  · rw [if_pos hthree]
    obtain ⟨low, high, hlead, hlow, hhigh⟩ :=
      utf8Lead?_three pass (Nat.not_lt.mp htwo) hthree hsurrogate
    refine scanUtf8_lead ?_ hlead (utf8Tail_two c rfl hlow hhigh)
    rw [toNat_byte (by omega)]
    omega
  rw [if_neg hthree]
  obtain ⟨low, high, hlead, hlow, hhigh⟩ := utf8Lead?_four pass (Nat.not_lt.mp hthree) hmost
  refine scanUtf8_lead ?_ hlead ?_
  · rw [toNat_byte (by omega)]
    omega
  · exact (utf8Tail_byte (by omega) hlow hhigh).trans
      (utf8Tail_two c (by omega) (by omega) (by omega))

/-! ## Texts -/

theorem scanUtf8_encode (pass : Bool) (cs : List Char) :
    scanUtf8 pass (cs.flatMap utf8Bytes) = cs.map some := by
  induction cs with
  | nil => rw [List.flatMap_nil, scanUtf8, List.map_nil]
  | cons c cs ih => rw [List.flatMap_cons, scanUtf8_char, ih, List.map_cons]

/-- **A text comes back from its bytes.** -/
theorem decodeUtf8?_encodeUtf8 (s : String) : decodeUtf8? (encodeUtf8 s) = some s.toList := by
  have hall (cs : List Char) : (cs.map some).mapM id = some cs := by
    induction cs with
    | nil => rfl
    | cons c cs ih => rw [List.map_cons, List.mapM_cons, ih]; rfl
  rw [decodeUtf8?, encodeUtf8, scanUtf8_encode, hall]

theorem ascii_of_all {s : String} (h : s.toList.all (fun c => decide (c.toNat < 0x80)) = true) :
    ∀ c ∈ s.toList, c.toNat < 0x80 :=
  fun c hc => of_decide_eq_true (List.all_eq_true.mp h c hc)

/-- Bytes of ASCII are characters. -/
theorem decodeLatin1_encodeUtf8 {s : String} (h : ∀ c ∈ s.toList, c.toNat < 0x80) :
    decodeLatin1 (encodeUtf8 s) = s := by
  have hbytes : encodeUtf8 s = encodeLatin1 s := by
    rw [encodeUtf8, encodeLatin1, List.map_eq_flatMap]
    refine List.flatMap_congr fun c hc => ?_
    rw [utf8Bytes_ascii (h c hc), if_pos (Nat.lt_trans (h c hc) (by decide))]
  rw [hbytes, decodeLatin1_encodeLatin1 fun c hc => Nat.lt_trans (h c hc) (by decide)]

end Telemetry.Text
