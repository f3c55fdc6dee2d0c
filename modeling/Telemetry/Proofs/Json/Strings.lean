import Telemetry.Proofs.Json.Grammar
import Telemetry.Proofs.Text.Utf16

/-!
# Reading strings

What stands between the quotes of a string is read as the characters that it writes. A character is
put together again from its sixteen-bit units, whether they come from one place of the text or two.

Main statement: `string_written`.
-/

namespace Telemetry.Json

variable {s w : List Char}

theorem hexUnit?_of_digits {a b c d : Char} {n : Nat} (h : HexDigits [a, b, c, d] n) :
    hexUnit? a b c d = some n := by
  cases h with
  | digits ha hb hc hd =>
    unfold hexUnit?
    rw [ha, hb, hc, hd]
    rfl

theorem HexDigits.exists_digits {digits : List Char} {n : Nat} (h : HexDigits digits n) :
    ∃ a b c d, digits = [a, b, c, d] ∧ hexUnit? a b c d = some n := by
  cases h with
  | digits ha hb hc hd => exact ⟨_, _, _, _, rfl, hexUnit?_of_digits (.digits ha hb hc hd)⟩

/-- An escape by digits gives its unit, if the string goes on or ends behind it. -/
theorem stringUnits_escape {digits rest : List Char} {n : Nat} (h : HexDigits digits n)
    (hrest : rest ≠ []) (opening : Nat) :
    stringUnits opening ('\\' :: 'u' :: (digits ++ rest))
      = consUnit n (stringUnits opening rest) := by
  obtain ⟨a, b, c, d, rfl, hunit⟩ := h.exists_digits
  obtain ⟨e, more, rfl⟩ := List.exists_cons_of_ne_nil hrest
  simp only [List.cons_append, List.nil_append, stringUnits, hunit]

theorem stringUnits_short {e c : Char} (h : ShortEscape e c) (opening : Nat) (rest : List Char) :
    stringUnits opening ('\\' :: e :: rest) = consUnit c.toNat (stringUnits opening rest) := by
  cases h <;> rfl

theorem stringUnits_raw {c : Char} (hlow : 0x20 ≤ c.toNat) (hquote : c ≠ '"')
    (hbackslash : c ≠ '\\') (opening : Nat) (rest : List Char) :
    stringUnits opening (c :: rest) = consUnit c.toNat (stringUnits opening rest) := by
  rw [stringUnits]
  · rw [if_neg (Nat.not_lt.mpr hlow)]
  · exact hquote
  · exact fun h _ => hbackslash h
  · exact fun _ _ _ _ _ _ h _ => hbackslash h
  · exact fun _ h _ => hbackslash h
  · exact fun _ _ h _ => hbackslash h

theorem stringUnits_written (h : WrittenChars s w) (opening : Nat) (rest : List Char) :
    ∃ units, stringUnits opening (w ++ '"' :: rest) = .ok (units, rest) ∧
      Text.charsOfUnits16 units = s := by
  induction h with
  | nil => exact ⟨[], rfl, rfl⟩
  | @raw c s w hlow hquote hbackslash _ ih =>
    obtain ⟨units, hunits, hs⟩ := ih
    refine ⟨c.toNat :: units, ?_, ?_⟩
    · rw [List.cons_append, stringUnits_raw hlow hquote hbackslash, hunits]
      rfl
    · rw [Text.charsOfUnits16_char, hs]
  | @short e c s w he _ ih =>
    obtain ⟨units, hunits, hs⟩ := ih
    refine ⟨c.toNat :: units, ?_, ?_⟩
    · rw [List.cons_append, List.cons_append, stringUnits_short he, hunits]
      rfl
    · rw [Text.charsOfUnits16_char, hs]
  | @unit c n digits s w hc hn _ ih =>
    obtain ⟨units, hunits, hs⟩ := ih
    refine ⟨n :: units, ?_, ?_⟩
    · rw [List.cons_append, List.cons_append, List.append_assoc, stringUnits_escape hn (by simp),
        hunits]
      rfl
    · rw [Text.charsOfUnits16_unit hc, hs]
  | @pair c high low first second s w hc hhigh hlow _ ih =>
    obtain ⟨units, hunits, hs⟩ := ih
    refine ⟨high :: low :: units, ?_, ?_⟩
    · rw [List.cons_append, List.cons_append, List.append_assoc, stringUnits_escape hhigh (by simp),
        List.cons_append, List.cons_append, List.append_assoc, stringUnits_escape hlow (by simp),
        hunits]
      rfl
    · rw [Text.charsOfUnits16_pair hc, hs]

/-- **A string is read as the characters that it writes.** -/
theorem string_written (h : WrittenChars s w) (opening : Nat) (rest : List Char) :
    string opening (w ++ '"' :: rest) = .ok (String.ofList s, rest) := by
  obtain ⟨units, hunits, hs⟩ := stringUnits_written h opening rest
  unfold string
  rw [hunits]
  dsimp only
  rw [hs]

end Telemetry.Json
