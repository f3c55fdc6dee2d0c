import Mathlib.Data.List.Infix
import Telemetry.Sql.Literal

/-!
# Patterns of texts

What the patterns of `LIKE` match. A percent sign stands for any text and an underscore for any one
character. A backslash in front of one of the two, or of another backslash, takes it literally; in
front of anything else, and at the end, it stands for itself like every other character.

Main statements: an escaped text between percent signs matches the texts that contain it
(`like_contains_iff`), and a text that is put there as it is does so just if there is nothing to
escape in it (`like_between_iff`).
-/

namespace Telemetry.Sql

/-! ## Parts of patterns -/

/-- One part of a pattern. -/
inductive PatternPart
  | anyText
  | anyChar
  | exactly (c : Char)
deriving DecidableEq, Repr

/-- A character that a backslash takes literally. -/
def isSpecial (c : Char) : Bool := c == '\\' || c == '%' || c == '_'

/-- The part that a character without a backslash stands for. -/
def PatternPart.ofChar (c : Char) : PatternPart :=
  if c = '%' then .anyText else if c = '_' then .anyChar else .exactly c

/-- The parts of a pattern. -/
def patternParts : List Char → List PatternPart
  | [] => []
  | '\\' :: c :: rest =>
    if isSpecial c then .exactly c :: patternParts rest
    else .exactly '\\' :: patternParts (c :: rest)
  | c :: rest => .ofChar c :: patternParts rest

/-- Whether a whole text fits the parts. -/
def fits : List PatternPart → List Char → Bool
  | [], cs => cs.isEmpty
  | .anyText :: more, cs => cs.tails.any fun rest => fits more rest
  | .anyChar :: more, _ :: rest => fits more rest
  | .exactly c :: more, d :: rest => c == d && fits more rest
  | _ :: _, [] => false

/-- Whether a text matches a pattern. -/
def like (pattern text : List Char) : Bool := fits (patternParts pattern) text

variable {c : Char} {word rest text : List Char} {more : List PatternPart}

@[simp] theorem patternParts_percent (rest : List Char) :
    patternParts ('%' :: rest) = .anyText :: patternParts rest := by
  simp [patternParts, PatternPart.ofChar]

theorem patternParts_cons (h : c ≠ '\\') :
    patternParts (c :: rest) = .ofChar c :: patternParts rest := by
  cases rest <;> simp [patternParts, h]

theorem patternParts_special (h : isSpecial c = true) :
    patternParts ('\\' :: c :: rest) = .exactly c :: patternParts rest := by
  simp [patternParts, h]

theorem patternParts_backslash (h : isSpecial c = false) :
    patternParts ('\\' :: c :: rest) = .exactly '\\' :: patternParts (c :: rest) := by
  simp [patternParts, h]

theorem ofChar_of_not_special (h : isSpecial c = false) : PatternPart.ofChar c = .exactly c := by
  simp [isSpecial] at h
  simp [PatternPart.ofChar, h]

/-! ## Fitting -/

theorem fits_anyText_iff :
    fits (.anyText :: more) text = true ↔ ∃ front rest, text = front ++ rest ∧ fits more rest := by
  simp only [fits, List.any_eq_true, List.mem_tails]
  constructor
  · rintro ⟨rest, ⟨front, rfl⟩, h⟩
    exact ⟨front, rest, rfl, h⟩
  · rintro ⟨front, rest, rfl, h⟩
    exact ⟨rest, List.suffix_append front rest, h⟩

theorem fits_exactly_iff :
    fits (word.map .exactly ++ more) text = true ↔ ∃ rest, text = word ++ rest ∧ fits more rest := by
  induction word generalizing text with
  | nil => simp
  | cons c word ih =>
    cases text with
    | nil => simp [fits]
    | cons d text =>
      simp only [List.map_cons, List.cons_append, fits, Bool.and_eq_true, beq_iff_eq, ih,
        List.cons.injEq]
      constructor
      · rintro ⟨rfl, rest, rfl, h⟩
        exact ⟨rest, ⟨rfl, rfl⟩, h⟩
      · rintro ⟨rest, ⟨rfl, rfl⟩, h⟩
        exact ⟨rfl, rest, rfl, h⟩

/-- Characters between two parts for any text fit the texts in which they occur. -/
theorem fits_between_iff :
    fits (.anyText :: (word.map .exactly ++ [.anyText])) text = true ↔ word <:+: text := by
  rw [fits_anyText_iff]
  constructor
  · rintro ⟨front, behind, rfl, h⟩
    obtain ⟨rest, rfl, -⟩ := fits_exactly_iff.mp h
    exact ⟨front, rest, List.append_assoc front word rest⟩
  · rintro ⟨front, rest, rfl⟩
    refine ⟨front, word ++ rest, List.append_assoc front word rest, ?_⟩
    exact fits_exactly_iff.mpr ⟨rest, rfl, fits_anyText_iff.mpr ⟨rest, [], by simp, rfl⟩⟩

/-! ## Escaped texts -/

theorem patternParts_escapePattern (word rest : List Char) :
    patternParts (escapePattern word ++ rest) = word.map .exactly ++ patternParts rest := by
  induction word with
  | nil => rfl
  | cons c word ih =>
    by_cases h : c = '\\' ∨ c = '%' ∨ c = '_'
    · have hspecial : isSpecial c = true := by simpa [isSpecial, or_assoc] using h
      rw [escapePattern, if_pos h, List.cons_append, List.cons_append,
        patternParts_special hspecial, ih]
      rfl
    · have hplain : isSpecial c = false := by simpa [isSpecial, and_assoc] using h
      rw [escapePattern, if_neg h, List.cons_append, patternParts_cons (fun he => h (Or.inl he)),
        ofChar_of_not_special hplain, ih]
      rfl

/-- **An escaped text between percent signs matches the texts that contain it.** -/
theorem like_contains_iff :
    like ('%' :: (escapePattern word ++ ['%'])) text = true ↔ word <:+: text := by
  have hlast : patternParts ['%'] = [.anyText] := rfl
  rw [like, patternParts_percent, patternParts_escapePattern, hlast, fits_between_iff]

/-! ## Texts as they are -/

/-- There is nothing in a text that a pattern would take for something else: no percent sign and no
underscore, no backslash in front of another one, and none at the end, where it would take the
percent sign behind the text. -/
structure IsPlain (word : List Char) : Prop where
  percent : '%' ∉ word
  underscore : '_' ∉ word
  pair : ¬ ['\\', '\\'] <:+: word
  last : word.getLast? ≠ some '\\'

theorem isPlain_nil : IsPlain [] := by
  constructor <;> simp

theorem isPlain_cons_iff : IsPlain (c :: word) ↔
    c ≠ '%' ∧ c ≠ '_' ∧ (c = '\\' → ∃ d rest, word = d :: rest ∧ d ≠ '\\') ∧ IsPlain word := by
  have hpair : ['\\', '\\'] <:+: c :: word ↔
      (c = '\\' ∧ ['\\'] <+: word) ∨ ['\\', '\\'] <:+: word := by
    rw [List.infix_cons_iff, List.cons_prefix_cons, eq_comm]
  constructor
  · intro h
    refine ⟨fun he => h.percent (by simp [he]), fun he => h.underscore (by simp [he]), ?_, ?_⟩
    · rintro rfl
      cases word with
      | nil => exact absurd rfl h.last
      | cons d rest =>
        refine ⟨d, rest, rfl, ?_⟩
        rintro rfl
        exact h.pair (hpair.mpr (Or.inl ⟨rfl, rest, rfl⟩))
    · refine ⟨fun hm => h.percent (.tail c hm), fun hm => h.underscore (.tail c hm),
        fun hm => h.pair (hpair.mpr (Or.inr hm)), fun hl => h.last ?_⟩
      rw [List.getLast?_cons, hl]
      rfl
  · rintro ⟨hpercent, hunderscore, hbackslash, h⟩
    refine ⟨?_, ?_, ?_, ?_⟩
    · simp [h.percent, Ne.symm hpercent]
    · simp [h.underscore, Ne.symm hunderscore]
    · rw [hpair]
      rintro (⟨rfl, rest, hrest⟩ | hm)
      · obtain ⟨d, more, rfl, hd⟩ := hbackslash rfl
        cases hrest
        exact hd rfl
      · exact h.pair hm
    · intro hl
      cases word with
      | nil =>
        obtain ⟨d, rest, hword, -⟩ := hbackslash (by simpa using hl)
        cases hword
      | cons d rest => exact h.last (by rwa [List.getLast?_cons_cons] at hl)

/-- A plain text stands for itself in front of a percent sign. -/
theorem patternParts_of_plain (h : IsPlain word) :
    patternParts (word ++ ['%']) = word.map .exactly ++ [.anyText] := by
  induction word with
  | nil => rfl
  | cons c word ih =>
    obtain ⟨hpercent, hunderscore, hbackslash, hmore⟩ := isPlain_cons_iff.mp h
    by_cases hc : c = '\\'
    · obtain ⟨d, rest, rfl, hd⟩ := hbackslash hc
      obtain ⟨hdpercent, hdunderscore, -, -⟩ := isPlain_cons_iff.mp hmore
      have hplain : isSpecial d = false := by simp [isSpecial, hd, hdpercent, hdunderscore]
      rw [hc, List.cons_append, List.cons_append, patternParts_backslash hplain,
        ← List.cons_append, ih hmore]
      rfl
    · have hplain : isSpecial c = false := by simp [isSpecial, hc, hpercent, hunderscore]
      rw [List.cons_append, patternParts_cons hc, ofChar_of_not_special hplain, ih hmore]
      rfl

/-- The shortest text that fits some parts, with the letter `a` for any character. -/
def shortest : List PatternPart → List Char
  | [] => []
  | .anyText :: more => shortest more
  | .anyChar :: more => 'a' :: shortest more
  | .exactly c :: more => c :: shortest more

theorem fits_shortest (parts : List PatternPart) : fits parts (shortest parts) = true := by
  induction parts with
  | nil => rfl
  | cons part more ih =>
    cases part with
    | anyText => exact fits_anyText_iff.mpr ⟨[], shortest more, rfl, ih⟩
    | anyChar => exact ih
    | exactly c => simpa [shortest, fits] using ih

/-- A text in front of a percent sign is matched by a text that is not longer, and by itself only if
it is plain. -/
theorem shortest_cases (word : List Char) :
    (shortest (patternParts (word ++ ['%']))).length ≤ word.length ∧
      (shortest (patternParts (word ++ ['%'])) = word → IsPlain word) := by
  -- The cases are those of `patternParts`; a last backslash takes the percent sign behind the text.
  match word with
  | [] => exact ⟨Nat.le_refl 0, fun _ => isPlain_nil⟩
  | c :: rest =>
    by_cases hbackslash : c = '\\'
    · subst hbackslash
      cases rest with
      | nil => exact ⟨Nat.le_refl 1, fun h => absurd h (by decide)⟩
      | cons d rest =>
        rw [List.cons_append, List.cons_append]
        cases hd : isSpecial d with
        | true =>
          obtain ⟨hlength, -⟩ := shortest_cases rest
          rw [patternParts_special hd, shortest]
          refine ⟨by simp only [List.length_cons]; omega, fun h => ?_⟩
          have heq := congrArg List.length h
          simp only [List.length_cons] at heq
          omega
        | false =>
          obtain ⟨hlength, hplain⟩ := shortest_cases (d :: rest)
          rw [patternParts_backslash hd, shortest, ← List.cons_append]
          refine ⟨Nat.succ_le_succ hlength, fun h => ?_⟩
          have hne : d ≠ '\\' := by
            rintro rfl
            cases hd
          exact isPlain_cons_iff.mpr ⟨by decide, by decide, fun _ => ⟨d, rest, rfl, hne⟩,
            hplain (List.cons.inj h).2⟩
    · obtain ⟨hlength, hplain⟩ := shortest_cases rest
      rw [List.cons_append, patternParts_cons hbackslash, PatternPart.ofChar]
      split
      · refine ⟨Nat.le_succ_of_le hlength, fun h => ?_⟩
        have heq := congrArg List.length h
        simp only [shortest, List.length_cons] at heq
        omega
      · split
        · rename_i hunderscore
          refine ⟨Nat.succ_le_succ hlength, fun h => ?_⟩
          have hhead : 'a' = c := (List.cons.inj h).1
          rw [hunderscore] at hhead
          exact absurd hhead (by decide)
        · rename_i hpercent hunderscore
          refine ⟨Nat.succ_le_succ hlength, fun h => ?_⟩
          exact isPlain_cons_iff.mpr ⟨hpercent, hunderscore, fun he => absurd he hbackslash,
            hplain (List.cons.inj h).2⟩

/-- **A text between percent signs matches the texts that contain it just if it is plain.** -/
theorem like_between_iff :
    (∀ text : List Char, like ('%' :: (word ++ ['%'])) text = true ↔ word <:+: text) ↔
      IsPlain word := by
  constructor
  · intro h
    obtain ⟨hlength, hplain⟩ := shortest_cases word
    have hfits : like ('%' :: (word ++ ['%'])) (shortest (patternParts (word ++ ['%']))) = true := by
      rw [like, patternParts_percent]
      exact fits_shortest (.anyText :: patternParts (word ++ ['%']))
    exact hplain (((h _).mp hfits).eq_of_length_le hlength).symm
  · intro h text
    rw [like, patternParts_percent, patternParts_of_plain h, fits_between_iff]

/-- An underscore takes any character, so it is no part of a plain text. -/
example : like "%user_1%".toList "user-1".toList = true ∧
    ¬ "user_1".toList <:+: "user-1".toList := by decide

end Telemetry.Sql
