import Telemetry.Proofs.Json.Grammar

/-!
# Reading numbers

A number of the grammar is read as what it writes, whatever follows it that cannot continue it, and
nothing but a number of the grammar is read as one. A number that is no integer is the double that
its text is as a numeral.

Main statements: `number_text`, `text_of_number`, `readDouble?_text`.
-/

namespace Telemetry.Json

variable {cs w rest : List Char}

/-! ## Digits -/

/-- No digit stands first. -/
def NoDigit (cs : List Char) : Prop := ∀ c rest, cs = c :: rest → Text.isDigit c = false

theorem takeWhile_digits (hw : ∀ c ∈ w, Text.isDigit c = true) (hrest : NoDigit rest) :
    (w ++ rest).takeWhile Text.isDigit = w := by
  rw [List.takeWhile_append_of_pos hw]
  cases rest with
  | nil => simp
  | cons c more => rw [List.takeWhile_cons_of_neg (by simp [hrest c more rfl]), List.append_nil]

theorem dropWhile_digits (hw : ∀ c ∈ w, Text.isDigit c = true) (hrest : NoDigit rest) :
    (w ++ rest).dropWhile Text.isDigit = rest := by
  rw [List.dropWhile_append_of_pos hw]
  cases rest with
  | nil => rfl
  | cons c more => rw [List.dropWhile_cons_of_neg (by simp [hrest c more rfl])]

theorem IsDigits.exists_cons (h : IsDigits w) :
    ∃ c more, w = c :: more ∧ Text.isDigit c = true ∧ ∀ d ∈ more, Text.isDigit d = true := by
  cases w with
  | nil => exact absurd rfl h.nonempty
  | cons c more =>
    exact ⟨c, more, rfl, h.digits c List.mem_cons_self,
      fun d hd => h.digits d (List.mem_cons_of_mem c hd)⟩

theorem isDigits_takeWhile {c : Char} (hc : Text.isDigit c = true) (cs : List Char) :
    IsDigits ((c :: cs).takeWhile Text.isDigit) := by
  refine ⟨?_, List.all_eq_true.mp List.all_takeWhile⟩
  rw [List.takeWhile_cons_of_pos hc]
  simp

theorem exists_of_isDigit {c : Char} (h : Text.isDigit c = true) :
    ∃ k, k < 10 ∧ c = Char.ofNat (48 + k) := by
  unfold Text.isDigit at h
  obtain ⟨hlow, hhigh⟩ := Bool.and_eq_true_iff.mp h
  have hlow : 48 ≤ c.toNat := of_decide_eq_true hlow
  have hhigh : c.toNat ≤ 57 := of_decide_eq_true hhigh
  refine ⟨c.toNat - 48, by omega, ?_⟩
  rw [show 48 + (c.toNat - 48) = c.toNat by omega, Char.ofNat_toNat]

/-! ## The parts of a number -/

theorem wholePart?_append (hw : IsWhole w) (hrest : NoDigit rest) :
    wholePart? (w ++ rest) = some (w, rest) := by
  obtain ⟨c, more, rfl, hc, hmore⟩ := hw.exists_cons
  by_cases hzero : c = '0'
  · subst hzero
    rw [hw.zero more rfl]
    rfl
  · rw [List.cons_append, wholePart?, if_pos hc, ← List.cons_append, takeWhile_digits hw.digits hrest,
      dropWhile_digits hmore hrest]
    exact hzero

theorem wholePart?_eq_some (h : wholePart? cs = some (w, rest)) : IsWhole w ∧ cs = w ++ rest := by
  unfold wholePart? at h
  split at h
  · cases h
    exact ⟨⟨⟨by simp, by simp [Text.isDigit]⟩, by simp⟩, rfl⟩
  · rename_i c more hzero
    split at h
    · rename_i hc
      cases h
      refine ⟨⟨isDigits_takeWhile hc more, fun tail htail => ?_⟩, ?_⟩
      · rw [List.takeWhile_cons_of_pos hc] at htail
        exact absurd (List.cons.inj htail).1 hzero
      · rw [List.takeWhile_cons_of_pos hc, List.cons_append, List.takeWhile_append_dropWhile]
    · cases h
  · cases h

theorem fractionPart?_append (hw : IsDigits w) (hrest : NoDigit rest) :
    fractionPart? ('.' :: (w ++ rest)) = some (w, rest) := by
  obtain ⟨c, more, rfl, hc, hmore⟩ := hw.exists_cons
  rw [List.cons_append, fractionPart?, if_pos hc, ← List.cons_append,
    takeWhile_digits hw.digits hrest, dropWhile_digits hmore hrest]

theorem fractionPart?_eq_none (h : ∀ more, cs ≠ '.' :: more) : fractionPart? cs = none := by
  unfold fractionPart?
  split
  · rename_i c more
    exact absurd rfl (h (c :: more))
  · rfl

theorem fractionPart?_eq_some (h : fractionPart? cs = some (w, rest)) :
    IsDigits w ∧ cs = '.' :: (w ++ rest) := by
  unfold fractionPart? at h
  split at h
  · rename_i c more
    split at h
    · rename_i hc
      cases h
      refine ⟨isDigits_takeWhile hc more, ?_⟩
      rw [List.takeWhile_cons_of_pos hc, List.cons_append, List.takeWhile_append_dropWhile]
    · cases h
  · cases h

theorem exponentDigits?_append (hw : IsDigits w) (hrest : NoDigit rest) (negative : Bool) :
    exponentDigits? negative (w ++ rest)
      = some (if negative then -(Text.decimalValue w : Int) else Text.decimalValue w, rest) := by
  obtain ⟨c, more, rfl, hc, hmore⟩ := hw.exists_cons
  rw [List.cons_append, exponentDigits?, if_pos hc, ← List.cons_append,
    takeWhile_digits hw.digits hrest, dropWhile_digits hmore hrest]

theorem exponentDigits?_eq_some {negative : Bool} {power : Int}
    (h : exponentDigits? negative cs = some (power, rest)) : ∃ w, IsDigits w ∧ cs = w ++ rest := by
  unfold exponentDigits? at h
  split at h
  · rename_i c more
    split at h
    · rename_i hc
      cases h
      refine ⟨_, isDigits_takeWhile hc more, ?_⟩
      rw [List.takeWhile_cons_of_pos hc, List.cons_append, List.takeWhile_append_dropWhile]
    · cases h
  · cases h

theorem exponentPart?_append (x : Exponent) (hrest : NoDigit rest) :
    exponentPart? (x.text ++ rest) = some (x.power, rest) := by
  have hread := exponentDigits?_append x.isDigits hrest
  unfold Exponent.text Exponent.power
  cases x.sign with
  | minus =>
    show (if x.mark = 'e' ∨ x.mark = 'E' then exponentDigits? true (x.digits ++ rest) else none) = _
    rw [if_pos x.isMark]
    exact hread true
  | plus =>
    show (if x.mark = 'e' ∨ x.mark = 'E' then exponentDigits? false (x.digits ++ rest)
      else none) = _
    rw [if_pos x.isMark]
    exact hread false
  | absent =>
    obtain ⟨c, more, hdigits, hc, -⟩ := x.isDigits.exists_cons
    show exponentPart? (x.mark :: (x.digits ++ rest)) = _
    unfold exponentPart?
    dsimp only
    rw [if_pos x.isMark]
    split
    · rename_i heq
      rw [hdigits] at heq
      cases heq
      simp [Text.isDigit] at hc
    · rename_i heq
      rw [hdigits] at heq
      cases heq
      simp [Text.isDigit] at hc
    · exact hread false

theorem exponentPart?_eq_none (h : ∀ c more, cs = c :: more → ¬ (c = 'e' ∨ c = 'E')) :
    exponentPart? cs = none := by
  unfold exponentPart?
  split
  · rename_i c more
    rw [if_neg (h c more rfl)]
  · rfl

theorem exponentPart?_eq_some {power : Int} (h : exponentPart? cs = some (power, rest)) :
    ∃ x : Exponent, cs = x.text ++ rest := by
  unfold exponentPart? at h
  split at h
  · rename_i mark more
    split at h
    · rename_i hmark
      split at h
      · obtain ⟨w, hw, rfl⟩ := exponentDigits?_eq_some h
        exact ⟨⟨mark, .minus, w, hmark, hw⟩, rfl⟩
      · obtain ⟨w, hw, rfl⟩ := exponentDigits?_eq_some h
        exact ⟨⟨mark, .plus, w, hmark, hw⟩, rfl⟩
      · obtain ⟨w, hw, rfl⟩ := exponentDigits?_eq_some h
        exact ⟨⟨mark, .absent, w, hmark, hw⟩, rfl⟩
    · cases h
  · cases h

/-! ## Numbers -/

/-- A character that may follow a value in an array or an object. -/
def IsDelimiter (c : Char) : Prop := c = ',' ∨ c = ']' ∨ c = '}'

/-- Nothing that could continue a number or a word stands first. -/
def Stops (cs : List Char) : Prop :=
  ∀ c rest, cs = c :: rest → isSpace c = true ∨ IsDelimiter c

theorem Stops.ne {c : Char} {more : List Char} (h : Stops (c :: more)) :
    Text.isDigit c = false ∧ c ≠ '.' ∧ ¬ (c = 'e' ∨ c = 'E') := by
  rcases h c more rfl with hspace | rfl | rfl | rfl
  · simp only [isSpace, Bool.or_eq_true, beq_iff_eq] at hspace
    rcases hspace with ((rfl | rfl) | rfl) | rfl <;> decide
  · decide
  · decide
  · decide

theorem stops_nil : Stops [] := fun _ _ h => nomatch h

theorem Stops.noDigit (h : Stops rest) : NoDigit rest := by
  rintro c more rfl
  exact h.ne.1

theorem exponentText_head (hrest : Stops rest) (exponent : Option Exponent) {c : Char}
    {more : List Char} (h : exponentText exponent ++ rest = c :: more) :
    Text.isDigit c = false ∧ c ≠ '.' := by
  cases exponent with
  | none =>
    subst h
    exact ⟨hrest.ne.1, hrest.ne.2.1⟩
  | some x =>
    obtain ⟨rfl, -⟩ := List.cons.inj h
    rcases x.isMark with hmark | hmark <;> (rw [hmark]; decide)

theorem noDigit_exponentText (hrest : Stops rest) (exponent : Option Exponent) :
    NoDigit (exponentText exponent ++ rest) :=
  fun _ _ h => (exponentText_head hrest exponent h).1

theorem noDigit_fractionText (hrest : NoDigit rest) (fraction : Option (List Char)) :
    NoDigit (fractionText fraction ++ rest) := by
  cases fraction with
  | none => exact hrest
  | some digits =>
    intro c more h
    obtain ⟨rfl, -⟩ := List.cons.inj h
    rfl

theorem fractionPart?_text (hrest : Stops rest) {fraction : Option (List Char)}
    (hdigits : ∀ digits, fraction = some digits → IsDigits digits) (exponent : Option Exponent) :
    fractionPart? (fractionText fraction ++ (exponentText exponent ++ rest))
      = fraction.map fun digits => (digits, exponentText exponent ++ rest) := by
  cases fraction with
  | none => exact fractionPart?_eq_none fun more h => (exponentText_head hrest exponent h).2 rfl
  | some digits =>
    exact fractionPart?_append (hdigits digits rfl) (noDigit_exponentText hrest exponent)

theorem exponentPart?_text (hrest : Stops rest) (exponent : Option Exponent) :
    exponentPart? (exponentText exponent ++ rest) = exponent.map fun x => (x.power, rest) := by
  cases exponent with
  | none =>
    refine exponentPart?_eq_none fun c more h => ?_
    rw [exponentText, List.nil_append] at h
    subst h
    exact hrest.ne.2.2
  | some x => exact exponentPart?_append x hrest.noDigit

namespace Number

/-- The double that a number writes. -/
def double (n : Number) : Double :=
  .ofDecimal n.negative (Text.decimalValue (n.whole ++ n.fraction.getD []))
    ((n.exponent.map Exponent.power).getD 0 - (n.fraction.getD []).length)

/-- What reading a number gives. -/
def reading (n : Number) (rest : List Char) : Reading Json :=
  if n.fraction.isNone && n.exponent.isNone then
    if n.whole.length > maxIntegerDigits then .error (.tooManyDigits n.whole.length)
    else .ok (.int n.integer, rest)
  else .ok (.float n.double, rest)

variable {n : Number}

theorem magnitude_body (hrest : Stops rest) (left : Nat) :
    magnitude n.negative left (n.body ++ rest) = n.reading rest := by
  have hexponent : NoDigit (exponentText n.exponent ++ rest) :=
    noDigit_exponentText hrest n.exponent
  have hwhole : wholePart? (n.body ++ rest)
      = some (n.whole, fractionText n.fraction ++ (exponentText n.exponent ++ rest)) := by
    unfold body
    rw [List.append_assoc, List.append_assoc]
    exact wholePart?_append n.isWhole (noDigit_fractionText hexponent n.fraction)
  have hafter : (n.fraction.map fun digits => (digits, exponentText n.exponent ++ rest)).getD
      ([], fractionText n.fraction ++ (exponentText n.exponent ++ rest))
        = (n.fraction.getD [], exponentText n.exponent ++ rest) := by
    cases n.fraction <;> rfl
  have hpower : (n.exponent.map fun x => (x.power, rest)).getD (0, exponentText n.exponent ++ rest)
      = ((n.exponent.map Exponent.power).getD 0, rest) := by
    cases n.exponent <;> rfl
  unfold magnitude
  rw [hwhole]
  dsimp only
  rw [fractionPart?_text hrest n.isFraction, hafter]
  dsimp only
  rw [exponentPart?_text hrest, hpower]
  simp only [Option.isNone_map]
  rfl

theorem body_head (n : Number) (rest : List Char) :
    ∃ c more, n.body ++ rest = c :: more ∧ Text.isDigit c = true := by
  obtain ⟨c, more, hwhole, hc, -⟩ := n.isWhole.exists_cons
  refine ⟨c, more ++ (fractionText n.fraction ++ exponentText n.exponent) ++ rest, ?_, hc⟩
  unfold body
  rw [hwhole]
  simp

/-- **A number is read as what it writes**, if nothing continues it. -/
theorem number_text (n : Number) (hrest : Stops rest) :
    number (n.text ++ rest) = n.reading rest := by
  unfold text
  cases hsign : n.negative with
  | true =>
    have hread := magnitude_body (n := n) hrest (n.body ++ rest).length.succ
    rw [hsign] at hread
    exact hread
  | false =>
    have hread := magnitude_body (n := n) hrest (n.body ++ rest).length
    rw [hsign] at hread
    obtain ⟨c, more, hbody, hc⟩ := n.body_head rest
    rw [if_neg Bool.false_ne_true, ← hread, hbody]
    unfold number
    split
    · rename_i heq
      cases heq
      simp [Text.isDigit] at hc
    · rfl

end Number

theorem exists_fraction (cs : List Char) : ∃ fraction : Option (List Char),
    (∀ digits, fraction = some digits → IsDigits digits) ∧
      cs = fractionText fraction ++ ((fractionPart? cs).getD ([], cs)).2 := by
  cases hread : fractionPart? cs with
  | none => exact ⟨none, by simp, rfl⟩
  | some part =>
    obtain ⟨hdigits, hcs⟩ := fractionPart?_eq_some hread
    refine ⟨some part.1, fun digits hsome => ?_, hcs⟩
    cases hsome
    exact hdigits

theorem exists_exponent (cs : List Char) : ∃ exponent : Option Exponent,
    cs = exponentText exponent ++ ((exponentPart? cs).getD (0, cs)).2 := by
  cases hread : exponentPart? cs with
  | none => exact ⟨none, rfl⟩
  | some part =>
    obtain ⟨x, hcs⟩ := exponentPart?_eq_some hread
    exact ⟨some x, hcs⟩

theorem body_of_magnitude {negative : Bool} {left : Nat} {v : Json}
    (h : magnitude negative left cs = .ok (v, rest)) :
    ∃ n : Number, n.negative = negative ∧ cs = n.body ++ rest := by
  unfold magnitude at h
  split at h
  · cases h
  rename_i whole afterWhole hwhole
  obtain ⟨hisWhole, rfl⟩ := wholePart?_eq_some hwhole
  obtain ⟨fraction, hfraction, hafter⟩ := exists_fraction afterWhole
  obtain ⟨exponent, hexponent⟩ :=
    exists_exponent ((fractionPart? afterWhole).getD ([], afterWhole)).2
  have hrest : ((exponentPart? ((fractionPart? afterWhole).getD ([], afterWhole)).2).getD
      (0, ((fractionPart? afterWhole).getD ([], afterWhole)).2)).2 = rest := by
    dsimp only at h
    split at h
    · split at h <;> cases h
      rfl
    · cases h
      rfl
  rw [hrest] at hexponent
  refine ⟨⟨negative, whole, fraction, exponent, hisWhole, hfraction⟩, rfl, ?_⟩
  show whole ++ afterWhole = whole ++ (fractionText fraction ++ exponentText exponent) ++ rest
  rw [List.append_assoc, List.append_assoc, ← hexponent, ← hafter]

/-- **Only numbers are read as numbers.** -/
theorem text_of_number {v : Json} (h : number cs = .ok (v, rest)) :
    ∃ n : Number, cs = n.text ++ rest := by
  unfold number at h
  split at h
  · obtain ⟨n, hsign, rfl⟩ := body_of_magnitude h
    refine ⟨n, ?_⟩
    unfold Number.text
    rw [hsign, if_pos rfl]
    rfl
  · obtain ⟨n, hsign, rfl⟩ := body_of_magnitude h
    refine ⟨n, ?_⟩
    unfold Number.text
    rw [hsign, if_neg Bool.false_ne_true]

/-! ## Lengths -/

theorem digitValue_le (c : Char) : Text.digitValue c ≤ 9 := by
  unfold Text.digitValue
  split
  · rename_i h
    have hhigh : c.toNat ≤ 57 := of_decide_eq_true (Bool.and_eq_true_iff.mp h).2
    omega
  · omega

theorem digitValue_pos {c : Char} (h : Text.isDigit c = true) (hzero : c ≠ '0') :
    0 < Text.digitValue c := by
  obtain ⟨k, hk, rfl⟩ := exists_of_isDigit h
  revert k
  decide

theorem foldl_digits (cs : List Char) (n : Nat) :
    cs.foldl (fun n c => n * 10 + Text.digitValue c) n
      = n * Nat.pow 10 cs.length + Text.decimalValue cs := by
  unfold Text.decimalValue
  induction cs generalizing n with
  | nil => exact (Nat.mul_one n).symm
  | cons c rest ih =>
    have hpow : Nat.pow 10 (c :: rest).length = Nat.pow 10 rest.length * 10 := rfl
    rw [List.foldl_cons, List.foldl_cons, ih, ih (0 * 10 + Text.digitValue c), hpow, Nat.zero_mul,
      Nat.zero_add, Nat.add_mul, Nat.mul_assoc, Nat.mul_comm 10]
    omega

theorem decimalValue_cons (c : Char) (cs : List Char) :
    Text.decimalValue (c :: cs)
      = Text.digitValue c * Nat.pow 10 cs.length + Text.decimalValue cs := by
  show cs.foldl _ (0 * 10 + Text.digitValue c) = _
  rw [foldl_digits, Nat.zero_mul, Nat.zero_add]

theorem decimalValue_lt (cs : List Char) : Text.decimalValue cs < Nat.pow 10 cs.length := by
  induction cs with
  | nil => exact Nat.one_pos
  | cons c rest ih =>
    have hpow : Nat.pow 10 (c :: rest).length = Nat.pow 10 rest.length * 10 := rfl
    have hdigit : Text.digitValue c * Nat.pow 10 rest.length ≤ 9 * Nat.pow 10 rest.length :=
      Nat.mul_le_mul_right _ (digitValue_le c)
    rw [decimalValue_cons, hpow]
    omega

/-- **The length of an integer is told by its size**, since no needless zeros stand in front. -/
theorem IsWhole.length_le_iff (hw : IsWhole w) {m : Nat} (hm : 0 < m) :
    w.length ≤ m ↔ Text.decimalValue w < Nat.pow 10 m := by
  constructor
  · intro hle
    exact Nat.lt_of_lt_of_le (decimalValue_lt w) (Nat.pow_le_pow_right (by decide) hle)
  · intro hlt
    rcases Nat.lt_or_ge m w.length with hlong | hshort
    · obtain ⟨c, more, rfl, hc, -⟩ := hw.exists_cons
      have hlength : (c :: more).length = more.length + 1 := rfl
      have hzero : c ≠ '0' := by
        rintro rfl
        rw [hw.zero more rfl] at hlong
        exact absurd hlong (Nat.not_lt.mpr hm)
      have hpow : Nat.pow 10 m ≤ Nat.pow 10 more.length :=
        Nat.pow_le_pow_right (by decide) (by omega)
      have hdigit : 1 * Nat.pow 10 more.length ≤ Text.digitValue c * Nat.pow 10 more.length :=
        Nat.mul_le_mul_right _ (digitValue_pos hc hzero)
      rw [decimalValue_cons] at hlt
      omega
    · exact hshort

/-! ## Numbers as numerals -/

/-- The characters of numbers. -/
def IsNumberChar (c : Char) : Prop := Text.isDigit c = true ∨ c ∈ ['.', 'e', 'E', '+', '-']

/-- The characters of numbers are plain: no white space, no underscores, no digits of other
scripts. -/
theorem IsNumberChar.plain {c : Char} (h : IsNumberChar c) :
    Numeral.plainDigit c = c ∧ Text.isWhite c = false ∧ c ≠ '_' := by
  rcases h with h | h
  · obtain ⟨k, hk, rfl⟩ := exists_of_isDigit h
    revert k
    decide
  · simp only [List.mem_cons, List.not_mem_nil, or_false] at h
    rcases h with rfl | rfl | rfl | rfl | rfl <;> decide

theorem IsDigits.isNumberChar (h : IsDigits w) : ∀ c ∈ w, IsNumberChar c :=
  fun c hc => Or.inl (h.digits c hc)

theorem isNumberChar_exponentText (exponent : Option Exponent) :
    ∀ c ∈ exponentText exponent, IsNumberChar c := by
  intro c hc
  cases exponent with
  | none => cases hc
  | some x =>
    rcases List.mem_cons.mp hc with rfl | hc
    · rcases x.isMark with hmark | hmark <;> (rw [hmark]; exact Or.inr (by decide))
    · rcases List.mem_append.mp hc with hc | hc
      · cases hsign : x.sign <;> rw [hsign] at hc
        · cases hc
        · rw [List.mem_singleton.mp hc]
          exact Or.inr (by decide)
        · rw [List.mem_singleton.mp hc]
          exact Or.inr (by decide)
      · exact x.isDigits.isNumberChar c hc

theorem isNumberChar_body (n : Number) : ∀ c ∈ n.body, IsNumberChar c := by
  intro c hc
  rcases List.mem_append.mp hc with hc | hc
  · exact n.isWhole.isNumberChar c hc
  rcases List.mem_append.mp hc with hc | hc
  · cases hf : n.fraction with
    | none =>
      rw [hf] at hc
      cases hc
    | some digits =>
      rw [hf] at hc
      rcases List.mem_cons.mp hc with rfl | hc
      · exact Or.inr (by decide)
      · exact (n.isFraction digits hf).isNumberChar c hc
  · exact isNumberChar_exponentText n.exponent c hc

theorem isNumberChar_text (n : Number) : ∀ c ∈ n.text, IsNumberChar c := by
  intro c hc
  unfold Number.text at hc
  split at hc
  · rcases List.mem_cons.mp hc with rfl | hc
    · exact Or.inr (by decide)
    · exact isNumberChar_body n c hc
  · exact isNumberChar_body n c hc

theorem dropWhile_of_none {p : Char → Bool} (h : ∀ c ∈ cs, p c = false) : cs.dropWhile p = cs := by
  cases cs with
  | nil => rfl
  | cons c rest => exact List.dropWhile_cons_of_neg (by simp [h c List.mem_cons_self])

theorem trim_of_plain (h : ∀ c ∈ cs, Text.isWhite c = false) : Text.trim cs = cs := by
  unfold Text.trim Text.dropEnds
  rw [dropWhile_of_none h, dropWhile_of_none fun c hc => h c (List.mem_reverse.mp hc),
    List.reverse_reverse]

theorem dropUnderscores?_of_plain (h : ∀ c ∈ cs, c ≠ '_') {previous : Char}
    (hprevious : previous ≠ '_') : Numeral.dropUnderscores? previous cs = some cs := by
  induction cs generalizing previous with
  | nil => rw [Numeral.dropUnderscores?, if_neg hprevious]
  | cons c rest ih =>
    have hc : c ≠ '_' := h c List.mem_cons_self
    rw [Numeral.dropUnderscores?, if_neg hc, ih (fun d hd => h d (List.mem_cons_of_mem c hd)) hc]
    simp [hprevious]

theorem takeSign_of_digits (hw : IsDigits w) (rest : List Char) :
    Numeral.takeSign (w ++ rest) = (false, w ++ rest) := by
  obtain ⟨c, more, rfl, hc, -⟩ := hw.exists_cons
  rw [List.cons_append]
  unfold Numeral.takeSign
  split
  · rename_i heq
    cases heq
    simp [Text.isDigit] at hc
  · rename_i heq
    cases heq
    simp [Text.isDigit] at hc
  · rfl

theorem readExponent?_text (x : Exponent) :
    Numeral.readExponent? (x.sign.text ++ x.digits) = some x.power := by
  have hsign : Numeral.takeSign (x.sign.text ++ x.digits)
      = (decide (x.sign = .minus), x.digits) := by
    cases x.sign with
    | absent =>
      have hplain := takeSign_of_digits x.isDigits []
      rw [List.append_nil] at hplain
      exact hplain
    | plus => rfl
    | minus => rfl
  have hempty : x.digits.isEmpty = false := by
    rw [List.isEmpty_eq_false_iff]
    exact x.isDigits.nonempty
  have hall : x.digits.all Text.isDigit = true := List.all_eq_true.mpr x.isDigits.digits
  unfold Numeral.readExponent? Exponent.power
  rw [hsign]
  dsimp only
  rw [hempty, hall]
  simp

theorem readPower?_text (exponent : Option Exponent) :
    Numeral.readPower? (exponentText exponent) = some ((exponent.map Exponent.power).getD 0) := by
  cases exponent with
  | none => rfl
  | some x =>
    show (if x.mark = 'e' ∨ x.mark = 'E' then Numeral.readExponent? (x.sign.text ++ x.digits)
      else none) = some x.power
    rw [if_pos x.isMark, readExponent?_text]

theorem takeFraction_text {fraction : Option (List Char)}
    (hdigits : ∀ digits, fraction = some digits → IsDigits digits) (exponent : Option Exponent) :
    Numeral.takeFraction (fractionText fraction ++ exponentText exponent)
      = (fraction.getD [], exponentText exponent) := by
  have hexponent := noDigit_exponentText stops_nil exponent
  rw [List.append_nil] at hexponent
  cases fraction with
  | none =>
    rw [fractionText, List.nil_append]
    unfold Numeral.takeFraction
    split
    · rename_i more heq
      rw [← List.append_nil (exponentText exponent)] at heq
      exact absurd rfl (exponentText_head stops_nil exponent heq).2
    · rfl
  | some digits =>
    have hall := (hdigits digits rfl).digits
    show (List.takeWhile _ (digits ++ _), List.dropWhile _ (digits ++ _)) = _
    rw [takeWhile_digits hall hexponent, dropWhile_digits hall hexponent]
    rfl

theorem readUnsigned?_body (n : Number) :
    Numeral.readUnsigned? n.negative n.body = some n.double := by
  have hexponent := noDigit_exponentText stops_nil n.exponent
  rw [List.append_nil] at hexponent
  have hafter := noDigit_fractionText hexponent n.fraction
  have hempty : n.whole.isEmpty = false := List.isEmpty_eq_false_iff.mpr n.isWhole.nonempty
  unfold Numeral.readUnsigned? Number.body Number.double
  rw [takeWhile_digits n.isWhole.digits hafter, dropWhile_digits n.isWhole.digits hafter,
    takeFraction_text n.isFraction]
  dsimp only
  rw [hempty, readPower?_text]
  rfl

/-- A numeral that starts with a digit is none of the words for the special values. -/
theorem word_ne (n : Number) {word : String} {c : Char} {rest : List Char}
    (hword : word.toList = c :: rest) (hc : c = 'i' ∨ c = 'n') :
    String.ofList (n.body.map Text.lowerChar) ≠ word := by
  intro heq
  have hlist := congrArg String.toList heq
  obtain ⟨d, more, hwhole, hd, -⟩ := n.isWhole.exists_cons
  unfold Number.body at hlist
  rw [String.toList_ofList, hword, hwhole] at hlist
  have hhead : Text.lowerChar d = c := (List.cons.inj hlist).1
  obtain ⟨k, hk, rfl⟩ := exists_of_isDigit hd
  have hall : ∀ k < 10, Text.lowerChar (Char.ofNat (48 + k)) ≠ 'i' ∧
      Text.lowerChar (Char.ofNat (48 + k)) ≠ 'n' := by decide
  have hnot := hall k hk
  rw [hhead] at hnot
  exact hc.elim hnot.1 hnot.2

/-- **A number writes the double that its text is as a numeral.** -/
theorem readDouble?_text (n : Number) :
    Numeral.readDouble? (String.ofList n.text) = some n.double := by
  have hplain := fun c hc => (isNumberChar_text n c hc).plain
  have hnormal : Numeral.normalize (String.ofList n.text) = n.text := by
    unfold Numeral.normalize
    rw [String.toList_ofList, trim_of_plain fun c hc => (hplain c hc).2.1]
    exact (List.map_congr_left fun c hc => (hplain c hc).1).trans (List.map_id _)
  have hsign : Numeral.takeSign n.text = (n.negative, n.body) := by
    unfold Number.text
    cases n.negative with
    | true => rfl
    | false => exact takeSign_of_digits n.isWhole.toIsDigits _
  unfold Numeral.readDouble?
  rw [hnormal, dropUnderscores?_of_plain (fun c hc => (hplain c hc).2.2) (by decide)]
  dsimp only
  rw [hsign]
  dsimp only
  have hinf : String.ofList (n.body.map Text.lowerChar) ≠ "inf" := word_ne n rfl (Or.inl rfl)
  have hinfinity : String.ofList (n.body.map Text.lowerChar) ≠ "infinity" :=
    word_ne n rfl (Or.inl rfl)
  have hnan : String.ofList (n.body.map Text.lowerChar) ≠ "nan" := word_ne n rfl (Or.inr rfl)
  rw [if_neg (not_or.mpr ⟨hinf, hinfinity⟩), if_neg hnan, readUnsigned?_body]

end Telemetry.Json
