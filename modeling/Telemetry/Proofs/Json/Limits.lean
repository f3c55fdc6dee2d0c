import Telemetry.Json.Encoding
import Telemetry.Proofs.Json.Continuation

/-!
# The limits of reading

A text that is no value has a flaw. But reading stops for two more reasons, whether the text is a
value or not: it is nested too deeply, or an integer in it has too many digits. Both show in the
text, as so many opening brackets, or as so many digits in a row.

Main statements: `grounded_value`, `not_pastLimit`; and the texts of `parseChars_brackets` and
`parseChars_long`, for which reading stops at a limit.
-/

namespace Telemetry.Json

variable {α : Type} {depth : Nat} {cs more rest : List Char} {c : Char} {e : Failure}

/-! ## What a failure shows -/

/-- A character that opens an array or an object. -/
def isOpening (c : Char) : Bool := c == '[' || c == '{'

/-- What is in a text if reading it fails: enough opening brackets, or an integer that is too
long. -/
def Exceeds (depth : Nat) (cs : List Char) : Failure → Prop
  | .flaw _ _ => True
  | .tooDeep => depth ≤ cs.countP isOpening
  | .tooManyDigits count => maxIntegerDigits < count ∧
      ∃ digits, digits <:+: cs ∧ IsDigits digits ∧ digits.length = count

/-- A reading leaves an end of its text, or fails for something in the text. -/
def Grounded (depth : Nat) (cs : List Char) : Reading α → Prop
  | .ok (_, rest) => rest <:+ cs
  | .error e => Exceeds depth cs e

theorem Exceeds.of_suffix (h : Exceeds depth cs e) (hcs : cs <:+ more) : Exceeds depth more e := by
  cases e with
  | flaw found left => trivial
  | tooDeep => exact Nat.le_trans h (hcs.sublist.countP_le)
  | tooManyDigits count =>
    obtain ⟨hcount, digits, hin, hdigits⟩ := h
    exact ⟨hcount, digits, hin.trans hcs.isInfix, hdigits⟩

/-- Behind an opening bracket the text is nested one level deeper. -/
theorem Exceeds.nested (h : Exceeds depth cs e) (hc : isOpening c = true) :
    Exceeds (depth + 1) (c :: cs) e := by
  cases e with
  | flaw found left => trivial
  | tooDeep =>
    show depth + 1 ≤ (c :: cs).countP isOpening
    rw [List.countP_cons_of_pos hc]
    exact Nat.succ_le_succ h
  | tooManyDigits count =>
    obtain ⟨hcount, digits, hin, hdigits⟩ := h
    exact ⟨hcount, digits, hin.trans (List.suffix_cons c cs).isInfix, hdigits⟩

theorem Grounded.of_suffix {r : Reading α} (h : Grounded depth cs r) (hcs : cs <:+ more) :
    Grounded depth more r := by
  cases r with
  | error e => exact Exceeds.of_suffix h hcs
  | ok found => exact List.IsSuffix.trans h hcs

/-! ## Strings -/

theorem stringUnits_grounded (depth opening : Nat) (cs : List Char) :
    Grounded depth cs (stringUnits opening cs) := by
  have hconsUnit {n : Nat} {r : Reading (List Nat)} {cs more : List Char}
      (h : Grounded depth cs r) (hcs : cs <:+ more) : Grounded depth more (consUnit n r) := by
    cases r with
    | error e => exact Exceeds.of_suffix h hcs
    | ok found => exact List.IsSuffix.trans h hcs
  fun_induction stringUnits opening cs with
  | case2 rest => exact List.suffix_cons _ _
  | case5 a b c d e rest n hunit ih => exact hconsUnit ih ⟨['\\', 'u', a, b, c, d], rfl⟩
  | case7 e rest _ _ c hescaped ih => exact hconsUnit ih ⟨['\\', e], rfl⟩
  | case10 c rest _ _ _ _ _ _ ih => exact hconsUnit ih (List.suffix_cons _ _)
  | _ => trivial

theorem string_grounded (depth opening : Nat) (cs : List Char) :
    Grounded depth cs (string opening cs) := by
  have hunits := stringUnits_grounded depth opening cs
  unfold string
  cases hread : stringUnits opening cs with
  | error e =>
    rw [hread] at hunits
    exact hunits
  | ok found =>
    rw [hread] at hunits
    exact hunits

/-! ## Words and numbers -/

theorem magnitude_grounded (depth : Nat) (negative : Bool) (left : Nat) (cs : List Char) :
    Grounded depth cs (magnitude negative left cs) := by
  cases hread : magnitude negative left cs with
  | ok found =>
    obtain ⟨v, rest⟩ := found
    obtain ⟨n, -, hcs⟩ := body_of_magnitude hread
    exact ⟨n.body, hcs.symm⟩
  | error e =>
    unfold magnitude at hread
    split at hread
    · cases hread
      trivial
    · rename_i whole afterWhole hwhole
      obtain ⟨hisWhole, hcs⟩ := wholePart?_eq_some hwhole
      dsimp only at hread
      split at hread
      · split at hread
        -- Only an integer is counted, so the digits are all that was read.
        · rename_i hlong
          cases hread
          exact ⟨hlong, whole, (hcs ▸ List.prefix_append whole afterWhole).isInfix,
            hisWhole.toIsDigits, rfl⟩
        · cases hread
      · cases hread

theorem number_grounded (depth : Nat) (cs : List Char) : Grounded depth cs (number cs) := by
  unfold number
  split
  · exact (magnitude_grounded depth true _ _).of_suffix (List.suffix_cons _ _)
  · exact magnitude_grounded depth false _ _

theorem scalar_grounded (depth : Nat) (cs : List Char) : Grounded depth cs (scalar cs) := by
  unfold scalar
  repeat' split
  all_goals first
    | exact number_grounded depth cs
    | rename_i hword
      exact ⟨_, (afterWord?_eq_some hword).symm⟩

/-! ## Arrays and objects -/

section Nested

variable {parse : List Char → Reading Json}

theorem skipSpace_suffix (cs : List Char) : skipSpace cs <:+ cs := List.dropWhile_suffix isSpace

theorem tail_suffix (h : skipSpace cs = c :: rest) : rest <:+ cs :=
  (List.suffix_cons c rest).trans (h ▸ skipSpace_suffix cs)

theorem items_grounded (hparse : ∀ cs, Grounded depth cs (parse cs)) (fuel : Nat)
    (cs : List Char) : Grounded depth cs (items parse fuel cs) := by
  induction fuel generalizing cs with
  | zero => trivial
  | succ fuel ih =>
    have hv := hparse cs
    rw [items]
    cases hread : parse cs with
    | error e =>
      rw [hread] at hv
      exact hv
    | ok found =>
      obtain ⟨v, after⟩ := found
      rw [hread] at hv
      dsimp only
      split
      · rename_i tail hafter
        exact (tail_suffix hafter).trans hv
      -- Behind a comma reading goes on further down the text, and what shows there shows in it.
      · rename_i tail hafter
        have hmore := (ih (skipSpace tail)).of_suffix
          (((skipSpace_suffix tail).trans (tail_suffix hafter)).trans hv)
        cases hread' : items parse fuel (skipSpace tail) with
        | error e =>
          rw [hread'] at hmore
          exact hmore
        | ok others =>
          rw [hread'] at hmore
          exact hmore
      · trivial

theorem fieldName_grounded (depth : Nat) (cs : List Char) :
    Grounded depth cs (fieldName cs) := by
  unfold fieldName
  split
  · rename_i afterQuote
    have hstring := (string_grounded depth ('"' :: afterQuote).length afterQuote).of_suffix
      (List.suffix_cons '"' afterQuote)
    cases hread : string ('"' :: afterQuote).length afterQuote with
    | error e =>
      rw [hread] at hstring
      exact hstring
    | ok found =>
      obtain ⟨name, afterName⟩ := found
      rw [hread] at hstring
      dsimp only
      split
      · rename_i afterColon hcolon
        exact ((skipSpace_suffix afterColon).trans (tail_suffix hcolon)).trans hstring
      · trivial
  · trivial

theorem members_grounded (hparse : ∀ cs, Grounded depth cs (parse cs)) (fuel : Nat)
    (cs : List Char) : Grounded depth cs (members parse fuel cs) := by
  induction fuel generalizing cs with
  | zero => trivial
  | succ fuel ih =>
    have hname := fieldName_grounded depth cs
    rw [members]
    cases hreadName : fieldName cs with
    | error e =>
      rw [hreadName] at hname
      exact hname
    | ok found =>
      obtain ⟨name, afterColon⟩ := found
      rw [hreadName] at hname
      have hv := (hparse afterColon).of_suffix hname
      dsimp only
      cases hread : parse afterColon with
      | error e =>
        rw [hread] at hv
        exact hv
      | ok found =>
        obtain ⟨v, after⟩ := found
        rw [hread] at hv
        dsimp only
        split
        · rename_i tail hafter
          exact (tail_suffix hafter).trans hv
        · rename_i tail hafter
          have hmore := (ih (skipSpace tail)).of_suffix
            (((skipSpace_suffix tail).trans (tail_suffix hafter)).trans hv)
          cases hread' : members parse fuel (skipSpace tail) with
          | error e =>
            rw [hread'] at hmore
            exact hmore
          | ok others =>
            rw [hread'] at hmore
            exact hmore
        · trivial

end Nested

/-! ## Values -/

/-- What is read behind an opening bracket shows one level deeper. -/
theorem Grounded.nested {r : Reading α} (h : Grounded depth cs r) (hc : isOpening c = true)
    (hcs : cs <:+ more) : Grounded (depth + 1) (c :: more) r := by
  have hmore := h.of_suffix hcs
  cases r with
  | error e => exact Exceeds.nested hmore hc
  | ok found => exact List.IsSuffix.trans hmore (List.suffix_cons c more)

theorem value_array_grounded (hparse : ∀ cs, Grounded depth cs (value depth cs))
    (cs : List Char) : Grounded (depth + 1) ('[' :: cs) (value (depth + 1) ('[' :: cs)) := by
  rw [value]
  split
  · rename_i tail hskip
    exact (tail_suffix hskip).trans (List.suffix_cons '[' cs)
  · have hitems := (items_grounded hparse ((skipSpace cs).length + 1) (skipSpace cs)).nested
      (c := '[') rfl (skipSpace_suffix cs)
    cases hread : items (value depth) ((skipSpace cs).length + 1) (skipSpace cs) with
    | error e =>
      rw [hread] at hitems
      exact hitems
    | ok found =>
      rw [hread] at hitems
      exact hitems

theorem value_object_grounded (hparse : ∀ cs, Grounded depth cs (value depth cs))
    (cs : List Char) : Grounded (depth + 1) ('{' :: cs) (value (depth + 1) ('{' :: cs)) := by
  rw [value]
  split
  · rename_i tail hskip
    exact (tail_suffix hskip).trans (List.suffix_cons '{' cs)
  · have hmembers := (members_grounded hparse ((skipSpace cs).length + 1) (skipSpace cs)).nested
      (c := '{') rfl (skipSpace_suffix cs)
    cases hread : members (value depth) ((skipSpace cs).length + 1) (skipSpace cs) with
    | error e =>
      rw [hread] at hmembers
      exact hmembers
    | ok found =>
      rw [hread] at hmembers
      exact hmembers

/-- **Reading fails for a limit only where the text reaches it.** The induction is on the depth that
is left, which every opening bracket takes one from. -/
theorem grounded_value (depth : Nat) (cs : List Char) : Grounded depth cs (value depth cs) := by
  induction depth generalizing cs with
  | zero => exact Nat.zero_le _
  | succ depth ih =>
    cases cs with
    | nil => exact scalar_grounded (depth + 1) []
    | cons c cs =>
      by_cases hquote : c = '"'
      · subst hquote
        have hstring := (string_grounded (depth + 1) ('"' :: cs).length cs).of_suffix
          (List.suffix_cons '"' cs)
        rw [value]
        cases hread : string ('"' :: cs).length cs with
        | error e =>
          rw [hread] at hstring
          exact hstring
        | ok found =>
          rw [hread] at hstring
          exact hstring
      by_cases hbracket : c = '['
      · subst hbracket
        exact value_array_grounded ih cs
      by_cases hbrace : c = '{'
      · subst hbrace
        exact value_object_grounded ih cs
      rw [value_scalar hquote hbracket hbrace]
      exact scalar_grounded (depth + 1) (c :: cs)

/-! ## Texts -/

/-- A failure at a limit, which leaves open whether the text is a value. -/
def ReadError.AtLimit (e : ReadError) : Prop := e = .tooDeep ∨ ∃ count, e = .tooManyDigits count

/-- A text that stays below the limits whatever it means: few opening brackets, and few digits in a
row. -/
structure Modest (cs : List Char) : Prop where
  brackets : cs.countP isOpening < maxDepth
  digits : ∀ digits, digits <:+: cs → IsDigits digits → digits.length ≤ maxIntegerDigits

/-- **A modest text is a value or has a flaw.** -/
theorem parseChars_of_modest (h : Modest cs) {e : ReadError} (he : parseChars cs = .error e) :
    ¬ e.AtLimit := by
  have hvalue := (grounded_value maxDepth (skipSpace cs)).of_suffix (skipSpace_suffix cs)
  unfold parseChars at he
  split at he
  · rename_i failure hread
    rw [hread] at hvalue
    cases he
    rintro (hlimit | ⟨count, hlimit⟩)
    · cases failure with
      | tooDeep => exact absurd h.brackets (Nat.not_lt.mpr hvalue)
      | _ => cases hlimit
    · cases failure with
      | tooManyDigits found =>
        obtain ⟨hlong, digits, hin, hdigits, rfl⟩ := hvalue
        exact absurd (h.digits digits hin hdigits) (Nat.not_le.mpr hlong)
      | _ => cases hlimit
  · split at he
    · cases he
    · cases he
      rintro (hlimit | ⟨count, hlimit⟩) <;> cases hlimit

theorem value_brackets {n : Nat} (h : depth ≤ n) :
    value depth (List.replicate n '[') = .error .tooDeep := by
  -- Each bracket takes one level, and a shorter row of brackets is behind it.
  induction depth generalizing n with
  | zero => rfl
  | succ depth ih =>
    obtain ⟨n, rfl⟩ := Nat.exists_eq_add_one_of_ne_zero (Nat.ne_zero_of_lt h)
    have hmore := ih (Nat.le_of_succ_le_succ h)
    have hskip : skipSpace (List.replicate n '[') = List.replicate n '[' := by
      cases n with
      | zero => rfl
      | succ n => exact skipSpace_cons rfl _
    rw [List.replicate_succ, value, hskip]
    split
    · rename_i tail hclose
      cases n with
      | zero => cases hclose
      | succ n => exact absurd (List.cons.inj hclose).1 (by decide)
    · rw [items, hmore]

/-- **So many opening brackets are nested too deeply**, and whatever is missing behind them is not
looked for. -/
theorem parseChars_brackets {n : Nat} (h : maxDepth ≤ n) :
    parseChars (List.replicate n '[') = .error .tooDeep := by
  have hskip : skipSpace (List.replicate n '[') = List.replicate n '[' := by
    obtain ⟨n, rfl⟩ := Nat.exists_eq_add_one_of_ne_zero (Nat.ne_zero_of_lt h)
    exact skipSpace_cons rfl _
  rw [parseChars, hskip, value_brackets h]
  rfl

/-- **An integer with too many digits is not read**, although it is a value. -/
theorem parseChars_long (n : Number) (h : n.IsInteger) (hlong : maxIntegerDigits < n.whole.length) :
    parseChars n.text = .error (.tooManyDigits n.whole.length) := by
  have hskip : skipSpace n.text = n.text := by
    obtain ⟨c, more, hc, htext | htext⟩ := n.text_head []
    · rw [← List.append_nil n.text, htext, skipSpace_cons (isFirst_digit hc).1]
    · rw [← List.append_nil n.text, htext, skipSpace_cons rfl]
  have hread : value maxDepth n.text = n.reading [] := by
    have htext := value_text (maxDepth - 1) n stops_nil
    rwa [List.append_nil] at htext
  have hreading : n.reading [] = .error (.tooManyDigits n.whole.length) := by
    unfold Number.reading
    rw [h.1, h.2]
    exact if_pos hlong
  rw [parseChars, hskip, hread, hreading]
  rfl

/-- The number that is written with ones only, one more than `n`. -/
def ones (n : Nat) : Number where
  negative := false
  whole := List.replicate (n + 1) '1'
  fraction := none
  exponent := none
  isWhole := {
    nonempty := List.cons_ne_nil _ _
    digits := fun c hc => List.eq_of_mem_replicate hc ▸ rfl
    zero := fun rest h => absurd (List.cons.inj h).1 (by decide) }
  isFraction := nofun

theorem ones_text (n : Nat) : (ones n).text = List.replicate (n + 1) '1' := List.append_nil _

/-! ## Bytes -/

/-- Reading bytes stops at a limit, which leaves open whether they are a value. -/
def PastLimit (raw : List UInt8) : Prop :=
  ∃ e : ReadError, e.AtLimit ∧ parseBytes raw = .error (.unreadable e)

/-- Bytes whose text is modest are read, or they are no value. -/
theorem not_pastLimit {raw : List UInt8} (h : ∀ cs, decodeBytes? raw = some cs → Modest cs) :
    ¬ PastLimit raw := by
  rintro ⟨e, hlimit, hread⟩
  unfold parseBytes at hread
  split at hread
  · cases hread
  · rename_i cs hcs
    cases hparse : parseChars cs with
    | ok v =>
      rw [hparse] at hread
      cases hread
    | error e' =>
      rw [hparse] at hread
      cases hread
      exact parseChars_of_modest (h cs hcs) hparse hlimit

/-- A byte of ASCII that is not zero. -/
def IsAscii (b : UInt8) : Prop := 0 < b.toNat ∧ b.toNat < 0x80

instance (b : UInt8) : Decidable (IsAscii b) :=
  inferInstanceAs (Decidable (0 < b.toNat ∧ b.toNat < 0x80))

theorem isAscii_of_all {bytes : List UInt8}
    (h : bytes.all (fun b => decide (IsAscii b)) = true) : ∀ b ∈ bytes, IsAscii b :=
  fun b hb => of_decide_eq_true (List.all_eq_true.mp h b hb)

theorem decodeUtf8?_ascii {bytes : List UInt8} (h : ∀ b ∈ bytes, IsAscii b) :
    Text.decodeUtf8? bytes = some (bytes.map fun b => Char.ofNat b.toNat) := by
  unfold Text.decodeUtf8?
  induction bytes with
  | nil => rw [Text.scanUtf8]; rfl
  | cons b bytes ih =>
    obtain ⟨hb, hbytes⟩ := List.forall_mem_cons.mp h
    rw [Text.scanUtf8, if_pos hb.2, List.mapM_cons, ih hbytes]
    rfl

/-- Bytes are taken for UTF-8 if the first two of them are ASCII. -/
theorem decodeBytes?_utf8 {bytes : List UInt8} (h : ∀ b ∈ bytes.take 2, IsAscii b) :
    decodeBytes? bytes = Text.decodeUtf8? bytes := by
  have hmark : markedEncoding? bytes = none := by
    unfold markedEncoding?
    split <;> first
      | rfl
      | exact absurd (h _ List.mem_cons_self) (by decide)
  have hguess : guessedEncoding bytes = .utf8 := by
    have hzero : ∀ b ∈ bytes.take 2, b ≠ 0 := by
      rintro b hb rfl
      exact absurd (h 0 hb) (by decide)
    unfold guessedEncoding
    split
    · rw [if_neg (hzero _ (by simp)), if_neg (hzero _ (by simp))]
    · rw [if_neg (hzero _ (by simp)), if_neg (hzero _ (by simp))]
    · rfl
  rw [decodeBytes?, hmark, hguess]
  rfl

/-- Bytes of ASCII are their own characters. -/
theorem decodeBytes?_ascii {bytes : List UInt8} (h : ∀ b ∈ bytes, IsAscii b) :
    decodeBytes? bytes = some (bytes.map fun b => Char.ofNat b.toNat) := by
  rw [decodeBytes?_utf8 fun b hb => h b (List.mem_of_mem_take hb), decodeUtf8?_ascii h]

/-- No bytes are no value. -/
theorem parseBytes_nil :
    parseBytes [] = .error (.unreadable (.malformed (locate [] .noValue 0))) := by
  have hascii : ∀ b ∈ ([] : List UInt8), IsAscii b := fun _ h => nomatch h
  rw [parseBytes, decodeBytes?_ascii hascii]
  rfl

theorem pastLimit_ascii {raw : List UInt8} (h : ∀ b ∈ raw, IsAscii b) {e : ReadError}
    (he : parseChars (raw.map fun b => Char.ofNat b.toNat) = .error e) (hlimit : e.AtLimit) :
    PastLimit raw := by
  refine ⟨e, hlimit, ?_⟩
  rw [parseBytes, decodeBytes?_ascii h]
  dsimp only
  rw [he]
  rfl

theorem pastLimit_brackets {n : Nat} (h : maxDepth ≤ n) : PastLimit (List.replicate n 0x5B) := by
  refine pastLimit_ascii (fun b hb => List.eq_of_mem_replicate hb ▸ by decide) ?_ (.inl rfl)
  rw [List.map_replicate]
  exact parseChars_brackets h

theorem pastLimit_ones {n : Nat} (h : maxIntegerDigits < n) : PastLimit (List.replicate n 0x31) := by
  obtain ⟨n, rfl⟩ := Nat.exists_eq_add_one_of_ne_zero (Nat.ne_zero_of_lt h)
  have hlength : (ones n).whole.length = n + 1 := List.length_replicate
  refine pastLimit_ascii (fun b hb => List.eq_of_mem_replicate hb ▸ by decide) ?_
    (.inr ⟨n + 1, rfl⟩)
  rw [List.map_replicate]
  have hread := parseChars_long (ones n) ⟨rfl, rfl⟩ (hlength.symm ▸ h)
  rwa [ones_text, hlength] at hread

end Telemetry.Json
