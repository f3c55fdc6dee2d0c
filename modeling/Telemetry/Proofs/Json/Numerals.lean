import Mathlib.Data.List.DropRight
import Mathlib.Data.Nat.Digits.Defs
import Telemetry.Json.Printer
import Telemetry.Proofs.Json.Numbers
import Telemetry.Proofs.Number.Shortest

/-!
# The texts of integers and doubles

An integer is written without needless zeros. A finite double is written with a fraction or an
exponent, and with a digit on both sides of its point. Both are numbers by the standard, and both
read back: the digits of a double are those of its shortest decimal, with the point or the exponent
in place and zeros added or left out.

Main statements: `exists_integer_text`, `exists_double_number`, `readDouble?_doubleText`.
-/

namespace Telemetry

variable {w : List Char} {n : Nat}

/-! ## Digits of a number -/

namespace Text

theorem isDigit_of_mem_decimal {c : Char} (h : c ∈ decimal n) : isDigit c = true := by
  have hdigit : c.isDigit = true := Nat.isDigit_of_mem_toDigits (by decide) (by decide) h
  simpa [isDigit, Char.isDigit, Char.le_def] using hdigit

theorem decimal_ne_nil (n : Nat) : decimal n ≠ [] := Nat.toDigits_ne_nil

/-- The digits of a positive number do not start with a zero. -/
theorem decimal_head (h : 0 < n) : ∃ c rest, decimal n = c :: rest ∧ c ≠ '0' := by
  unfold decimal
  -- The digits are put together from the last one, so the induction takes one off at the end.
  induction n using Nat.strongRecOn with
  | ind n ih =>
    rcases Nat.lt_or_ge n 10 with hsmall | hlarge
    · have hdigit : ∀ m < 10, 0 < m → m.digitChar ≠ '0' := by decide
      exact ⟨n.digitChar, [], Nat.toDigits_of_lt_base hsmall, hdigit n hsmall h⟩
    · obtain ⟨c, rest, hhead, hc⟩ := ih (n / 10) (by omega) (by omega)
      refine ⟨c, rest ++ [(n % 10).digitChar], ?_, hc⟩
      rw [Nat.toDigits_of_base_le (by decide) hlarge, hhead, List.cons_append]

/-- Digits read back. -/
theorem decimalValue_decimal (n : Nat) : decimalValue (decimal n) = n := by
  have hfold : ∀ (cs : List Char) (m : Nat), (∀ c ∈ cs, isDigit c = true) →
      cs.foldl (fun n c => n * 10 + digitValue c) m = Nat.ofDigitChars 10 cs m := by
    intro cs
    induction cs with
    | nil => exact fun _ _ => rfl
    | cons c cs ih =>
      intro m hcs
      obtain ⟨hc, hrest⟩ := List.forall_mem_cons.mp hcs
      rw [List.foldl_cons, ih _ hrest, Nat.ofDigitChars_cons]
      congr 1
      rw [digitValue, if_pos hc, Nat.mul_comm]
      rfl
  rw [decimalValue, hfold _ _ fun c hc => isDigit_of_mem_decimal hc]
  exact Nat.ofDigitChars_toDigits (by decide) (by decide)

end Text

namespace Json

theorem isDigits_decimal (n : Nat) : IsDigits (Text.decimal n) :=
  ⟨Text.decimal_ne_nil n, fun _ hc => Text.isDigit_of_mem_decimal hc⟩

theorem isWhole_decimal (n : Nat) : IsWhole (Text.decimal n) where
  toIsDigits := isDigits_decimal n
  zero rest h := by
    rcases Nat.eq_zero_or_pos n with rfl | hpos
    · exact (List.cons.inj h).2.symm
    · obtain ⟨c, more, hhead, hc⟩ := Text.decimal_head hpos
      exact absurd (List.cons.inj (hhead.symm.trans h)).1 hc

/-! ## Integers -/

/-- **The text of an integer is the integer as a number.** -/
theorem exists_integer_text (i : Int) :
    ∃ n : Number, n.IsInteger ∧ n.integer = i ∧ (Text.integer i).toList = n.text := by
  refine ⟨⟨decide (i < 0), Text.decimal i.natAbs, none, none, isWhole_decimal _, nofun⟩,
    ⟨rfl, rfl⟩, ?_, ?_⟩
  · unfold Number.integer
    rw [Text.decimalValue_decimal]
    by_cases hneg : i < 0
    · rw [if_pos (decide_eq_true hneg)]
      omega
    · rw [if_neg (by simpa using hneg)]
      omega
  · unfold Text.integer Number.text Number.body fractionText exponentText
    by_cases hneg : i < 0
    · simp [hneg]
    · simp [hneg]

/-! ## Zeros around digits -/

theorem decimalValue_append (cs more : List Char) : Text.decimalValue (cs ++ more)
    = Text.decimalValue cs * 10 ^ more.length + Text.decimalValue more := by
  show (cs ++ more).foldl _ 0 = _
  rw [List.foldl_append]
  exact foldl_digits more (Text.decimalValue cs)

theorem decimalValue_zeros (k : Nat) : Text.decimalValue (List.replicate k '0') = 0 := by
  induction k with
  | zero => rfl
  | succ k ih =>
    rw [List.replicate_succ, decimalValue_cons, ih]
    exact Nat.zero_mul _

theorem decimalValue_zeros_append (k : Nat) (cs : List Char) :
    Text.decimalValue (List.replicate k '0' ++ cs) = Text.decimalValue cs := by
  rw [decimalValue_append, decimalValue_zeros, Nat.zero_mul, Nat.zero_add]

theorem decimalValue_append_zeros (cs : List Char) (k : Nat) :
    Text.decimalValue (cs ++ List.replicate k '0') = Text.decimalValue cs * 10 ^ k := by
  rw [decimalValue_append, decimalValue_zeros, List.length_replicate, Nat.add_zero]

/-- Digits are what is left of them without the zeros at their end, and those zeros. -/
theorem exists_stripped (cs : List Char) :
    ∃ k, cs = (cs.reverse.dropWhile (· == '0')).reverse ++ List.replicate k '0' := by
  refine ⟨(cs.reverse.takeWhile (· == '0')).length, ?_⟩
  have hzeros : (cs.reverse.takeWhile (· == '0')).reverse
      = List.replicate (cs.reverse.takeWhile (· == '0')).length '0' := by
    refine List.eq_replicate_iff.mpr ⟨List.length_reverse, fun c hc => ?_⟩
    exact beq_iff_eq.mp (List.mem_takeWhile_imp (p := (· == '0')) (List.mem_reverse.mp hc))
  rw [← hzeros, ← List.reverse_append, List.takeWhile_append_dropWhile, List.reverse_reverse]

/-! ## Decimals of doubles -/

namespace Number

/-- The digits of a number, before and behind its point. -/
def digits (n : Number) : Nat := Text.decimalValue (n.whole ++ n.fraction.getD [])

/-- The power of ten that the last of its digits stands for. -/
def power (n : Number) : Int :=
  (n.exponent.map Exponent.power).getD 0 - (n.fraction.getD []).length

theorem double_eq (n : Number) : n.double = .ofDecimal n.negative n.digits n.power := rfl

end Number

/-- Digits of which the first is not zero. -/
structure IsSignificant (w : List Char) : Prop extends IsDigits w where
  head : ∀ rest, w ≠ '0' :: rest

/-- What is left of a positive number's digits without the zeros at their end. -/
theorem isSignificant_stripped (h : 0 < n) :
    IsSignificant (((Text.decimal n).reverse.dropWhile (· == '0')).reverse) := by
  obtain ⟨c, rest, hhead, hc⟩ := Text.decimal_head h
  have hlead : ((Text.decimal n).reverse.dropWhile (· == '0')).reverse <+: Text.decimal n :=
    List.rdropWhile_prefix (· == '0') (Text.decimal n)
  have hne : ((Text.decimal n).reverse.dropWhile (· == '0')).reverse ≠ [] := by
    intro hnil
    -- If nothing is left, all digits are zeros, the first one too.
    have hall := List.rdropWhile_eq_nil_iff.mp hnil
    exact hc (beq_iff_eq.mp (hall c (hhead ▸ List.mem_cons_self)))
  refine ⟨⟨hne, fun d hd => Text.isDigit_of_mem_decimal (hlead.subset hd)⟩, fun more hmore => ?_⟩
  rw [hmore, hhead] at hlead
  exact hc (List.cons_prefix_cons.mp hlead).1.symm

/-- A number of this sign with a fraction or an exponent has this text behind its sign, and is this
decimal, up to zeros behind the digits. -/
def IsDecimalBody (negative : Bool) (w : List Char) (digits : Nat) (exponent : Int) : Prop :=
  ∃ n : Number, n.negative = negative ∧ ¬ n.IsInteger ∧ n.body = w ∧
    ∃ k : Nat, n.digits = digits * 10 ^ k ∧ n.power + k = exponent

theorem isDecimalBody_fraction {whole more : List Char} {digits k : Nat} {exponent : Int}
    (negative : Bool) (hwhole : IsWhole whole) (hmore : IsDigits more)
    (hdigits : Text.decimalValue (whole ++ more) = digits * 10 ^ k)
    (hexponent : (k : Int) - more.length = exponent) :
    IsDecimalBody negative (whole ++ '.' :: more) digits exponent := by
  refine ⟨⟨negative, whole, some more, none, hwhole, ?_⟩, rfl, ?_, ?_, k, hdigits, ?_⟩
  · rintro _ ⟨⟩
    exact hmore
  · exact fun hinteger => nomatch hinteger.1
  · simp [Number.body, fractionText, exponentText]
  · simp only [Number.power, Option.map_none, Option.getD_none, Option.getD_some]
    omega

theorem isWhole_zero : IsWhole ['0'] := isWhole_decimal 0

theorem isDigits_zeros {w : List Char} (hw : IsDigits w) (n : Nat) :
    IsDigits (List.replicate n '0' ++ w) where
  nonempty h := hw.nonempty (List.append_eq_nil_iff.mp h).2
  digits c hc := by
    rcases List.mem_append.mp hc with hzero | hc
    · rw [List.eq_of_mem_replicate hzero]
      rfl
    · exact hw.digits c hc

/-- Digits in front of the point, none of them needless. -/
theorem IsSignificant.isWhole_append (hw : IsSignificant w) {more : List Char}
    (hmore : ∀ c ∈ more, Text.isDigit c = true) : IsWhole (w ++ more) where
  nonempty h := hw.nonempty (List.append_eq_nil_iff.mp h).1
  digits c hc := (List.mem_append.mp hc).elim (hw.digits c) (hmore c)
  zero rest h := by
    obtain ⟨c, tail, rfl⟩ := List.exists_cons_of_ne_nil hw.nonempty
    rw [List.cons_append] at h
    exact absurd (congrArg (· :: tail) (List.cons.inj h).1) (hw.head tail)

/-- Digits with a point in place. -/
theorem isDecimalBody_positional (negative : Bool) (hw : IsSignificant w) (point : Int) :
    IsDecimalBody negative (Double.positional w point) (Text.decimalValue w)
      (point - w.length) := by
  unfold Double.positional
  split
  -- The point stands in front of the digits, behind them, or among them.
  · rename_i hpoint
    refine isDecimalBody_fraction (k := 0) negative isWhole_zero
      (isDigits_zeros hw.toIsDigits point.natAbs) ?_ ?_
    · rw [Nat.pow_zero, Nat.mul_one]
      exact decimalValue_zeros_append (point.natAbs + 1) w
    · rw [List.length_append, List.length_replicate]
      omega
  · rename_i hpoint
    split
    · rename_i hshort
      refine isDecimalBody_fraction (k := point.toNat - w.length + 1) negative
        (hw.isWhole_append fun c hc => ?_) (isDigits_decimal 0) ?_ ?_
      · rw [List.eq_of_mem_replicate hc]
        rfl
      · rw [List.append_assoc, ← decimalValue_append_zeros, List.replicate_succ']
      · show ((point.toNat - w.length + 1 : Nat) : Int) - (1 : Nat) = _
        omega
    · rename_i hlong
      have htake : IsSignificant (w.take point.toNat) := by
        obtain ⟨c, rest, rfl⟩ := List.exists_cons_of_ne_nil hw.nonempty
        obtain ⟨k, hk⟩ := Nat.exists_eq_add_one_of_ne_zero (n := point.toNat) (by omega)
        rw [hk, List.take_succ_cons]
        refine ⟨⟨List.cons_ne_nil _ _, fun d hd => ?_⟩, fun more hmore => ?_⟩
        · rw [← List.take_succ_cons] at hd
          exact hw.digits d (List.mem_of_mem_take hd)
        · exact hw.head rest (by rw [(List.cons.inj hmore).1])
      have hwhole : IsWhole (w.take point.toNat ++ []) := htake.isWhole_append nofun
      rw [List.append_nil] at hwhole
      refine isDecimalBody_fraction (k := 0) negative hwhole ⟨?_, fun c hc => ?_⟩ ?_ ?_
      · rw [Ne, List.drop_eq_nil_iff]
        omega
      · exact hw.digits c (List.mem_of_mem_drop hc)
      · rw [List.take_append_drop, Nat.pow_zero, Nat.mul_one]
      · rw [List.length_drop]
        omega

/-- The exponent that stands behind digits. -/
theorem exists_exponent_text (exponent : Int) : ∃ x : Exponent, x.power = exponent ∧
    x.text = 'e' :: (if exponent < 0 then '-' else '+') ::
      (if (Text.decimal exponent.natAbs).length < 2 then '0' :: Text.decimal exponent.natAbs
        else Text.decimal exponent.natAbs) := by
  have hsize := isDigits_decimal exponent.natAbs
  have hpadded : ∃ padded, IsDigits padded ∧ Text.decimalValue padded = exponent.natAbs ∧
      (if (Text.decimal exponent.natAbs).length < 2 then '0' :: Text.decimal exponent.natAbs
        else Text.decimal exponent.natAbs) = padded := by
    refine ⟨_, ?_, ?_, rfl⟩
    · split
      · exact isDigits_zeros hsize 1
      · exact hsize
    · split
      · exact (decimalValue_zeros_append 1 _).trans (Text.decimalValue_decimal _)
      · exact Text.decimalValue_decimal _
  obtain ⟨padded, hdigits, hvalue, hpadded⟩ := hpadded
  rw [hpadded]
  by_cases hneg : exponent < 0
  · refine ⟨⟨'e', .minus, padded, .inl rfl, hdigits⟩, ?_, by simp [Exponent.text, Sign.text, hneg]⟩
    simp only [Exponent.power, if_true, hvalue]
    omega
  · refine ⟨⟨'e', .plus, padded, .inl rfl, hdigits⟩, ?_, by simp [Exponent.text, Sign.text, hneg]⟩
    simp only [Exponent.power, reduceCtorEq, if_false, hvalue]
    omega

/-- Digits with an exponent behind them. -/
theorem isDecimalBody_scientific (negative : Bool) (hw : IsSignificant w) (point : Int) :
    IsDecimalBody negative (Double.scientific w point) (Text.decimalValue w)
      (point - w.length) := by
  obtain ⟨d, rest, rfl⟩ := List.exists_cons_of_ne_nil hw.nonempty
  obtain ⟨hd, hrest⟩ := List.forall_mem_cons.mp hw.digits
  have hwhole : IsWhole [d] :=
    ⟨⟨List.cons_ne_nil _ _, by simpa using hd⟩, fun more h => (List.cons.inj h).2.symm⟩
  obtain ⟨x, hpower, htext⟩ := exists_exponent_text (point - 1)
  unfold Double.scientific
  dsimp only
  rw [← htext]
  cases rest with
  | nil =>
    refine ⟨⟨negative, [d], none, some x, hwhole, by rintro _ ⟨⟩⟩, rfl,
      fun h => absurd h.2 (Option.some_ne_none _), ?_, 0, ?_, ?_⟩
    · simp [Number.body, fractionText, exponentText]
    · simp [Number.digits]
    · simp [Number.power, hpower]
  | cons e rest =>
    refine ⟨⟨negative, [d], some (e :: rest), some x, hwhole, ?_⟩, rfl,
      fun h => absurd h.2 (Option.some_ne_none _), ?_, 0, ?_, ?_⟩
    · rintro _ ⟨⟩
      exact ⟨List.cons_ne_nil _ _, hrest⟩
    · simp [Number.body, fractionText, exponentText]
    · simp [Number.digits]
    · simp only [Number.power, Option.map_some, Option.getD_some, hpower, List.length_cons]
      omega

/-- The text of a positive double is a decimal that reads as the double. -/
theorem isDecimalBody_unitsText (negative : Bool) {units : Nat} (hunits : units ≠ 0)
    (hr : Double.Representable units) : ∃ digits exponent,
      IsDecimalBody negative (Double.unitsText units) digits exponent ∧
      Double.readsAs units digits exponent = true := by
  have hreads := Double.readsAs_shortest hunits hr.2
  have hpos := Double.digits_pos_of_readsAs hunits hreads
  obtain ⟨k, hk⟩ := exists_stripped (Text.decimal (Double.shortest units).digits)
  have hstripped := isSignificant_stripped hpos
  unfold Double.unitsText
  dsimp only
  generalize (Text.decimal (Double.shortest units).digits).reverse.dropWhile (· == '0') = front
    at hk hstripped ⊢
  refine ⟨Text.decimalValue front.reverse, (Double.shortest units).exponent + k, ?_, ?_⟩
  · have hlength : (Double.shortest units).exponent
        + (Text.decimal (Double.shortest units).digits).length - front.reverse.length
        = (Double.shortest units).exponent + k := by
      rw [hk, List.length_append, List.length_replicate]
      omega
    rw [← hlength]
    split
    · exact isDecimalBody_positional negative hstripped _
    · exact isDecimalBody_scientific negative hstripped _
  · have hdigits : Text.decimalValue front.reverse * 10 ^ k = (Double.shortest units).digits := by
      rw [← decimalValue_append_zeros, ← hk, Text.decimalValue_decimal]
    rw [Double.readsAs_iff] at hreads ⊢
    rw [← Double.decimalUnits_mul_pow, hdigits, hreads]

/-- **The text of a finite double is a number with a fraction or an exponent, and the number is the
double.** -/
theorem exists_double_number {x : Double} (h : x.isFinite = true) :
    ∃ n : Number, ¬ n.IsInteger ∧ (doubleText x).toList = n.text ∧ n.double = x := by
  cases x with
  | nan | infinite => exact nomatch h
  | finite negative units hr =>
    have hbody : ∃ n : Number, n.negative = negative ∧ ¬ n.IsInteger ∧
        n.body = (if units = 0 then ['0', '.', '0'] else Double.unitsText units) ∧
        n.double = .finite negative units hr := by
      split
      · rename_i hzero
        subst hzero
        have hzero : IsDecimalBody negative ['0', '.', '0'] 0 (-1) :=
          isDecimalBody_fraction (k := 0) negative isWhole_zero (isDigits_decimal 0) rfl rfl
        obtain ⟨n, hsign, hinteger, hn, k, hdigits, -⟩ := hzero
        refine ⟨n, hsign, hinteger, hn, ?_⟩
        rw [Number.double_eq, hdigits, Nat.zero_mul, hsign, Double.ofDecimal, if_pos rfl,
          Double.ofUnits_of_representable negative hr]
      · rename_i hunits
        obtain ⟨digits, exponent, ⟨n, hsign, hinteger, hn, k, hdigits, hpower⟩, hreads⟩ :=
          isDecimalBody_unitsText negative hunits hr
        refine ⟨n, hsign, hinteger, hn, ?_⟩
        rw [Number.double_eq, hsign]
        refine Double.ofDecimal_of_readsAs negative hunits hr ?_
        rw [Double.readsAs_iff] at hreads ⊢
        rw [hdigits, Double.decimalUnits_mul_pow, hpower, hreads]
    obtain ⟨n, hsign, hinteger, hn, hdouble⟩ := hbody
    refine ⟨n, hinteger, ?_, hdouble⟩
    show (Double.text (.finite negative units hr)).toList = n.text
    rw [Double.text, String.toList_ofList, Number.text, hsign, hn]

theorem exists_double_text {x : Double} (h : x.isFinite = true) :
    ∃ n : Number, ¬ n.IsInteger ∧ (doubleText x).toList = n.text := by
  obtain ⟨n, hinteger, htext, -⟩ := exists_double_number h
  exact ⟨n, hinteger, htext⟩

/-- **The text of a finite double reads back.** -/
theorem readDouble?_doubleText {x : Double} (h : x.isFinite = true) :
    Numeral.readDouble? (doubleText x) = some x := by
  obtain ⟨n, -, htext, hdouble⟩ := exists_double_number h
  rw [← String.ofList_toList (s := doubleText x), htext, readDouble?_text, hdouble]

end Json

end Telemetry
