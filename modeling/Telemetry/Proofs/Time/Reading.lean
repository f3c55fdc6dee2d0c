import Telemetry.Proofs.Json.Numerals
import Telemetry.Proofs.Text.Utf8
import Telemetry.Proofs.Time.Calendar

/-!
# Reading times back

A time is written with its fields in a fixed number of digits, so it is read field by field. Cut to
milliseconds, it is what its texts in rows and in columns are read as. Only an offset of less than a
second is lost, since reading takes whole seconds of zero for UTC; every other offset is kept, and
no other is ever read.

Main statements: `Iso.read?_codes`, `DateTime.read?_millisText` and `DateTime.read?_columnText`.
-/

namespace Telemetry

/-! ## Fields of a fixed width -/

namespace Text

variable {width n : Nat}

theorem length_paddedDecimal (hwidth : 0 < width) (h : n < 10 ^ width) :
    (paddedDecimal width n).toList.length = width := by
  have hdigits : (decimal n).length ≤ width :=
    (Nat.length_toDigits_le_iff (by decide) hwidth).mpr h
  unfold paddedDecimal
  rw [String.toList_ofList, List.length_append, List.length_replicate]
  omega

theorem isDigit_of_mem_paddedDecimal {c : Char} (h : c ∈ (paddedDecimal width n).toList) :
    isDigit c = true := by
  unfold paddedDecimal at h
  rw [String.toList_ofList, List.mem_append] at h
  rcases h with h | h
  · rw [(List.mem_replicate.mp h).2]
    decide
  · exact isDigit_of_mem_decimal h

theorem decimalValue_paddedDecimal (width n : Nat) :
    decimalValue (paddedDecimal width n).toList = n := by
  unfold paddedDecimal
  rw [String.toList_ofList, Json.decimalValue_zeros_append, decimalValue_decimal]

/-- A number that fills its field has no zeros in front in any narrower one. -/
theorem paddedDecimal_of_le {narrow : Nat} (hwidth : width ≤ narrow + 1) (h : 10 ^ narrow ≤ n) :
    paddedDecimal width n = paddedDecimal 0 n := by
  have hdigits : narrow < (decimal n).length := by
    rcases Nat.eq_zero_or_pos narrow with rfl | hpos
    · exact List.length_pos_iff.mpr (decimal_ne_nil n)
    · exact Nat.lt_of_not_le fun hle =>
        Nat.not_lt.mpr h ((Nat.length_toDigits_le_iff (by decide) hpos).mp hle)
  unfold paddedDecimal
  dsimp only
  rw [Nat.sub_eq_zero_of_le (by omega), Nat.zero_sub]

end Text

namespace Time

/-- What reading keeps of an offset. One of less than a second is taken for none. -/
def Offset.kept (o : Offset) : Offset := if o.micros.natAbs < second then .utc else o

theorem Offset.kept_eq_self_iff {o : Offset} :
    o.kept = o ↔ (o.micros ≠ 0 → second ≤ o.micros.natAbs) := by
  unfold kept
  split
  · rename_i hshort
    obtain ⟨micros, hbounded⟩ := o
    simp only [utc, mk.injEq] at hshort ⊢
    omega
  · exact iff_of_true rfl fun _ => Nat.not_lt.mp ‹_›

end Time

namespace Time.Iso

variable {width n : Nat} {cs : List Char} {rest : Bytes}

/-! ## Bytes of a text -/

/-- The bytes of characters in ASCII. -/
def codes (cs : List Char) : Bytes := cs.map code

@[simp] theorem codes_cons (c : Char) (cs : List Char) : codes (c :: cs) = code c :: codes cs := rfl

@[simp] theorem codes_append (cs more : List Char) : codes (cs ++ more) = codes cs ++ codes more :=
  List.map_append

@[simp] theorem length_codes (cs : List Char) : (codes cs).length = cs.length := List.length_map ..

theorem encodeUtf8_codes {s : String} (h : ∀ c ∈ s.toList, c.toNat < 0x80) :
    (Text.encodeUtf8 s).map (·.toNat) = codes s.toList := by
  unfold Text.encodeUtf8 codes
  generalize s.toList = cs at h
  induction cs with
  | nil => rfl
  | cons c cs ih =>
    obtain ⟨hc, hcs⟩ := List.forall_mem_cons.mp h
    rw [List.flatMap_cons, List.map_append, ih hcs, Text.utf8Bytes_ascii hc, List.map_singleton,
      Text.toNat_byte (Nat.lt_trans hc (by decide))]
    rfl

theorem at?_append (xs ys : Bytes) (k : Nat) : at? (xs ++ ys) (xs.length + k) = at? ys k := by
  unfold at?
  rw [List.getD_eq_getElem?_getD, List.getD_eq_getElem?_getD,
    List.getElem?_append_right (Nat.le_add_right ..), Nat.add_sub_cancel_left]

@[simp] theorem at?_cons_zero (b : Nat) (rest : Bytes) : at? (b :: rest) 0 = b := rfl

@[simp] theorem at?_cons_succ (b k : Nat) (rest : Bytes) :
    at? (b :: rest) (k + 1) = at? rest k := rfl

/-! ## Digits -/

theorem isDigit_code (c : Char) : isDigit (code c) = Text.isDigit c := by
  unfold isDigit Text.isDigit
  rw [Bool.eq_iff_iff, Bool.and_eq_true, Bool.and_eq_true]
  exact and_congr (decide_eq_true_iff.trans decide_eq_true_iff.symm)
    (decide_eq_true_iff.trans decide_eq_true_iff.symm)

/-- Digits are read to the value that they write. -/
theorem digits?_codes (hcs : ∀ c ∈ cs, Text.isDigit c = true) (value : Nat) (rest : Bytes) :
    digits? cs.length value (codes cs ++ rest)
      = some (cs.foldl (fun n c => n * 10 + Text.digitValue c) value, rest) := by
  induction cs generalizing value with
  | nil => rfl
  | cons c cs ih =>
    obtain ⟨hc, hmore⟩ := List.forall_mem_cons.mp hcs
    have hvalue : code c - 48 = Text.digitValue c := by
      rw [Text.digitValue, if_pos hc]
      rfl
    rw [List.length_cons, codes_cons, List.cons_append, digits?, isDigit_code, if_pos hc, hvalue,
      ih hmore, List.foldl_cons]

theorem digits?_padded (hwidth : 0 < width) (h : n < 10 ^ width) (rest : Bytes) :
    digits? width 0 (codes (Text.paddedDecimal width n).toList ++ rest) = some (n, rest) := by
  have hdigits : ∀ c ∈ (Text.paddedDecimal width n).toList, Text.isDigit c = true :=
    fun c hc => Text.isDigit_of_mem_paddedDecimal hc
  have hread := digits?_codes hdigits 0 rest
  rw [Text.length_paddedDecimal hwidth h] at hread
  rw [hread]
  exact congrArg (fun value => some (value, rest)) (Text.decimalValue_paddedDecimal width n)

theorem isDigit_of_mem_padded {b : Nat}
    (h : b ∈ codes (Text.paddedDecimal width n).toList) : isDigit b = true := by
  obtain ⟨c, hc, rfl⟩ := List.mem_map.mp h
  exact (isDigit_code c).trans (Text.isDigit_of_mem_paddedDecimal hc)

theorem ascii_padded : ∀ b ∈ codes (Text.paddedDecimal width n).toList, b < 0x80 := by
  intro b hb
  have h := isDigit_of_mem_padded hb
  unfold isDigit at h
  rw [Bool.and_eq_true, decide_eq_true_iff] at h
  exact Nat.lt_of_le_of_lt (of_decide_eq_true h.2) (by decide)

/-- A field begins with a digit. -/
theorem isDigit_at?_padded (hwidth : 0 < width) (h : n < 10 ^ width) (rest : Bytes) :
    isDigit (at? (codes (Text.paddedDecimal width n).toList ++ rest) 0) = true := by
  cases hfield : codes (Text.paddedDecimal width n).toList with
  | nil =>
    have hlength := Text.length_paddedDecimal hwidth h
    rw [← length_codes, hfield] at hlength
    exact absurd hlength (Nat.ne_of_lt hwidth)
  | cons b bytes => exact isDigit_of_mem_padded (hfield ▸ List.mem_cons_self)

theorem ne_of_isDigit {b : Nat} {c : Char} (h : isDigit b = true) (hc : isDigit (code c) = false) :
    b ≠ code c := by
  rintro rfl
  rw [h] at hc
  cases hc

/-! ## Dates -/

/-- The bytes of a date with hyphens, the year in four digits. -/
def dateCodes (d : Date) : Bytes :=
  codes (Text.paddedDecimal 4 d.year).toList ++ code '-' ::
    (codes (Text.paddedDecimal 2 d.month).toList ++ code '-' ::
      codes (Text.paddedDecimal 2 d.day).toList)

variable {d : Date}

theorem day_lt (hd : d.Valid) : d.day < 10 ^ 2 := by
  have hlength : ∀ leap, ∀ m < 12, (monthLengths leap).getD m 0 < 32 := by decide
  have hmonth := hlength (isLeap d.year) (d.month - 1) (by have := hd.2.2.2.1; omega)
  exact Nat.lt_of_le_of_lt hd.2.2.2.2.2 (Nat.lt_trans hmonth (by decide))

/-- **A date is read from its text.** -/
theorem date?_codes (hd : d.Valid) (rest : Bytes) :
    date? 10 (dateCodes d ++ rest) = some (d.toDays : Int) := by
  have hyear : d.year < 10 ^ 4 := Nat.lt_of_le_of_lt hd.2.1 (by decide)
  have hmonth : d.month < 10 ^ 2 := Nat.lt_of_le_of_lt hd.2.2.2.1 (by decide)
  have hweek := ne_of_isDigit (c := 'W') (isDigit_at?_padded (by decide) hmonth (code '-' ::
      (codes (Text.paddedDecimal 2 d.day).toList ++ rest))) (by decide)
  unfold date? dateCodes
  simp only [List.append_assoc, List.cons_append, digits?_padded (by decide) hyear,
    Option.bind_eq_bind, Option.bind_some, at?_cons_zero, if_true, decide_true, List.drop_succ_cons,
    List.drop_zero, if_neg hweek]
  unfold monthDate?
  simp only [digits?_padded (by decide) hmonth, digits?_padded (by decide) (day_lt hd),
    Option.bind_eq_bind, Option.bind_some, at?_cons_zero, if_true, List.drop_succ_cons,
    List.drop_zero]
  exact if_pos ⟨trivial, hd⟩

theorem length_dateCodes (hd : d.Valid) : (dateCodes d).length = 10 := by
  have hyear : d.year < 10 ^ 4 := Nat.lt_of_le_of_lt hd.2.1 (by decide)
  have hmonth : d.month < 10 ^ 2 := Nat.lt_of_le_of_lt hd.2.2.2.1 (by decide)
  unfold dateCodes
  simp only [List.length_append, List.length_cons, length_codes,
    Text.length_paddedDecimal (by decide : 0 < 4) hyear,
    Text.length_paddedDecimal (by decide : 0 < 2) hmonth,
    Text.length_paddedDecimal (by decide : 0 < 2) (day_lt hd)]

/-- What stands behind the year of a date. -/
theorem at?_dateCodes (hd : d.Valid) (k : Nat) (rest : Bytes) :
    at? (dateCodes d ++ rest) (4 + k) = at? (code '-' ::
      (codes (Text.paddedDecimal 2 d.month).toList ++ code '-' ::
        (codes (Text.paddedDecimal 2 d.day).toList ++ rest))) k := by
  have hyear : d.year < 10 ^ 4 := Nat.lt_of_le_of_lt hd.2.1 (by decide)
  have hfour : (codes (Text.paddedDecimal 4 d.year).toList).length = 4 := by
    rw [length_codes, Text.length_paddedDecimal (by decide) hyear]
  have h := at?_append (codes (Text.paddedDecimal 4 d.year).toList) (code '-' ::
    (codes (Text.paddedDecimal 2 d.month).toList ++ code '-' ::
      (codes (Text.paddedDecimal 2 d.day).toList ++ rest))) k
  rw [hfour] at h
  unfold dateCodes
  simpa only [List.append_assoc, List.cons_append] using h

theorem ascii_dateCodes (d : Date) : ∀ b ∈ dateCodes d, b < 0x80 := by
  unfold dateCodes
  simp only [List.forall_mem_append, List.forall_mem_cons]
  exact ⟨ascii_padded, by decide, ascii_padded, by decide, ascii_padded⟩

/-- A date with hyphens takes ten bytes. -/
theorem dateLength?_codes (hd : d.Valid) (rest : Bytes) :
    dateLength? (dateCodes d ++ rest) = some 10 := by
  have hmonth : d.month < 10 ^ 2 := Nat.lt_of_le_of_lt hd.2.2.2.1 (by decide)
  have hlength : (dateCodes d ++ rest).length ≠ 7 := by
    rw [List.length_append, length_dateCodes hd]
    omega
  have hhyphen : at? (dateCodes d ++ rest) 4 = code '-' := at?_dateCodes hd 0 rest
  have hdigit : isDigit (at? (dateCodes d ++ rest) 5) = true := by
    rw [at?_dateCodes hd 1 rest, at?_cons_succ]
    exact isDigit_at?_padded (by decide) hmonth _
  unfold dateLength?
  dsimp only
  rw [if_neg hlength, if_pos hhyphen, if_neg (ne_of_isDigit hdigit (by decide))]

/-! ## Times -/

/-- The bytes of a time of day to the millisecond. -/
def clockCodes (hour minute seconds millis : Nat) : Bytes :=
  codes (Text.paddedDecimal 2 hour).toList ++ code ':' ::
    (codes (Text.paddedDecimal 2 minute).toList ++ code ':' ::
      (codes (Text.paddedDecimal 2 seconds).toList ++ code '.' ::
        codes (Text.paddedDecimal 3 millis).toList))

/-- A pair with a colon behind it. -/
theorem clock?_colon {pairs left value : Nat} {colons : Option Bool} (hvalue : value < 10 ^ 2)
    (hcolons : colons.getD true = true) (hleft : ¬ left ≤ 3) (values : List Nat) (rest : Bytes) :
    clock? (pairs + 1) colons left values
        (codes (Text.paddedDecimal 2 value).toList ++ code ':' :: rest)
      = clock? pairs (some true) (left - 3) (values ++ [value]) rest := by
  rw [clock?]
  simp only [digits?_padded (by decide) hvalue, Option.bind_eq_bind, Option.bind_some,
    at?_cons_zero, List.drop_succ_cons, List.drop_zero, decide_true, hcolons, and_self,
    if_neg hleft, if_true]

/-- A pair with a point behind it, and so with the fraction. -/
theorem clock?_point {pairs left value : Nat} {colons : Option Bool} (hvalue : value < 10 ^ 2)
    (hleft : ¬ left ≤ 3) (values : List Nat) (rest : Bytes) :
    clock? (pairs + 1) colons left values
        (codes (Text.paddedDecimal 2 value).toList ++ code '.' :: rest)
      = (fraction? (left - 3) rest).map fun (micros, more) =>
        ⟨(values ++ [value]).getD 0 0, (values ++ [value]).getD 1 0, (values ++ [value]).getD 2 0,
          micros, more⟩ := by
  have hcolon : (code '.' = code ':') = False := eq_false (by decide)
  rw [clock?]
  simp only [digits?_padded (by decide) hvalue, Option.bind_eq_bind, Option.bind_some,
    at?_cons_zero, List.drop_succ_cons, List.drop_zero, if_neg hleft, hcolon, and_false, if_false,
    true_or, if_true]
  cases fraction? (left - 3) rest <;> rfl

/-- A pair with nothing behind it. -/
theorem clock?_last {pairs left value : Nat} (hvalue : value < 10 ^ 2) (hleft : left ≤ 3)
    (colons : Option Bool) (values : List Nat) :
    clock? (pairs + 1) colons left values (codes (Text.paddedDecimal 2 value).toList)
      = some ⟨(values ++ [value]).getD 0 0, (values ++ [value]).getD 1 0,
          (values ++ [value]).getD 2 0, 0, false⟩ := by
  have hread := digits?_padded (by decide) hvalue []
  rw [List.append_nil] at hread
  rw [clock?]
  simp only [hread, Option.bind_eq_bind, Option.bind_some, if_pos hleft]
  rfl

/-- A fraction of up to six digits. -/
theorem fraction?_codes (hwidth : 0 < width) (hsix : width ≤ 6) (h : n < 10 ^ width)
    (rest : Bytes) :
    fraction? width (codes (Text.paddedDecimal width n).toList ++ rest)
      = some (n * 10 ^ (6 - width), at? (rest.dropWhile isDigit) 0 != 0) := by
  unfold fraction?
  simp only [Nat.min_eq_right hsix, digits?_padded hwidth h, Option.bind_eq_bind, Option.bind_some]
  rfl

theorem ascii_clockCodes (hour minute seconds millis : Nat) :
    ∀ b ∈ clockCodes hour minute seconds millis, b < 0x80 := by
  unfold clockCodes
  simp only [List.forall_mem_append, List.forall_mem_cons]
  exact ⟨ascii_padded, by decide, ascii_padded, by decide, ascii_padded, by decide, ascii_padded⟩

theorem closed_padded :
    ∀ b ∈ codes (Text.paddedDecimal width n).toList, (!opensZone b) = true := by
  intro b hb
  have hdigit := isDigit_of_mem_padded hb
  simp only [opensZone, Bool.not_eq_true', Bool.or_eq_false_iff, beq_eq_false_iff_ne]
  exact ⟨⟨ne_of_isDigit hdigit (by decide), ne_of_isDigit hdigit (by decide)⟩,
    ne_of_isDigit hdigit (by decide)⟩

/-- A time of day opens no zone. -/
theorem closed_clockCodes (hour minute seconds millis : Nat) :
    ∀ b ∈ clockCodes hour minute seconds millis, (!opensZone b) = true := by
  unfold clockCodes
  simp only [List.forall_mem_append, List.forall_mem_cons]
  exact ⟨closed_padded, by decide, closed_padded, by decide, closed_padded, by decide,
    closed_padded⟩

section Clock

variable {hour minute seconds millis : Nat} (hhour : hour < 24) (hminute : minute < 60)
  (hseconds : seconds < 60) (hmillis : millis < 1000)
include hhour hminute hseconds hmillis

theorem length_clockCodes : (clockCodes hour minute seconds millis).length = 12 := by
  unfold clockCodes
  simp only [List.length_append, List.length_cons, length_codes,
    Text.length_paddedDecimal (by decide : 0 < 2) (Nat.lt_trans hhour (by decide)),
    Text.length_paddedDecimal (by decide : 0 < 2) (Nat.lt_trans hminute (by decide)),
    Text.length_paddedDecimal (by decide : 0 < 2) (Nat.lt_trans hseconds (by decide)),
    Text.length_paddedDecimal (by decide : 0 < 3) hmillis]

/-- **A time of day is read from its text**, whatever stands behind it. -/
theorem clock?_codes (rest : Bytes) :
    clock? 3 none 12 [] (clockCodes hour minute seconds millis ++ rest)
      = some ⟨hour, minute, seconds, millis * 1000, at? (rest.dropWhile isDigit) 0 != 0⟩ := by
  unfold clockCodes
  simp only [List.append_assoc, List.cons_append]
  rw [clock?_colon (Nat.lt_trans hhour (by decide)) rfl (by decide),
    clock?_colon (Nat.lt_trans hminute (by decide)) rfl (by decide),
    clock?_point (Nat.lt_trans hseconds (by decide)) (by decide),
    fraction?_codes (by decide) (by decide) hmillis]
  rfl

end Clock

/-! ## Zones -/

/-- The bytes of a distance from UTC, behind its sign. -/
def offsetCodes (micros : Nat) : Bytes :=
  let s := micros / second
  let minutes := codes (Text.paddedDecimal 2 (s / 3600)).toList ++ code ':' ::
    codes (Text.paddedDecimal 2 (s / 60 % 60)).toList
  if micros % second ≠ 0 then
    minutes ++ code ':' :: (codes (Text.paddedDecimal 2 (s % 60)).toList ++ code '.' ::
      codes (Text.paddedDecimal 6 (micros % second)).toList)
  else if s % 60 ≠ 0 then minutes ++ code ':' :: codes (Text.paddedDecimal 2 (s % 60)).toList
  else minutes

/-- **A distance from UTC is read as a time of day** with as many fields as it is written with. -/
theorem clock?_offsetCodes {micros : Nat} (h : micros < day) :
    clock? 3 none (offsetCodes micros).length [] (offsetCodes micros)
      = some ⟨micros / second / 3600, micros / second / 60 % 60, micros / second % 60,
          micros % second, false⟩ := by
  have hhour : micros / second / 3600 < 10 ^ 2 := by
    have hday : micros < second * (3600 * 24) := h
    rw [Nat.div_div_eq_div_mul]
    exact Nat.lt_trans (Nat.div_lt_of_lt_mul (Nat.mul_assoc _ _ _ ▸ hday)) (by decide)
  have hminute : micros / second / 60 % 60 < 10 ^ 2 :=
    Nat.lt_trans (Nat.mod_lt _ (by decide)) (by decide)
  have hseconds : micros / second % 60 < 10 ^ 2 :=
    Nat.lt_trans (Nat.mod_lt _ (by decide)) (by decide)
  have hmicros : micros % second < 10 ^ 6 := Nat.mod_lt _ (by decide)
  have hlength {n : Nat} (hn : n < 10 ^ 2) : (Text.paddedDecimal 2 n).toList.length = 2 :=
    Text.length_paddedDecimal (by decide) hn
  unfold offsetCodes
  dsimp only
  -- The text stops at the last part that is not zero, but never before the minutes.
  split
  · simp only [List.length_append, List.length_cons, length_codes, hlength hhour, hlength hminute,
      hlength hseconds, Text.length_paddedDecimal (by decide : 0 < 6) hmicros, List.append_assoc,
      List.cons_append, Nat.reduceAdd]
    rw [clock?_colon hhour rfl (by decide), clock?_colon hminute rfl (by decide),
      clock?_point hseconds (by decide)]
    have hfraction := fraction?_codes (by decide) (by decide) hmicros []
    rw [List.append_nil] at hfraction
    rw [hfraction, Option.map_some, Nat.sub_self, Nat.pow_zero, Nat.mul_one]
    rfl
  · rename_i hwhole
    rw [Decidable.not_not.mp hwhole]
    split
    · simp only [List.length_append, List.length_cons, length_codes, hlength hhour,
        hlength hminute, hlength hseconds, List.append_assoc, List.cons_append, Nat.reduceAdd]
      rw [clock?_colon hhour rfl (by decide), clock?_colon hminute rfl (by decide),
        clock?_last hseconds (by decide)]
      rfl
    · rename_i hminutes
      rw [Decidable.not_not.mp hminutes]
      simp only [List.length_append, List.length_cons, length_codes, hlength hhour,
        hlength hminute, Nat.reduceAdd]
      rw [clock?_colon hhour rfl (by decide), clock?_last hminute (by decide)]
      rfl

theorem ofMicros?_micros (o : Offset) : Offset.ofMicros? o.micros = some o := dif_pos o.bounded

/-- An offset is read from its sign and its distance. -/
theorem offset?_codes (o : Offset) :
    offset? (decide (o.micros < 0)) (offsetCodes o.micros.natAbs) = some o.kept := by
  have hday : o.micros.natAbs < day := by
    have := o.bounded
    omega
  have hwhole : o.micros.natAbs / second / 3600 * 3600 + o.micros.natAbs / second / 60 % 60 * 60
      + o.micros.natAbs / second % 60 = o.micros.natAbs / second := by
    omega
  have hparts : o.micros.natAbs / second * second + o.micros.natAbs % second = o.micros.natAbs :=
    Nat.div_add_mod' ..
  unfold offset?
  rw [clock?_offsetCodes hday, Option.bind_eq_bind, Option.bind_some]
  dsimp only
  rw [if_neg Bool.false_ne_true, hwhole]
  unfold Offset.kept
  split
  · rename_i hnone
    rw [if_pos (Nat.lt_of_div_eq_zero (by decide) hnone)]
    rfl
  · rename_i hsome
    have hlong : ¬ o.micros.natAbs < second := fun hshort => hsome (Nat.div_eq_of_lt hshort)
    have hsign : (if decide (o.micros < 0) = true then -(o.micros.natAbs : Int)
        else (o.micros.natAbs : Int)) = o.micros := by
      simp only [decide_eq_true_eq]
      omega
    rw [if_neg hlong, ← Int.natCast_mul, ← Int.natCast_add, hparts, hsign]
    exact ofMicros?_micros o

/-- No other offset is read than one that is kept. -/
theorem kept_of_offset? {negative : Bool} {bytes : Bytes} {o : Offset}
    (h : offset? negative bytes = some o) : o.kept = o := by
  obtain ⟨c, -, hclock⟩ := Option.bind_eq_some_iff.mp h
  dsimp only at hclock
  split at hclock
  · cases hclock
  split at hclock
  · cases hclock
    rfl
  · rename_i hseconds
    have hone : 1 * second ≤ (c.hour * 3600 + c.minute * 60 + c.seconds) * second :=
      Nat.mul_le_mul_right _ (Nat.one_le_iff_ne_zero.mpr hseconds)
    obtain ⟨hbounded, ho⟩ := Option.dite_none_right_eq_some.mp hclock
    cases ho
    refine Offset.kept_eq_self_iff.mpr fun _ => ?_
    dsimp only
    split <;> omega

/-- The bytes of a zone, none for a naive reading. -/
def zoneCodes : Option Offset → Bytes
  | some o => code (if o.micros < 0 then '-' else '+') :: offsetCodes o.micros.natAbs
  | none => []

theorem ascii_offsetCodes (micros : Nat) : ∀ b ∈ offsetCodes micros, b < 0x80 := by
  unfold offsetCodes
  dsimp only
  split
  · simp only [List.forall_mem_append, List.forall_mem_cons]
    exact ⟨⟨ascii_padded, by decide, ascii_padded⟩, by decide, ascii_padded, by decide,
      ascii_padded⟩
  · split <;> simp only [List.forall_mem_append, List.forall_mem_cons]
    · exact ⟨⟨ascii_padded, by decide, ascii_padded⟩, by decide, ascii_padded⟩
    · exact ⟨ascii_padded, by decide, ascii_padded⟩

theorem ascii_zoneCodes (offset : Option Offset) : ∀ b ∈ zoneCodes offset, b < 0x80 := by
  cases offset with
  | none => exact List.forall_mem_nil _
  | some o =>
    refine List.forall_mem_cons.mpr ⟨?_, ascii_offsetCodes _⟩
    split <;> decide

/-- An offset of which reading keeps a trace: it is none, or zero, or a second at least. -/
def IsTold (offset : Option Offset) : Prop :=
  ∀ o, offset = some o → o.micros ≠ 0 → second ≤ o.micros.natAbs

theorem isTold_iff {offset : Option Offset} : IsTold offset ↔ offset.map .kept = offset := by
  cases offset with
  | none => exact iff_of_true (fun _ h => nomatch h) rfl
  | some o =>
    rw [Option.map_some, Option.some_inj, Offset.kept_eq_self_iff]
    exact ⟨fun h => h o rfl, fun h _ ho => Option.some.inj ho ▸ h⟩

theorem isTold_of_time? {bytes : Bytes} {micros : Nat} {offset : Option Offset}
    (h : time? bytes = some (micros, offset)) : IsTold offset := by
  obtain ⟨c, -, hclock⟩ := Option.bind_eq_some_iff.mp h
  -- The offset is the zone's wherever the clock is that of a day.
  have hzone {zone : Option Offset} {total : Nat} {p : Prop} [Decidable p]
      (hread : (if p then some (total, zone) else none) = some (micros, offset)) :
      zone = offset := by
    obtain ⟨-, htotal⟩ := Option.ite_none_right_eq_some.mp hread
    exact congrArg Prod.snd (Option.some.inj htotal)
  rw [isTold_iff]
  dsimp only at hclock
  split at hclock
  · split at hclock
    · cases hclock
    · rw [← hzone hclock]
      rfl
  split at hclock
  · split at hclock
    · rw [← hzone hclock]
      rfl
    · cases hclock
  · obtain ⟨zone, hoffset, hread⟩ := Option.bind_eq_some_iff.mp hclock
    obtain ⟨o, ho, rfl⟩ := Option.map_eq_some_iff.mp hoffset
    rw [← hzone hread]
    exact congrArg some (kept_of_offset? ho)

section Clock

variable {hour minute seconds millis : Nat} (hhour : hour < 24) (hminute : minute < 60)
  (hseconds : seconds < 60) (hmillis : millis < 1000)
include hhour hminute hseconds hmillis

/-- **A time of day and its zone are read from their text.** -/
theorem time?_codes (offset : Option Offset) :
    time? (clockCodes hour minute seconds millis ++ zoneCodes offset)
      = some (((hour * 60 + minute) * 60 + seconds) * second + millis * 1000,
          offset.map .kept) := by
  have hlength := length_clockCodes hhour hminute hseconds hmillis
  -- The clock ends where the zone opens, if there is one.
  have hclosed : (clockCodes hour minute seconds millis ++ zoneCodes offset).takeWhile
      (!opensZone ·) = clockCodes hour minute seconds millis := by
    have hopen : (zoneCodes offset).takeWhile (!opensZone ·) = [] := by
      cases offset with
      | none => rfl
      | some o =>
        unfold zoneCodes
        refine List.takeWhile_cons_of_neg ?_
        split <;> decide
    rw [List.takeWhile_append_of_pos (closed_clockCodes _ _ _ _), hopen, List.append_nil]
  have hdrop : (clockCodes hour minute seconds millis ++ zoneCodes offset).drop 12
      = zoneCodes offset := by
    rw [← hlength]
    exact List.drop_left ..
  unfold time?
  simp only [hclosed, hlength]
  rw [show max 1 12 = 12 from rfl, clock?_codes hhour hminute hseconds hmillis, hdrop]
  cases offset with
  | none => exact if_pos ⟨hhour, hminute, hseconds⟩
  | some o =>
    obtain ⟨sign, hzone, hsign, hminus⟩ : ∃ sign,
        zoneCodes (some o) = sign :: offsetCodes o.micros.natAbs ∧ sign ≠ code 'Z' ∧
          decide (sign = code '-') = decide (o.micros < 0) := by
      refine ⟨_, rfl, ?_⟩
      split
      · rename_i hneg
        exact ⟨by decide, by rw [decide_eq_true hneg]; decide⟩
      · rename_i hpos
        exact ⟨by decide, by rw [decide_eq_false hpos]; decide⟩
    rw [hzone, Option.bind_eq_bind, Option.bind_some]
    dsimp only
    rw [if_neg hsign, hminus, offset?_codes o]
    exact if_pos ⟨hhour, hminute, hseconds⟩

end Clock

/-! ## Texts -/

/-- **A date and a time are read from their text**, with any one character in ASCII between
them. -/
theorem read?_codes {s : String} {separator : Char} {hour minute seconds millis : Nat}
    {offset : Option Offset} (hd : d.Valid) (hhour : hour < 24) (hminute : minute < 60)
    (hseconds : seconds < 60) (hmillis : millis < 1000)
    (hseparator : separator.toNat < 0x80) (hs : codes s.toList = dateCodes d ++ code separator ::
      (clockCodes hour minute seconds millis ++ zoneCodes offset)) :
    read? s = DateTime.ofWall? ((d.toDays : Int) * day
      + (((hour * 60 + minute) * 60 + seconds) * second + millis * 1000 : Nat))
      (offset.map .kept) := by
  have hascii : ∀ c ∈ s.toList, c.toNat < 0x80 := by
    intro c hc
    have hall : ∀ b ∈ codes s.toList, b < 0x80 := by
      rw [hs]
      simp only [List.forall_mem_append, List.forall_mem_cons]
      exact ⟨ascii_dateCodes d, hseparator, ascii_clockCodes _ _ _ _, ascii_zoneCodes offset⟩
    exact hall _ (List.mem_map_of_mem hc)
  have hlength := length_dateCodes hd
  have hat : at? (dateCodes d ++ code separator ::
      (clockCodes hour minute seconds millis ++ zoneCodes offset)) 10 = code separator := by
    have h := at?_append (dateCodes d) (code separator ::
      (clockCodes hour minute seconds millis ++ zoneCodes offset)) 0
    rwa [hlength] at h
  have hone : separatorLength (code separator) = 1 := if_pos hseparator
  have hdrop : (dateCodes d ++ code separator ::
      (clockCodes hour minute seconds millis ++ zoneCodes offset)).drop (10 + 1)
        = clockCodes hour minute seconds millis ++ zoneCodes offset := by
    rw [← hlength, List.drop_length_add_append, List.drop_succ_cons, List.drop_zero]
  have hbytes : 10 < (dateCodes d ++ code separator ::
      (clockCodes hour minute seconds millis ++ zoneCodes offset)).length := by
    rw [List.length_append, List.length_cons, hlength]
    omega
  unfold read?
  rw [encodeUtf8_codes hascii, hs]
  dsimp only
  rw [if_neg (by omega), dateLength?_codes hd, Option.bind_eq_bind, Option.bind_some,
    date?_codes hd, Option.bind_eq_bind, Option.bind_some, if_pos hbytes, hat, hone, hdrop,
    time?_codes hhour hminute hseconds hmillis, Option.bind_eq_bind, Option.bind_some]

/-- No time is read with an offset that would be lost when it is written and read again. -/
theorem isTold_of_read? {s : String} {t : DateTime} (h : read? s = some t) : IsTold t.offset := by
  have hwall {wall : Int} {offset : Option Offset} (ht : DateTime.ofWall? wall offset = some t) :
      t.offset = offset := by
    obtain ⟨hrange, hread⟩ := Option.dite_none_right_eq_some.mp ht
    exact (congrArg DateTime.offset (Option.some.inj hread)).symm
  unfold read? at h
  dsimp only at h
  split at h
  · cases h
  obtain ⟨length, -, hlength⟩ := Option.bind_eq_some_iff.mp h
  obtain ⟨days, -, hdays⟩ := Option.bind_eq_some_iff.mp hlength
  split at hdays
  · obtain ⟨⟨micros, offset⟩, htime, ht⟩ := Option.bind_eq_some_iff.mp hdays
    rw [hwall ht]
    exact isTold_of_time? htime
  · rw [hwall hdays]
    exact fun _ hnone => nomatch hnone

end Time.Iso

namespace Time.DateTime

open Iso (codes dateCodes clockCodes zoneCodes offsetCodes code)

variable {t : DateTime}

/-- The reading cut to whole milliseconds, which is all that the texts of rows have of it. -/
def cut (t : DateTime) : DateTime :=
  ⟨t.wall / 1000 * 1000, Nat.lt_of_le_of_lt (Nat.div_mul_le_self ..) t.inRange, t.offset⟩

/-- Where the offset is in whole milliseconds, the instant is cut as the wall clock is. -/
theorem instant_cut (h : (t.offset.getD .utc).micros % 1000 = 0) :
    t.cut.instant = t.instant - t.instant % 1000 := by
  show ((t.wall / 1000 * 1000 : Nat) : Int) - (t.offset.getD .utc).micros
    = (t.wall : Int) - (t.offset.getD .utc).micros
      - ((t.wall : Int) - (t.offset.getD .utc).micros) % 1000
  omega

theorem valid_date (t : DateTime) : t.date.Valid :=
  valid_ofDays (Nat.div_lt_of_lt_mul (Nat.mul_comm _ _ ▸ t.inRange))

theorem hour_lt (t : DateTime) : t.hour < 24 :=
  Nat.div_lt_of_lt_mul (Nat.mod_lt _ (by decide))

theorem minute_lt (t : DateTime) : t.minute < 60 := Nat.mod_lt _ (by decide)

theorem seconds_lt (t : DateTime) : t.seconds < 60 := Nat.mod_lt _ (by decide)

theorem millis_lt (t : DateTime) : t.micros / 1000 < 1000 :=
  Nat.div_lt_of_lt_mul (Nat.mod_lt _ (by decide))

/-- The parts of a reading make up the reading, cut to milliseconds. -/
theorem wall_cut (t : DateTime) : t.cut.wall = t.date.toDays * day
    + (((t.hour * 60 + t.minute) * 60 + t.seconds) * second + t.micros / 1000 * 1000) := by
  have hdays : t.date.toDays = t.wall / day := toDays_ofDays _
  have hwall : t.cut.wall = t.wall / 1000 * 1000 := rfl
  rw [hdays, hwall]
  unfold hour minute seconds micros sinceMidnight
  simp only [show day = 86400000000 from rfl, show second = 1000000 from rfl]
  omega

/-- The bytes of a reading with its fraction cut to milliseconds. -/
theorem codes_millis {width : Nat} {separator : String} {c : Char}
    (hyear : Text.paddedDecimal width t.date.year = Text.paddedDecimal 4 t.date.year)
    (hseparator : codes separator.toList = [code c]) :
    codes (t.dateText width ++ separator ++ t.clockText ++ "." ++
        Text.paddedDecimal 3 (t.micros / 1000)).toList
      = dateCodes t.date ++ code c ::
        clockCodes t.hour t.minute t.seconds (t.micros / 1000) := by
  have hhyphen : codes "-".toList = [code '-'] := rfl
  have hcolon : codes ":".toList = [code ':'] := rfl
  have hpoint : codes ".".toList = [code '.'] := rfl
  unfold dateText clockText two dateCodes clockCodes
  dsimp only
  simp only [hyear, String.toList_append, Iso.codes_append, hhyphen, hseparator, hcolon, hpoint,
    List.append_assoc, List.cons_append, List.nil_append]

theorem codes_offsetText (o : Offset) : codes (offsetText o).toList = zoneCodes (some o) := by
  have hsign : codes (if o.micros < 0 then "-" else "+").toList
      = [code (if o.micros < 0 then '-' else '+')] := by
    split <;> rfl
  have hcolon : codes ":".toList = [code ':'] := rfl
  have hpoint : codes ".".toList = [code '.'] := rfl
  unfold offsetText two zoneCodes offsetCodes
  dsimp only
  split
  · simp only [String.toList_append, Iso.codes_append, hsign, hcolon, hpoint, List.append_assoc,
      List.cons_append, List.nil_append]
  · split <;>
    simp only [String.toList_append, Iso.codes_append, hsign, hcolon, List.append_assoc,
      List.cons_append, List.nil_append]

theorem codes_zoneText (t : DateTime) : codes t.zoneText.toList = zoneCodes t.offset := by
  unfold zoneText
  cases t.offset with
  | none => rfl
  | some o => exact codes_offsetText o

/-- A count of microseconds that is the one of a reading. -/
theorem ofWall?_eq_some {wall : Int} (h : wall = t.wall) (offset : Option Offset) :
    ofWall? wall offset = some { t with offset } := by
  subst h
  unfold ofWall?
  rw [dif_pos ⟨Int.natCast_nonneg _, Int.ofNat_lt.mpr t.inRange⟩]
  simp only [Int.toNat_natCast]

/-- The parts of a reading are read as the reading cut to milliseconds. -/
theorem read?_cut {s : String} (separator : Char) (offset : Option Offset)
    (hseparator : separator.toNat < 0x80)
    (hs : codes s.toList = dateCodes t.date ++ code separator ::
      (clockCodes t.hour t.minute t.seconds (t.micros / 1000) ++ zoneCodes offset)) :
    Iso.read? s = some { t.cut with offset := offset.map .kept } := by
  rw [Iso.read?_codes t.valid_date t.hour_lt t.minute_lt t.seconds_lt t.millis_lt hseparator hs]
  refine ofWall?_eq_some ?_ (offset.map .kept)
  rw [t.wall_cut, Int.natCast_add (t.date.toDays * day), Int.natCast_mul]

/-- **The text of a row is read as the reading cut to milliseconds**, with what is kept of its
offset. -/
theorem read?_millisText (t : DateTime) :
    Iso.read? t.millisText = some { t.cut with offset := t.offset.map .kept } := by
  refine read?_cut 'T' t.offset (by decide) ?_
  unfold millisText
  rw [String.toList_append, Iso.codes_append, codes_millis (c := 'T') rfl rfl, codes_zoneText,
    List.append_assoc, List.cons_append]

end Time.DateTime

end Telemetry
