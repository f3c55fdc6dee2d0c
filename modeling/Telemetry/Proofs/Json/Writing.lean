import Telemetry.Proofs.Json.Names
import Telemetry.Proofs.Json.Numerals
import Telemetry.Proofs.Json.Reading

/-!
# What is written

The text of a value on one line. It is a text of the value by the standard if the value's numbers
are finite and its names distinct, whether there are blanks behind commas and colons or not. Without
blanks and in ASCII it is printable; and a number that is not finite is written by a name that the
standard does not have, and what stands around it cannot make up for that.

Main statements: `written_writeIn`, `printable_write`, `exists_written_iff`.
-/

namespace Telemetry.Json

/-! ## Strings -/

section Strings

variable {s w : List Char}

theorem hexValue?_hexDigit : ∀ k < 16, Text.hexValue? (Text.hexDigit k) = some k := by decide

/-- Four digits write every sixteen-bit unit. -/
theorem hexDigits_four {n : Nat} (h : n < 0x10000) : HexDigits (Text.hexDigits 4 n) n := by
  have hvalue (k : Nat) : Text.hexValue? (Text.hexDigit (k % 16)) = some (k % 16) :=
    hexValue?_hexDigit _ (Nat.mod_lt _ (by decide))
  have hdigits := HexDigits.digits (hvalue (n / 16 / 16 / 16)) (hvalue (n / 16 / 16))
    (hvalue (n / 16)) (hvalue n)
  have hsum : ((n / 16 / 16 / 16 % 16 * 16 + n / 16 / 16 % 16) * 16 + n / 16 % 16) * 16 + n % 16
      = n := by omega
  rwa [hsum] at hdigits

theorem WrittenChars.escape {c : Char} (h : WrittenChars s w) :
    WrittenChars (c :: s) ((Text.charUnits16 c).flatMap escapeUnit ++ w) := by
  -- A character up to U+FFFF is one unit, any other a pair of surrogates.
  rcases Text.charUnits16_cases c with ⟨hunit, hc⟩ | ⟨high, low, hpair, hc⟩
  · rw [hc, List.flatMap_singleton]
    exact .unit hc (hexDigits_four hunit) h
  · obtain ⟨hhigh, hlow⟩ := hpair.lt
    have hwritten := WrittenChars.pair hc (hexDigits_four hhigh) (hexDigits_four hlow) h
    simpa [hc, escapeUnit] using hwritten

theorem shortEscape?_cases {c : Char} {e : List Char} (h : shortEscape? c = some e) :
    ∃ letter, e = ['\\', letter] ∧ ShortEscape letter c := by
  unfold shortEscape? at h
  repeat' split at h
  all_goals
    cases h
    try subst_vars
  · exact ⟨_, rfl, .quote⟩
  · exact ⟨_, rfl, .backslash⟩
  · exact ⟨_, rfl, .lineFeed⟩
  · exact ⟨_, rfl, .carriageReturn⟩
  · exact ⟨_, rfl, .tab⟩
  · exact ⟨_, rfl, .formFeed⟩
  · exact ⟨_, rfl, .backspace⟩

theorem ne_of_shortEscape?_eq_none {c : Char} (h : shortEscape? c = none) : c ≠ '"' ∧ c ≠ '\\' := by
  constructor <;>
    (rintro rfl; cases h)

theorem WrittenChars.char (asciiOnly : Bool) (c : Char) (h : WrittenChars s w) :
    WrittenChars (c :: s) (writeChar asciiOnly c ++ w) := by
  unfold writeChar
  cases hescape : shortEscape? c with
  | some e =>
    obtain ⟨letter, rfl, hshort⟩ := shortEscape?_cases hescape
    exact .short hshort h
  | none =>
    obtain ⟨hquote, hbackslash⟩ := ne_of_shortEscape?_eq_none hescape
    dsimp only
    split
    · exact h.escape
    · rename_i hraw
      rw [Bool.or_eq_true, not_or, decide_eq_true_eq] at hraw
      exact .raw (Nat.not_lt.mp hraw.1) hquote hbackslash h

/-- **What is written of a string stands for the string.** -/
theorem writtenChars_write (asciiOnly : Bool) (s : List Char) :
    WrittenChars s (s.flatMap (writeChar asciiOnly)) := by
  induction s with
  | nil => exact .nil
  | cons c s ih => exact ih.char asciiOnly c

end Strings

/-! ## Values with finite numbers -/

mutual

/-- The value that is read where a value is written: the same but for its doubles, each of which is
what its text reads as. -/
def reread : Json → Json
  | .float x => .float ((Numeral.readDouble? (doubleText x)).getD x)
  | .arr items => .arr (rereadItems items)
  | .obj fields => .obj (rereadFields fields)
  | v => v

/-- The items that are read where items are written. -/
def rereadItems : List Json → List Json
  | [] => []
  | v :: rest => v.reread :: rereadItems rest

/-- The fields that are read where fields are written. -/
def rereadFields : List (String × Json) → List (String × Json)
  | [] => []
  | (name, v) :: rest => (name, v.reread) :: rereadFields rest

end

theorem gap_nil : Gap [] := List.forall_mem_nil _

theorem written_int (i : Int) : Written (.int i) (Text.integer i).toList := by
  obtain ⟨n, hinteger, hi, htext⟩ := exists_integer_text i
  rw [htext, ← hi]
  exact .integer n hinteger

theorem written_float {x : Double} (h : x.isFinite = true) :
    Written (.float x) (doubleText x).toList := by
  obtain ⟨n, hinteger, htext, hdouble⟩ := exists_double_number h
  rw [htext]
  exact .decimal n hinteger (hdouble ▸ readDouble?_text n)

mutual

/-- A value whose numbers are finite is read as it is written. -/
theorem reread_eq (v : Json) (h : v.allFinite = true) : v.reread = v := by
  match v with
  | .float x => rw [reread, readDouble?_doubleText h, Option.getD_some]
  | .arr items => rw [reread, rereadItems_eq items h]
  | .obj fields => rw [reread, rereadFields_eq fields h]
  | .null | .bool _ | .int _ | .str _ => rfl

theorem rereadItems_eq (vs : List Json) (h : allFiniteItems vs = true) : rereadItems vs = vs := by
  match vs with
  | [] => rfl
  | v :: rest =>
    obtain ⟨hv, hrest⟩ := Bool.and_eq_true_iff.mp h
    rw [rereadItems, reread_eq v hv, rereadItems_eq rest hrest]

theorem rereadFields_eq (fields : Object) (h : allFiniteFields fields = true) :
    rereadFields fields = fields := by
  match fields with
  | [] => rfl
  | (name, v) :: rest =>
    obtain ⟨hv, hrest⟩ := Bool.and_eq_true_iff.mp h
    rw [rereadFields, reread_eq v hv, rereadFields_eq rest hrest]

end

theorem written_str (asciiOnly : Bool) (s : String) :
    Written (.str s) (writeString asciiOnly s) := by
  have hstring := Written.string (writtenChars_write asciiOnly s.toList)
  rwa [String.ofList_toList] at hstring

/-- A comma stands between two items and a colon behind a name, each with blanks behind it or
none. -/
structure Style.IsStandard (style : Style) : Prop where
  items : ∃ gap, Gap gap ∧ style.betweenItems = ',' :: gap
  name : ∃ gap, Gap gap ∧ style.afterName = ':' :: gap

theorem isStandard_compact (asciiOnly : Bool) : Style.IsStandard ⟨[','], [':'], asciiOnly⟩ :=
  ⟨⟨[], gap_nil, rfl⟩, [], gap_nil, rfl⟩

theorem isStandard_spaced : Style.spacedAscii.IsStandard := by
  have hblank : Gap [' '] := by simp [Gap]
  exact ⟨⟨[' '], hblank, rfl⟩, [' '], hblank, rfl⟩

variable {style : Style}

/-- One field as it is written, with blanks in front or none. -/
theorem writtenField_write (hstyle : style.IsStandard) {v : Json} {w before : List Char}
    (hbefore : Gap before) (name : String) (hv : Written v w) : WrittenField (name, v)
      (before ++ (writeString style.asciiOnly name ++ style.afterName ++ w)) := by
  obtain ⟨gap, hgap, hname⟩ := hstyle.name
  have hfield := WrittenField.field hbefore (writtenChars_write style.asciiOnly name.toList) gap_nil
    hgap hv gap_nil
  rw [String.ofList_toList] at hfield
  simpa [writeString, hname] using hfield

mutual

/-- **A value with finite numbers and distinct names is written as the standard has it**, with
blanks or without, in ASCII or not. -/
theorem written_writeIn (hstyle : style.IsStandard) (v : Json) (hnames : v.NamesDistinct)
    (hfinite : v.allFinite = true) : Written v (v.write style) := by
  match v with
  | .null => exact .null
  | .bool true => exact .yes
  | .bool false => exact .no
  | .int i => exact written_int i
  | .float x => exact written_float hfinite
  | .str s => exact written_str style.asciiOnly s
  | .arr [] => exact .emptyArray gap_nil
  | .arr (v :: rest) =>
    exact .array (writtenItems_write hstyle gap_nil (v :: rest) (by simp) hnames hfinite)
  | .obj [] => exact .emptyObject gap_nil
  | .obj (f :: rest) =>
    exact .object hnames.1
      (writtenFields_write hstyle gap_nil (f :: rest) (by simp) hnames.2 hfinite)

theorem writtenItems_write (hstyle : style.IsStandard) {before : List Char} (hbefore : Gap before)
    (vs : List Json) (hne : vs ≠ []) (hnames : ItemsDistinct vs)
    (hfinite : allFiniteItems vs = true) : WrittenItems vs (before ++ writeItems style vs) := by
  match vs with
  | [v] =>
    obtain ⟨hv, -⟩ := Bool.and_eq_true_iff.mp hfinite
    have hlast := WrittenItems.last hbefore (written_writeIn hstyle v hnames.1 hv) gap_nil
    rwa [List.append_nil] at hlast
  | v :: next :: rest =>
    obtain ⟨hv, hrest⟩ := Bool.and_eq_true_iff.mp hfinite
    obtain ⟨gap, hgap, hitems⟩ := hstyle.items
    have hmore := WrittenItems.more hbefore (written_writeIn hstyle v hnames.1 hv) gap_nil
      (writtenItems_write hstyle hgap (next :: rest) (by simp) hnames.2 hrest)
    simpa [writeItems, hitems] using hmore

theorem writtenFields_write (hstyle : style.IsStandard) {before : List Char} (hbefore : Gap before)
    (fields : Object) (hne : fields ≠ []) (hnames : FieldsDistinct fields)
    (hfinite : allFiniteFields fields = true) :
    WrittenFields fields (before ++ writeFields style fields) := by
  match fields with
  | [(name, v)] =>
    obtain ⟨hv, -⟩ := Bool.and_eq_true_iff.mp hfinite
    exact .last (writtenField_write hstyle hbefore name (written_writeIn hstyle v hnames.1 hv))
  | (name, v) :: next :: rest =>
    obtain ⟨hv, hrest⟩ := Bool.and_eq_true_iff.mp hfinite
    obtain ⟨gap, hgap, hitems⟩ := hstyle.items
    have hmore := WrittenFields.more
      (writtenField_write hstyle hbefore name (written_writeIn hstyle v hnames.1 hv))
      (writtenFields_write hstyle hgap (next :: rest) (by simp) hnames.2 hrest)
    simpa [writeFields, hitems] using hmore

end

/-- A value is written so without blanks. -/
theorem written_write (asciiOnly : Bool) (v : Json) (hnames : v.NamesDistinct)
    (hfinite : v.allFinite = true) : Written v (v.write ⟨[','], [':'], asciiOnly⟩) :=
  written_writeIn (isStandard_compact asciiOnly) v hnames hfinite

/-! ## Tokens -/

/-- What the text of a value is put together of. -/
inductive Token : List Char → Prop
  | mark {c : Char} (h : c ∈ ['[', ']', '{', '}', ',', ':']) : Token [c]
  | null : Token "null".toList
  | bool (b : Bool) : Token (if b then "true" else "false").toList
  | integer (i : Int) : Token (Text.integer i).toList
  | double (x : Double) : Token (doubleText x).toList
  | string (s : String) : Token (writeString true s)

/-- What holds of every token, and of two texts in a row if of both, holds of what is written. -/
structure Composed (Q : List Char → Prop) : Prop where
  nil : Q []
  append : ∀ {a b : List Char}, Q a → Q b → Q (a ++ b)
  token : ∀ {t : List Char}, Token t → Q t

section Tokens

variable {Q : List Char → Prop}

theorem Composed.mark (hQ : Composed Q) (c : Char)
    (hc : c ∈ ['[', ']', '{', '}', ',', ':'] := by decide) : Q [c] := hQ.token (.mark hc)

mutual

theorem Composed.write (hQ : Composed Q) (v : Json) : Q (v.write .compactAscii) := by
  match v with
  | .null => exact hQ.token .null
  | .bool b => exact hQ.token (.bool b)
  | .int i => exact hQ.token (.integer i)
  | .float x => exact hQ.token (.double x)
  | .str s => exact hQ.token (.string s)
  | .arr items => exact hQ.append (hQ.append (hQ.mark '[') (hQ.writeItems items)) (hQ.mark ']')
  | .obj fields => exact hQ.append (hQ.append (hQ.mark '{') (hQ.writeFields fields)) (hQ.mark '}')

theorem Composed.writeItems (hQ : Composed Q) (vs : List Json) :
    Q (Json.writeItems .compactAscii vs) := by
  match vs with
  | [] => exact hQ.nil
  | [v] => exact hQ.write v
  | v :: next :: rest =>
    exact hQ.append (hQ.append (hQ.write v) (hQ.mark ',')) (hQ.writeItems (next :: rest))

theorem Composed.writeFields (hQ : Composed Q) (fields : Object) :
    Q (Json.writeFields .compactAscii fields) := by
  match fields with
  | [] => exact hQ.nil
  | [(name, v)] =>
    exact hQ.append (hQ.append (hQ.token (.string name)) (hQ.mark ':')) (hQ.write v)
  | (name, v) :: next :: rest =>
    exact hQ.append (hQ.append (hQ.append (hQ.append (hQ.token (.string name)) (hQ.mark ':'))
      (hQ.write v)) (hQ.mark ',')) (hQ.writeFields (next :: rest))

end

end Tokens

/-! ## Characters -/

/-- A character of printable ASCII, so neither a control character nor the end of a line. -/
def IsPrintable (c : Char) : Prop := 0x20 ≤ c.toNat ∧ c.toNat ≤ 0x7E

instance (c : Char) : Decidable (IsPrintable c) :=
  inferInstanceAs (Decidable (0x20 ≤ c.toNat ∧ c.toNat ≤ 0x7E))

theorem printable_of_all {w : List Char} (h : w.all (fun c => decide (IsPrintable c)) = true) :
    ∀ c ∈ w, IsPrintable c :=
  fun c hc => of_decide_eq_true (List.all_eq_true.mp h c hc)

theorem IsNumberChar.printable {c : Char} (h : IsNumberChar c) : IsPrintable c := by
  rcases h with h | h
  · obtain ⟨k, hk, rfl⟩ := exists_of_isDigit h
    revert k
    decide
  · exact printable_of_all (by decide) c h

theorem printable_hexDigit : ∀ k < 16, IsPrintable (Text.hexDigit k) := by decide

theorem printable_hexDigits (width n : Nat) : ∀ c ∈ Text.hexDigits width n, IsPrintable c := by
  induction width generalizing n with
  | zero => exact List.forall_mem_nil _
  | succ width ih =>
    rw [Text.hexDigits, List.forall_mem_append, List.forall_mem_singleton]
    exact ⟨ih (n / 16), printable_hexDigit _ (Nat.mod_lt _ (by decide))⟩

theorem printable_writeChar (c : Char) : ∀ d ∈ writeChar true c, IsPrintable d := by
  unfold writeChar
  cases hescape : shortEscape? c with
  | some e =>
    obtain ⟨letter, rfl, hshort⟩ := shortEscape?_cases hescape
    cases hshort <;> exact printable_of_all (by decide)
  | none =>
    dsimp only
    split
    · intro d hd
      obtain ⟨n, -, hd⟩ := List.mem_flatMap.mp hd
      rcases List.mem_cons.mp hd with rfl | hd
      · decide
      rcases List.mem_cons.mp hd with rfl | hd
      · decide
      · exact printable_hexDigits 4 n d hd
    · rename_i hraw
      rw [Bool.true_and, Bool.or_eq_true, not_or, decide_eq_true_eq, decide_eq_true_eq] at hraw
      exact List.forall_mem_singleton.mpr ⟨Nat.not_lt.mp hraw.1, Nat.not_lt.mp hraw.2⟩

theorem printable_writeString (s : String) : ∀ c ∈ writeString true s, IsPrintable c := by
  unfold writeString
  rw [List.forall_mem_append, List.forall_mem_cons]
  refine ⟨⟨by decide, fun c hc => ?_⟩, printable_of_all (by decide)⟩
  obtain ⟨d, -, hc⟩ := List.mem_flatMap.mp hc
  exact printable_writeChar d c hc

theorem printable_integer (i : Int) : ∀ c ∈ (Text.integer i).toList, IsPrintable c := by
  obtain ⟨n, -, -, htext⟩ := exists_integer_text i
  rw [htext]
  exact fun c hc => (isNumberChar_text n c hc).printable

theorem printable_double (x : Double) : ∀ c ∈ (doubleText x).toList, IsPrintable c := by
  cases x with
  | nan => exact printable_of_all (by decide)
  | infinite negative => cases negative <;> exact printable_of_all (by decide)
  | finite negative units hr =>
    obtain ⟨n, -, htext⟩ := exists_double_text (x := .finite negative units hr) rfl
    rw [htext]
    exact fun c hc => (isNumberChar_text n c hc).printable

/-- **What is written is printable ASCII**, whatever the strings of the value are. -/
theorem printable_write (v : Json) : ∀ c ∈ v.write .compactAscii, IsPrintable c := by
  refine Composed.write (Q := fun w => ∀ c ∈ w, IsPrintable c) ⟨List.forall_mem_nil _, fun ha hb => ?_, ?_⟩ v
  · exact List.forall_mem_append.mpr ⟨ha, hb⟩
  · intro t ht
    cases ht with
    | mark h =>
      rw [List.forall_mem_singleton]
      exact printable_of_all (by decide) _ h
    | null => exact printable_of_all (by decide)
    | bool b => cases b <;> exact printable_of_all (by decide)
    | integer i => exact printable_integer i
    | double x => exact printable_double x
    | string s => exact printable_writeString s

/-! ## What stands outside of strings -/

/-- Where a reader of quotes and backslashes is. -/
inductive Place
  | outside
  | inside
  | escaped

/-- The characters of a text that are in no string, from a place on. -/
def bareFrom : Place → List Char → List Char
  | _, [] => []
  | .outside, c :: cs => if c = '"' then bareFrom .inside cs else c :: bareFrom .outside cs
  | .inside, c :: cs =>
    bareFrom (if c = '"' then .outside else if c = '\\' then .escaped else .inside) cs
  | .escaped, _ :: cs => bareFrom .inside cs

/-- The characters of a text that are in no string. -/
def bare (cs : List Char) : List Char := bareFrom .outside cs

/-- A text ends outside of strings, so that what comes next can be looked at alone. -/
def Closed (w : List Char) : Prop := ∀ rest, bare (w ++ rest) = bare w ++ bare rest

section Bare

variable {w u : List Char}

theorem Closed.append (hw : Closed w) (hu : Closed u) : Closed (w ++ u) := by
  intro rest
  rw [List.append_assoc, hw, hu, hw, List.append_assoc]

theorem bare_plain (h : '"' ∉ w) (rest : List Char) : bare (w ++ rest) = w ++ bare rest := by
  unfold bare
  induction w with
  | nil => rfl
  | cons c w ih =>
    rw [List.mem_cons, not_or] at h
    rw [List.cons_append, bareFrom, if_neg (Ne.symm h.1), ih h.2, List.cons_append]

theorem closed_plain (h : '"' ∉ w) : Closed w := by
  intro rest
  have hw := bare_plain h []
  rw [List.append_nil] at hw
  rw [bare_plain h, hw]
  exact congrArg (· ++ bare rest) (List.append_nil w).symm

/-- Neither a quote nor a backslash stands raw in a string. -/
theorem bareFrom_plain (h : ∀ c ∈ w, c ≠ '"' ∧ c ≠ '\\') (rest : List Char) :
    bareFrom .inside (w ++ rest) = bareFrom .inside rest := by
  induction w with
  | nil => rfl
  | cons c w ih =>
    obtain ⟨hc, hw⟩ := List.forall_mem_cons.mp h
    rw [List.cons_append, bareFrom, if_neg hc.1, if_neg hc.2, ih hw]

theorem HexDigits.ne {digits : List Char} {n : Nat} (h : HexDigits digits n) :
    ∀ c ∈ digits, c ≠ '"' ∧ c ≠ '\\' := by
  have hdigit {c : Char} {k : Nat} (hc : Text.hexValue? c = some k) : c ≠ '"' ∧ c ≠ '\\' := by
    constructor <;>
      (rintro rfl; cases hc)
  cases h with
  | digits ha hb hc hd =>
    simp only [List.forall_mem_cons]
    exact ⟨hdigit ha, hdigit hb, hdigit hc, hdigit hd, List.forall_mem_nil _⟩

/-- A string is closed by its own last quote only. -/
theorem WrittenChars.bareFrom {s : List Char} (h : WrittenChars s w) (rest : List Char) :
    Json.bareFrom .inside (w ++ '"' :: rest) = Json.bareFrom .outside rest := by
  induction h with
  | nil => rfl
  | raw _ hquote hbackslash _ ih =>
    rw [List.cons_append, Json.bareFrom, if_neg hquote, if_neg hbackslash, ih]
  | short _ _ ih => exact ih
  | @unit c n digits s w _ hn _ ih =>
    show Json.bareFrom .inside (digits ++ w ++ '"' :: rest) = _
    rw [List.append_assoc, bareFrom_plain hn.ne, ih]
  | @pair c high low first second s w _ hhigh hlow _ ih =>
    show Json.bareFrom .inside (first ++ '\\' :: 'u' :: (second ++ w) ++ '"' :: rest) = _
    rw [List.append_assoc, bareFrom_plain hhigh.ne]
    show Json.bareFrom .inside (second ++ w ++ '"' :: rest) = _
    rw [List.append_assoc, bareFrom_plain hlow.ne, ih]

/-- Nothing of a string is outside of it. -/
theorem WrittenChars.bare {s : List Char} (h : WrittenChars s w) (rest : List Char) :
    Json.bare ('"' :: (w ++ '"' :: rest)) = Json.bare rest := h.bareFrom rest

/-- Outside of its strings a text has none of the letters with which the names of numbers that are
not finite are told. -/
structure Neat (w : List Char) : Prop where
  closed : Closed w
  letters : ∀ c ∈ bare w, c ≠ 'N' ∧ c ≠ 'I'

theorem Neat.append (hw : Neat w) (hu : Neat u) : Neat (w ++ u) where
  closed := hw.closed.append hu.closed
  letters := by
    rw [hw.closed, List.forall_mem_append]
    exact ⟨hw.letters, hu.letters⟩

theorem neat_plain (h : ∀ c ∈ w, c ≠ '"' ∧ c ≠ 'N' ∧ c ≠ 'I') : Neat w := by
  have hquote : '"' ∉ w := fun hmem => (h _ hmem).1 rfl
  refine ⟨closed_plain hquote, ?_⟩
  have hw := bare_plain hquote []
  rw [List.append_nil] at hw
  rw [hw, List.forall_mem_append]
  exact ⟨fun c hc => (h c hc).2, List.forall_mem_nil _⟩

theorem neat_of_all (h : w.all (fun c => decide (c ≠ '"' ∧ c ≠ 'N' ∧ c ≠ 'I')) = true) : Neat w :=
  neat_plain fun c hc => of_decide_eq_true (List.all_eq_true.mp h c hc)

theorem Gap.neat {gap : List Char} (h : Gap gap) : Neat gap := by
  refine neat_plain fun c hc => ?_
  rcases h c hc with rfl | rfl | rfl <;> decide

theorem WrittenChars.neat {s : List Char} (h : WrittenChars s w) : Neat ('"' :: (w ++ ['"'])) := by
  have hempty : Json.bare ('"' :: (w ++ ['"'])) = [] := h.bare []
  refine ⟨fun rest => ?_, by rw [hempty]; exact List.forall_mem_nil _⟩
  rw [hempty, List.cons_append, List.append_assoc]
  exact h.bare rest

theorem Number.neat (n : Number) : Neat n.text := by
  refine neat_plain fun c hc => ?_
  rcases isNumberChar_text n c hc with hdigit | hmark
  · exact ⟨(isDigit_ne hdigit (by decide)).symm, (isDigit_ne hdigit (by decide)).symm,
      (isDigit_ne hdigit (by decide)).symm⟩
  · have hmarks : ∀ d ∈ ['.', 'e', 'E', '+', '-'], d ≠ '"' ∧ d ≠ 'N' ∧ d ≠ 'I' := by simp
    exact hmarks c hmark

mutual

/-- **A standard text is neat.** -/
theorem Written.neat {v : Json} {w : List Char} (h : Written v w) : Neat w := by
  match h with
  | .null => exact neat_of_all (by decide)
  | .yes => exact neat_of_all (by decide)
  | .no => exact neat_of_all (by decide)
  | .integer n _ => exact n.neat
  | .decimal n _ _ => exact n.neat
  | .string hs => exact hs.neat
  | .emptyArray hgap =>
    exact (neat_of_all (w := ['[']) (by decide)).append
      (hgap.neat.append (neat_of_all (w := [']']) (by decide)))
  | .array hvs =>
    exact (neat_of_all (w := ['[']) (by decide)).append
      (hvs.neat.append (neat_of_all (w := [']']) (by decide)))
  | .emptyObject hgap =>
    exact (neat_of_all (w := ['{']) (by decide)).append
      (hgap.neat.append (neat_of_all (w := ['}']) (by decide)))
  | .object _ hfs =>
    exact (neat_of_all (w := ['{']) (by decide)).append
      (hfs.neat.append (neat_of_all (w := ['}']) (by decide)))

theorem WrittenItems.neat {vs : List Json} {w : List Char} (h : WrittenItems vs w) : Neat w := by
  match h with
  | .last hbefore hv hafter => exact hbefore.neat.append (hv.neat.append hafter.neat)
  | .more hbefore hv hafter hvs =>
    exact hbefore.neat.append (hv.neat.append (hafter.neat.append
      ((neat_of_all (w := [',']) (by decide)).append hvs.neat)))

theorem WrittenField.neat {f : String × Json} {w : List Char} (h : WrittenField f w) : Neat w := by
  match h with
  | .field hbefore hname hafterName hbeforeValue hv hafter =>
    have hfield := hbefore.neat.append (hname.neat.append (hafterName.neat.append
      ((neat_of_all (w := [':']) (by decide)).append
        (hbeforeValue.neat.append (hv.neat.append hafter.neat)))))
    simpa using hfield

theorem WrittenFields.neat {fs : Object} {w : List Char} (h : WrittenFields fs w) : Neat w := by
  match h with
  | .last hf => exact hf.neat
  | .more hf hfs => exact hf.neat.append ((neat_of_all (w := [',']) (by decide)).append hfs.neat)

end

/-! ## Numbers that are not finite -/

theorem closed_double (x : Double) : Closed (doubleText x).toList := by
  cases x with
  | nan => exact closed_plain (by decide)
  | infinite negative => cases negative <;> exact closed_plain (by decide)
  | finite negative units hr =>
    obtain ⟨n, -, htext⟩ := exists_double_text (x := .finite negative units hr) rfl
    rw [htext]
    exact n.neat.closed

theorem closed_composed : Composed Closed where
  nil _ := rfl
  append := Closed.append
  token ht := by
    cases ht with
    | mark h =>
      refine closed_plain fun hquote => ?_
      cases List.mem_singleton.mp hquote
      exact absurd h (by decide)
    | null => exact closed_plain (by decide)
    | bool b => cases b <;> exact closed_plain (by decide)
    | integer i =>
      obtain ⟨n, -, -, htext⟩ := exists_integer_text i
      rw [htext]
      exact n.neat.closed
    | double x => exact closed_double x
    | string s => exact (writtenChars_write true s.toList).neat.closed

/-- The name of a number that is not finite stands in a text, outside of its strings. -/
def NamesNonfinite (w : List Char) : Prop :=
  ∃ front x back, Closed front ∧ Double.isFinite x = false ∧
    w = front ++ ((doubleText x).toList ++ back)

theorem NamesNonfinite.after (h : NamesNonfinite w) (hu : Closed u) : NamesNonfinite (u ++ w) := by
  obtain ⟨front, x, back, hfront, hx, rfl⟩ := h
  exact ⟨u ++ front, x, back, hu.append hfront, hx, by rw [List.append_assoc]⟩

theorem NamesNonfinite.before (h : NamesNonfinite w) (u : List Char) : NamesNonfinite (w ++ u) := by
  obtain ⟨front, x, back, hfront, hx, rfl⟩ := h
  exact ⟨front, x, back ++ u, hfront, hx, by simp only [List.append_assoc]⟩

theorem NamesNonfinite.not_neat (h : NamesNonfinite w) : ¬ Neat w := by
  obtain ⟨front, x, back, hfront, hx, rfl⟩ := h
  intro hneat
  have hletters := hneat.letters
  -- What is in front is closed, so the name stands outside of strings, with its first letter.
  have hbare (hquote : '"' ∉ (doubleText x).toList) : bare (front ++ ((doubleText x).toList ++ back))
      = bare front ++ ((doubleText x).toList ++ bare back) := by
    rw [hfront, bare_plain hquote]
  have hname : ∃ c ∈ (doubleText x).toList, c = 'N' ∨ c = 'I' := by
    cases x with
    | nan => exact ⟨'N', by decide, .inl rfl⟩
    | infinite negative => cases negative <;> exact ⟨'I', by decide, .inr rfl⟩
    | finite => cases hx
  have hquote : '"' ∉ (doubleText x).toList := by
    cases x with
    | nan => decide
    | infinite negative => cases negative <;> decide
    | finite => cases hx
  rw [hbare hquote] at hletters
  obtain ⟨c, hc, hletter⟩ := hname
  have hne := hletters c (List.mem_append_right _ (List.mem_append_left _ hc))
  exact hletter.elim hne.1 hne.2

mutual

theorem namesNonfinite_write (v : Json) (h : v.allFinite = false) :
    NamesNonfinite (v.write .compactAscii) := by
  match v with
  | .float x => exact ⟨[], x, [], fun _ => rfl, h, (List.append_nil _).symm⟩
  | .arr items =>
    exact ((namesNonfinite_writeItems items h).after (closed_composed.mark '[')).before [']']
  | .obj fields =>
    exact ((namesNonfinite_writeFields fields h).after (closed_composed.mark '{')).before ['}']

theorem namesNonfinite_writeItems (vs : List Json) (h : allFiniteItems vs = false) :
    NamesNonfinite (writeItems .compactAscii vs) := by
  match vs with
  | [v] =>
    rw [allFiniteItems, allFiniteItems, Bool.and_true] at h
    exact namesNonfinite_write v h
  | v :: next :: rest =>
    rcases Bool.and_eq_false_iff.mp h with hv | hrest
    · exact ((namesNonfinite_write v hv).before _).before _
    · exact (namesNonfinite_writeItems (next :: rest) hrest).after
        ((closed_composed.write v).append (closed_composed.mark ','))

theorem namesNonfinite_writeFields (fields : Object) (h : allFiniteFields fields = false) :
    NamesNonfinite (writeFields .compactAscii fields) := by
  match fields with
  | [(name, v)] =>
    rw [allFiniteFields, allFiniteFields, Bool.and_true] at h
    exact (namesNonfinite_write v h).after
      ((closed_composed.token (.string name)).append (closed_composed.mark ':'))
  | (name, v) :: next :: rest =>
    have hname := (closed_composed.token (.string name)).append (closed_composed.mark ':')
    rcases Bool.and_eq_false_iff.mp h with hv | hrest
    · exact (((namesNonfinite_write v hv).after hname).before _).before _
    · exact (namesNonfinite_writeFields (next :: rest) hrest).after
        ((hname.append (closed_composed.write v)).append (closed_composed.mark ','))

end

/-- **The text of a value is a standard text, of any value at all, exactly if its numbers are
finite.** -/
theorem exists_written_iff {v : Json} (hnames : v.NamesDistinct) :
    (∃ u, Written u (v.write .compactAscii)) ↔ v.allFinite = true := by
  constructor
  · rintro ⟨u, hu⟩
    by_contra hfinite
    exact (namesNonfinite_write v (Bool.eq_false_iff.mpr hfinite)).not_neat hu.neat
  · exact fun hfinite => ⟨v, written_write true v hnames hfinite⟩

end Bare

end Telemetry.Json
