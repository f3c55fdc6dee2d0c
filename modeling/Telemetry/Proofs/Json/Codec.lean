import Telemetry.Proofs.Json.Lines
import Telemetry.Proofs.Json.Writing

/-!
# Rows that are written and read back

Whatever value is written, reading takes it back from where it stands, also if numbers in it are not
finite: the names of those numbers are no standard, but the reader knows them. The text of some rows
is in ASCII and has a line for each of them, since every character that could end a line is escaped.

Main statements: `value_write` for values, `encode_answers` and `decode_encode` for rows, and
`legible_of_parseBytes` for what is read in the first place.
-/

namespace Telemetry.Json

variable {asciiOnly : Bool} {cs rest : List Char}

/-- No blanks; what is outside printable ASCII is escaped or stands as it is. -/
def Style.compact (asciiOnly : Bool) : Style := ⟨[','], [':'], asciiOnly⟩

@[simp] theorem Style.compact_betweenItems : (Style.compact asciiOnly).betweenItems = [','] := rfl

@[simp] theorem Style.compact_afterName : (Style.compact asciiOnly).afterName = [':'] := rfl

@[simp] theorem Style.compact_asciiOnly : (Style.compact asciiOnly).asciiOnly = asciiOnly := rfl

/-! ## First characters -/

theorem write_double_head (x : Double) (rest : List Char) :
    ∃ c more, (doubleText x).toList ++ rest = c :: more ∧ IsFirst c := by
  cases x with
  | nan => exact ⟨_, _, rfl, by decide⟩
  | infinite negative => cases negative <;> exact ⟨_, _, rfl, by decide⟩
  | finite negative units hr =>
    exact (written_float (x := .finite negative units hr) rfl).head rest

/-- What is written of a value starts with no blank and with no closing bracket. -/
theorem write_head (style : Style) (v : Json) (rest : List Char) :
    ∃ c more, v.write style ++ rest = c :: more ∧ IsFirst c := by
  cases v with
  | bool b => cases b <;> exact ⟨_, _, rfl, by decide⟩
  | int i => exact (written_int i).head rest
  | float x => exact write_double_head x rest
  | _ => exact ⟨_, _, rfl, by decide⟩

theorem writeItems_head (style : Style) {vs : List Json} (hne : vs ≠ []) (rest : List Char) :
    ∃ c more, writeItems style vs ++ rest = c :: more ∧ IsFirst c := by
  match vs with
  | [v] => exact write_head style v rest
  | v :: next :: more =>
    rw [writeItems, List.append_assoc, List.append_assoc]
    · exact write_head style v _
    · exact List.cons_ne_nil next more

theorem writeFields_head (style : Style) {fields : Object} (hne : fields ≠ []) (rest : List Char) :
    ∃ more, writeFields style fields ++ rest = '"' :: more := by
  match fields with
  | [(name, v)] => exact ⟨_, rfl⟩
  | (name, v) :: next :: more => exact ⟨_, rfl⟩

theorem skipSpace_of_isFirst (h : ∃ c more, cs = c :: more ∧ IsFirst c) : skipSpace cs = cs := by
  obtain ⟨c, more, rfl, hc⟩ := h
  exact skipSpace_cons hc.1 more

/-! ## Values without parts -/

theorem value_write_int (depth : Nat) (i : Int) (hrest : Stops rest) :
    Answers (Fits (depth + 1) (.int i)) (value (depth + 1) ((Text.integer i).toList ++ rest))
      (.int i, rest) :=
  (written_int i).answers (depth + 1) hrest

/-- A double is read back from its text, a number that is not finite by its name. -/
theorem value_write_double (depth : Nat) (x : Double) (hrest : Stops rest) :
    value (depth + 1) ((doubleText x).toList ++ rest) = .ok (.float x, rest) := by
  cases x with
  | nan => rfl
  | infinite negative => cases negative <;> rfl
  | finite negative units hr =>
    have hwritten := written_float (x := .finite negative units hr) rfl
    exact (hwritten.answers (depth + 1) hrest).ok trivial

theorem value_write_string (depth : Nat) (s : String) (rest : List Char) :
    value (depth + 1) (writeString asciiOnly s ++ rest) = .ok (.str s, rest) := by
  have hread := value_string depth (writtenChars_write asciiOnly s.toList) rest
  rw [String.ofList_toList] at hread
  rwa [writeString, List.cons_append, List.cons_append, List.append_assoc]

/-- The name of a field is read with the colon behind it. -/
theorem fieldName_write (asciiOnly : Bool) (name : String) (h : skipSpace rest = rest) :
    fieldName (writeString asciiOnly name ++ ':' :: rest) = .ok (name, rest) := by
  have hname := string_written (writtenChars_write asciiOnly name.toList)
    (writeString asciiOnly name ++ ':' :: rest).length (':' :: rest)
  rw [String.ofList_toList] at hname
  unfold writeString at hname ⊢
  simp only [List.cons_append, List.append_assoc, List.nil_append] at hname ⊢
  rw [fieldName, hname]
  dsimp only
  rw [skipSpace_cons (by decide)]
  exact congrArg (fun more => Except.ok (name, more)) h

/-! ## All values -/

/-
The induction is on the value. As in reading, the depth goes down where values are nested, and all
that is asked of the fuel is that it exceeds what is left to be read.
-/
mutual

/-- **A value is read back where it is written if it keeps to the limits, and is refused
otherwise.** -/
theorem value_write (asciiOnly : Bool) (v : Json) (hnames : v.NamesDistinct) (depth : Nat)
    {rest : List Char} (hrest : Stops rest) :
    Answers (Fits depth v) (value depth (v.write (.compact asciiOnly) ++ rest)) (v, rest) := by
  cases depth with
  | zero => exact ⟨fun hfits => hfits.elim, fun _ => ⟨_, rfl⟩⟩
  | succ depth =>
    match v with
    | .null => exact .of_eq trivial (value_null depth rest)
    | .bool true => exact .of_eq trivial (value_true depth rest)
    | .bool false => exact .of_eq trivial (value_false depth rest)
    | .int i => exact value_write_int depth i hrest
    | .float x => exact .of_eq trivial (value_write_double depth x hrest)
    | .str s => exact .of_eq trivial (value_write_string depth s rest)
    | .arr [] => exact .of_eq (fun _ hv => nomatch hv) rfl
    | .arr (v :: vs) =>
      obtain ⟨c, more, hhead, hc⟩ :=
        writeItems_head (.compact asciiOnly) (List.cons_ne_nil v vs) (']' :: rest)
      have hread := items_write asciiOnly (v :: vs) (List.cons_ne_nil v vs) hnames depth _ rest
        (Nat.lt_succ_self _)
      rw [hhead] at hread
      rw [write, List.cons_append, List.cons_append, List.append_assoc, List.singleton_append,
        hhead]
      exact value_array (skipSpace_cons hc.1 more) hc.2.1 hread
    | .obj [] => exact .of_eq (fun _ hf => nomatch hf) rfl
    | .obj (f :: fs) =>
      obtain ⟨more, hhead⟩ :=
        writeFields_head (.compact asciiOnly) (List.cons_ne_nil f fs) ('}' :: rest)
      have hread := members_write asciiOnly (f :: fs) (List.cons_ne_nil f fs) hnames.2 depth _ rest
        (Nat.lt_succ_self _)
      rw [hhead] at hread
      rw [write, List.cons_append, List.cons_append, List.append_assoc, List.singleton_append,
        hhead]
      have hobject := value_object (skipSpace_cons (by decide) more) (by decide) hread
      rwa [Assoc.ofList_of_nodup hnames.1] at hobject

theorem items_write (asciiOnly : Bool) (vs : List Json) (hne : vs ≠ []) (hnames : ItemsDistinct vs)
    (depth fuel : Nat) (rest : List Char)
    (hfuel : (writeItems (.compact asciiOnly) vs ++ ']' :: rest).length < fuel) :
    Answers (∀ v ∈ vs, Fits depth v)
      (items (value depth) fuel (writeItems (.compact asciiOnly) vs ++ ']' :: rest))
      (vs, rest) := by
  obtain ⟨fuel, rfl⟩ := Nat.exists_eq_add_of_lt (Nat.zero_lt_of_lt hfuel)
  rw [Nat.zero_add] at hfuel ⊢
  match vs with
  | [v] =>
    have hread := value_write asciiOnly v hnames.1 depth
      (stops_gap gap_nil (c := ']') (.inr (.inl rfl)) rest)
    refine (items_last hread (skipSpace_cons (by decide) rest)).congr ?_
    rw [List.forall_mem_singleton]
  | v :: next :: more =>
    simp only [writeItems, Style.compact_betweenItems, List.append_assoc, List.singleton_append,
      List.length_append, List.length_cons] at hfuel ⊢
    have hread := value_write asciiOnly v hnames.1 depth (stops_gap gap_nil (c := ',') (.inl rfl)
      (writeItems (.compact asciiOnly) (next :: more) ++ ']' :: rest))
    have hmore := items_write asciiOnly (next :: more) (List.cons_ne_nil next more) hnames.2 depth
      fuel rest (by rw [List.length_append, List.length_cons]; omega)
    rw [← skipSpace_of_isFirst (writeItems_head _ (List.cons_ne_nil next more) _)] at hmore
    exact (items_more hread (skipSpace_cons (by decide) _) hmore).congr List.forall_mem_cons.symm

theorem members_write (asciiOnly : Bool) (fields : Object) (hne : fields ≠ [])
    (hnames : FieldsDistinct fields) (depth fuel : Nat) (rest : List Char)
    (hfuel : (writeFields (.compact asciiOnly) fields ++ '}' :: rest).length < fuel) :
    Answers (∀ f ∈ fields, Fits depth f.2)
      (members (value depth) fuel (writeFields (.compact asciiOnly) fields ++ '}' :: rest))
      (fields, rest) := by
  obtain ⟨fuel, rfl⟩ := Nat.exists_eq_add_of_lt (Nat.zero_lt_of_lt hfuel)
  rw [Nat.zero_add] at hfuel ⊢
  match fields with
  | [(name, v)] =>
    simp only [writeFields, Style.compact_afterName, Style.compact_asciiOnly, List.append_assoc,
      List.singleton_append]
    have hname := fieldName_write asciiOnly name
      (skipSpace_of_isFirst (write_head (.compact asciiOnly) v ('}' :: rest)))
    have hread := value_write asciiOnly v hnames.1 depth
      (stops_gap gap_nil (c := '}') (.inr (.inr rfl)) rest)
    refine (members_last hname hread (skipSpace_cons (by decide) rest)).congr ?_
    rw [List.forall_mem_singleton]
  | (name, v) :: next :: more =>
    simp only [writeFields, Style.compact_betweenItems, Style.compact_afterName,
      Style.compact_asciiOnly, List.append_assoc, List.singleton_append, List.length_append,
      List.length_cons] at hfuel ⊢
    have hname := fieldName_write asciiOnly name
      (skipSpace_of_isFirst (write_head (.compact asciiOnly) v
        (',' :: (writeFields (.compact asciiOnly) (next :: more) ++ '}' :: rest))))
    have hread := value_write asciiOnly v hnames.1 depth (stops_gap gap_nil (c := ',') (.inl rfl)
      (writeFields (.compact asciiOnly) (next :: more) ++ '}' :: rest))
    have hmore := members_write asciiOnly (next :: more) (List.cons_ne_nil next more) hnames.2 depth
      fuel rest (by rw [List.length_append, List.length_cons]; omega)
    obtain ⟨tail, htail⟩ := writeFields_head (.compact asciiOnly)
      (List.cons_ne_nil next more) ('}' :: rest)
    have hskip : skipSpace (writeFields (.compact asciiOnly) (next :: more) ++ '}' :: rest)
        = writeFields (.compact asciiOnly) (next :: more) ++ '}' :: rest := by
      rw [htail]
      exact skipSpace_cons (by decide) tail
    rw [← hskip] at hmore
    refine (members_more hname hread (skipSpace_cons (by decide) _) hmore).congr ?_
    simp only [List.forall_mem_cons]

end

/-! ## What is read keeps to the limits -/

theorem magnitude_fits (depth : Nat) (negative : Bool) (left : Nat) {cs rest : List Char} {v : Json}
    (h : magnitude negative left cs = .ok (v, rest)) : Fits (depth + 1) v := by
  unfold magnitude at h
  split at h
  · cases h
  · rename_i whole afterWhole _
    dsimp only at h
    split at h
    · split at h
      · cases h
      · rename_i hshort
        cases h
        have hvalue : Text.decimalValue whole < Nat.pow 10 maxIntegerDigits :=
          Nat.lt_of_lt_of_le (decimalValue_lt whole)
            (Nat.pow_le_pow_right (by decide) (Nat.not_lt.mp hshort))
        change Int.natAbs (if negative = true then _ else _) < _
        split
        · rwa [Int.natAbs_neg, Int.natAbs_natCast]
        · rwa [Int.natAbs_natCast]
    · cases h
      trivial

theorem scalar_fits (depth : Nat) : Yields (Fits (depth + 1)) scalar := by
  intro cs rest v h
  unfold scalar at h
  repeat' split at h
  all_goals try
    cases h
    trivial
  -- The words are settled; a number is what is left.
  unfold number at h
  split at h <;> exact magnitude_fits depth _ _ h

/-- What is read keeps to the limits; the induction is on the depth that is left. -/
theorem value_fits (depth : Nat) : Yields (Fits depth) (value depth) := by
  induction depth with
  | zero => exact fun h => nomatch h
  | succ depth ih =>
    intro cs rest v h
    unfold value at h
    split at h
    · split at h
      · cases h
      · cases h
        trivial
    · split at h
      · cases h
        exact fun _ hv => nomatch hv
      · split at h
        · cases h
        rename_i vs left hvs
        cases h
        exact items_yields ih hvs
    · split at h
      · cases h
        exact fun _ hf => nomatch hf
      · split at h
        · cases h
        rename_i fields left hfields
        cases h
        exact (Assoc.ofList_table (P := Fits depth) (members_yields ih hfields)).2
    · exact scalar_fits depth h

/-- A number of up to three digits is not too long. -/
theorem lt_limit {n : Nat} (h : n < 10 ^ 3) : n < 10 ^ maxIntegerDigits :=
  Nat.lt_of_lt_of_le h (Nat.pow_le_pow_right (by decide) (by decide))

/-- What fits fits where more depth is left. -/
theorem Fits.succ {depth : Nat} {v : Json} (h : Fits depth v) : Fits (depth + 1) v := by
  induction depth generalizing v with
  | zero => exact h.elim
  | succ depth ih =>
    cases v with
    | int i => exact h
    | arr vs => exact fun v hv => ih (h v hv)
    | obj fs => exact fun f hf => ih (h f hf)
    | _ => trivial

/-- A value that can have been read: its names are distinct, and it keeps to the limits. -/
structure Legible (v : Json) : Prop where
  names : v.NamesDistinct
  fits : Fits maxDepth v

/-- Bytes are read as legible values. -/
theorem legible_of_parseBytes {raw : List UInt8} {v : Json} (h : parseBytes raw = .ok v) :
    Legible v := by
  refine ⟨namesDistinct_of_parseBytes h, ?_⟩
  unfold parseBytes at h
  split at h
  · cases h
  · rename_i cs hcs
    unfold parseChars at h
    split at h
    · cases h
    · rename_i found rest hread
      split at h
      · cases h
        exact value_fits maxDepth hread
      · cases h

/-! ## Rows -/

namespace Lines

variable {rows : List Object}

/-- The line of a row. -/
def line (row : Object) : List Char := (Json.obj row).write .compactAscii

theorem noBreak_line (row : Object) : Text.NoBreak (line row) := by
  intro c hc
  obtain ⟨hlow, hhigh⟩ := printable_write (.obj row) c hc
  have hstray : c ∉ strayBreaks := by
    rw [strayBreaks]
    simp only [List.mem_cons, List.not_mem_nil, or_false, not_or, ← Char.toNat_inj,
      Char.reduceToNat]
    omega
  exact (OnLine.isLineBreak_eq_false_iff (.inr (.inr hlow))).mpr hstray

/-- Every row is a line that is not blank, since it starts with a brace. -/
theorem kept_encode (rows : List Object) :
    Text.kept (encode (rows.map .obj)).toList = rows.map line := by
  unfold encode
  rw [String.toList_ofList]
  induction rows with
  | nil => rfl
  | cons row more ih =>
    rw [List.map_cons, List.flatMap_cons, List.append_assoc, List.singleton_append,
      Text.kept_append rfl, ih, List.map_cons]
    have hbrace : '{' ∈ line row := List.mem_cons_self
    have hline : Text.kept (line row) = [line row] := by
      rw [Text.kept_run (noBreak_line row), Text.keep_cons (not_isBlankLine_brace hbrace)]
      rfl
    exact congrArg (· ++ more.map line) hline

theorem readLine_line {row : Object} (hnames : (Json.obj row).NamesDistinct) :
    Answers (Fits maxDepth (.obj row)) (readLine (line row)) (.obj row) := by
  have hread := value_write true (.obj row) hnames maxDepth stops_nil
  have hskip : skipSpace (line row) = line row := skipSpace_cons (by decide) _
  have hline : readLine (line row) = parseChars (line row) :=
    readLine_gap gap_nil (writeFields .compactAscii row ++ ['}'])
  rw [List.append_nil] at hread
  change Answers _ (value maxDepth (line row)) _ at hread
  rw [hline, parseChars, hskip]
  refine hread.through (fun hok => ?_) fun e he => ⟨_, by rw [he]⟩
  rw [hok]
  rfl

/-- What a text of so many rows consists of. -/
structure HasLines (count : Nat) (text : String) : Prop where
  ascii : ∀ c ∈ text.toList, c.toNat < 0x80
  breaks : ∀ c ∈ text.toList, Text.isLineBreak c = true → c = '\n'
  lineFeeds : text.toList.count '\n' = count
  empty : text = "" ↔ count = 0

theorem encode_cons (row : Object) (more : List Object) :
    (encode ((row :: more).map .obj)).toList
      = line row ++ '\n' :: (encode (more.map .obj)).toList := by
  simp only [encode, line, String.toList_ofList, List.map_cons, List.flatMap_cons,
    List.append_assoc, List.singleton_append]

theorem hasLines_encode (rows : List Object) : HasLines rows.length (encode (rows.map .obj)) := by
  have hline (row : Object) : ∀ c ∈ line row, c ≠ '\n' := fun c hc h => by
    subst h
    exact nomatch noBreak_line row _ hc
  induction rows with
  | nil => exact ⟨nofun, nofun, rfl, by decide⟩
  | cons row more ih =>
    have hempty : encode ((row :: more).map .obj) ≠ "" := by
      rw [Ne, ← String.toList_eq_nil_iff, encode_cons]
      exact List.append_ne_nil_of_right_ne_nil _ (List.cons_ne_nil _ _)
    refine ⟨?_, ?_, ?_, iff_of_false hempty (Nat.succ_ne_zero _)⟩
    · rw [encode_cons, List.forall_mem_append, List.forall_mem_cons]
      exact ⟨fun c hc => Nat.lt_of_le_of_lt (printable_write (.obj row) c hc).2 (by decide),
        by decide, ih.ascii⟩
    · rw [encode_cons, List.forall_mem_append, List.forall_mem_cons]
      refine ⟨fun c hc hbreak => ?_, fun _ => rfl, ih.breaks⟩
      rw [noBreak_line row c hc] at hbreak
      cases hbreak
    · rw [encode_cons, List.count_append, List.count_eq_zero_of_not_mem fun h => hline row _ h rfl,
        List.count_cons_self, ih.lineFeeds, Nat.zero_add]
      rfl

theorem mapM_readLine_line (hnames : ∀ row ∈ rows, (Json.obj row).NamesDistinct) :
    Answers (∀ row ∈ rows, Fits maxDepth (.obj row)) ((rows.map line).mapM readLine)
      (rows.map .obj) := by
  induction rows with
  | nil => exact .of_eq nofun rfl
  | cons row more ih =>
    obtain ⟨hrow, hmore⟩ := List.forall_mem_cons.mp hnames
    have hfirst : Answers (Fits maxDepth (.obj row)) ([line row].mapM readLine) [.obj row] := by
      rw [List.mapM_cons]
      refine (readLine_line hrow).through (fun hok => ?_) fun e he => ⟨e, by rw [he]; rfl⟩
      rw [hok]
      rfl
    exact (hfirst.mapM_append (ih hmore)).congr (by rw [List.forall_mem_cons])

/-- Rows are read back from their text if all of them keep to the limits of reading. -/
theorem encode_answers (hnames : ∀ row ∈ rows, (Json.obj row).NamesDistinct) :
    Answers (∀ row ∈ rows, Fits maxDepth (.obj row)) (decode (encode (rows.map .obj)))
      (rows.map .obj) := by
  have hdecode : decode (encode (rows.map .obj)) = (rows.map line).mapM readLine :=
    congrArg (List.mapM readLine) (kept_encode rows)
  rw [hdecode]
  exact mapM_readLine_line hnames

/-- **Rows are read back from their text**, in their order and with their fields in order, exactly
if all of them keep to the limits of reading. The text is in ASCII, and a line feed behind each row
is all that ends a line in it. -/
theorem decode_encode (hnames : ∀ row ∈ rows, (Json.obj row).NamesDistinct) :
    (decode (encode (rows.map .obj)) = .ok (rows.map .obj) ↔
      ∀ row ∈ rows, Fits maxDepth (.obj row)) ∧
    HasLines rows.length (encode (rows.map .obj)) := by
  have hread := encode_answers hnames
  exact ⟨⟨fun h => (hread.of_ok h).1, hread.ok⟩, hasLines_encode rows⟩

/-- Two rows, with names and a text that need escapes, and with numbers that are not finite. -/
def oddRows : List Object :=
  [[("", .str "\"\\\n\x7f\u2028😀"),
      ("a", .arr [.float .nan, .obj [("b", .null), ("a", .int (-7))]])],
    [("\x85", .float (.infinite true))]]

theorem decode_encode_oddRows : (∀ row ∈ oddRows, (Json.obj row).NamesDistinct) ∧
    (∀ row ∈ oddRows, Fits maxDepth (.obj row)) ∧
    decode (encode (oddRows.map .obj)) = .ok (oddRows.map .obj) ∧
    HasLines oddRows.length (encode (oddRows.map .obj)) := by
  have hnames : ∀ row ∈ oddRows, (Json.obj row).NamesDistinct := by
    simp [oddRows, NamesDistinct, ItemsDistinct, FieldsDistinct]
  have hseven : 7 < 10 ^ maxIntegerDigits := lt_limit (by decide)
  have hfits : ∀ row ∈ oddRows, Fits maxDepth (.obj row) := by
    simpa [oddRows, Fits, maxDepth, -Prod.forall, -Nat.reducePow] using hseven
  obtain ⟨hread, hlines⟩ := decode_encode hnames
  exact ⟨hnames, hfits, hread.mpr hfits, hlines⟩

end Lines

end Telemetry.Json
