import Telemetry.Proofs.Sql.Names

/-!
# Paths of fields

The path of a field is made of identifiers with dots between them. Read without their quotes, they
are the segments of the field's name, behind the column of the payload unless the name is one of a
column of its own. So the path tells the name, and no name of the payload leads to another column.

A segment that begins with a digit can only be read between quotes. It gets them in the payload, but
not behind a column of its own, whose name is taken as it is.

Main statement: `column_readable_iff`.
-/

namespace Telemetry.Sql

variable {name other path : String} {s : List Char} {c : Char}

/-! ## Identifiers -/

/-- An identifier as it is written: a letter or an underscore with letters, digits and underscores
behind it, or anything between two backquotes. -/
inductive IsIdentifier : List Char → Prop
  | bare {first : Char} {rest : List Char} (hfirst : Text.isLetter first = true ∨ first = '_')
      (hrest : ∀ c ∈ rest, isSegmentChar c = true) : IsIdentifier (first :: rest)
  | quoted {inner : List Char} (hne : inner ≠ []) (h : '\x60' ∉ inner) :
      IsIdentifier ('\x60' :: inner ++ ['\x60'])

/-- What an identifier names: what stands between its quotes, if it has any. -/
def identified : List Char → List Char
  | [] => []
  | c :: rest => if c = '\x60' then rest.dropLast else c :: rest

/-- A segment begins with a digit. -/
def BeginsWithDigit (s : List Char) : Prop := ∃ c rest, s = c :: rest ∧ Text.isDigit c = true

theorem ne_quote_of_isSegmentChar (h : isSegmentChar c = true) : c ≠ '\x60' := by
  rintro rfl
  exact absurd h (by decide)

theorem isDigit_eq_false_of_first (h : Text.isLetter c = true ∨ c = '_') :
    Text.isDigit c = false := by
  rcases h with h | rfl
  · simp only [Text.isLetter, Text.isDigit, Bool.or_eq_true, Bool.and_eq_true, decide_eq_true_eq,
      Bool.and_eq_false_iff, decide_eq_false_iff_not, Char.le_def, UInt32.le_iff_toNat_le] at h ⊢
    simp at h ⊢
    omega
  · decide

/-- The column of the payload is an identifier. -/
theorem isIdentifier_payloadColumn : IsIdentifier payloadColumn.toList := by
  have hchars : payloadColumn.toList = ['e', 'v', 'e', 'n', 't'] := by simp [payloadColumn]
  rw [hchars]
  exact .bare (.inl (by decide)) (List.all_eq_true.mp (by decide))

theorem identified_of_isSegment (h : IsSegment s) : identified s = s := by
  obtain ⟨hne, hchars⟩ := h
  cases s with
  | nil => exact absurd rfl hne
  | cons c rest => simp [identified, ne_quote_of_isSegmentChar (hchars c List.mem_cons_self)]

/-- A segment is an identifier as it stands unless it begins with a digit. -/
theorem isIdentifier_iff (h : IsSegment s) : IsIdentifier s ↔ ¬ BeginsWithDigit s := by
  obtain ⟨hne, hchars⟩ := h
  constructor
  · rintro hs ⟨c, rest, rfl, hdigit⟩
    cases hs with
    | bare hfirst hrest => simp [isDigit_eq_false_of_first hfirst] at hdigit
    | quoted hinner hquote => exact absurd hdigit (by decide)
  · intro hdigit
    cases s with
    | nil => exact absurd rfl hne
    | cons c rest =>
      obtain ⟨hc, hrest⟩ := List.forall_mem_cons.mp hchars
      have hfirst : Text.isDigit c = false := by
        simpa using fun hc => hdigit ⟨c, rest, rfl, hc⟩
      refine .bare ?_ hrest
      simpa [isSegmentChar, hfirst] using hc

/-- A segment is written with quotes if it begins with a digit, and as it stands if not. -/
theorem segmentIdentifier_cases (h : IsSegment s) :
    (BeginsWithDigit s ∧ (segmentIdentifier s).toList = '\x60' :: s ++ ['\x60']) ∨
      (¬ BeginsWithDigit s ∧ (segmentIdentifier s).toList = s) := by
  cases s with
  | nil => exact absurd rfl h.1
  | cons c rest =>
    by_cases hdigit : Text.isDigit c = true
    · exact .inl ⟨⟨c, rest, rfl, hdigit⟩, by simp [segmentIdentifier, hdigit]⟩
    · refine .inr ⟨?_, by simp [segmentIdentifier, hdigit]⟩
      rintro ⟨d, more, heq, hd⟩
      cases heq
      exact hdigit hd

/-- **A segment of the payload is written as an identifier.** -/
theorem isIdentifier_segmentIdentifier (h : IsSegment s) :
    IsIdentifier (segmentIdentifier s).toList := by
  rcases segmentIdentifier_cases h with ⟨-, hs⟩ | ⟨hdigit, hs⟩
  · rw [hs]
    exact .quoted h.1 fun hquote => ne_quote_of_isSegmentChar (h.2 _ hquote) rfl
  · rw [hs]
    exact (isIdentifier_iff h).mpr hdigit

theorem identified_segmentIdentifier (h : IsSegment s) :
    identified (segmentIdentifier s).toList = s := by
  rcases segmentIdentifier_cases h with ⟨-, hs⟩ | ⟨-, hs⟩
  · simp [hs, identified]
  · rw [hs, identified_of_isSegment h]

theorem dot_not_mem_segmentIdentifier (h : IsSegment s) :
    '.' ∉ (segmentIdentifier s).toList := by
  have hdot : '.' ∉ s := fun hs => absurd (h.2 '.' hs) (by decide)
  rcases segmentIdentifier_cases h with ⟨-, hs⟩ | ⟨-, hs⟩ <;> simp [hs, hdot]

/-! ## Paths -/

/-- A name, or a path, that begins with an underscore is one of a column of its own. -/
def OfOwnColumn (name : String) : Prop := name.toList.head? = some '_'

instance (name : String) : Decidable (OfOwnColumn name) :=
  inferInstanceAs (Decidable (_ = _))

/-- What the path of a field has to lead through: the segments of the name, behind the column of the
payload unless the first one is a column of its own. -/
def addressed (name : String) : List (List Char) :=
  if OfOwnColumn name then fieldSegments name else payloadColumn.toList :: fieldSegments name

/-- A name is known by its segments. -/
theorem fieldSegments_injective (h : fieldSegments name = fieldSegments other) : name = other := by
  have hchars := congrArg (['.'].intercalate ·) h
  simp only [fieldSegments, Text.intercalate_splitAt] at hchars
  exact String.toList_inj.mp hchars

/-- The path of a column of its own is its name. -/
theorem column_of_ownColumn (h : isFieldName name = true) (hown : OfOwnColumn name) :
    column name = .ok name := by
  have hhead : name.toList.head? = some '_' := hown
  simp [column, h, hhead]

/-- The segments of a path into the payload are the identifiers of the name's segments, behind the
column of the payload. -/
theorem exists_column_of_payload (h : isFieldName name = true) (hown : ¬ OfOwnColumn name) :
    ∃ path, column name = .ok path ∧ fieldSegments path
      = payloadColumn.toList :: (fieldSegments name).map fun s => (segmentIdentifier s).toList := by
  have hhead : ¬ name.toList.head? = some '_' := hown
  have hsegments := isSegment_of_isFieldName h
  have hne : (fieldSegments name).map segmentIdentifier ≠ [] := by
    simpa [fieldSegments] using Text.splitAt_ne_nil '.' name.toList
  refine ⟨Text.joinWith (String.singleton '.')
    (payloadColumn :: (fieldSegments name).map segmentIdentifier), ?_, ?_⟩
  · rw [column, if_pos h, if_neg hhead, Text.joinWith_cons _ _ hne]
    rfl
  · rw [fieldSegments, Text.splitAt_joinWith (List.cons_ne_nil _ _)]
    · simp [Function.comp_def]
    · intro piece hpiece
      rcases List.mem_cons.mp hpiece with rfl | hpiece
      · decide
      · obtain ⟨s, hs, rfl⟩ := List.mem_map.mp hpiece
        exact dot_not_mem_segmentIdentifier (hsegments s hs)

/-- **The segments of a path name what the path has to lead through.** -/
theorem identified_fieldSegments (h : column name = .ok path) :
    (fieldSegments path).map identified = addressed name := by
  have hname : isFieldName name = true := (exists_column_iff name).mp ⟨path, h⟩
  have hsegments := isSegment_of_isFieldName hname
  by_cases hown : OfOwnColumn name
  · cases h.symm.trans (column_of_ownColumn hname hown)
    rw [addressed, if_pos hown]
    exact (List.map_congr_left fun s hs => identified_of_isSegment (hsegments s hs)).trans
      (List.map_id' _)
  · obtain ⟨written, hwritten, hpath⟩ := exists_column_of_payload hname hown
    cases h.symm.trans hwritten
    rw [hpath, addressed, if_neg hown, List.map_cons, List.map_map]
    refine congrArg₂ List.cons (by decide) ?_
    exact (List.map_congr_left fun s hs => identified_segmentIdentifier (hsegments s hs)).trans
      (List.map_id' _)

/-- A path is one of a column of its own just if the name is. -/
theorem ofOwnColumn_path (h : column name = .ok path) : OfOwnColumn path ↔ OfOwnColumn name := by
  have hname : isFieldName name = true := (exists_column_iff name).mp ⟨path, h⟩
  by_cases hown : OfOwnColumn name
  · cases h.symm.trans (column_of_ownColumn hname hown)
    rfl
  · refine iff_of_false ?_ hown
    have hhead : ¬ name.toList.head? = some '_' := hown
    rw [column, if_pos hname, if_neg hhead] at h
    cases h
    simp [OfOwnColumn, payloadColumn]

/-- **Different names have different paths.** -/
theorem column_injective (h : column name = .ok path) (hother : column other = .ok path) :
    other = name := by
  have howns : OfOwnColumn other ↔ OfOwnColumn name :=
    (ofOwnColumn_path hother).symm.trans (ofOwnColumn_path h)
  have hsegments := (identified_fieldSegments hother).symm.trans (identified_fieldSegments h)
  by_cases hown : OfOwnColumn name
  · rw [addressed, addressed, if_pos hown, if_pos (howns.mpr hown)] at hsegments
    exact fieldSegments_injective hsegments
  · rw [addressed, addressed, if_neg hown, if_neg fun ho => hown (howns.mp ho)] at hsegments
    exact fieldSegments_injective (List.cons.inj hsegments).2

/-- **Every segment of a path is an identifier unless it is a digit-led one behind a column of its
own.** -/
theorem isIdentifier_fieldSegments_iff (h : column name = .ok path) :
    (∀ s ∈ fieldSegments path, IsIdentifier s) ↔
      ¬ (OfOwnColumn name ∧ ∃ s ∈ fieldSegments name, BeginsWithDigit s) := by
  have hname : isFieldName name = true := (exists_column_iff name).mp ⟨path, h⟩
  have hsegments := isSegment_of_isFieldName hname
  by_cases hown : OfOwnColumn name
  · cases h.symm.trans (column_of_ownColumn hname hown)
    have hiff : (∀ s ∈ fieldSegments name, IsIdentifier s) ↔
        ∀ s ∈ fieldSegments name, ¬ BeginsWithDigit s :=
      forall₂_congr fun s hs => isIdentifier_iff (hsegments s hs)
    simp [hiff, hown]
  · obtain ⟨written, hwritten, hpath⟩ := exists_column_of_payload hname hown
    cases h.symm.trans hwritten
    refine iff_of_true ?_ fun hboth => hown hboth.1
    intro s hs
    rw [hpath] at hs
    rcases List.mem_cons.mp hs with rfl | hs
    · exact isIdentifier_payloadColumn
    · obtain ⟨t, ht, rfl⟩ := List.mem_map.mp hs
      exact isIdentifier_segmentIdentifier (hsegments t ht)

/-- **The name of a field has a path whose segments, without their quotes, are those of the name
behind the column of the payload, unless the name is one of a column of its own. All of them can be
read as identifiers exactly if no segment behind a column of its own begins with a digit.** No other
name has the same path, and no name of the payload has the path of a column of its own. -/
theorem column_readable_iff (h : isFieldName name = true) :
    ∃ path, column name = .ok path ∧
      (fieldSegments path).map identified = addressed name ∧
      ((∀ s ∈ fieldSegments path, IsIdentifier s) ↔
        ¬ (OfOwnColumn name ∧ ∃ s ∈ fieldSegments name, BeginsWithDigit s)) ∧
      (∀ other, column other = .ok path → other = name) ∧
      (OfOwnColumn path ↔ OfOwnColumn name) := by
  obtain ⟨path, hpath⟩ := (exists_column_iff name).mpr h
  exact ⟨path, hpath, identified_fieldSegments hpath, isIdentifier_fieldSegments_iff hpath,
    fun other hother => column_injective hpath hother, ofOwnColumn_path hpath⟩

/-- A segment that begins with a digit gets quotes in the payload. -/
theorem column_readable_counts : isFieldName "counts.200" = true ∧
    ∃ path, column "counts.200" = .ok path ∧
      (fieldSegments path).map identified = ["event".toList, "counts".toList, "200".toList] ∧
      (∀ s ∈ fieldSegments path, IsIdentifier s) ∧
      (∀ other, column other = .ok path → other = "counts.200") ∧ ¬ OfOwnColumn path := by
  have hname : isFieldName "counts.200" = true := by decide
  have hown : ¬ OfOwnColumn "counts.200" := by decide
  obtain ⟨path, hpath, hsegments, hiff, hother, howns⟩ := column_readable_iff hname
  refine ⟨hname, path, hpath, hsegments.trans (by decide), hiff.mpr fun hboth => hown hboth.1,
    hother, fun hp => hown (howns.mp hp)⟩

/-- Behind a column of its own a segment that begins with a digit is left as it is, and is no
identifier. -/
theorem column_unreadable_counts : isFieldName "_counts.200" = true ∧
    column "_counts.200" = .ok "_counts.200" ∧ "200".toList ∈ fieldSegments "_counts.200" ∧
      ¬ IsIdentifier "200".toList := by
  have hname : isFieldName "_counts.200" = true := by decide
  have hmem : "200".toList ∈ fieldSegments "_counts.200" := by decide
  refine ⟨hname, column_of_ownColumn hname (by decide), hmem, fun hs => ?_⟩
  exact (isIdentifier_iff (isSegment_of_isFieldName hname _ hmem)).mp hs ⟨'2', _, rfl, by decide⟩

end Telemetry.Sql
