import Telemetry.Proofs.Sql.Piece

/-!
# Names of fields

A name addresses a field just if it is made of segments with dots between them, none of them empty,
of letters, digits and underscores.

Main statements: `isFieldName_iff` and `exists_column_iff`.
-/

namespace Telemetry.Sql

/-- A letter, a digit or an underscore. -/
def isSegmentChar (c : Char) : Bool := Text.isLetter c || Text.isDigit c || c == '_'

/-- Segments with dots between them, none of them empty, of letters, digits and underscores. -/
def IsPath (name : String) : Prop :=
  ∃ segments : List (List Char), segments ≠ [] ∧ name.toList = ['.'].intercalate segments ∧
    ∀ s ∈ segments, s ≠ [] ∧ ∀ c ∈ s, isSegmentChar c = true

theorem isSegmentChar_iff {c : Char} :
    isSegmentChar c = true ↔ isFieldChar c = true ∧ c ≠ '.' := by
  have hdot : isSegmentChar '.' = false := by decide
  constructor
  · intro h
    refine ⟨by simp_all [isSegmentChar, isFieldChar], ?_⟩
    rintro rfl
    rw [hdot] at h
    cases h
  · rintro ⟨h, hne⟩
    simpa [isFieldChar, isSegmentChar, hne] using h

theorem isFieldName_eq_true_iff {name : String} : isFieldName name = true ↔
    (∀ c ∈ name.toList, isFieldChar c = true) ∧ ∀ s ∈ fieldSegments name, s ≠ [] := by
  simp [isFieldName]

/-- A segment of a name: letters, digits and underscores, at least one. -/
def IsSegment (s : List Char) : Prop := s ≠ [] ∧ ∀ c ∈ s, isSegmentChar c = true

theorem isSegment_of_isFieldName {name : String} (h : isFieldName name = true) :
    ∀ s ∈ fieldSegments name, IsSegment s := by
  obtain ⟨hchars, hne⟩ := isFieldName_eq_true_iff.mp h
  intro s hs
  refine ⟨hne s hs, fun c hc => isSegmentChar_iff.mpr ⟨?_, ?_⟩⟩
  · exact hchars c (Text.mem_of_mem_splitAt hs c hc)
  · rintro rfl
    exact Text.not_mem_of_mem_splitAt hs hc

/-- **A name is one of a field just if it is made of segments.** -/
theorem isFieldName_iff (name : String) : isFieldName name = true ↔ IsPath name := by
  constructor
  · intro h
    refine ⟨fieldSegments name, Text.splitAt_ne_nil '.' name.toList, ?_, isSegment_of_isFieldName h⟩
    rw [fieldSegments, Text.intercalate_splitAt]
  · rintro ⟨segments, hne, hname, hsegments⟩
    have hdots : ∀ s ∈ segments, '.' ∉ s := by
      intro s hs hm
      exact (isSegmentChar_iff.mp ((hsegments s hs).2 '.' hm)).2 rfl
    have hsplit : fieldSegments name = segments := by
      rw [fieldSegments, Text.splitAt_eq_splitOn, hname, List.splitOn_intercalate '.' hdots hne]
    refine isFieldName_eq_true_iff.mpr
      ⟨fun c hc => ?_, fun s hs => (hsegments s (hsplit ▸ hs)).1⟩
    rw [hname] at hc
    rcases Text.mem_intercalate hc with hc | ⟨s, hs, hc⟩
    · rw [List.mem_singleton.mp hc]
      decide
    · exact (isSegmentChar_iff.mp ((hsegments s hs).2 c hc)).1

/-- Just the names of fields have a column. -/
theorem exists_column_iff (name : String) :
    (∃ path, column name = .ok path) ↔ isFieldName name = true := by
  unfold column
  by_cases h : isFieldName name = true
  · simp only [h, if_true]
    split <;> simp
  · simp [h]

end Telemetry.Sql
