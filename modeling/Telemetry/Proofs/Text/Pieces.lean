import Mathlib.Data.List.Basic
import Telemetry.Text.Search

/-!
# Pieces between separators

Cutting a text at every separator and joining pieces with separators between them undo each other,
as long as no piece holds a separator.

Main statements: `splitAt_joinWith` and `intercalate_splitAt`.
-/

namespace Telemetry.Text

variable {sep c : Char} {cs s : List Char}

/-! ## Cutting -/

theorem splitAt_eq_splitOn (sep : Char) (cs : List Char) : splitAt sep cs = cs.splitOn sep := by
  induction cs with
  | nil => rfl
  | cons c rest ih =>
    rw [splitAt, List.splitOn_cons_eq_if_modifyHead, ih]
    by_cases h : c = sep
    · simp [h]
    · simp only [h, beq_iff_eq, if_false]
      cases hrest : rest.splitOn sep with
      | nil => exact absurd hrest (List.splitOn_ne_nil sep rest)
      | cons piece more => rfl

theorem splitAt_ne_nil (sep : Char) (cs : List Char) : splitAt sep cs ≠ [] := by
  rw [splitAt_eq_splitOn]
  exact List.splitOn_ne_nil sep cs

/-- The pieces of a text hold characters of it only. -/
theorem mem_of_mem_splitAt (h : s ∈ splitAt sep cs) : ∀ c ∈ s, c ∈ cs := by
  induction cs generalizing s with
  | nil =>
    intro c hc
    rw [List.mem_singleton.mp h] at hc
    exact absurd hc List.not_mem_nil
  | cons d rest ih =>
    intro c hc
    rw [splitAt] at h
    split at h
    · rcases List.mem_cons.mp h with rfl | h
      · exact absurd hc List.not_mem_nil
      · exact List.mem_cons_of_mem d (ih h c hc)
    · split at h
      · rw [List.mem_singleton.mp h, List.mem_singleton] at hc
        rw [hc]
        exact List.mem_cons_self
      · rename_i piece more hsplit
        rcases List.mem_cons.mp h with rfl | h
        · rcases List.mem_cons.mp hc with rfl | hc
          · exact List.mem_cons_self
          · exact List.mem_cons_of_mem d (ih (hsplit ▸ List.mem_cons_self) c hc)
        · exact List.mem_cons_of_mem d (ih (hsplit ▸ List.mem_cons_of_mem piece h) c hc)

/-- No piece holds a separator. -/
theorem not_mem_of_mem_splitAt (h : s ∈ splitAt sep cs) : sep ∉ s := by
  induction cs generalizing s with
  | nil => simp_all [splitAt]
  | cons c rest ih =>
    rw [splitAt] at h
    split at h
    · rcases List.mem_cons.mp h with rfl | h
      · exact List.not_mem_nil
      · exact ih h
    · rename_i hc
      have hne : sep ≠ c := Ne.symm hc
      split at h
      · rw [List.mem_singleton.mp h]
        simpa using hne
      · rename_i piece more hrest
        rcases List.mem_cons.mp h with rfl | h
        · simp [hne, ih (hrest ▸ List.mem_cons_self)]
        · exact ih (hrest ▸ List.mem_cons_of_mem piece h)

/-! ## Joining -/

theorem mem_intercalate {between : List Char} {pieces : List (List Char)}
    (h : c ∈ between.intercalate pieces) : c ∈ between ∨ ∃ piece ∈ pieces, c ∈ piece := by
  induction pieces with
  | nil => simp at h
  | cons piece pieces ih =>
    cases pieces with
    | nil =>
      rw [List.intercalate_singleton] at h
      exact Or.inr ⟨piece, List.mem_cons_self, h⟩
    | cons next more =>
      rw [List.intercalate_cons_cons, List.mem_append, List.mem_append] at h
      rcases h with (h | h) | h
      · exact Or.inr ⟨piece, List.mem_cons_self, h⟩
      · exact Or.inl h
      · rcases ih h with h | ⟨other, hother, h⟩
        · exact Or.inl h
        · exact Or.inr ⟨other, List.mem_cons_of_mem piece hother, h⟩

theorem joinWith_cons (between piece : String) {more : List String} (hne : more ≠ []) :
    joinWith between (piece :: more) = piece ++ between ++ joinWith between more := by
  cases more with
  | nil => exact absurd rfl hne
  | cons next rest => rw [joinWith]; simp

theorem toList_joinWith_cons (between piece : String) {more : List String} (hne : more ≠ []) :
    (joinWith between (piece :: more)).toList
      = piece.toList ++ (between.toList ++ (joinWith between more).toList) := by
  rw [joinWith_cons between piece hne, String.toList_append, String.toList_append,
    List.append_assoc]

/-- Joined texts have the joined characters of the texts. -/
theorem toList_joinWith (between : String) (pieces : List String) :
    (joinWith between pieces).toList = between.toList.intercalate (pieces.map String.toList) := by
  induction pieces with
  | nil => simp [joinWith]
  | cons piece more ih =>
    cases more with
    | nil => simp [joinWith]
    | cons next rest =>
      rw [toList_joinWith_cons between piece (List.cons_ne_nil next rest), ih]
      simp

/-- **Texts without separators come back from what they are joined to.** -/
theorem splitAt_joinWith {pieces : List String} (hne : pieces ≠ [])
    (h : ∀ piece ∈ pieces, sep ∉ piece.toList) :
    splitAt sep (joinWith (String.singleton sep) pieces).toList = pieces.map String.toList := by
  have hchars : ∀ cs ∈ pieces.map String.toList, sep ∉ cs := by simpa using h
  rw [splitAt_eq_splitOn, toList_joinWith, String.toList_singleton]
  exact List.splitOn_intercalate sep hchars (by simpa using hne)

/-- Texts without separators are known by what they are joined to. -/
theorem joinWith_injective {pieces others : List String} (hne : pieces ≠ []) (hothers : others ≠ [])
    (h : ∀ piece ∈ pieces, sep ∉ piece.toList) (ho : ∀ piece ∈ others, sep ∉ piece.toList)
    (heq : joinWith (String.singleton sep) pieces = joinWith (String.singleton sep) others) :
    pieces = others := by
  have hchars : pieces.map String.toList = others.map String.toList := by
    rw [← splitAt_joinWith hne h, ← splitAt_joinWith hothers ho, heq]
  exact List.map_injective_iff.mpr (fun _ _ => String.toList_inj.mp) hchars

/-- **The pieces of a text are joined to the text.** -/
theorem intercalate_splitAt (sep : Char) (cs : List Char) :
    [sep].intercalate (splitAt sep cs) = cs := by
  rw [splitAt_eq_splitOn, List.intercalate_splitOn]

end Telemetry.Text
