import Mathlib.Data.List.TakeWhile
import Telemetry.Text.Blank

/-!
# The lines of a text that are not blank

A text is split at every character that ends a line. Of what stands between, the lines that are not
blank are kept. Seen this way each boundary is a cut like any other: that a carriage return and a
line feed behind it are one boundary makes no difference, since the line between them would be
blank.

Main statement: `kept_append`.
-/

namespace Telemetry.Text

variable {b : Char} {cs run : List Char}

/-- Only blanks. -/
def IsBlankLine (cs : List Char) : Prop := ∀ c ∈ cs, isBlank c = true

/-- Nothing ends a line. -/
def NoBreak (cs : List Char) : Prop := ∀ c ∈ cs, isLineBreak c = false

theorem isBlankLine_nil : IsBlankLine [] := nofun

theorem strip_eq_nil : strip cs = [] ↔ IsBlankLine cs := by
  unfold strip dropEnds
  rw [List.reverse_eq_nil_iff, List.dropWhile_eq_nil_iff]
  constructor
  · intro h c hc
    rw [← List.takeWhile_append_dropWhile (p := isBlank) (l := cs)] at hc
    rcases List.mem_append.mp hc with hc | hc
    · exact List.mem_takeWhile_imp hc
    · exact h c (List.mem_reverse.mpr hc)
  · intro h c hc
    exact h c (List.dropWhile_subset isBlank (List.mem_reverse.mp hc))

/-! ## Splitting at the first boundary -/

theorem NoBreak.append {xs ys : List Char} (hxs : NoBreak xs) (hys : NoBreak ys) :
    NoBreak (xs ++ ys) := by
  intro c hc
  exact (List.mem_append.mp hc).elim (hxs c) (hys c)

/-- A text is a line, or a line and what follows its boundary. -/
@[elab_as_elim]
theorem lines_induction {motive : List Char → Prop} (line : ∀ run, NoBreak run → motive run)
    (more : ∀ run b cs, NoBreak run → isLineBreak b = true → motive cs → motive (run ++ b :: cs))
    (cs : List Char) : motive cs := by
  suffices h : ∀ run, NoBreak run → motive (run ++ cs) from h [] nofun
  induction cs with
  | nil =>
    intro run hrun
    rw [List.append_nil]
    exact line run hrun
  | cons c cs ih =>
    intro run hrun
    cases hc : isLineBreak c with
    | true => exact more run c cs hrun hc (ih [] nofun)
    | false =>
      rw [List.append_cons]
      refine ih (run ++ [c]) (hrun.append fun d hd => ?_)
      rwa [List.mem_singleton.mp hd]

theorem exists_break (h : ¬ NoBreak cs) :
    ∃ run b rest, cs = run ++ b :: rest ∧ NoBreak run ∧ isLineBreak b = true := by
  induction cs using lines_induction with
  | line run hrun => exact absurd hrun h
  | more run b rest hrun hb _ => exact ⟨run, b, rest, rfl, hrun, hb⟩

theorem splitLines_cons_nil {c : Char} (hc : isLineBreak c = false) (h : splitLines cs = []) :
    splitLines (c :: cs) = [[c]] := by
  rw [splitLines]
  · rw [if_neg (by simp [hc]), h]
  · rintro rest rfl
    exact nomatch hc

theorem splitLines_cons_cons {c : Char} {line : List Char} {lines : List (List Char)}
    (hc : isLineBreak c = false) (h : splitLines cs = line :: lines) :
    splitLines (c :: cs) = (c :: line) :: lines := by
  rw [splitLines]
  · rw [if_neg (by simp [hc]), h]
  · rintro rest rfl
    exact nomatch hc

theorem splitLines_run (hrun : NoBreak run) (hne : run ≠ []) : splitLines run = [run] := by
  induction run with
  | nil => exact absurd rfl hne
  | cons c run ih =>
    have hc := hrun c List.mem_cons_self
    cases run with
    | nil => exact splitLines_cons_nil hc rfl
    | cons d run =>
      exact splitLines_cons_cons hc (ih (fun e he => hrun e (List.mem_cons_of_mem c he)) (by simp))

theorem splitLines_run_append (hrun : NoBreak run) {lines : List (List Char)}
    (h : splitLines cs = [] :: lines) : splitLines (run ++ cs) = run :: lines := by
  induction run with
  | nil => exact h
  | cons c run ih =>
    exact splitLines_cons_cons (hrun c List.mem_cons_self)
      (ih fun d hd => hrun d (List.mem_cons_of_mem c hd))

/-! ## Lines that are not blank -/

/-- The lines of a list that are not blank. -/
def keep (lines : List (List Char)) : List (List Char) :=
  lines.filter fun line => !(strip line).isEmpty

/-- The lines of a text that are not blank. -/
def kept (cs : List Char) : List (List Char) := keep (splitLines cs)

theorem keep_blank {line : List Char} (h : IsBlankLine line) (lines : List (List Char)) :
    keep (line :: lines) = keep lines := by
  refine List.filter_cons_of_neg ?_
  rw [strip_eq_nil.mpr h]
  decide

theorem keep_cons {line : List Char} (h : ¬ IsBlankLine line) (lines : List (List Char)) :
    keep (line :: lines) = line :: keep lines := by
  refine List.filter_cons_of_pos ?_
  rw [← strip_eq_nil] at h
  simp [h]

theorem keep_single_append (line : List Char) (lines : List (List Char)) :
    keep (line :: lines) = keep [line] ++ keep lines :=
  List.filter_append [line] lines

/-- A boundary opens with the rest of the text, up to one blank line. -/
theorem exists_splitLines_break (hb : isLineBreak b = true) (cs : List Char) :
    ∃ lines, splitLines (b :: cs) = [] :: lines ∧ keep lines = kept cs := by
  by_cases hpair : b = '\r' ∧ ∃ rest, cs = '\n' :: rest
  · obtain ⟨rfl, rest, rfl⟩ := hpair
    exact ⟨splitLines rest, rfl, (keep_blank isBlankLine_nil (splitLines rest)).symm⟩
  · refine ⟨splitLines cs, ?_, rfl⟩
    rw [splitLines]
    · rw [if_pos hb]
    · rintro rest rfl rfl
      exact hpair ⟨rfl, rest, rfl⟩

theorem kept_run (hrun : NoBreak run) : kept run = keep [run] := by
  by_cases hne : run = []
  · subst hne
    exact (keep_blank isBlankLine_nil []).symm
  · rw [kept, splitLines_run hrun hne]

theorem kept_run_break (hrun : NoBreak run) (hb : isLineBreak b = true) (cs : List Char) :
    kept (run ++ b :: cs) = keep [run] ++ kept cs := by
  obtain ⟨lines, hlines, hkeep⟩ := exists_splitLines_break hb cs
  rw [kept, splitLines_run_append hrun hlines, keep_single_append, hkeep]

/-- **A text falls apart at a boundary** as far as the lines that are not blank are concerned. -/
theorem kept_append (hb : isLineBreak b = true) (xs ys : List Char) :
    kept (xs ++ b :: ys) = kept xs ++ kept ys := by
  induction xs using lines_induction with
  | line run hrun => rw [kept_run_break hrun hb, kept_run hrun]
  | more run c cs hrun hc ih =>
    rw [List.append_assoc, List.cons_append, kept_run_break hrun hc, kept_run_break hrun hc, ih,
      List.append_assoc]

theorem kept_blank (h : IsBlankLine cs) : kept cs = [] := by
  induction cs using lines_induction with
  | line run hrun => rw [kept_run hrun, keep_blank h]; rfl
  | more run b cs hrun hb ih =>
    obtain ⟨hline, hmore⟩ := List.forall_mem_append.mp h
    rw [kept_run_break hrun hb, keep_blank hline, ih (List.forall_mem_cons.mp hmore).2]
    rfl

end Telemetry.Text
