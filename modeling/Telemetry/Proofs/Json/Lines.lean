import Telemetry.Json.Lines
import Telemetry.Proofs.Json.Continuation
import Telemetry.Proofs.Text.Lines

/-!
# Reading rows

A text of rows has an object on each line that is not blank. A reader that takes more characters for
the end of a line than the line feed cuts rows apart in which such a character stands as it is. Then
it fails: the beginning of an object is no value, since what is read from it would be read from the
whole object too.

Main statement: `decode_text`.
-/

namespace Telemetry.Json

/-! ## The characters of a value -/

/-- A character that may stand in a value on one line. -/
def OnLine (c : Char) : Prop := c = '\t' ∨ c = '\r' ∨ 0x20 ≤ c.toNat

instance (c : Char) : Decidable (OnLine c) :=
  inferInstanceAs (Decidable (c = '\t' ∨ c = '\r' ∨ 0x20 ≤ c.toNat))

/-- The characters that may stand in a value on one line and that end a line nevertheless. -/
def strayBreaks : List Char := ['\r', '\x85', '\u2028', '\u2029']

theorem OnLine.isLineBreak_eq_false_iff {c : Char} (h : OnLine c) :
    Text.isLineBreak c = false ↔ c ∉ strayBreaks := by
  unfold OnLine at h
  simp only [← Char.toNat_inj] at h
  simp only [strayBreaks, Text.isLineBreak, List.mem_cons, List.not_mem_nil, or_false, not_or,
    ← Char.toNat_inj, Bool.or_eq_false_iff, Bool.and_eq_false_iff, decide_eq_false_iff_not,
    beq_eq_false_iff_ne, Char.reduceToNat] at h ⊢
  omega

theorem onLine_of_all {w : List Char} (h : w.all (fun c => decide (OnLine c)) = true) :
    ∀ c ∈ w, OnLine c :=
  fun c hc => of_decide_eq_true (List.all_eq_true.mp h c hc)

theorem Gap.onLine {gap : List Char} (hgap : Gap gap) : ∀ c ∈ gap, OnLine c := by
  intro c hc
  rcases hgap c hc with rfl | rfl | rfl <;> decide

theorem onLine_hexDigit {c : Char} {n : Nat} (h : Text.hexValue? c = some n) : OnLine c := by
  refine Or.inr (Or.inr (Nat.le_of_not_lt fun hlow => ?_))
  have hnone (d e : Char) (hd : 0x20 ≤ d.toNat := by decide) : ¬ (d ≤ c ∧ c ≤ e) := fun hle =>
    Nat.not_lt.mpr (Nat.le_trans hd hle.1) hlow
  unfold Text.hexValue? at h
  rw [if_neg (hnone _ _), if_neg (hnone _ _), if_neg (hnone _ _)] at h
  exact nomatch h

theorem HexDigits.onLine {digits : List Char} {n : Nat} (h : HexDigits digits n) :
    ∀ c ∈ digits, OnLine c := by
  cases h with
  | digits ha hb hc hd =>
    simp only [List.forall_mem_cons]
    exact ⟨onLine_hexDigit ha, onLine_hexDigit hb, onLine_hexDigit hc, onLine_hexDigit hd, nofun⟩

theorem WrittenChars.onLine {s w : List Char} (h : WrittenChars s w) : ∀ c ∈ w, OnLine c := by
  induction h with
  | nil => exact nofun
  | raw hlow _ _ _ ih => exact List.forall_mem_cons.mpr ⟨.inr (.inr hlow), ih⟩
  | short he _ ih =>
    simp only [List.forall_mem_cons]
    refine ⟨by decide, ?_, ih⟩
    cases he <;> decide
  | unit _ hn _ ih =>
    simp only [List.forall_mem_cons, List.forall_mem_append]
    exact ⟨by decide, by decide, hn.onLine, ih⟩
  | pair _ hhigh hlow _ ih =>
    simp only [List.forall_mem_cons, List.forall_mem_append]
    exact ⟨by decide, by decide, hhigh.onLine, by decide, by decide, hlow.onLine, ih⟩

theorem IsNumberChar.onLine {c : Char} (h : IsNumberChar c) : OnLine c := by
  rcases h with h | h
  · obtain ⟨k, hk, rfl⟩ := exists_of_isDigit h
    revert k
    decide
  · exact onLine_of_all (by decide) c h

theorem Number.onLine (n : Number) : ∀ c ∈ n.text, OnLine c :=
  fun c hc => (isNumberChar_text n c hc).onLine

mutual

/-- A value on one line holds neither line feeds nor other control characters but blanks. -/
theorem Written.onLine {v : Json} {w : List Char} (h : Written v w) : ∀ c ∈ w, OnLine c := by
  match h with
  | .null => exact onLine_of_all (by decide)
  | .yes => exact onLine_of_all (by decide)
  | .no => exact onLine_of_all (by decide)
  | .integer n _ => exact n.onLine
  | .decimal n _ _ => exact n.onLine
  | .string hs =>
    simp only [List.forall_mem_cons, List.forall_mem_append]
    exact ⟨by decide, hs.onLine, by decide, nofun⟩
  | .emptyArray hgap =>
    simp only [List.forall_mem_cons, List.forall_mem_append]
    exact ⟨by decide, hgap.onLine, by decide, nofun⟩
  | .array hvs =>
    simp only [List.forall_mem_cons, List.forall_mem_append]
    exact ⟨by decide, hvs.onLine, by decide, nofun⟩
  | .emptyObject hgap =>
    simp only [List.forall_mem_cons, List.forall_mem_append]
    exact ⟨by decide, hgap.onLine, by decide, nofun⟩
  | .object _ hfs =>
    simp only [List.forall_mem_cons, List.forall_mem_append]
    exact ⟨by decide, hfs.onLine, by decide, nofun⟩

theorem WrittenItems.onLine {vs : List Json} {w : List Char} (h : WrittenItems vs w) :
    ∀ c ∈ w, OnLine c := by
  match h with
  | .last hbefore hv hafter =>
    simp only [List.forall_mem_append]
    exact ⟨hbefore.onLine, hv.onLine, hafter.onLine⟩
  | .more hbefore hv hafter hvs =>
    simp only [List.forall_mem_cons, List.forall_mem_append]
    exact ⟨hbefore.onLine, hv.onLine, hafter.onLine, by decide, hvs.onLine⟩

theorem WrittenField.onLine {f : String × Json} {w : List Char} (h : WrittenField f w) :
    ∀ c ∈ w, OnLine c := by
  match h with
  | .field hbefore hname hafterName hbeforeValue hv hafter =>
    simp only [List.forall_mem_cons, List.forall_mem_append]
    exact ⟨hbefore.onLine, by decide, hname.onLine, by decide, hafterName.onLine, by decide,
      hbeforeValue.onLine, hv.onLine, hafter.onLine⟩

theorem WrittenFields.onLine {fs : Object} {w : List Char} (h : WrittenFields fs w) :
    ∀ c ∈ w, OnLine c := by
  match h with
  | .last hf => exact hf.onLine
  | .more hf hfs =>
    simp only [List.forall_mem_cons, List.forall_mem_append]
    exact ⟨hf.onLine, by decide, hfs.onLine⟩

end

variable {α ε : Type} {p q : Prop}

/-! ## Lists of readings -/

theorem Answers.mapM_append {β : Type} {f : β → Except ε α} {xs ys : List β} {as bs : List α}
    (hxs : Answers p (xs.mapM f) as) (hys : Answers q (ys.mapM f) bs) :
    Answers (p ∧ q) ((xs ++ ys).mapM f) (as ++ bs) := by
  rw [List.mapM_append]
  refine hxs.andThen (fun hok => ?_) fun e he => ⟨e, by rw [he]; rfl⟩
  rw [hok]
  exact hys.through (fun hmore => by rw [hmore]; rfl) fun e he => ⟨e, by rw [he]; rfl⟩

/-! ## One line -/

variable {fields : Object} {core front back gap gap' : List Char}

/-- A row as it stands on its line. -/
structure Row where
  fields : Object
  before : List Char
  core : List Char
  after : List Char
  isBefore : Gap before
  isAfter : Gap after
  written : Written (.obj fields) core

/-- The text of a row's line. -/
def Row.text (r : Row) : List Char := r.before ++ (r.core ++ r.after)

/-- A row that is read: nothing in it ends a line, and it keeps to the limits. -/
structure Row.Legible (r : Row) : Prop where
  unbroken : ∀ c ∈ r.core, c ∉ strayBreaks
  fits : Fits maxDepth (.obj r.fields)

theorem Row.noBreak_iff (r : Row) : Text.NoBreak r.core ↔ ∀ c ∈ r.core, c ∉ strayBreaks := by
  have hchars := r.written.onLine
  exact forall₂_congr fun c hc => (hchars c hc).isLineBreak_eq_false_iff

theorem Written.object_head (h : Written (.obj fields) core) : ∃ body, core = '{' :: body := by
  cases h with
  | emptyObject _ => exact ⟨_, rfl⟩
  | object _ _ => exact ⟨_, rfl⟩

/-- Reads one line. -/
def readLine (line : List Char) : Except ReadError Json := parse (String.ofList line)

theorem readLine_gap (hgap : Gap gap) (body : List Char) :
    readLine (gap ++ '{' :: body) = parseChars (gap ++ '{' :: body) := by
  unfold readLine parse
  rw [String.toList_ofList]
  split
  · rename_i rest heq
    cases gap with
    | nil => exact absurd (List.cons.inj heq).1 (by decide)
    | cons c gap =>
      rcases hgap c List.mem_cons_self with rfl | rfl | rfl <;>
        exact absurd (List.cons.inj heq).1 (by decide)
  · rfl

/-- A row without boundaries is read if it keeps to the limits, and refused otherwise. -/
theorem readLine_written (h : Written (.obj fields) core) (hgap : Gap gap) (hgap' : Gap gap') :
    Answers (Fits maxDepth (.obj fields)) (readLine (gap ++ (core ++ gap'))) (.obj fields) := by
  have hread := h.answers maxDepth (stops_of_gap hgap')
  have hskip := h.skipSpace hgap gap'
  obtain ⟨body, rfl⟩ := h.object_head
  rw [List.cons_append, readLine_gap hgap, parseChars, ← List.cons_append, hskip]
  refine hread.through (fun hok => ?_) fun e he => ⟨_, by rw [he]⟩
  rw [hok]
  dsimp only
  rw [← List.append_nil gap', skipSpace_gap hgap']
  rfl

/-- **The beginning of an object is no value.** What would be read from it would be read from the
object too, which is read to its end. -/
theorem value_cut (depth : Nat) (h : Written (.obj fields) (front ++ back)) (hfront : front ≠ [])
    (hback : back ≠ []) : ∃ e, value depth front = .error e := by
  cases hread : value depth front with
  | error e => exact ⟨e, rfl⟩
  | ok r =>
    obtain ⟨v, rest⟩ := r
    obtain ⟨body, hbody⟩ := h.object_head
    obtain ⟨c, tail, rfl⟩ := List.exists_cons_of_ne_nil hfront
    obtain ⟨rfl, -⟩ := List.cons.inj hbody
    have hlonger := object_append hread back
    have hwhole := h.answers depth stops_nil
    rw [List.append_nil, List.cons_append] at hwhole
    have heq := congrArg Prod.snd (hwhole.of_ok hlonger).2
    exact absurd (List.append_eq_nil_iff.mp heq.symm).2 hback

theorem readLine_cut (h : Written (.obj fields) (front ++ back)) (hfront : front ≠ [])
    (hback : back ≠ []) (hgap : Gap gap) : ∃ e, readLine (gap ++ front) = .error e := by
  obtain ⟨e, he⟩ := value_cut maxDepth h hfront hback
  obtain ⟨body, hbody⟩ := h.object_head
  obtain ⟨c, tail, rfl⟩ := List.exists_cons_of_ne_nil hfront
  obtain ⟨rfl, -⟩ := List.cons.inj hbody
  rw [readLine_gap hgap, parseChars, skipSpace_gap hgap, skipSpace_cons (by decide), he]
  exact ⟨_, rfl⟩

/-! ## Boundaries in a row -/

theorem Gap.isBlankLine (hgap : Gap gap) : Text.IsBlankLine gap := by
  intro c hc
  rcases hgap c hc with rfl | rfl | rfl <;> rfl

theorem gap_append_cons {b : Char} (hgap : Gap (gap ++ b :: gap')) : Gap gap ∧ Gap gap' :=
  have hparts := List.forall_mem_append.mp hgap
  ⟨hparts.1, (List.forall_mem_cons.mp hparts.2).2⟩

/-- Of the blanks in front of a row those count that stand on the last line. -/
theorem exists_kept_before {before : List Char} (hbefore : Gap before) :
    ∃ gap, Gap gap ∧ Text.NoBreak gap ∧ ∀ cs, Text.kept (before ++ cs) = Text.kept (gap ++ cs) := by
  induction before using Text.lines_induction with
  | line run hrun => exact ⟨run, hbefore, hrun, fun _ => rfl⟩
  | more run b tail hrun hb ih =>
    obtain ⟨hline, htail⟩ := gap_append_cons hbefore
    obtain ⟨gap, hgap, hnone, hkept⟩ := ih htail
    refine ⟨gap, hgap, hnone, fun cs => ?_⟩
    rw [List.append_assoc, List.cons_append, Text.kept_run_break hrun hb,
      Text.keep_blank hline.isBlankLine, hkept]
    rfl

/-- Of the blanks behind a row those count that stand on its own line. -/
theorem exists_kept_after {run after : List Char} (hrun : Text.NoBreak run) (hafter : Gap after) :
    ∃ gap, Gap gap ∧ Text.kept (run ++ after) = Text.keep [run ++ gap] := by
  induction after using Text.lines_induction with
  | line gap hgap => exact ⟨gap, hafter, Text.kept_run (hrun.append hgap)⟩
  | more gap b tail hgap hb _ =>
    obtain ⟨hline, htail⟩ := gap_append_cons hafter
    refine ⟨gap, hline, ?_⟩
    rw [← List.append_assoc, Text.kept_run_break (hrun.append hgap) hb,
      Text.kept_blank htail.isBlankLine, List.append_nil]

theorem not_isBlankLine_brace {line : List Char} (h : '{' ∈ line) : ¬ Text.IsBlankLine line :=
  fun hblank => nomatch hblank '{' h

theorem Row.kept_unbroken (r : Row) (h : Text.NoBreak r.core) :
    ∃ gap gap', Gap gap ∧ Gap gap' ∧ Text.kept r.text = [gap ++ (r.core ++ gap')] := by
  obtain ⟨gap, hgap, hnone, hbefore⟩ := exists_kept_before r.isBefore
  obtain ⟨gap', hgap', hafter⟩ := exists_kept_after (hnone.append h) r.isAfter
  refine ⟨gap, gap', hgap, hgap', ?_⟩
  obtain ⟨body, hbody⟩ := r.written.object_head
  rw [Row.text, hbefore, ← List.append_assoc, hafter, List.append_assoc,
    Text.keep_cons (not_isBlankLine_brace (by simp [hbody]))]
  rfl

theorem Row.kept_broken (r : Row) (h : ¬ Text.NoBreak r.core) :
    ∃ gap front back lines, Gap gap ∧ r.core = front ++ back ∧ front ≠ [] ∧ back ≠ [] ∧
      Text.kept r.text = (gap ++ front) :: lines := by
  obtain ⟨gap, hgap, hnone, hbefore⟩ := exists_kept_before r.isBefore
  obtain ⟨front, b, back, hcore, hfront, hb⟩ := Text.exists_break h
  obtain ⟨body, hbody⟩ := r.written.object_head
  have hne : front ≠ [] := by
    rintro rfl
    rw [hbody] at hcore
    rw [← (List.cons.inj hcore).1] at hb
    exact nomatch hb
  obtain ⟨c, tail, rfl⟩ := List.exists_cons_of_ne_nil hne
  obtain ⟨rfl, -⟩ := List.cons.inj (hbody.symm.trans hcore)
  refine ⟨gap, '{' :: tail, b :: back, Text.kept (back ++ r.after), hgap, hcore, hne, by simp, ?_⟩
  rw [Row.text, hbefore, hcore, List.append_assoc, ← List.append_assoc gap, List.cons_append,
    Text.kept_run_break (hnone.append hfront) hb,
    Text.keep_cons (not_isBlankLine_brace (by simp))]
  rfl

/-! ## All lines -/

theorem Row.answers (r : Row) :
    Answers r.Legible ((Text.kept r.text).mapM readLine) [.obj r.fields] := by
  by_cases hbreak : Text.NoBreak r.core
  · obtain ⟨gap, gap', hgap, hgap', hkept⟩ := r.kept_unbroken hbreak
    have hread := readLine_written r.written hgap hgap'
    have hfits : Fits maxDepth (.obj r.fields) ↔ r.Legible :=
      ⟨fun h => ⟨r.noBreak_iff.mp hbreak, h⟩, Legible.fits⟩
    rw [hkept, List.mapM_cons]
    refine (hread.through (fun hok => ?_) fun e he => ⟨e, ?_⟩).congr hfits
    · rw [hok]
      rfl
    · rw [he]
      rfl
  · obtain ⟨gap, front, back, lines, hgap, hcore, hfront, hback, hkept⟩ := r.kept_broken hbreak
    obtain ⟨e, he⟩ := readLine_cut (hcore ▸ r.written) hfront hback hgap
    refine ⟨fun h => absurd (r.noBreak_iff.mpr h.unbroken) hbreak, fun _ => ⟨e, ?_⟩⟩
    rw [hkept, List.mapM_cons, he]
    rfl

namespace Lines

/-- A line of a text of rows. -/
inductive Line
  | blank (text : List Char) (h : Text.IsBlankLine text)
  | row (r : Row)

/-- The characters of a line. -/
def Line.text : Line → List Char
  | .blank text _ => text
  | .row r => r.text

/-- The rows that stand on some lines, in order. -/
def rows : List Line → List Row
  | [] => []
  | .blank _ _ :: more => rows more
  | .row r :: more => r :: rows more

/-- Lines with line feeds between them. -/
def joined : List Line → List Char
  | [] => []
  | [line] => line.text
  | line :: more => line.text ++ '\n' :: joined more

/-- A text of rows; the last line may be ended by a line feed too. -/
def text (lines : List Line) (final : Bool) : String :=
  String.ofList (joined lines ++ if final then ['\n'] else [])

/-- The objects of some rows. -/
def objects (rs : List Row) : List Json := rs.map fun r => .obj r.fields

theorem kept_joined (lines : List Line) :
    Text.kept (joined lines) = lines.flatMap fun line => Text.kept line.text := by
  induction lines with
  | nil => rfl
  | cons line more ih =>
    cases more with
    | nil => exact (List.append_nil _).symm
    | cons next more =>
      rw [joined, Text.kept_append rfl, ih]
      · rfl
      · simp

theorem kept_text (lines : List Line) (final : Bool) :
    Text.kept (text lines final).toList = lines.flatMap fun line => Text.kept line.text := by
  unfold text
  rw [String.toList_ofList]
  cases final with
  | false => exact (congrArg Text.kept (List.append_nil _)).trans (kept_joined lines)
  | true =>
    show Text.kept (joined lines ++ ['\n']) = _
    rw [Text.kept_append rfl, kept_joined]
    exact List.append_nil _

theorem lines_answers (lines : List Line) :
    Answers (∀ r ∈ rows lines, r.Legible)
      ((lines.flatMap fun line => Text.kept line.text).mapM readLine) (objects (rows lines)) := by
  induction lines with
  | nil => exact .of_eq nofun rfl
  | cons line more ih =>
    rw [List.flatMap_cons]
    cases line with
    | blank text h =>
      show Answers _ ((Text.kept text ++ _).mapM _) _
      rw [Text.kept_blank h]
      exact ih
    | row r => exact (r.answers.mapM_append ih).congr List.forall_mem_cons.symm

theorem decode_answers (lines : List Line) (final : Bool) :
    Answers (∀ r ∈ rows lines, r.Legible) (decode (text lines final)) (objects (rows lines)) := by
  have hdecode : decode (text lines final)
      = (lines.flatMap fun line => Text.kept line.text).mapM readLine :=
    congrArg (List.mapM readLine) (kept_text lines final)
  rw [hdecode]
  exact lines_answers lines

/-- **A text of rows is read as its rows, exactly if no row holds a character that ends a line and
all keep to the limits.** Otherwise reading fails; never does it answer other rows. -/
theorem decode_text (lines : List Line) (final : Bool) :
    (decode (text lines final) = .ok (objects (rows lines)) ↔ ∀ r ∈ rows lines, r.Legible) ∧
      ∀ got, decode (text lines final) = .ok got → got = objects (rows lines) := by
  have hread := decode_answers lines final
  exact ⟨⟨fun h => (hread.of_ok h).1, hread.ok⟩, fun got h => (hread.of_ok h).2.symm⟩

/-- A row with a line separator in a string. -/
def separated : Row where
  fields := [("a", .str "x\u2028y")]
  before := []
  core := ['\x7b', '"', 'a', '"', ':', '"', 'x', '\u2028', 'y', '"', '\x7d']
  after := []
  isBefore := nofun
  isAfter := nofun
  written :=
    have hname : WrittenChars ['a'] ['a'] := .raw (by decide) (by decide) (by decide) .nil
    have hvalue : WrittenChars ['x', '\u2028', 'y'] ['x', '\u2028', 'y'] :=
      .raw (by decide) (by decide) (by decide) (.raw (by decide) (by decide) (by decide)
        (.raw (by decide) (by decide) (by decide) .nil))
    have hfield := @WrittenField.field ['a'] ['a'] (.str "x\u2028y") [] [] [] _ []
      nofun hname nofun nofun (.string hvalue) nofun
    .object (by decide) (.last hfield)

/-- A line separator in a string is standard, and yet the row is not read. -/
theorem lineSeparator_refused :
    text [.row separated] true = "\x7b\"a\":\"x\u2028y\"\x7d\n" ∧
      decode (text [.row separated] true) ≠ .ok [.obj [("a", .str "x\u2028y")]] := by
  refine ⟨by decide, fun h => ?_⟩
  have hlegible := ((decode_answers [.row separated] true).of_ok h).1 separated List.mem_cons_self
  exact hlegible.unbroken '\u2028' (by decide) (by decide)

end Lines

end Telemetry.Json
