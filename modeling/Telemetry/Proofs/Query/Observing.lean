import Mathlib.Data.List.Nodup
import Telemetry.Proofs.Query.Ranking

/-!
# What a sample shows

The texts that are observed at a path of a sample, said without the tables in which they are
gathered: a text is offered at a path if it is the short text of a leaf there, or, at the path of the
status code, a word for what some code there means.

Main statements: `mem_observe_iff`, `tidy_observe`.
-/

namespace Telemetry.Query

/-! ## Texts of a sample -/

/-- A leaf is seen at a path: in a payload, or as a status code or an outcome that is something. -/
inductive SeenLeaf (events : List EventRow) : String → Json → Prop
  | payload {e : EventRow} {path : String} {v : Json} (he : e ∈ events)
      (h : (path, v) ∈ leaves "" e.payload) : SeenLeaf events path v
  | status {e : EventRow} {code : Int} (he : e ∈ events) (h : e.statusCode = some code)
      (hsome : code ≠ 0) : SeenLeaf events statusPath (.int code)
  | outcome {e : EventRow} {outcome : String} (he : e ∈ events) (h : e.outcome = some outcome)
      (hsome : outcome ≠ "") : SeenLeaf events "outcome" (.str outcome)

/-- A value has a text that is short enough to be suggested. -/
def HasText (v : Json) (text : String) : Prop :=
  leafText? v = some text ∧ text.length ≤ maxValueLength

/-- A text is seen at a path: it is the short text of a leaf there. -/
def SeenText (events : List EventRow) (path text : String) : Prop :=
  ∃ v, SeenLeaf events path v ∧ HasText v text

/-- A text is a number from an integer on. -/
def IsFrom (n : Int) (text : String) : Prop :=
  ∃ units, unitsOf? text = some units ∧ n * Double.unitsPerOne ≤ units

/-- A word says what one of some status codes means. -/
inductive Category (IsCode : String → Prop) : String → Prop
  | error {code : String} (h : IsCode code) (hcode : IsFrom 400 code) : Category IsCode "error"
  | success {code : String} (h : IsCode code) (hlow : IsFrom 200 code)
      (hhigh : ¬ IsFrom 400 code) : Category IsCode "success"

/-- A text may be suggested at a path: it is seen there, or it is a word for a status code. -/
inductive Offered (events : List EventRow) : String → String → Prop
  | seen {path text : String} (h : SeenText events path text) : Offered events path text
  | category {word : String} (h : Category (SeenText events statusPath) word) :
      Offered events statusPath word

variable {events : List EventRow} {path text word s t : String} {v : Json} {o : Observed}
  {entry leaf : String × Json}

/-- The leaves of the events of a sample are those that are seen. -/
theorem seenLeaf_iff : SeenLeaf events path v ↔
    (path, v) ∈ (events.map EventRow.sighting).flatMap Sighting.leaves := by
  have hsome (e : EventRow) : (path, v) ∈ e.sighting.leaves ↔
      (path = statusPath ∧ ∃ code, e.statusCode = some code ∧ code ≠ 0 ∧ v = .int code) ∨
      (path = "outcome" ∧ ∃ outcome, e.outcome = some outcome ∧ outcome ≠ "" ∧ v = .str outcome) ∨
      (path, v) ∈ leaves "" e.payload := by
    have hstatus : (path, v) ∈ leafUnlessNothing statusPath (Json.ofOption .int e.statusCode) ↔
        path = statusPath ∧ ∃ code, e.statusCode = some code ∧ code ≠ 0 ∧ v = .int code := by
      unfold leafUnlessNothing
      cases e.statusCode with
      | none => simp [Json.ofOption, Json.isTruthy]
      | some code => by_cases h : code = 0 <;> simp [Json.ofOption, Json.isTruthy, h]
    have houtcome : (path, v) ∈ leafUnlessNothing "outcome" (Json.ofOption .str e.outcome) ↔
        path = "outcome" ∧ ∃ outcome, e.outcome = some outcome ∧ outcome ≠ "" ∧ v = .str outcome := by
      unfold leafUnlessNothing
      cases e.outcome with
      | none => simp [Json.ofOption, Json.isTruthy]
      | some outcome => by_cases h : outcome = "" <;> simp [Json.ofOption, Json.isTruthy, h]
    rw [Sighting.leaves, List.mem_append, List.mem_append, or_assoc]
    exact or_congr hstatus (or_congr_left houtcome)
  simp only [List.mem_flatMap, List.mem_map, exists_exists_and_eq_and, hsome]
  constructor
  · rintro (⟨he, h⟩ | ⟨he, h, hne⟩ | ⟨he, h, hne⟩)
    · exact ⟨_, he, .inr (.inr h)⟩
    · exact ⟨_, he, .inl ⟨rfl, _, h, hne, rfl⟩⟩
    · exact ⟨_, he, .inr (.inl ⟨rfl, _, h, hne, rfl⟩)⟩
  · rintro ⟨e, he, ⟨rfl, code, h, hne, rfl⟩ | ⟨rfl, outcome, h, hne, rfl⟩ | h⟩
    · exact .status he h hne
    · exact .outcome he h hne
    · exact .payload he h

/-! ## Tables of texts -/

/-- The texts at a path, none if the path has not been seen. -/
def textsAt (path : String) (o : Observed) : List String := (Assoc.find? path o).getD []

/-- A table of texts: distinct paths, with distinct texts at each of them and at least one. -/
structure Observed.Tidy (o : Observed) : Prop where
  paths : (o.map Prod.fst).Nodup
  texts : ∀ path, (textsAt path o).Nodup
  present : ∀ path texts, Assoc.find? path o = some texts → texts ≠ []

theorem textsAt_put_self (path : String) (texts : List String) (o : Observed) :
    textsAt path (Assoc.put path texts o) = texts := by
  rw [textsAt, Assoc.find?_put_self, Option.getD_some]

theorem textsAt_put_of_ne {other : String} (h : path ≠ other) (texts : List String) (o : Observed) :
    textsAt other (Assoc.put path texts o) = textsAt other o := by
  rw [textsAt, Assoc.find?_put_of_ne h, textsAt]

theorem addText_of_mem (h : text ∈ textsAt path o) : o.addText path text = o :=
  if_pos (List.contains_iff_mem.mpr h)

theorem addText_of_not_mem (h : text ∉ textsAt path o) :
    o.addText path text = Assoc.put path (textsAt path o ++ [text]) o :=
  if_neg fun hmem => h (List.contains_iff_mem.mp hmem)

theorem mem_textsAt_addText :
    s ∈ textsAt path (o.addText word text) ↔ s ∈ textsAt path o ∨ (path = word ∧ s = text) := by
  by_cases hmem : text ∈ textsAt word o
  · rw [addText_of_mem hmem]
    exact (or_iff_left_of_imp (by rintro ⟨rfl, rfl⟩; exact hmem)).symm
  · rw [addText_of_not_mem hmem]
    by_cases hpath : word = path
    · subst hpath
      simp [textsAt_put_self]
    · rw [textsAt_put_of_ne hpath]
      simp [Ne.symm hpath]

theorem Observed.Tidy.addText (h : o.Tidy) (path text : String) : (o.addText path text).Tidy := by
  by_cases hmem : text ∈ textsAt path o
  · rwa [addText_of_mem hmem]
  · rw [addText_of_not_mem hmem]
    refine ⟨Assoc.nodup_put h.paths, fun other => ?_, fun other texts hfind => ?_⟩
    · by_cases hpath : path = other
      · subst hpath
        rw [textsAt_put_self]
        exact List.nodup_append.mpr ⟨h.texts path, List.nodup_singleton _, fun s hs t ht heq =>
          hmem (List.mem_singleton.mp ht ▸ heq ▸ hs)⟩
      · rw [textsAt_put_of_ne hpath]
        exact h.texts other
    · by_cases hpath : path = other
      · subst hpath
        rw [Assoc.find?_put_self] at hfind
        cases hfind
        exact List.append_ne_nil_of_right_ne_nil _ (List.cons_ne_nil _ _)
      · rw [Assoc.find?_put_of_ne hpath] at hfind
        exact h.present other texts hfind

/-! ## Leaves -/

theorem mem_textsAt_addLeaf : s ∈ textsAt path (o.addLeaf leaf) ↔
    s ∈ textsAt path o ∨ (path = leaf.1 ∧ HasText leaf.2 s) := by
  unfold Observed.addLeaf HasText
  cases htext : leafText? leaf.2 with
  | none => simp
  | some text =>
    dsimp only
    split
    · rename_i hshort
      rw [mem_textsAt_addText]
      refine or_congr_right (and_congr_right fun _ => ?_)
      constructor
      · rintro rfl
        exact ⟨rfl, hshort⟩
      · rintro ⟨h, -⟩
        exact (Option.some.inj h).symm
    · rename_i hlong
      refine (or_iff_left ?_).symm
      rintro ⟨-, h, hshort⟩
      exact hlong (Option.some.inj h ▸ hshort)

theorem Observed.Tidy.addLeaf (h : o.Tidy) (leaf : String × Json) : (o.addLeaf leaf).Tidy := by
  unfold Observed.addLeaf
  split
  · split
    · exact h.addText ..
    · exact h
  · exact h

/-- After any leaves the texts at a path are those of before and those of the leaves there. -/
theorem mem_textsAt_foldl (added : List (String × Json)) (o : Observed) :
    s ∈ textsAt path (added.foldl Observed.addLeaf o) ↔
      s ∈ textsAt path o ∨ ∃ v, (path, v) ∈ added ∧ HasText v s := by
  induction added generalizing o with
  | nil => simp
  | cons leaf rest ih =>
    obtain ⟨other, value⟩ := leaf
    rw [List.foldl_cons, ih, mem_textsAt_addLeaf, or_assoc]
    refine or_congr_right ?_
    simp only [List.mem_cons, Prod.mk.injEq]
    constructor
    · rintro (⟨rfl, h⟩ | ⟨v, hmem, h⟩)
      · exact ⟨value, .inl ⟨rfl, rfl⟩, h⟩
      · exact ⟨v, .inr hmem, h⟩
    · rintro ⟨v, ⟨rfl, rfl⟩ | hmem, h⟩
      · exact .inl ⟨rfl, h⟩
      · exact .inr ⟨v, hmem, h⟩

theorem Observed.Tidy.foldl (h : o.Tidy) (added : List (String × Json)) :
    (added.foldl Observed.addLeaf o).Tidy := by
  induction added generalizing o with
  | nil => exact h
  | cons leaf rest ih => exact ih (h.addLeaf leaf)

theorem tidy_nil : Observed.Tidy [] where
  paths := List.nodup_nil
  texts _ := List.nodup_nil
  present _ _ h := nomatch h

/-! ## Status codes -/

/-- A double is at least an integer just if its units are. -/
theorem compareInt?_ne_lt_iff {x : Double} {units : Int} (h : x.units? = some units) (n : Int) :
    x.compareInt? n ≠ some .lt ↔ n * Double.unitsPerOne ≤ units := by
  cases x with
  | nan => cases h
  | infinite negative => cases h
  | finite negative size representable =>
    have hcompare : (Double.finite negative size representable).compareInt? n
        = some (compare units (n * Double.unitsPerOne)) := by
      rw [← Option.some.inj h]
      rfl
    rw [hcompare, ne_eq, Option.some.injEq, compare_lt_iff_lt, not_lt]

/-- A text is at least an integer as a double just if it is a number from the integer on. -/
theorem isFrom_iff {n : Int} : IsFrom n text ↔
    ∃ x, textNumber? text = some x ∧ x.compareInt? n ≠ some .lt := by
  unfold IsFrom unitsOf?
  constructor
  · rintro ⟨units, hunits, hle⟩
    obtain ⟨x, hx, hunits⟩ := Option.bind_eq_some_iff.mp hunits
    exact ⟨x, hx, (compareInt?_ne_lt_iff hunits n).mpr hle⟩
  · rintro ⟨x, hx, hcompare⟩
    obtain ⟨units, hunits⟩ := exists_units (isFinite_textNumber? hx)
    refine ⟨units, ?_, (compareInt?_ne_lt_iff hunits n).mp hcompare⟩
    rw [hx, Option.bind_some, hunits]

theorem category_congr {IsCode IsCode' : String → Prop} (h : ∀ code, IsCode code ↔ IsCode' code) :
    Category IsCode word ↔ Category IsCode' word := by
  rw [funext fun code => propext (h code)]

theorem category_iff {IsCode : String → Prop} : Category IsCode word ↔
    (word = "error" ∧ ∃ code, IsCode code ∧ IsFrom 400 code) ∨
      (word = "success" ∧ ∃ code, IsCode code ∧ IsFrom 200 code ∧ ¬ IsFrom 400 code) := by
  constructor
  · rintro (⟨h, hcode⟩ | ⟨h, hlow, hhigh⟩)
    · exact .inl ⟨rfl, _, h, hcode⟩
    · exact .inr ⟨rfl, _, h, hlow, hhigh⟩
  · rintro (⟨rfl, code, h, hcode⟩ | ⟨rfl, code, h, hlow, hhigh⟩)
    · exact .error h hcode
    · exact .success h hlow hhigh

/-- Some number among texts satisfies a test. -/
theorem any_numbers_iff {p : Double → Bool} {codes : List String} :
    (codes.filterMap textNumber?).any p = true ↔
      ∃ code, code ∈ codes ∧ ∃ x, textNumber? code = some x ∧ p x = true := by
  simp only [List.any_eq_true, List.mem_filterMap]
  constructor
  · rintro ⟨x, ⟨code, hcode, hx⟩, hp⟩
    exact ⟨code, hcode, x, hx, hp⟩
  · rintro ⟨code, hcode, x, hx, hp⟩
    exact ⟨x, ⟨code, hcode, hx⟩, hp⟩

theorem mem_textsAt_addIf (c : Bool) : s ∈ textsAt path (if c then o.addText word text else o) ↔
    s ∈ textsAt path o ∨ (path = word ∧ s = text ∧ c = true) := by
  cases c with
  | false => simp
  | true => simp [mem_textsAt_addText]

/-- Adding the words for status codes adds just the words for what the codes mean. -/
theorem mem_textsAt_addStatusWords : s ∈ textsAt path o.addStatusWords ↔
    s ∈ textsAt path o ∨ (path = statusPath ∧ Category (· ∈ textsAt statusPath o) s) := by
  unfold Observed.addStatusWords
  cases hfind : Assoc.find? statusPath o with
  | none =>
    have hnone (code : String) : code ∉ textsAt statusPath o := by
      rw [textsAt, hfind]
      exact List.not_mem_nil
    simp [category_iff, hnone]
  | some codes =>
    have hcodes : textsAt statusPath o = codes := by rw [textsAt, hfind, Option.getD_some]
    have herror : ((codes.filterMap textNumber?).any fun x => x.compareInt? 400 != some .lt) = true ↔
        ∃ code, code ∈ codes ∧ IsFrom 400 code := by
      simp only [any_numbers_iff, isFrom_iff, bne_iff_ne]
    have hsuccess : ((codes.filterMap textNumber?).any fun x =>
        x.compareInt? 200 != some .lt && !(x.compareInt? 400 != some .lt)) = true ↔
        ∃ code, code ∈ codes ∧ IsFrom 200 code ∧ ¬ IsFrom 400 code := by
      rw [any_numbers_iff]
      refine exists_congr fun code => and_congr_right fun _ => ?_
      rw [isFrom_iff, isFrom_iff]
      cases textNumber? code <;> simp
    dsimp only
    rw [mem_textsAt_addIf, mem_textsAt_addIf, herror, hsuccess, hcodes, category_iff, or_assoc]
    refine or_congr_right ?_
    rw [← and_or_left]

theorem Observed.Tidy.addStatusWords (h : o.Tidy) : o.addStatusWords.Tidy := by
  have haddIf {o : Observed} (h : o.Tidy) (c : Bool) (word text : String) :
      (if c then o.addText word text else o).Tidy := by
    split
    · exact h.addText ..
    · exact h
  unfold Observed.addStatusWords
  split
  · exact h
  · exact haddIf (haddIf h _ _ _) _ _ _

/-! ## Whole samples -/

/-- **The texts at a path are those that may be suggested there.** -/
theorem mem_observe_iff (events : List EventRow) (path text : String) :
    text ∈ textsAt path (observe (events.map EventRow.sighting)) ↔ Offered events path text := by
  have hseen (path text : String) :
      text ∈ textsAt path
          (((events.map EventRow.sighting).flatMap Sighting.leaves).foldl Observed.addLeaf []) ↔
        SeenText events path text := by
    rw [mem_textsAt_foldl]
    have hnil : text ∉ textsAt path [] := List.not_mem_nil
    simp only [hnil, false_or, ← seenLeaf_iff]
    rfl
  rw [observe, mem_textsAt_addStatusWords, hseen, category_congr fun code => hseen statusPath code]
  constructor
  · rintro (h | ⟨rfl, h⟩)
    · exact .seen h
    · exact .category h
  · rintro (h | h)
    · exact .inl h
    · exact .inr ⟨rfl, h⟩

/-- **The table of a sample is tidy.** -/
theorem tidy_observe (events : List Sighting) : (observe events).Tidy :=
  (tidy_nil.foldl _).addStatusWords

end Telemetry.Query
