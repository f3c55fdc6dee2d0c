import Mathlib.Data.String.Basic
import Mathlib.Data.Sum.Order
import Telemetry.Query.Suggestions

/-!
# The rank of a text

Texts are suggested in an order in which different texts can be equal: numbers come first, by their
value alone, and all other texts behind them, by code point. Ranks say this in one linear order. A
list in the order of ranks is determined by its texts up to which of several texts of one number
stands where, and so is its beginning.

Main statements: `mem_take_iff_of_own`, `take_eq_of_untied`, `orderValues_perm`,
`pairwise_orderValues`.
-/

namespace Telemetry.Query

/-! ## Lists in the order of a rank -/

section Sorted

variable {α κ : Type} [LinearOrder κ] {r : α → κ} {l m : List α} {t : α} {n : Nat}

/-- How many items of a list rank below a value. -/
def countBelow (r : α → κ) (value : κ) (l : List α) : Nat := l.countP fun s => r s < value

/-- Behind an item nothing ranks below it. -/
theorem countBelow_of_le (h : ∀ s ∈ l, r t ≤ r s) : countBelow r (r t) l = 0 :=
  List.countP_eq_zero.mpr fun s hs => by simpa using h s hs

/-- At most the items in front of an item rank below it. -/
theorem countBelow_le (hl : l.Pairwise fun s t => r s ≤ r t) {i : Nat} (hi : l[i]? = some t) :
    countBelow r (r t) l ≤ i := by
  obtain ⟨hlt, rfl⟩ := List.getElem?_eq_some_iff.mp hi
  have hrest : countBelow r (r l[i]) (l.drop i) = 0 := by
    refine countBelow_of_le fun s hs => ?_
    rw [List.drop_eq_getElem_cons hlt] at hs
    rcases List.mem_cons.mp hs with rfl | hs
    · exact le_rfl
    · have hdrop := hl.drop (i := i)
      rw [List.drop_eq_getElem_cons hlt] at hdrop
      exact List.rel_of_pairwise_cons hdrop hs
  calc countBelow r (r l[i]) l
      = countBelow r (r l[i]) (l.take i) + countBelow r (r l[i]) (l.drop i) := by
        unfold countBelow
        rw [← List.countP_append, List.take_append_drop]
    _ ≤ (l.take i).length + 0 := Nat.add_le_add List.countP_le_length (Nat.le_of_eq hrest)
    _ ≤ i := List.length_take_le i l

/-- An item stands in a list behind lower ones only. -/
structure FirstOfRank (r : α → κ) (t : α) (l before after : List α) : Prop where
  split : l = before ++ t :: after
  below : ∀ s ∈ before, r s < r t

theorem FirstOfRank.countBelow_eq {before after : List α} (h : FirstOfRank r t l before after)
    (hl : l.Pairwise fun s t => r s ≤ r t) : countBelow r (r t) l = before.length := by
  have hbefore : countBelow r (r t) before = before.length :=
    List.countP_eq_length.mpr fun s hs => decide_eq_true (h.below s hs)
  rw [h.split] at hl ⊢
  have hafter : countBelow r (r t) (t :: after) = 0 :=
    countBelow_of_le <| List.forall_mem_cons.mpr
      ⟨le_rfl, fun _ hs => List.rel_of_pairwise_cons (List.pairwise_append.mp hl).2.1 hs⟩
  unfold countBelow at hbefore hafter ⊢
  rw [List.countP_append, hbefore, hafter, Nat.add_zero]

/-- The first item of its rank has a place of its own: the number of the lower ones. -/
theorem FirstOfRank.getElem?_eq {before after : List α} (h : FirstOfRank r t l before after)
    (hl : l.Pairwise fun s t => r s ≤ r t) : l[countBelow r (r t) l]? = some t := by
  rw [h.countBelow_eq hl, h.split, List.getElem?_append_right (Nat.le_refl _), Nat.sub_self]
  rfl

/-- An item of a rank of its own is the first one of its rank. -/
theorem exists_firstOfRank (hl : l.Pairwise fun s t => r s ≤ r t) (hnodup : l.Nodup) (ht : t ∈ l)
    (hown : ∀ s ∈ l, r s = r t → s = t) : ∃ before after, FirstOfRank r t l before after := by
  obtain ⟨before, after, rfl⟩ := List.append_of_mem ht
  refine ⟨before, after, rfl, fun s hs => lt_of_le_of_ne ?_ fun heq => ?_⟩
  · exact (List.pairwise_append.mp hl).2.2 s hs t List.mem_cons_self
  · have hst := hown s (List.mem_append_left _ hs) heq
    exact (List.nodup_append.mp hnodup).2.2 s hs t List.mem_cons_self hst

/-- **An item of a rank of its own is among the first if few enough items are lower.** -/
theorem mem_take_iff_of_own (hl : l.Pairwise fun s t => r s ≤ r t) (hnodup : l.Nodup) (ht : t ∈ l)
    (hown : ∀ s ∈ l, r s = r t → s = t) : t ∈ l.take n ↔ countBelow r (r t) l < n := by
  obtain ⟨before, after, hfirst⟩ := exists_firstOfRank hl hnodup ht hown
  have hplace := hfirst.getElem?_eq hl
  constructor
  · intro hmem
    obtain ⟨i, hi⟩ := List.getElem?_of_mem hmem
    rw [List.getElem?_take] at hi
    split at hi
    · exact Nat.lt_of_le_of_lt (countBelow_le hl hi) (by assumption)
    · cases hi
  · intro hlt
    refine List.mem_of_getElem? (i := countBelow r (r t) l) ?_
    rw [List.getElem?_take, if_pos hlt, hplace]

/-- The ranks of a sorted list are determined by its items. -/
theorem map_rank_eq (h : l.Perm m) (hl : l.Pairwise fun s t => r s ≤ r t)
    (hm : m.Pairwise fun s t => r s ≤ r t) : l.map r = m.map r :=
  List.Perm.eq_of_pairwise (fun _ _ _ _ => le_antisymm) (List.pairwise_map.mpr hl)
    (List.pairwise_map.mpr hm) (h.map r)

/-- **The beginning of a sorted list is determined by its items** if items of equal rank come only
behind it. -/
theorem take_eq_of_untied (h : l.Perm m) (hl : l.Pairwise fun s t => r s ≤ r t)
    (hm : m.Pairwise fun s t => r s ≤ r t)
    (huntied : ∀ s ∈ l, ∀ t ∈ l, s ≠ t → r s = r t → n ≤ countBelow r (r s) l) :
    l.take n = m.take n := by
  refine List.ext_getElem? fun i => ?_
  rw [List.getElem?_take, List.getElem?_take]
  split
  · rename_i hi
    have hrank : l[i]?.map r = m[i]?.map r := by
      rw [← List.getElem?_map, ← List.getElem?_map, map_rank_eq h hl hm]
    cases hs : l[i]? with
    | none =>
      rw [hs] at hrank
      exact (Option.map_eq_none_iff.mp hrank.symm).symm
    | some s =>
      rw [hs] at hrank
      obtain ⟨t, ht, hrank⟩ := Option.map_eq_some_iff.mp hrank.symm
      rw [ht]
      by_contra hne
      have hmem : t ∈ l := h.mem_iff.mpr (List.mem_of_getElem? ht)
      have hreach := huntied s (List.mem_of_getElem? hs) t hmem (fun h => hne (h ▸ rfl)) hrank.symm
      exact Nat.not_lt.mpr (hreach.trans (countBelow_le hl hs)) hi
  · rfl

end Sorted

/-! ## Ranks -/

/-- The number that a text is, in units of the smallest double. -/
def unitsOf? (text : String) : Option Int := (textNumber? text).bind Double.units?

/-- The place of a text in the order of suggestions: numbers by their value, then the other texts by
code point. -/
def rank (text : String) : Int ⊕ₗ String :=
  match unitsOf? text with
  | some units => Sum.inlₗ units
  | none => Sum.inrₗ text

/-- Two texts are tied: they are different texts of one number. -/
def Tied (s t : String) : Prop :=
  s ≠ t ∧ ∃ units, unitsOf? s = some units ∧ unitsOf? t = some units

variable {s t : String} {values : List String}

theorem rank_of_units {units : Int} (h : unitsOf? s = some units) : rank s = Sum.inlₗ units := by
  rw [rank, h]

theorem rank_of_plain (h : unitsOf? s = none) : rank s = Sum.inrₗ s := by
  rw [rank, h]

/-- Different texts have one rank only if they are tied. -/
theorem tied_iff : Tied s t ↔ s ≠ t ∧ rank s = rank t := by
  refine and_congr_right fun hne => ?_
  cases hs : unitsOf? s with
  | none =>
    cases ht : unitsOf? t with
    | none => simp [rank_of_plain hs, rank_of_plain ht, hne]
    | some v => simp [rank_of_plain hs, rank_of_units ht]
  | some u =>
    cases ht : unitsOf? t with
    | none => simp [rank_of_units hs, rank_of_plain ht]
    | some v => simp [rank_of_units hs, rank_of_units ht, eq_comm]

/-- A text that is no number has a rank of its own. -/
theorem eq_of_rank_eq (ht : unitsOf? t = none) (h : rank s = rank t) : s = t := by
  by_contra hne
  obtain ⟨-, units, -, hunits⟩ := tied_iff.mpr ⟨hne, h⟩
  cases ht.symm.trans hunits

theorem isFinite_textNumber? {x : Double} (h : textNumber? s = some x) : x.isFinite = true := by
  unfold textNumber? at h
  dsimp only at h
  split at h
  · cases h
    rfl
  · split at h
    · cases h
    · split at h
      · split at h
        · cases h
          assumption
        · cases h
      · cases h

theorem exists_units {x : Double} (h : x.isFinite = true) : ∃ units, x.units? = some units := by
  cases x with
  | finite negative units representable => exact ⟨_, rfl⟩
  | nan => cases h
  | infinite negative => cases h

theorem unitsOf?_isSome (s : String) : (unitsOf? s).isSome = (textNumber? s).isSome := by
  unfold unitsOf?
  cases h : textNumber? s with
  | none => rfl
  | some x =>
    obtain ⟨units, hunits⟩ := exists_units (isFinite_textNumber? h)
    rw [Option.bind_some, hunits]
    rfl

theorem unitsOf?_eq_none_iff : unitsOf? s = none ↔ textNumber? s = none := by
  rw [← Option.not_isSome_iff_eq_none, unitsOf?_isSome, Option.not_isSome_iff_eq_none]

/-! ## The order of suggestions -/

/-- Below or equal in rank. -/
def byRank (s t : String) : Bool := decide (rank s ≤ rank t)

theorem byRank_trans (a b c : String) (hab : byRank a b = true) (hbc : byRank b c = true) :
    byRank a c = true :=
  decide_eq_true (le_trans (of_decide_eq_true hab) (of_decide_eq_true hbc))

theorem byRank_total (a b : String) : (byRank a b || byRank b a) = true := by
  simpa [byRank] using le_total (rank a) (rank b)

theorem pairwise_mergeSort_byRank (l : List String) :
    (l.mergeSort byRank).Pairwise fun s t => rank s ≤ rank t :=
  (List.pairwise_mergeSort byRank_trans byRank_total l).imp of_decide_eq_true

/-- A text is a number. -/
def isNumber (s : String) : Bool := (textNumber? s).isSome

theorem le_eq_byRank {x y : Double} (hx : textNumber? s = some x) (hy : textNumber? t = some y) :
    x.le y = byRank s t := by
  obtain ⟨u, hu⟩ := exists_units (isFinite_textNumber? hx)
  obtain ⟨v, hv⟩ := exists_units (isFinite_textNumber? hy)
  have hs : unitsOf? s = some u := by rw [unitsOf?, hx, Option.bind_some, hu]
  have ht : unitsOf? t = some v := by rw [unitsOf?, hy, Option.bind_some, hv]
  rw [byRank, rank_of_units hs, rank_of_units ht]
  cases x with
  | nan => cases hu
  | infinite negative => cases hu
  | finite a m hm =>
    cases y with
    | nan => cases hv
    | infinite negative => cases hv
    | finite b n hn =>
      have hsum : decide ((Sum.inlₗ u : Int ⊕ₗ String) ≤ Sum.inlₗ v) = decide (u ≤ v) := by simp
      rw [hsum, ← Option.some.inj hu, ← Option.some.inj hv]
      unfold Double.le Double.compare?
      dsimp only
      generalize (if a = true then -(m : Int) else m) = i
      generalize (if b = true then -(n : Int) else n) = j
      rcases lt_trichotomy i j with hij | rfl | hij
      · rw [compare_lt_iff_lt.mpr hij, decide_eq_true hij.le]
      · simp
      · rw [compare_gt_iff_gt.mpr hij, decide_eq_false hij.not_ge]

/-- Numbers first, then the other texts, each part sorted by rank. -/
theorem orderValues_eq (values : List String) : orderValues values
    = (values.filter isNumber).mergeSort byRank ++
      (values.filter fun s => !isNumber s).mergeSort byRank := by
  have hnumbers : (numericTexts values).map Prod.snd = values.filter isNumber := by
    unfold numericTexts
    induction values with
    | nil => rfl
    | cons s rest ih =>
      cases hs : textNumber? s <;> simp [isNumber, hs, ih]
  have hplain : plainTexts values = values.filter fun s => !isNumber s := by
    unfold plainTexts isNumber
    exact List.filter_congr fun s _ => by cases textNumber? s <;> rfl
  have hfirst : ((numericTexts values).mergeSort fun a b => a.1.le b.1).map Prod.snd
      = (values.filter isNumber).mergeSort byRank := by
    rw [← hnumbers]
    refine List.map_mergeSort fun a ha b hb => ?_
    have hnumber (p : Double × String) (hp : p ∈ numericTexts values) :
        textNumber? p.2 = some p.1 := by
      obtain ⟨s, -, hs⟩ := List.mem_filterMap.mp hp
      obtain ⟨x, hx, rfl⟩ := Option.map_eq_some_iff.mp hs
      exact hx
    exact le_eq_byRank (hnumber a ha) (hnumber b hb)
  have hsecond : (plainTexts values).mergeSort (fun a b => decide (a ≤ b))
      = (plainTexts values).mergeSort byRank := by
    have hmap := List.map_mergeSort (r := fun a b : String => decide (a ≤ b)) (s := byRank)
      (f := id) (l := plainTexts values) fun a ha b hb => ?_
    · rwa [List.map_id, List.map_id] at hmap
    · have hnone (s : String) (hs : s ∈ plainTexts values) : unitsOf? s = none := by
        have hplain := List.of_mem_filter hs
        exact unitsOf?_eq_none_iff.mpr (by simpa using hplain)
      rw [byRank, id, id, rank_of_plain (hnone a ha), rank_of_plain (hnone b hb)]
      simp
  unfold orderValues
  rw [hfirst, hsecond, hplain]

/-- **The order of suggestions loses and invents no text.** -/
theorem orderValues_perm (values : List String) : (orderValues values).Perm values := by
  rw [orderValues_eq]
  exact ((List.mergeSort_perm _ _).append (List.mergeSort_perm _ _)).trans
    (List.filter_append_perm isNumber values)

theorem isNumber_iff : isNumber s = true ↔ ∃ units, unitsOf? s = some units := by
  rw [isNumber, ← unitsOf?_isSome, Option.isSome_iff_exists]

/-- **Suggestions are in the order of ranks.** -/
theorem pairwise_orderValues (values : List String) :
    (orderValues values).Pairwise fun s t => rank s ≤ rank t := by
  rw [orderValues_eq]
  refine List.pairwise_append.mpr
    ⟨pairwise_mergeSort_byRank _, pairwise_mergeSort_byRank _, fun s hs t ht => ?_⟩
  obtain ⟨u, hu⟩ := isNumber_iff.mp (List.of_mem_filter (List.mem_mergeSort.mp hs))
  have hplain : unitsOf? t = none :=
    unitsOf?_eq_none_iff.mpr
      (by simpa [isNumber] using List.of_mem_filter (List.mem_mergeSort.mp ht))
  rw [rank_of_units hu, rank_of_plain hplain]
  exact (Sum.Lex.inl_lt_inr u t).le

/-- A number that is gone through first is the first one of its rank. -/
theorem exists_firstOfRank_cons (h : isNumber t = true) (rest : List String) :
    ∃ before after, FirstOfRank rank t (orderValues (t :: rest)) before after := by
  obtain ⟨before, after, hsplit, -, hbelow⟩ :=
    List.mergeSort_cons byRank_trans byRank_total t (rest.filter isNumber)
  refine ⟨before, after ++ ((t :: rest).filter fun s => !isNumber s).mergeSort byRank, ?_, ?_⟩
  · rw [orderValues_eq, List.filter_cons_of_pos h, hsplit, List.append_assoc, List.cons_append]
  · intro s hs
    have hnot := hbelow s hs
    rw [Bool.not_eq_true', byRank, decide_eq_false_iff_not] at hnot
    exact lt_of_not_ge hnot

end Telemetry.Query
