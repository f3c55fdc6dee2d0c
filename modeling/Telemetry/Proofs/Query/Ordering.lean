import Telemetry.Proofs.Query.Ranking

/-!
# The order of texts

Texts are put in order: numbers by their value, then all others by code point. Texts of one number
stay in the order in which they came, so there is just one such order of a list, and putting it in
order again changes nothing.

Main statement: `orderValues_stable`.
-/

namespace Telemetry.Query

/-! ## Stable sorting -/

section Stable

variable {α κ : Type} {l m : List α} {a b : α}

/-- Sorting keeps the order of items none of which has to stand behind another. -/
theorem filter_mergeSort {le : α → α → Bool} (trans : ∀ a b c, le a b → le b c → le a c)
    (total : ∀ a b, le a b || le b a) {p : α → Bool}
    (h : ∀ a b, p a = true → p b = true → le a b = true) (l : List α) :
    (l.mergeSort le).filter p = l.filter p := by
  have hpairwise : (l.filter p).Pairwise fun a b => le a b = true := by
    refine List.pairwise_of_forall_mem_list fun a ha b hb => ?_
    exact h a b (List.of_mem_filter ha) (List.of_mem_filter hb)
  have hsublist : (l.filter p).Sublist ((l.mergeSort le).filter p) := by
    simpa using (List.sublist_mergeSort trans total hpairwise List.filter_sublist).filter p
  have hlength := ((List.mergeSort_perm l le).filter p).length_eq
  exact (hsublist.eq_of_length hlength.symm).symm

/-- A sorted list with the items of the rank in which another list begins begins no higher. -/
theorem head_le_of_filter_eq [LinearOrder κ] {r : α → κ}
    (hm : (b :: m).Pairwise fun s t => r s ≤ r t)
    (h : (a :: l).filter (fun s => r s = r a) = (b :: m).filter (fun s => r s = r a)) :
    r b ≤ r a := by
  have ha : a ∈ (b :: m).filter (fun s => r s = r a) := by simp [← h]
  rcases List.mem_cons.mp (List.mem_of_mem_filter ha) with rfl | ha
  · exact le_rfl
  · exact List.rel_of_pairwise_cons hm ha

/-- **A sorted list is known by the items of each rank in their order.** -/
theorem eq_of_filter_rank_eq [LinearOrder κ] {r : α → κ} (hl : l.Pairwise fun s t => r s ≤ r t)
    (hm : m.Pairwise fun s t => r s ≤ r t)
    (h : ∀ k, l.filter (fun s => r s = k) = m.filter (fun s => r s = k)) : l = m := by
  induction l generalizing m with
  | nil =>
    cases m with
    | nil => rfl
    | cons b m => simpa using h (r b)
  | cons a l ih =>
    cases m with
    | nil => simpa using h (r a)
    | cons b m =>
      have hrank : r a = r b :=
        le_antisymm (head_le_of_filter_eq hl (h (r b)).symm) (head_le_of_filter_eq hm (h (r a)))
      have hhead : a = b := by
        have hfilter := h (r a)
        simp only [hrank, List.filter_cons, decide_true, if_true] at hfilter
        exact (List.cons.inj hfilter).1
      subst hhead
      refine congrArg (a :: ·) (ih hl.tail hm.tail fun k => ?_)
      have hfilter := h k
      by_cases hk : r a = k
      · simpa [hk] using hfilter
      · simpa [hk] using hfilter

end Stable

/-! ## Texts in order -/

variable {values numbers others l : List String} {s t : String} {u v : Int}

/-- Some texts in order: the numbers among them, in ascending order and those of one value as they
came, and the other ones by code point. -/
structure StablyOrdered (values numbers others : List String) : Prop where
  perm : (numbers ++ others).Perm values
  numeric : ∀ s ∈ numbers, ∃ x, textNumber? s = some x ∧ x.isFinite = true
  plain : ∀ s ∈ others, textNumber? s = none
  ascending : numbers.Pairwise fun s t =>
    ∃ u v, unitsOf? s = some u ∧ unitsOf? t = some v ∧ u ≤ v
  stable : ∀ u, numbers.filter (fun s => unitsOf? s = some u)
    = values.filter fun s => unitsOf? s = some u
  byCodePoint : others.Pairwise (· ≤ ·)

/-- A list is an order of some texts: numbers, and then all others. -/
def IsOrderOf (values l : List String) : Prop :=
  ∃ numbers others, l = numbers ++ others ∧ StablyOrdered values numbers others

theorem exists_units_of_number {x : Double} (h : textNumber? s = some x) :
    ∃ u, unitsOf? s = some u := by
  rw [← Option.isSome_iff_exists, unitsOf?_isSome, h]
  rfl

/-- **Texts are put in order.** -/
theorem isOrderOf_orderValues (values : List String) : IsOrderOf values (orderValues values) := by
  have hnumber {s : String} (hs : s ∈ (values.filter isNumber).mergeSort byRank) :
      isNumber s = true := List.of_mem_filter (List.mem_mergeSort.mp hs)
  have hplain {s : String} (hs : s ∈ (values.filter fun s => !isNumber s).mergeSort byRank) :
      textNumber? s = none := by
    simpa [isNumber] using List.of_mem_filter (List.mem_mergeSort.mp hs)
  refine ⟨_, _, orderValues_eq values, ?_, fun s hs => ?_, fun s hs => hplain hs, ?_, ?_, ?_⟩
  · rw [← orderValues_eq]
    exact orderValues_perm values
  · obtain ⟨x, hx⟩ := Option.isSome_iff_exists.mp (hnumber hs)
    exact ⟨x, hx, isFinite_textNumber? hx⟩
  · refine (pairwise_mergeSort_byRank _).imp_of_mem fun {s t} hs ht hle => ?_
    obtain ⟨u, hu⟩ := isNumber_iff.mp (hnumber hs)
    obtain ⟨v, hv⟩ := isNumber_iff.mp (hnumber ht)
    rw [rank_of_units hu, rank_of_units hv] at hle
    exact ⟨u, v, hu, hv, by simpa using hle⟩
  · intro u
    rw [filter_mergeSort byRank_trans byRank_total, List.filter_filter]
    · refine List.filter_congr fun s _ => ?_
      by_cases hs : unitsOf? s = some u
      · simp [hs, isNumber_iff.mpr ⟨u, hs⟩]
      · simp [hs]
    · intro a b ha hb
      rw [byRank, rank_of_units (of_decide_eq_true ha), rank_of_units (of_decide_eq_true hb)]
      exact decide_eq_true le_rfl
  · refine (pairwise_mergeSort_byRank _).imp_of_mem fun {s t} hs ht hle => ?_
    rw [rank_of_plain (unitsOf?_eq_none_iff.mpr (hplain hs)),
      rank_of_plain (unitsOf?_eq_none_iff.mpr (hplain ht))] at hle
    simpa using hle

/-- The numbers of an order are known by those of each value. -/
theorem StablyOrdered.numbers_unique {numbers' others' : List String}
    (h : StablyOrdered values numbers others) (h' : StablyOrdered values numbers' others') :
    numbers = numbers' := by
  have hsorted {numbers others : List String} (h : StablyOrdered values numbers others) :
      numbers.Pairwise fun s t => (unitsOf? s).getD 0 ≤ (unitsOf? t).getD 0 := by
    refine h.ascending.imp ?_
    rintro s t ⟨u, v, hu, hv, hle⟩
    simpa [hu, hv] using hle
  have hvalue {numbers others : List String} (h : StablyOrdered values numbers others) (u : Int) :
      numbers.filter (fun s => (unitsOf? s).getD 0 = u)
        = values.filter fun s => unitsOf? s = some u := by
    rw [← h.stable u]
    refine List.filter_congr fun s hs => ?_
    obtain ⟨x, hx, -⟩ := h.numeric s hs
    obtain ⟨w, hw⟩ := exists_units_of_number hx
    simp [hw]
  exact eq_of_filter_rank_eq (hsorted h) (hsorted h') fun u => (hvalue h u).trans (hvalue h' u).symm

theorem StablyOrdered.others_perm (h : StablyOrdered values numbers others) :
    others.Perm (values.filter fun s => !isNumber s) := by
  have hnumbers : numbers.filter (fun s => !isNumber s) = [] := by
    refine List.filter_eq_nil_iff.mpr fun s hs => ?_
    obtain ⟨x, hx, -⟩ := h.numeric s hs
    simp [isNumber, hx]
  have hothers : others.filter (fun s => !isNumber s) = others :=
    List.filter_eq_self.mpr fun s hs => by simp [isNumber, h.plain s hs]
  have hperm := h.perm.filter fun s => !isNumber s
  rwa [List.filter_append, hnumbers, hothers, List.nil_append] at hperm

/-- **A list has one order only.** -/
theorem IsOrderOf.unique {m : List String} (hl : IsOrderOf values l) (hm : IsOrderOf values m) :
    l = m := by
  obtain ⟨numbers, others, rfl, h⟩ := hl
  obtain ⟨numbers', others', rfl, h'⟩ := hm
  have hothers : others = others' :=
    (h.others_perm.trans h'.others_perm.symm).eq_of_pairwise (fun _ _ _ _ => le_antisymm)
      h.byCodePoint h'.byCodePoint
  rw [h.numbers_unique h', hothers]

/-- An order is its own order. -/
theorem IsOrderOf.self (hl : IsOrderOf values l) : IsOrderOf l l := by
  obtain ⟨numbers, others, rfl, h⟩ := hl
  refine ⟨numbers, others, rfl, .refl _, h.numeric, h.plain, h.ascending, fun u => ?_,
    h.byCodePoint⟩
  have hothers : others.filter (fun s => unitsOf? s = some u) = [] := by
    refine List.filter_eq_nil_iff.mpr fun s hs => ?_
    simp [unitsOf?_eq_none_iff.mpr (h.plain s hs)]
  rw [List.filter_append, hothers, List.append_nil]

/-- **Putting texts in order gives the numbers among them in ascending order, those of one value as
they came, and then all others by code point.** There is no other such list, and putting it in order
again changes nothing. -/
theorem orderValues_stable (values : List String) :
    (∀ l, IsOrderOf values l ↔ l = orderValues values) ∧
      orderValues (orderValues values) = orderValues values := by
  have horder := isOrderOf_orderValues values
  constructor
  · intro l
    constructor
    · intro hl
      exact hl.unique horder
    · rintro rfl
      exact horder
  · exact (isOrderOf_orderValues _).unique horder.self

end Telemetry.Query
