import Telemetry.Proofs.Query.Suggesting

/-!
# Samples in another order

The texts of a path depend on which events a sample has and not on their order. What is suggested of
them need not: texts of one number keep the order in which they are gone through, and if they stand
where the list is cut, even which of them is suggested depends on it.

Main statement: `fields_settled_iff`, which says for which samples the fields are settled.
-/

namespace Telemetry.Query

variable {events resampled : List EventRow} {path s t : String} {v : Json}

/-! ## The texts of a sample -/

theorem SeenLeaf.mono (h : SeenLeaf events path v) (hsub : events ⊆ resampled) :
    SeenLeaf resampled path v := by
  cases h with
  | payload he hleaf => exact .payload (hsub he) hleaf
  | status he hcode hsome => exact .status (hsub he) hcode hsome
  | outcome he houtcome hsome => exact .outcome (hsub he) houtcome hsome

theorem SeenText.mono (h : SeenText events path s) (hsub : events ⊆ resampled) :
    SeenText resampled path s := by
  obtain ⟨v, hv, htext⟩ := h
  exact ⟨v, hv.mono hsub, htext⟩

theorem Offered.mono (h : Offered events path s) (hsub : events ⊆ resampled) :
    Offered resampled path s := by
  cases h with
  | seen h => exact .seen (h.mono hsub)
  | category h =>
    cases h with
    | error h hcode => exact .category (.error (h.mono hsub) hcode)
    | success h hlow hhigh => exact .category (.success (h.mono hsub) hlow hhigh)

/-- The order of a sample does not change its texts. -/
theorem offered_perm (h : resampled.Perm events) (path s : String) :
    Offered resampled path s ↔ Offered events path s :=
  ⟨fun hs => hs.mono h.subset, fun hs => hs.mono h.symm.subset⟩

/-! ## The fields of a sample -/

/-- Two tables of fields have the same paths with the same values in the same order. -/
def SameFields (f g : List (String × List String)) : Prop :=
  ∀ path, Assoc.find? path f = Assoc.find? path g

/-- Two tables of fields are the same but for which of several texts of one number stands where. -/
def AlikeFields (f g : List (String × List String)) : Prop :=
  ∀ path, (Assoc.find? path f).map (List.map rank) = (Assoc.find? path g).map (List.map rank)

/-- The fields of a sample are related to those of the sample in any other order, whatever orders
the texts of both are gone through in. -/
def InAnyOrder (R : List (String × List String) → List (String × List String) → Prop)
    (events : List EventRow) : Prop :=
  ∀ resampled : List EventRow, resampled.Perm events → ∀ a a' : Arrangement,
    R (Suggestions.arranged a (events.map EventRow.sighting)).fields
      (Suggestions.arranged a' (resampled.map EventRow.sighting)).fields

theorem find?_fields_of_offered (h : Offered events path s) (a : Arrangement) :
    Assoc.find? path (Suggestions.arranged a (events.map EventRow.sighting)).fields
      = some ((ordered a events path).take maxValues) := by
  have hmem := (mem_observe_iff events path s).mpr h
  rw [find?_fields]
  unfold ordered
  unfold textsAt at hmem ⊢
  cases hfind : Assoc.find? path (observe (events.map EventRow.sighting)) with
  | none =>
    rw [hfind] at hmem
    cases hmem
  | some texts => rfl

theorem find?_fields_of_not_offered (h : ∀ s, ¬ Offered events path s) (a : Arrangement) :
    Assoc.find? path (Suggestions.arranged a (events.map EventRow.sighting)).fields = none := by
  refine Assoc.find?_eq_none fun hmem => ?_
  rw [keys_fields, mem_keys_observe] at hmem
  obtain ⟨s, hs⟩ := hmem
  exact h s hs

/-- Fields that agree wherever something may be suggested agree everywhere. -/
theorem fields_of_ordered {β : Type} (hperm : resampled.Perm events) (a a' : Arrangement)
    (path : String) (view : List String → β)
    (h : ∀ s, Offered events path s → view ((ordered a events path).take maxValues)
      = view ((ordered a' resampled path).take maxValues)) :
    (Assoc.find? path (Suggestions.arranged a (events.map EventRow.sighting)).fields).map view
      = (Assoc.find? path
          (Suggestions.arranged a' (resampled.map EventRow.sighting)).fields).map view := by
  by_cases hpath : ∃ s, Offered events path s
  · obtain ⟨s, hs⟩ := hpath
    rw [find?_fields_of_offered hs, find?_fields_of_offered ((offered_perm hperm path s).mpr hs),
      Option.map_some, Option.map_some, h s hs]
  · have hnone (s : String) : ¬ Offered events path s := fun hs => hpath ⟨s, hs⟩
    rw [find?_fields_of_not_offered hnone,
      find?_fields_of_not_offered fun s hs => hnone s ((offered_perm hperm path s).mp hs)]

theorem ordered_perm_ordered (hperm : resampled.Perm events) (a a' : Arrangement) (path : String) :
    (ordered a events path).Perm (ordered a' resampled path) := by
  have hranked := ranked_ordered a events path
  have hranked' := ranked_ordered a' resampled path
  refine (List.perm_ext_iff_of_nodup hranked.nodup hranked'.nodup).mpr fun s => ?_
  rw [hranked.mem_iff, hranked'.mem_iff]
  exact (offered_perm hperm path s).symm

/-! ## Tied texts -/

/-- The order in which one text comes first wherever it is, and the others as they came. -/
def Arrangement.front (first : String) : Arrangement where
  arrange _ texts := if first ∈ texts then first :: texts.erase first else texts
  perm _ texts := by
    split
    · exact (List.perm_cons_erase (by assumption)).symm
    · exact .refl texts

/-- A number that is gone through first stands in front of the others that are tied with it. -/
theorem getElem?_ordered_front (h : Offered events path s) {units : Int}
    (hunits : unitsOf? s = some units) :
    (ordered (.front s) events path)[placeOf events path s]? = some s := by
  have hmem : s ∈ textsAt path (observe (events.map EventRow.sighting)) :=
    (mem_observe_iff events path s).mpr h
  have hsorted := (ranked_ordered (.front s) events path).sorted
  obtain ⟨before, after, hfirst⟩ := exists_firstOfRank_cons (isNumber_iff.mpr ⟨units, hunits⟩)
    ((textsAt path (observe (events.map EventRow.sighting))).erase s)
  rw [placeOf_ordered (.front s)]
  have hordered : ordered (.front s) events path
      = orderValues (s :: (textsAt path (observe (events.map EventRow.sighting))).erase s) :=
    congrArg orderValues (if_pos hmem)
  rw [hordered] at hsorted ⊢
  exact hfirst.getElem?_eq hsorted

/-- **The fields of a sample are alike in any order, and they are the same in any order just if tied
texts come only where no more are suggested.** -/
theorem fields_settled_iff (events : List EventRow) : InAnyOrder AlikeFields events ∧
    (InAnyOrder SameFields events ↔ ∀ path s t, Offered events path s → Offered events path t →
      Tied s t → maxValues ≤ placeOf events path s) := by
  refine ⟨fun resampled hperm a a' path => ?_, ?_, ?_⟩
  · refine fields_of_ordered hperm a a' path _ fun _ _ => ?_
    rw [List.map_take, List.map_take, map_rank_eq (ordered_perm_ordered hperm a a' path)
      (ranked_ordered a events path).sorted (ranked_ordered a' resampled path).sorted]
  · intro hsame path s t hs ht htied
    obtain ⟨hne, hrank⟩ := tied_iff.mp htied
    obtain ⟨-, units, hsunits, htunits⟩ := htied
    by_contra hreach
    have hplace : placeOf events path t = placeOf events path s := by
      unfold placeOf
      rw [hrank]
    -- Each of the two texts can be the one at their place.
    have hfields := hsame events (.refl events) (.front s) (.front t) path
    rw [find?_fields_of_offered hs, find?_fields_of_offered hs, Option.some.injEq] at hfields
    have hat := congrArg (·[placeOf events path s]?) hfields
    simp only [List.getElem?_take, if_pos (Nat.lt_of_not_le hreach)] at hat
    rw [getElem?_ordered_front hs hsunits, ← hplace, getElem?_ordered_front ht htunits] at hat
    exact hne (Option.some.inj hat)
  · intro huntied resampled hperm a a' path
    have hview := fields_of_ordered hperm a a' path id fun _ _ => ?_
    · rwa [Option.map_id, id, id] at hview
    · have hranked := ranked_ordered a events path
      refine take_eq_of_untied (ordered_perm_ordered hperm a a' path) hranked.sorted
        (ranked_ordered a' resampled path).sorted fun s hs t ht hne hrank => ?_
      rw [← placeOf_ordered a]
      exact huntied path s t ((hranked.mem_iff s).mp hs) ((hranked.mem_iff t).mp ht)
        (tied_iff.mpr ⟨hne, hrank⟩)

/-- An event of which nothing but one property is known. -/
def noting (text : String) : EventRow where
  id := ""
  timestamp := default
  eventType := ""
  payload := [("n", .str text)]
  statusCode := none
  outcome := none

/-- Numbers that are sorted already are left as they are. -/
theorem orderValues_of_sorted {values : List String} (hnumbers : ∀ s ∈ values, isNumber s = true)
    (hsorted : values.Pairwise fun s t => byRank s t = true) : orderValues values = values := by
  have hnone : (values.filter fun s => !isNumber s) = [] :=
    List.filter_eq_nil_iff.mpr fun s hs => by rw [hnumbers s hs]; exact Bool.false_ne_true
  rw [orderValues_eq, List.filter_eq_self.mpr hnumbers, hnone, List.mergeSort_nil, List.append_nil,
    List.mergeSort_of_pairwise hsorted]

/-- Two texts of the number zero are suggested in the order in which they came. -/
theorem zeros_as_noted : [noting "0", noting ""].Perm [noting "", noting "0"] ∧
    (Suggestions.ofEvents [noting "", noting "0"]).valuesAt "n" = ["", "0"] ∧
    (Suggestions.ofEvents [noting "0", noting ""]).valuesAt "n" = ["0", ""] ∧
    ¬ SameFields (Suggestions.ofEvents [noting "", noting "0"]).fields
      (Suggestions.ofEvents [noting "0", noting ""]).fields := by
  have hvalues (s t : String) (htexts : textsAt "n"
      (observe ([noting s, noting t].map EventRow.sighting)) = [s, t])
      (hnumbers : ∀ u ∈ [s, t], isNumber u = true) (hsorted : byRank s t = true) :
      (Suggestions.ofEvents [noting s, noting t]).valuesAt "n" = [s, t] := by
    have hordered : ordered .asSeen [noting s, noting t] "n" = [s, t] := by
      unfold ordered
      rw [htexts]
      exact orderValues_of_sorted hnumbers (List.pairwise_pair.mpr hsorted)
    exact (valuesAt_eq .asSeen _ "n").trans (congrArg (List.take maxValues) hordered)
  have hfirst := hvalues "" "0" (by decide) (by decide +kernel) (by decide +kernel)
  have hsecond := hvalues "0" "" (by decide) (by decide +kernel) (by decide +kernel)
  refine ⟨.swap _ _ [], hfirst, hsecond, fun hsame => ?_⟩
  have hlists : ["", "0"] = ["0", ""] :=
    hfirst.symm.trans ((congrArg (·.getD []) (hsame "n")).trans hsecond)
  exact absurd hlists (by decide)

end Telemetry.Query
