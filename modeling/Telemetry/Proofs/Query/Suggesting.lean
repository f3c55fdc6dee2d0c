import Mathlib.Data.Set.Card
import Telemetry.Proofs.Query.Observing

/-!
# What is suggested

A list of suggestions is the beginning of all the texts of a path in the order of ranks, and the
list of event types the beginning of all types in the order in which they appear first. The words
for status codes are texts like any other: they rank behind all numbers, so a sample with many codes
has no room for them.

Main statements: `suggests`, `category_listed_iff`.
-/

namespace Telemetry.Query

/-! ## First appearances -/

/-- The distinct texts of a list in the order in which they appear first. -/
structure FirstAppearances (l distinct : List String) : Prop where
  nodup : distinct.Nodup
  mem_iff : ∀ s, s ∈ distinct ↔ s ∈ l
  ordered : distinct.Pairwise fun s t => l.idxOf s < l.idxOf t

/-- What comes first among some items of a list comes first in the list. -/
theorem idxOf_lt_of_filter {p : String → Bool} {s t : String} (hs : p s = true) (ht : p t = true)
    {l : List String} (h : (l.filter p).idxOf s < (l.filter p).idxOf t) : l.idxOf s < l.idxOf t := by
  induction l with
  | nil => exact absurd h (Nat.lt_irrefl 0)
  | cons a rest ih =>
    rw [List.idxOf_cons, List.idxOf_cons]
    by_cases ha : p a = true
    · rw [List.filter_cons_of_pos ha, List.idxOf_cons, List.idxOf_cons] at h
      grind
    · have hne (u : String) (hu : p u = true) : (a == u) = false :=
        beq_eq_false_iff_ne.mpr fun heq => ha (heq ▸ hu)
      rw [List.filter_cons_of_neg ha] at h
      rw [hne s hs, hne t ht]
      exact Nat.succ_lt_succ (ih h)

theorem firstAppearances_eraseDups (l : List String) : FirstAppearances l l.eraseDups := by
  match l with
  | [] => exact ⟨List.nodup_nil, fun _ => Iff.rfl, .nil⟩
  | a :: rest =>
    obtain ⟨hnodup, hmem, hordered⟩ := firstAppearances_eraseDups (rest.filter fun b => !b == a)
    have hother (s : String) (hs : s ∈ (rest.filter fun b => !b == a).eraseDups) :
        (!s == a) = true := (List.mem_filter.mp ((hmem s).mp hs)).2
    refine ⟨?_, fun s => List.mem_eraseDups, ?_⟩
    · rw [List.eraseDups_cons]
      exact List.nodup_cons.mpr ⟨fun ha => by simpa using hother a ha, hnodup⟩
    · rw [List.eraseDups_cons]
      refine List.pairwise_cons.mpr ⟨fun t ht => ?_, ?_⟩
      · have hne := hother t ht
        grind
      · refine hordered.imp_of_mem fun {s t} hs ht hlt => ?_
        have hrest := idxOf_lt_of_filter (hother s hs) (hother t ht) hlt
        have hsa := hother s hs
        have hta := hother t ht
        grind
termination_by l.length
decreasing_by exact Nat.lt_succ_of_le (List.length_filter_le _ _)

/-! ## Lists of suggestions -/

/-- A list shows some texts: no more than can be suggested, the first ones in the order of ranks. -/
structure Lists (offered : Set String) (listed : List String) : Prop where
  finite : offered.Finite
  nodup : listed.Nodup
  sound : ∀ s ∈ listed, s ∈ offered
  length : listed.length = min maxValues offered.ncard
  ordered : listed.Pairwise fun s t => rank s ≤ rank t
  leftOut : ∀ s ∈ offered, s ∉ listed → ∀ t ∈ listed, rank t ≤ rank s

/-- All the texts of a path in the order of ranks. -/
structure Ranked (offered : Set String) (l : List String) : Prop where
  nodup : l.Nodup
  mem_iff : ∀ s, s ∈ l ↔ s ∈ offered
  sorted : l.Pairwise fun s t => rank s ≤ rank t

section Ranked

variable {offered : Set String} {l : List String}

theorem ncard_eq_length (hnodup : l.Nodup) (hmem : ∀ s, s ∈ l ↔ s ∈ offered) :
    offered.Finite ∧ offered.ncard = l.length := by
  have hset : offered = ↑l.toFinset := Set.ext fun s => by simp [← hmem s]
  rw [hset, Set.ncard_coe_finset, List.toFinset_card_of_nodup hnodup]
  exact ⟨l.toFinset.finite_toSet, rfl⟩

/-- The beginning of the texts in order is a list of suggestions. -/
theorem Ranked.lists_take (h : Ranked offered l) : Lists offered (l.take maxValues) where
  finite := (ncard_eq_length h.nodup h.mem_iff).1
  nodup := h.nodup.sublist (List.take_sublist _ _)
  sound s hs := (h.mem_iff s).mp (List.mem_of_mem_take hs)
  length := by rw [List.length_take, (ncard_eq_length h.nodup h.mem_iff).2]
  ordered := h.sorted.sublist (List.take_sublist _ _)
  leftOut s hs hnot t ht := by
    have hmem : s ∈ l := (h.mem_iff s).mpr hs
    have hsorted := h.sorted
    rw [← List.take_append_drop maxValues l] at hmem hsorted
    exact (List.pairwise_append.mp hsorted).2.2 t ht s ((List.mem_append.mp hmem).resolve_left hnot)

end Ranked

/-! ## Suggestions of a sample -/

/-- The suggestions at a path. -/
def Suggestions.valuesAt (path : String) (s : Suggestions) : List String :=
  (Assoc.find? path s.fields).getD []

/-- How many of the texts that may be suggested at a path rank below a text. -/
noncomputable def placeOf (events : List EventRow) (path text : String) : Nat :=
  {s | Offered events path s ∧ rank s < rank text}.ncard

variable {events : List EventRow} {a : Arrangement} {path text word : String}

/-- The texts of a path in the order in which they are suggested. -/
def ordered (a : Arrangement) (events : List EventRow) (path : String) : List String :=
  orderValues (a.arrange path (textsAt path (observe (events.map EventRow.sighting))))

theorem ordered_perm (a : Arrangement) (events : List EventRow) (path : String) :
    (ordered a events path).Perm (textsAt path (observe (events.map EventRow.sighting))) :=
  (orderValues_perm _).trans (a.perm path _)

theorem ranked_ordered (a : Arrangement) (events : List EventRow) (path : String) :
    Ranked {s | Offered events path s} (ordered a events path) where
  nodup := (ordered_perm a events path).nodup_iff.mpr ((tidy_observe _).texts path)
  mem_iff s := (ordered_perm a events path).mem_iff.trans (mem_observe_iff events path s)
  sorted := pairwise_orderValues _

theorem find?_fields (a : Arrangement) (events : List EventRow) (path : String) :
    Assoc.find? path (Suggestions.arranged a (events.map EventRow.sighting)).fields
      = (Assoc.find? path (observe (events.map EventRow.sighting))).map fun texts =>
        (orderValues (a.arrange path texts)).take maxValues :=
  Assoc.find?_map (fun path texts => (orderValues (a.arrange path texts)).take maxValues) path _

/-- What is suggested at a path is the beginning of its texts in order. -/
theorem valuesAt_eq (a : Arrangement) (events : List EventRow) (path : String) :
    (Suggestions.arranged a (events.map EventRow.sighting)).valuesAt path
      = (ordered a events path).take maxValues := by
  rw [Suggestions.valuesAt, find?_fields]
  cases hfind : Assoc.find? path (observe (events.map EventRow.sighting)) with
  | some texts => rw [ordered, textsAt, hfind, Option.map_some, Option.getD_some, Option.getD_some]
  | none =>
    have hempty : (ordered a events path).Perm [] := by
      have hperm := ordered_perm a events path
      rwa [textsAt, hfind, Option.getD_none] at hperm
    rw [hempty.eq_nil]
    rfl

theorem keys_fields (a : Arrangement) (events : List EventRow) :
    (Suggestions.arranged a (events.map EventRow.sighting)).fields.map Prod.fst
      = (observe (events.map EventRow.sighting)).map Prod.fst := by
  rw [Suggestions.arranged, List.map_map]
  rfl

/-- A path of the table is one at which something may be suggested. -/
theorem mem_keys_observe (events : List EventRow) (path : String) :
    path ∈ (observe (events.map EventRow.sighting)).map Prod.fst ↔ ∃ s, Offered events path s := by
  have htidy := tidy_observe (events.map EventRow.sighting)
  constructor
  · intro hpath
    obtain ⟨⟨other, texts⟩, hentry, rfl⟩ := List.mem_map.mp hpath
    have hfind := (Assoc.find?_eq_some_iff htidy.paths).mpr hentry
    obtain ⟨s, hs⟩ := List.exists_mem_of_ne_nil _ (htidy.present _ _ hfind)
    refine ⟨s, (mem_observe_iff events _ s).mp ?_⟩
    rwa [textsAt, hfind, Option.getD_some]
  · rintro ⟨s, hs⟩
    by_contra hnot
    have hmem := (mem_observe_iff events path s).mpr hs
    rw [textsAt, Assoc.find?_eq_none hnot] at hmem
    cases hmem

/-- What a sample is reduced to: a list of suggestions at just the paths that have any text, and the
first event types. -/
structure Suggests (events : List EventRow) (s : Suggestions) : Prop where
  paths : (s.fields.map Prod.fst).Nodup
  complete : ∀ path, path ∈ s.fields.map Prod.fst ↔ ∃ text, Offered events path text
  values : ∀ path listed, (path, listed) ∈ s.fields → Lists {text | Offered events path text} listed
  types : ∃ distinct,
    FirstAppearances ((events.map EventRow.eventType).filter (· ≠ "")) distinct ∧
      s.eventTypes = distinct.take maxEventTypes

/-- **Suggestions are sound, complete and bounded**, in whatever order the texts of a path are gone
through. -/
theorem suggests (a : Arrangement) (events : List EventRow) :
    Suggests events (Suggestions.arranged a (events.map EventRow.sighting)) where
  paths := by
    rw [keys_fields]
    exact (tidy_observe _).paths
  complete path := by rw [keys_fields, mem_keys_observe]
  values path listed hentry := by
    have hpaths : ((Suggestions.arranged a (events.map EventRow.sighting)).fields.map
        Prod.fst).Nodup := by
      rw [keys_fields]
      exact (tidy_observe _).paths
    have hvalues :
        (Suggestions.arranged a (events.map EventRow.sighting)).valuesAt path = listed := by
      rw [Suggestions.valuesAt, (Assoc.find?_eq_some_iff hpaths).mpr hentry, Option.getD_some]
    rw [← hvalues, valuesAt_eq]
    exact (ranked_ordered a events path).lists_take
  types := by
    refine ⟨_, firstAppearances_eraseDups _, ?_⟩
    rw [Suggestions.arranged, List.map_map]
    rfl

/-! ## Words for status codes -/

theorem placeOf_eq {l : List String} (hnodup : l.Nodup)
    (hmem : ∀ s, s ∈ l ↔ Offered events path s) (text : String) :
    placeOf events path text = countBelow rank (rank text) l := by
  unfold placeOf countBelow
  rw [List.countP_eq_length_filter]
  exact (ncard_eq_length (hnodup.filter _) fun s => by simp [hmem]).2

theorem placeOf_ordered (a : Arrangement) (events : List EventRow) (path text : String) :
    placeOf events path text = countBelow rank (rank text) (ordered a events path) :=
  placeOf_eq (ranked_ordered a events path).nodup (ranked_ordered a events path).mem_iff text

/-- A text that is no number is suggested if few enough texts rank below it. -/
theorem mem_valuesAt_iff (htext : Offered events path text) (hplain : unitsOf? text = none)
    (a : Arrangement) :
    text ∈ (Suggestions.arranged a (events.map EventRow.sighting)).valuesAt path ↔
      placeOf events path text < maxValues := by
  have hranked := ranked_ordered a events path
  rw [valuesAt_eq, placeOf_ordered a]
  exact mem_take_iff_of_own hranked.sorted hranked.nodup ((hranked.mem_iff text).mpr htext)
    fun s _ hs => eq_of_rank_eq hplain hs

theorem Category.plain {IsCode : String → Prop} (h : Category IsCode word) :
    unitsOf? word = none := by
  cases h <;> decide +kernel

/-- **The word for what a status code means is suggested just if fewer texts than can be suggested
rank below it.** -/
theorem category_listed_iff (h : Category (SeenText events statusPath) word) (a : Arrangement) :
    word ∈ (Suggestions.arranged a (events.map EventRow.sighting)).valuesAt statusPath ↔
      placeOf events statusPath word < maxValues :=
  mem_valuesAt_iff (.category h) h.plain a

/-- An event of which nothing but its status code is known. -/
def coded (code : Int) : EventRow where
  id := ""
  timestamp := default
  eventType := ""
  payload := []
  statusCode := some code
  outcome := none

theorem seenText_coded {code : Int} (hmem : coded code ∈ events) (hsome : code ≠ 0)
    (hshort : (Text.integer code).length ≤ maxValueLength) :
    SeenText events statusPath (Text.integer code) :=
  ⟨.int code, .status hmem rfl hsome, rfl, hshort⟩

theorem isFrom_of_units {n m : Int} (hunits : unitsOf? text = some (m * Double.unitsPerOne))
    (h : n ≤ m) : IsFrom n text :=
  ⟨_, hunits, Int.mul_le_mul_of_nonneg_right h (Int.natCast_nonneg _)⟩

theorem category_listed_iff_twoCodes :
    Category (SeenText [coded 200, coded 500] statusPath) "error" ∧
      ("error" ∈ (Suggestions.ofEvents [coded 200, coded 500]).valuesAt statusPath ↔
        placeOf [coded 200, coded 500] statusPath "error" < maxValues) := by
  have hseen : SeenText [coded 200, coded 500] statusPath (Text.integer 500) :=
    seenText_coded (.tail _ (.head _)) (by decide) (by decide)
  have hword : Category (SeenText [coded 200, coded 500] statusPath) "error" :=
    .error hseen (isFrom_of_units (m := 500) (by decide +kernel) (by decide))
  exact ⟨hword, category_listed_iff hword .asSeen⟩

/-- As many events as values can be suggested, with different status codes from 400 on. -/
def failures : List EventRow := (List.range maxValues).map fun k : Nat => coded (400 + k)

/-- A sample with many status codes of errors does not show the word for them. -/
theorem failures_unnamed : Category (SeenText failures statusPath) "error" ∧
    "error" ∉ (Suggestions.ofEvents failures).valuesAt statusPath := by
  have hfirst : 0 ∈ List.range maxValues := by decide
  have hmem : coded 400 ∈ failures := List.mem_map.mpr ⟨0, hfirst, rfl⟩
  have hword : Category (SeenText failures statusPath) "error" :=
    .error (seenText_coded hmem (by decide) (by decide))
      (isFrom_of_units (m := 400) (by decide +kernel) (by decide))
  have hplace : placeOf failures statusPath "error" = maxValues := by
    rw [placeOf_eq ((tidy_observe _).texts statusPath) (mem_observe_iff failures statusPath)]
    decide +kernel
  refine ⟨hword, fun hlisted => ?_⟩
  have hlt := (mem_valuesAt_iff (.category hword) hword.plain .asSeen).mp hlisted
  exact absurd hplace (Nat.ne_of_lt hlt)

end Telemetry.Query
