import Mathlib.Data.List.Nodup
import Telemetry.Proofs.Json.Names
import Telemetry.Proofs.Text.Pieces
import Telemetry.Query.Suggestions

/-!
# Flattened payloads

A payload is flattened to its leaves: the values in it that are no objects, reached through objects
only. Each leaf is listed once, in the order of the text, under the names that lead to it, with dots
between them. If no name holds a dot, the paths tell the leaves apart.

At the top an empty path stands for no path at all. The empty name of a field leads to one just so,
and what stands below such a field loses that name.

Main statement: `leaves_dotted_iff`.
-/

namespace Telemetry.Query

/-! ## Leaves and their places -/

/-- A value below another one: the number of the field that leads to it at each level, the names of
these fields, and the value itself. -/
structure Leaf where
  place : List Nat
  names : List String
  value : Json

/-- A leaf of a field's value, seen from the object with the field. -/
def Leaf.under (i : Nat) (name : String) (leaf : Leaf) : Leaf :=
  ⟨i :: leaf.place, name :: leaf.names, leaf.value⟩

/-- The leaves of a value: itself if it is no object, and else those of its fields' values. -/
inductive LeafOf : Json → Leaf → Prop
  | self {v : Json} (h : v.fields? = none) : LeafOf v ⟨[], [], v⟩
  | field {fields : Json.Object} {i : Nat} {name : String} {v : Json} {leaf : Leaf}
      (hfield : fields[i]? = some (name, v)) (h : LeafOf v leaf) :
      LeafOf (.obj fields) (leaf.under i name)

/-- All leaves of a value, each of them once, in the order in which they stand in it. -/
structure ListsLeaves (v : Json) (listing : List Leaf) : Prop where
  mem_iff : ∀ leaf, leaf ∈ listing ↔ LeafOf v leaf
  order : listing.Pairwise fun a b => a.place < b.place

mutual

/-- The leaves of a value in order. -/
def leafList : Json → List Leaf
  | .obj fields => leafListFrom 0 fields
  | v => [⟨[], [], v⟩]

/-- The leaves of some fields in order, which are numbered from `i` on. -/
def leafListFrom (i : Nat) : List (String × Json) → List Leaf
  | [] => []
  | (name, v) :: rest => (leafList v).map (.under i name) ++ leafListFrom (i + 1) rest

end

variable {v : Json} {fields : Json.Object} {leaf other : Leaf} {path : String} {names : List String}

theorem eq_obj_of_fields? (h : v.fields? = some fields) : v = .obj fields := by
  cases v <;> simp_all [Json.fields?]

theorem leafList_of_scalar (h : v.fields? = none) : leafList v = [⟨[], [], v⟩] := by
  cases v <;> simp_all [Json.fields?, leafList]

theorem mem_leafListFrom_iff {k : Nat} : leaf ∈ leafListFrom k fields ↔
    ∃ i name v inner, fields[i]? = some (name, v) ∧ inner ∈ leafList v ∧
      leaf = inner.under (k + i) name := by
  induction fields generalizing k with
  | nil => simp [leafListFrom]
  | cons field rest ih =>
    obtain ⟨name, v⟩ := field
    rw [leafListFrom, List.mem_append, List.mem_map, ih]
    constructor
    · rintro (⟨inner, hinner, rfl⟩ | ⟨i, other, w, inner, hfield, hinner, rfl⟩)
      · exact ⟨0, name, v, inner, rfl, hinner, rfl⟩
      · exact ⟨i + 1, other, w, inner, hfield, hinner, by rw [Nat.add_right_comm]; rfl⟩
    · rintro ⟨i, other, w, inner, hfield, hinner, rfl⟩
      cases i with
      | zero =>
        cases hfield
        exact .inl ⟨inner, hinner, rfl⟩
      | succ i =>
        exact .inr ⟨i, other, w, inner, hfield, hinner, by rw [Nat.add_right_comm]; rfl⟩

/-- **Every leaf is listed, and nothing else is.** -/
theorem mem_leafList_iff : leaf ∈ leafList v ↔ LeafOf v leaf := by
  constructor
  · intro h
    obtain ⟨place, names, value⟩ := leaf
    -- A place is as long as the way to the leaf, and each level of a value takes one number of it.
    induction place generalizing v names with
    | nil =>
      cases hv : v.fields? with
      | none =>
        rw [leafList_of_scalar hv, List.mem_singleton] at h
        cases h
        exact .self hv
      | some fields =>
        cases eq_obj_of_fields? hv
        obtain ⟨i, name, w, inner, -, -, heq⟩ := mem_leafListFrom_iff.mp h
        cases heq
    | cons i place ih =>
      cases hv : v.fields? with
      | none =>
        rw [leafList_of_scalar hv, List.mem_singleton] at h
        cases h
      | some fields =>
        cases eq_obj_of_fields? hv
        obtain ⟨j, name, w, inner, hfield, hinner, heq⟩ := mem_leafListFrom_iff.mp h
        rw [Nat.zero_add] at heq
        cases heq
        exact .field hfield (ih _ hinner)
  · intro h
    induction h with
    | self h => simp [leafList_of_scalar h]
    | field hfield _ ih => exact mem_leafListFrom_iff.mpr ⟨_, _, _, _, hfield, ih, by simp⟩

mutual

/-- **Leaves are listed in the order of their places.** -/
theorem pairwise_leafList (v : Json) : (leafList v).Pairwise fun a b => a.place < b.place := by
  match v with
  | .obj fields => exact pairwise_leafListFrom 0 fields
  | .null | .bool _ | .int _ | .float _ | .str _ | .arr _ => exact List.pairwise_singleton _ _

theorem pairwise_leafListFrom (i : Nat) (fields : Json.Object) :
    (leafListFrom i fields).Pairwise fun a b => a.place < b.place := by
  match fields with
  | [] => exact .nil
  | (name, v) :: rest =>
    rw [leafListFrom, List.pairwise_append]
    refine ⟨?_, pairwise_leafListFrom (i + 1) rest, ?_⟩
    · rw [List.pairwise_map]
      exact (pairwise_leafList v).imp fun h => List.cons_lt_cons_iff.mpr (.inr ⟨rfl, h⟩)
    · intro a ha b hb
      obtain ⟨first, -, rfl⟩ := List.mem_map.mp ha
      obtain ⟨j, other, w, second, -, -, rfl⟩ := mem_leafListFrom_iff.mp hb
      exact List.cons_lt_cons_iff.mpr (.inl (by omega))

end

theorem listsLeaves_leafList (v : Json) : ListsLeaves v (leafList v) :=
  ⟨fun _ => mem_leafList_iff, pairwise_leafList v⟩

theorem ListsLeaves.nodup {listing : List Leaf} (h : ListsLeaves v listing) : listing.Nodup := by
  refine h.order.imp fun {a b} hlt heq => ?_
  rw [heq] at hlt
  exact List.lt_irrefl _ hlt

/-- At least one name leads to a leaf of an object. -/
theorem LeafOf.names_ne_nil (h : LeafOf (.obj fields) leaf) : leaf.names ≠ [] := by
  cases h with
  | self hv => cases hv
  | field hfield hleaf => exact List.cons_ne_nil _ _

/-- **Where names are distinct, a leaf is known by the names that lead to it.** -/
theorem LeafOf.eq_of_names (hnames : v.NamesDistinct) (h : LeafOf v leaf) (ho : LeafOf v other)
    (heq : leaf.names = other.names) : leaf = other := by
  induction h generalizing other with
  | self hv =>
    cases ho with
    | self _ => rfl
    | field hfield hother => cases hv
  | @field fields i name v leaf hfield _ ih =>
    cases ho with
    | self hv => cases hv
    | @field _ j _ w inner hother hinner =>
      obtain ⟨rfl, hrest⟩ := List.cons.inj heq
      obtain ⟨hdistinct, hvalues⟩ := Json.namesDistinct_obj_iff.mp hnames
      have hi : (fields.map Prod.fst)[i]? = some name := by simp [hfield]
      have hj : (fields.map Prod.fst)[j]? = some name := by simp [hother]
      obtain ⟨hlt, -⟩ := List.getElem?_eq_some_iff.mp hi
      cases (List.getElem?_inj hlt hdistinct).mp (hi.trans hj.symm)
      cases hfield.symm.trans hother
      rw [ih (hvalues _ (List.mem_of_getElem? hfield)) hinner hrest]

/-! ## Paths -/

/-- The path of a leaf below a path: the names that lead to it with dots between them, behind the
path and a dot if there is one. -/
def dottedPath (path : String) (names : List String) : String :=
  if path = "" then Text.joinWith "." names else path ++ "." ++ Text.joinWith "." names

/-- The names of which a path below no path is made: empty ones in front are lost, unless nothing
comes behind them. -/
def keptNames : List String → List String
  | "" :: name :: rest => keptNames (name :: rest)
  | names => names

/-- The names that lead to a leaf begin with an empty one, and others come behind it. -/
def BelowEmptyName (names : List String) : Prop := ∃ name rest, names = "" :: name :: rest

/-- Behind a path every name gets a dot. -/
theorem foldl_childPath_of_ne (hpath : path ≠ "") :
    names.foldl childPath path = Text.joinWith "." (path :: names) := by
  induction names generalizing path with
  | nil => rfl
  | cons name rest ih =>
    have hchild : path ++ "." ++ name ≠ "" := by simp [hpath]
    rw [List.foldl_cons, childPath, if_neg hpath, ih hchild]
    cases rest with
    | nil => rfl
    | cons next rest => simp [Text.joinWith, String.append_assoc]

/-- Behind no path the names are joined but for the empty ones in front. -/
theorem foldl_childPath_empty (hne : names ≠ []) :
    names.foldl childPath "" = Text.joinWith "." (keptNames names) := by
  induction names with
  | nil => exact absurd rfl hne
  | cons name rest ih =>
    rw [List.foldl_cons, childPath, if_pos rfl]
    by_cases hname : name = ""
    · subst hname
      cases rest with
      | nil => rfl
      | cons next more => exact ih (List.cons_ne_nil _ _)
    · rw [foldl_childPath_of_ne hname, keptNames]
      intro next more heq
      exact absurd (List.cons.inj heq).1 hname

/-- The path that a leaf gets: below no path the empty names in front are lost. -/
def shownPath (path : String) (names : List String) : String :=
  dottedPath path (if path = "" then keptNames names else names)

theorem foldl_childPath (hne : names ≠ []) : names.foldl childPath path = shownPath path names := by
  by_cases hpath : path = ""
  · subst hpath
    simp [shownPath, dottedPath, foldl_childPath_empty hne]
  · simp [shownPath, dottedPath, hpath, foldl_childPath_of_ne hpath, Text.joinWith_cons "." path hne]

theorem keptNames_of_not_below (h : ¬ BelowEmptyName names) : keptNames names = names := by
  rw [keptNames]
  intro name rest heq
  exact h ⟨name, rest, heq⟩

theorem length_joinWith_keptNames (names : List String) :
    (Text.joinWith "." (keptNames names)).length ≤ (Text.joinWith "." names).length := by
  fun_induction keptNames names with
  | case1 name rest ih =>
    rw [Text.joinWith_cons "." "" (List.cons_ne_nil name rest)]
    simp only [String.length_append]
    omega
  | case2 names h => exact Nat.le_refl _

/-- **A leaf gets the path of all its names unless they begin with an empty one that is lost.** -/
theorem shownPath_eq_iff :
    shownPath path names = dottedPath path names ↔ ¬ (path = "" ∧ BelowEmptyName names) := by
  constructor
  · rintro h ⟨rfl, name, rest, rfl⟩
    have hle := length_joinWith_keptNames (name :: rest)
    have hlength : (Text.joinWith "." (keptNames (name :: rest))).length
        = (Text.joinWith "." ("" :: name :: rest)).length := by
      simpa [shownPath, dottedPath, keptNames] using congrArg String.length h
    rw [hlength, Text.joinWith_cons "." "" (List.cons_ne_nil name rest)] at hle
    simp only [String.length_append] at hle
    have hdot : ".".length = 1 := by decide
    omega
  · intro h
    by_cases hpath : path = ""
    · simp [shownPath, hpath, keptNames_of_not_below fun hbelow => h ⟨hpath, hbelow⟩]
    · simp [shownPath, hpath]

/-- Names without dots are known by the path that they make. -/
theorem dottedPath_injective {others : List String} (hne : names ≠ []) (hothers : others ≠ [])
    (h : ∀ name ∈ names, '.' ∉ name.toList) (ho : ∀ name ∈ others, '.' ∉ name.toList)
    (heq : dottedPath path names = dottedPath path others) : names = others := by
  refine Text.joinWith_injective hne hothers h ho ?_
  unfold dottedPath at heq
  split at heq
  · exact heq
  · simpa using heq

/-! ## Flattening -/

mutual

theorem leavesOf_eq (path : String) (v : Json) : leavesOf path v
    = (leafList v).map fun leaf => (leaf.names.foldl childPath path, leaf.value) := by
  match v with
  | .obj fields => exact leaves_eq path 0 fields
  | .null | .bool _ | .int _ | .float _ | .str _ | .arr _ => rfl

/-- Leaves are listed in order, with the path that their names make one after the other. -/
theorem leaves_eq (path : String) (i : Nat) (fields : Json.Object) : leaves path fields
    = (leafListFrom i fields).map fun leaf => (leaf.names.foldl childPath path, leaf.value) := by
  match fields with
  | [] => rfl
  | (name, v) :: rest =>
    rw [leaves, leafListFrom, leavesOf_eq (childPath path name) v, leaves_eq path (i + 1) rest]
    simp [Leaf.under]

end

/-- A payload is flattened to its leaves, in order, each with the path that it gets. -/
theorem leaves_shown (path : String) (fields : Json.Object) : leaves path fields
    = (leafList (.obj fields)).map fun leaf => (shownPath path leaf.names, leaf.value) := by
  rw [leaves_eq path 0 fields]
  refine List.map_congr_left fun leaf hleaf => ?_
  rw [foldl_childPath (mem_leafList_iff.mp hleaf).names_ne_nil]

/-- Below no path, an object below the empty name leads to a leaf. -/
def LosesName (path : String) (fields : Json.Object) : Prop :=
  path = "" ∧ ∃ leaf, LeafOf (.obj fields) leaf ∧ BelowEmptyName leaf.names

/-- **A payload is flattened to its leaves, each of them once and in order. Each gets the path of
all the names that lead to it exactly if no empty name is lost**; then, where no name holds a dot,
different leaves have different paths. -/
theorem leaves_dotted_iff (path : String) (fields : Json.Object) :
    ∃ listing, ListsLeaves (.obj fields) listing ∧
      leaves path fields = listing.map (fun leaf => (shownPath path leaf.names, leaf.value)) ∧
      (leaves path fields = listing.map (fun leaf => (dottedPath path leaf.names, leaf.value)) ↔
        ¬ LosesName path fields) ∧
      (¬ LosesName path fields → (Json.obj fields).NamesDistinct →
        (∀ leaf ∈ listing, ∀ name ∈ leaf.names, '.' ∉ name.toList) →
          ((leaves path fields).map Prod.fst).Nodup) := by
  have hlists := listsLeaves_leafList (.obj fields)
  have hshown := leaves_shown path fields
  have hdotted : leaves path fields
      = (leafList (.obj fields)).map (fun leaf => (dottedPath path leaf.names, leaf.value)) ↔
        ¬ LosesName path fields := by
    rw [hshown, List.map_inj_left]
    simp only [Prod.mk.injEq, and_true, shownPath_eq_iff, mem_leafList_iff]
    constructor
    · rintro h ⟨hpath, leaf, hleaf, hbelow⟩
      exact h leaf hleaf ⟨hpath, hbelow⟩
    · rintro h leaf hleaf ⟨hpath, hbelow⟩
      exact h ⟨hpath, leaf, hleaf, hbelow⟩
  refine ⟨leafList (.obj fields), hlists, hshown, hdotted, fun hkept hnames hdots => ?_⟩
  rw [hdotted.mpr hkept, List.map_map]
  refine List.Nodup.map_on ?_ hlists.nodup
  intro a ha b hb heq
  have hleaf := mem_leafList_iff.mp ha
  have hother := mem_leafList_iff.mp hb
  exact hleaf.eq_of_names hnames hother
    (dottedPath_injective hleaf.names_ne_nil hother.names_ne_nil (hdots a ha) (hdots b hb) heq)

/-- A payload with an object, an object without fields, and an object in an array. -/
def receipt : Json.Object :=
  [("shop", .obj [("city", .str "Kyoto"), ("", .int 1), ("tags", .obj [])]),
    ("items", .arr [.obj []])]

theorem leafOf_receipt {leaf : Leaf} (h : LeafOf (.obj receipt) leaf) :
    leaf = ⟨[0, 0], ["shop", "city"], .str "Kyoto"⟩ ∨ leaf = ⟨[0, 1], ["shop", ""], .int 1⟩ ∨
      leaf = ⟨[1], ["items"], .arr [.obj []]⟩ := by
  simpa [receipt, leafList, leafListFrom, Leaf.under] using mem_leafList_iff.mpr h

theorem leaves_dotted_receipt : ¬ LosesName "" receipt ∧ (Json.obj receipt).NamesDistinct ∧
    (∀ leaf, LeafOf (.obj receipt) leaf → ∀ name ∈ leaf.names, '.' ∉ name.toList) ∧
    ((leaves "" receipt).map Prod.fst).Nodup := by
  have hkept : ¬ LosesName "" receipt := by
    rintro ⟨-, leaf, hleaf, name, rest, hnames⟩
    rcases leafOf_receipt hleaf with rfl | rfl | rfl <;> simp at hnames
  have hdistinct : (Json.obj receipt).NamesDistinct := by
    simp [receipt, Json.NamesDistinct, Json.FieldsDistinct, Json.ItemsDistinct]
  have hdots : ∀ leaf, LeafOf (.obj receipt) leaf → ∀ name ∈ leaf.names, '.' ∉ name.toList := by
    intro leaf hleaf
    rcases leafOf_receipt hleaf with rfl | rfl | rfl <;> simp
  obtain ⟨listing, hlists, -, -, hnodup⟩ := leaves_dotted_iff "" receipt
  exact ⟨hkept, hdistinct, hdots, hnodup hkept hdistinct fun leaf hleaf =>
    hdots leaf ((hlists.mem_iff leaf).mp hleaf)⟩

/-- Fields below an empty name, and a field of the same name beside it. -/
def unnamed : Json.Object := [("", .obj [("a", .int 1)]), ("a", .int 2)]

/-- A leaf below the empty name loses it, and so shares its path with another one. -/
theorem leaves_unnamed : (Json.obj unnamed).NamesDistinct ∧
    (∀ leaf, LeafOf (.obj unnamed) leaf → ∀ name ∈ leaf.names, '.' ∉ name.toList) ∧
    LeafOf (.obj unnamed) ⟨[0, 0], ["", "a"], .int 1⟩ ∧ dottedPath "" ["", "a"] = ".a" ∧
    leaves "" unnamed = [("a", .int 1), ("a", .int 2)] := by
  have hleaf : LeafOf (.obj unnamed) ⟨[0, 0], ["", "a"], .int 1⟩ :=
    .field (i := 0) rfl (.field (i := 0) rfl (.self rfl))
  refine ⟨?_, fun leaf h => ?_, hleaf, rfl, rfl⟩
  · simp [unnamed, Json.NamesDistinct, Json.FieldsDistinct]
  · have hmem := mem_leafList_iff.mpr h
    simp only [unnamed, leafList, leafListFrom, Leaf.under, List.map_cons, List.map_nil,
      List.cons_append, List.nil_append, List.mem_cons, List.not_mem_nil, or_false] at hmem
    rcases hmem with rfl | rfl <;> simp

end Telemetry.Query
