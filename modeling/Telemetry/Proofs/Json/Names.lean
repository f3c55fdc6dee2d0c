import Telemetry.Json.Encoding

/-!
# Distinct names

A text may name a field of an object twice, but what is read has each name once: the later value
stands in the place of the earlier one. This holds for the objects inside a value too.

Main statement: `namesDistinct_of_parseBytes`.
-/

namespace Telemetry

namespace Assoc

variable {κ ν : Type} [DecidableEq κ] {P : ν → Prop}

theorem forall_put {key : κ} {value : ν} {table : List (κ × ν)} (hvalue : P value)
    (h : ∀ entry ∈ table, P entry.2) : ∀ entry ∈ put key value table, P entry.2 := by
  induction table with
  | nil => exact List.forall_mem_singleton.mpr hvalue
  | cons entry rest ih =>
    obtain ⟨k, v⟩ := entry
    obtain ⟨hv, hrest⟩ := List.forall_mem_cons.mp h
    rw [put]
    split
    · exact List.forall_mem_cons.mpr ⟨hvalue, hrest⟩
    · exact List.forall_mem_cons.mpr ⟨hv, ih hrest⟩

/-- A table that was put together of entries has distinct keys, and its values are theirs. -/
theorem ofList_table {entries : List (κ × ν)} (h : ∀ entry ∈ entries, P entry.2) :
    ((ofList entries).map Prod.fst).Nodup ∧ ∀ entry ∈ ofList entries, P entry.2 := by
  -- The entries are written one by one, so the table they are written into is left general.
  have hmerge : ∀ table : List (κ × ν), (table.map Prod.fst).Nodup →
      (∀ entry ∈ table, P entry.2) →
      ((merge table entries).map Prod.fst).Nodup ∧ ∀ entry ∈ merge table entries, P entry.2 := by
    unfold merge
    induction entries with
    | nil => exact fun _ hkeys hvalues => ⟨hkeys, hvalues⟩
    | cons entry rest ih =>
      intro table hkeys hvalues
      obtain ⟨hv, hrest⟩ := List.forall_mem_cons.mp h
      exact ih hrest _ (nodup_put hkeys) (forall_put hv hvalues)
  exact hmerge [] List.nodup_nil nofun

theorem of_find? {key : κ} {value : ν} {table : List (κ × ν)} (h : ∀ entry ∈ table, P entry.2)
    (hfind : find? key table = some value) : P value := by
  induction table with
  | nil => cases hfind
  | cons entry rest ih =>
    obtain ⟨k, v⟩ := entry
    obtain ⟨hv, hrest⟩ := List.forall_mem_cons.mp h
    rw [find?] at hfind
    split at hfind
    · cases hfind
      exact hv
    · exact ih hrest hfind

end Assoc

namespace Json

/-! ## Names inside values -/

mutual

/-- The fields of every object inside a value have distinct names. -/
def NamesDistinct : Json → Prop
  | .arr items => ItemsDistinct items
  | .obj fields => (fields.map Prod.fst).Nodup ∧ FieldsDistinct fields
  | _ => True

/-- The fields of every object inside some values have distinct names. -/
def ItemsDistinct : List Json → Prop
  | [] => True
  | v :: rest => v.NamesDistinct ∧ ItemsDistinct rest

/-- The fields of every object inside the values of some fields have distinct names. -/
def FieldsDistinct : List (String × Json) → Prop
  | [] => True
  | (_, v) :: rest => v.NamesDistinct ∧ FieldsDistinct rest

end

theorem itemsDistinct_iff {vs : List Json} :
    ItemsDistinct vs ↔ ∀ v ∈ vs, v.NamesDistinct := by
  induction vs with
  | nil => simp [ItemsDistinct]
  | cons v rest ih => rw [ItemsDistinct, List.forall_mem_cons, ih]

theorem fieldsDistinct_iff {fields : Object} :
    FieldsDistinct fields ↔ ∀ f ∈ fields, f.2.NamesDistinct := by
  induction fields with
  | nil => simp [FieldsDistinct]
  | cons f rest ih =>
    obtain ⟨name, v⟩ := f
    rw [FieldsDistinct, List.forall_mem_cons, ih]

theorem namesDistinct_obj_iff {fields : Object} : (Json.obj fields).NamesDistinct ↔
    (fields.map Prod.fst).Nodup ∧ ∀ f ∈ fields, f.2.NamesDistinct := by
  rw [NamesDistinct, fieldsDistinct_iff]

/-! ## What is read -/

section Parts

variable {P : Json → Prop} {parse : List Char → Reading Json} {fuel : Nat}
  {cs rest : List Char}

/-- Every value that is read has a property. -/
def Yields (P : Json → Prop) (parse : List Char → Reading Json) : Prop :=
  ∀ {cs rest : List Char} {v : Json}, parse cs = .ok (v, rest) → P v

theorem items_yields (hparse : Yields P parse) {vs : List Json}
    (h : items parse fuel cs = .ok (vs, rest)) : ∀ v ∈ vs, P v := by
  induction fuel generalizing cs rest vs with
  | zero => cases h
  | succ fuel ih =>
    rw [items] at h
    split at h
    · cases h
    rename_i v after hv
    split at h
    · cases h
      exact List.forall_mem_singleton.mpr (hparse hv)
    · split at h
      · cases h
      rename_i more left hmore
      cases h
      exact List.forall_mem_cons.mpr ⟨hparse hv, ih hmore⟩
    · cases h

theorem members_yields (hparse : Yields P parse) {fields : Object}
    (h : members parse fuel cs = .ok (fields, rest)) : ∀ f ∈ fields, P f.2 := by
  induction fuel generalizing cs rest fields with
  | zero => cases h
  | succ fuel ih =>
    rw [members] at h
    split at h
    · cases h
    split at h
    · cases h
    rename_i v after hv
    split at h
    · cases h
      exact List.forall_mem_singleton.mpr (hparse hv)
    · split at h
      · cases h
      rename_i more left hmore
      cases h
      exact List.forall_mem_cons.mpr ⟨hparse hv, ih hmore⟩
    · cases h

end Parts

theorem magnitude_yields (negative : Bool) (left : Nat) {cs rest : List Char} {v : Json}
    (h : magnitude negative left cs = .ok (v, rest)) : v.NamesDistinct := by
  unfold magnitude at h
  split at h
  · cases h
  · dsimp only at h
    split at h
    · split at h <;> cases h
      trivial
    · cases h
      trivial

theorem scalar_yields : Yields NamesDistinct scalar := by
  intro cs rest v h
  unfold scalar at h
  repeat' split at h
  all_goals try
    cases h
    trivial
  -- The words are settled; a number is what is left.
  unfold number at h
  split at h <;> exact magnitude_yields _ _ h

/-- What is read has distinct names at every depth; the induction is on the depth that is left. -/
theorem value_yields (depth : Nat) : Yields NamesDistinct (value depth) := by
  induction depth with
  | zero => exact fun h => nomatch h
  | succ depth ih =>
    intro cs rest v h
    unfold value at h
    split at h
    · split at h
      · cases h
      · cases h
        trivial
    · split at h
      · cases h
        trivial
      · split at h
        · cases h
        rename_i vs left hvs
        cases h
        exact itemsDistinct_iff.mpr (items_yields ih hvs)
    · split at h
      · cases h
        exact ⟨List.nodup_nil, trivial⟩
      · split at h
        · cases h
        rename_i fields left hfields
        cases h
        exact namesDistinct_obj_iff.mpr (Assoc.ofList_table (members_yields ih hfields))
    · exact scalar_yields h

/-- **Bytes are read as values with distinct names.** -/
theorem namesDistinct_of_parseBytes {raw : List UInt8} {v : Json} (h : parseBytes raw = .ok v) :
    v.NamesDistinct := by
  unfold parseBytes at h
  split at h
  · cases h
  · rename_i cs hcs
    unfold parseChars at h
    split at h
    · cases h
    · rename_i found rest hread
      split at h
      · cases h
        exact value_yields maxDepth hread
      · cases h

end Json

end Telemetry
