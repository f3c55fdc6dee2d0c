/-!
# Tables in insertion order

A table is a list of keys with their values in which the order is part of the meaning: a new key
goes to the end, and writing a present key changes its value where it stands.
-/

namespace Telemetry.Assoc

variable {κ ν : Type} [DecidableEq κ]

/-- The value at a key. -/
def find? (key : κ) : List (κ × ν) → Option ν
  | [] => none
  | (k, v) :: rest => if k = key then some v else find? key rest

/-- Writes a value at a key. -/
def put (key : κ) (value : ν) : List (κ × ν) → List (κ × ν)
  | [] => [(key, value)]
  | (k, v) :: rest => if k = key then (k, value) :: rest else (k, v) :: put key value rest

/-- Removes a key. -/
def erase (key : κ) (table : List (κ × ν)) : List (κ × ν) :=
  table.filter (fun entry => entry.1 ≠ key)

/-- Writes every entry of the second table into the first, in order. -/
def merge (table more : List (κ × ν)) : List (κ × ν) :=
  more.foldl (fun t (k, v) => put k v t) table

/-- The table with the entries of a list written in order. -/
def ofList (entries : List (κ × ν)) : List (κ × ν) :=
  merge [] entries

@[simp] theorem find?_put_self (key : κ) (value : ν) (table : List (κ × ν)) :
    find? key (put key value table) = some value := by
  induction table with
  | nil => simp [put, find?]
  | cons entry rest ih =>
    obtain ⟨k, v⟩ := entry
    by_cases h : k = key <;> simp [put, find?, h, ih]

theorem find?_put_of_ne {key other : κ} (h : key ≠ other) (value : ν) (table : List (κ × ν)) :
    find? other (put key value table) = find? other table := by
  induction table with
  | nil => simp [put, find?, h]
  | cons entry rest ih =>
    obtain ⟨k, v⟩ := entry
    by_cases hk : k = key
    · subst hk
      simp [put, find?, h]
    · by_cases ho : k = other
      · subst ho
        simp [put, find?, hk]
      · simp [put, find?, hk, ho, ih]

/-- The second of two writes at a key wins. -/
theorem put_put (key : κ) (first value : ν) (table : List (κ × ν)) :
    put key value (put key first table) = put key value table := by
  induction table with
  | nil => simp [put]
  | cons entry rest ih =>
    obtain ⟨k, v⟩ := entry
    by_cases hk : k = key <;> simp [put, hk, ih]

theorem find?_eq_none {key : κ} {table : List (κ × ν)} (h : key ∉ table.map Prod.fst) :
    find? key table = none := by
  induction table with
  | nil => rfl
  | cons entry rest ih =>
    obtain ⟨k, v⟩ := entry
    rw [List.map_cons, List.mem_cons, not_or] at h
    rw [find?, if_neg (Ne.symm h.1)]
    exact ih h.2

/-- Where keys are distinct, what is found at a key is what stands there. -/
theorem find?_eq_some_iff {key : κ} {value : ν} {table : List (κ × ν)}
    (h : (table.map Prod.fst).Nodup) : find? key table = some value ↔ (key, value) ∈ table := by
  induction table with
  | nil => simp [find?]
  | cons entry rest ih =>
    obtain ⟨k, v⟩ := entry
    rw [List.map_cons, List.nodup_cons] at h
    rw [find?, List.mem_cons, Prod.mk.injEq]
    split
    · rename_i hk
      subst hk
      have hrest : (k, value) ∉ rest := fun hmem => h.1 (List.mem_map.mpr ⟨_, hmem, rfl⟩)
      simp [hrest, eq_comm]
    · rename_i hk
      simp [Ne.symm hk, ih h.2]

/-- Changing every value, each by its key, changes what is found. -/
theorem find?_map {μ : Type} (f : κ → ν → μ) (key : κ) (table : List (κ × ν)) :
    find? key (table.map fun (k, v) => (k, f k v)) = (find? key table).map (f key) := by
  induction table with
  | nil => rfl
  | cons entry rest ih =>
    obtain ⟨k, v⟩ := entry
    rw [List.map_cons, find?, find?, ih]
    split
    · rename_i hk
      rw [hk, Option.map_some]
    · rfl

/-- An entry that has been removed is not found. -/
@[simp] theorem find?_erase_self (key : κ) (table : List (κ × ν)) :
    find? key (erase key table) = none :=
  find?_eq_none fun hmem => by simp [erase] at hmem

theorem find?_erase_of_ne {key other : κ} (h : key ≠ other) (table : List (κ × ν)) :
    find? other (erase key table) = find? other table := by
  induction table with
  | nil => rfl
  | cons entry rest ih =>
    obtain ⟨k, v⟩ := entry
    unfold erase at ih ⊢
    by_cases hk : k = key
    · subst hk
      rw [List.filter_cons_of_neg (by simp), ih, find?, if_neg h]
    · rw [List.filter_cons_of_pos (by simp [hk]), find?, find?, ih]

theorem mem_keys_put {key other : κ} {value : ν} {table : List (κ × ν)} :
    other ∈ (put key value table).map Prod.fst ↔ other = key ∨ other ∈ table.map Prod.fst := by
  induction table with
  | nil => simp [put]
  | cons entry rest ih =>
    obtain ⟨k, v⟩ := entry
    rw [put]
    split
    · rename_i hk
      subst hk
      simp
    · rw [List.map_cons, List.mem_cons, ih, List.map_cons, List.mem_cons]
      exact or_left_comm

theorem nodup_put {key : κ} {value : ν} {table : List (κ × ν)} (h : (table.map Prod.fst).Nodup) :
    ((put key value table).map Prod.fst).Nodup := by
  induction table with
  | nil => simp [put]
  | cons entry rest ih =>
    obtain ⟨k, v⟩ := entry
    rw [List.map_cons, List.nodup_cons] at h
    rw [put]
    split
    · rw [List.map_cons, List.nodup_cons]
      exact h
    · rename_i hk
      rw [List.map_cons, List.nodup_cons, mem_keys_put, not_or]
      exact ⟨⟨hk, h.1⟩, ih h.2⟩

theorem put_of_not_mem {key : κ} {table : List (κ × ν)} (h : key ∉ table.map Prod.fst) (value : ν) :
    put key value table = table ++ [(key, value)] := by
  induction table with
  | nil => rfl
  | cons entry rest ih =>
    obtain ⟨k, v⟩ := entry
    rw [List.map_cons, List.mem_cons, not_or] at h
    rw [put, if_neg (Ne.symm h.1), ih h.2, List.cons_append]

theorem merge_of_nodup {table more : List (κ × ν)} (h : ((table ++ more).map Prod.fst).Nodup) :
    merge table more = table ++ more := by
  unfold merge
  induction more generalizing table with
  | nil => exact (List.append_nil table).symm
  | cons entry rest ih =>
    obtain ⟨k, v⟩ := entry
    have hnew : k ∉ table.map Prod.fst := by
      intro hmem
      rw [List.map_append, List.nodup_append] at h
      exact h.2.2 k hmem k List.mem_cons_self rfl
    rw [List.foldl_cons]
    dsimp only
    rw [put_of_not_mem hnew, ih, List.append_assoc, List.singleton_append]
    rwa [List.append_assoc, List.singleton_append]

/-- Entries with distinct keys are a table already. -/
theorem ofList_of_nodup {entries : List (κ × ν)} (h : (entries.map Prod.fst).Nodup) :
    ofList entries = entries :=
  merge_of_nodup h

omit [DecidableEq κ] in
theorem nodup_filter {table : List (κ × ν)} (h : (table.map Prod.fst).Nodup) (p : κ × ν → Bool) :
    ((table.filter p).map Prod.fst).Nodup :=
  h.sublist (List.filter_sublist.map Prod.fst)

theorem find?_filter {table : List (κ × ν)} (h : (table.map Prod.fst).Nodup) (key : κ)
    (p : κ × ν → Bool) :
    find? key (table.filter p) = (find? key table).filter fun v => p (key, v) := by
  induction table with
  | nil => rfl
  | cons entry rest ih =>
    obtain ⟨k, v⟩ := entry
    rw [List.map_cons, List.nodup_cons] at h
    have hrest := ih h.2
    by_cases hk : k = key
    · subst hk
      have hnone : find? k rest = none := find?_eq_none h.1
      rw [find?, if_pos rfl]
      by_cases hp : p (k, v) = true
      · rw [List.filter_cons_of_pos hp, find?, if_pos rfl, Option.filter_some, if_pos hp]
      · rw [List.filter_cons_of_neg hp, hrest, hnone, Option.filter_some, if_neg hp,
          Option.filter_none]
    · rw [find?, if_neg hk, ← hrest]
      by_cases hp : p (k, v) = true
      · rw [List.filter_cons_of_pos hp, find?, if_neg hk]
      · rw [List.filter_cons_of_neg hp]

end Telemetry.Assoc
