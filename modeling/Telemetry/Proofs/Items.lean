import Telemetry.Error

/-!
# Lists that are read item by item

Reading a list stops at the first item that cannot be read. So it either gives what all items give,
or it fails as that item does, with nothing but readable items in front of it.

Main statements: `mapM_eq_ok_iff`, `mapM_eq_error_iff`, `forall_mem_mapM_iff`.
-/

namespace Telemetry

variable {ε α β : Type} {f : α → Except ε β} {xs : List α}

/-- What is made of a reading is made of what was read. -/
theorem map_eq_ok {x : Except ε α} {g : α → β} {y : β} (h : x.map g = .ok y) :
    ∃ a, x = .ok a ∧ g a = y := by
  cases x with
  | error e => cases h
  | ok a => exact ⟨a, rfl, Except.ok.inj h⟩

/-- What is made of a reading can be had just where the reading can. -/
theorem exists_bind_eq_ok_iff {x : Except ε α} {g : α → β} :
    (∃ b, (x >>= fun a => .ok (g a)) = .ok b) ↔ ∃ a, x = .ok a := by
  constructor
  · rintro ⟨b, h⟩
    obtain ⟨a, ha, -⟩ := bind_eq_ok h
    exact ⟨a, ha⟩
  · rintro ⟨a, rfl⟩
    exact ⟨g a, rfl⟩

/-- A list is read if each of its items is. -/
theorem mapM_eq_ok_iff {ys : List β} : xs.mapM f = .ok ys ↔ xs.map f = ys.map .ok := by
  induction xs generalizing ys with
  | nil => cases ys <;> simp [pure, Except.pure]
  | cons x xs ih =>
    rw [List.mapM_cons]
    constructor
    · intro h
      obtain ⟨y, hy, h⟩ := bind_eq_ok h
      obtain ⟨rest, hrest, h⟩ := bind_eq_ok h
      cases h
      rw [List.map_cons, List.map_cons, hy, ih.mp hrest]
    · intro h
      cases ys with
      | nil => cases h
      | cons y ys =>
        obtain ⟨hy, hrest⟩ := List.cons.inj h
        rw [hy, ih.mpr hrest]
        rfl

theorem mapM_eq_ok_map {g : α → β} (h : ∀ x ∈ xs, f x = .ok (g x)) :
    xs.mapM f = .ok (xs.map g) := by
  rw [mapM_eq_ok_iff, List.map_map]
  exact List.map_congr_left h

/-- A list is not read if one of its items is not, and the first of them says why. -/
theorem mapM_eq_error_iff {e : ε} : xs.mapM f = .error e ↔
    ∃ before x after, xs = before ++ x :: after ∧ (∀ b ∈ before, ∃ y, f b = .ok y) ∧
      f x = .error e := by
  induction xs with
  | nil => simp [pure, Except.pure]
  | cons x xs ih =>
    rw [List.mapM_cons]
    constructor
    · intro h
      cases hx : f x with
      | error other =>
        rw [hx] at h
        cases h
        exact ⟨[], x, xs, rfl, nofun, hx⟩
      | ok y =>
        cases hxs : xs.mapM f with
        | ok ys => rw [hx, hxs] at h; cases h
        | error other =>
          rw [hx, hxs] at h
          cases h
          obtain ⟨before, x', after, rfl, hbefore, hx'⟩ := ih.mp hxs
          exact ⟨x :: before, x', after, rfl, List.forall_mem_cons.mpr ⟨⟨y, hx⟩, hbefore⟩, hx'⟩
    · rintro ⟨before, x', after, hxs, hbefore, hx'⟩
      cases before with
      | nil =>
        cases hxs
        rw [hx']
        rfl
      | cons b before =>
        cases hxs
        obtain ⟨⟨y, hy⟩, hbefore⟩ := List.forall_mem_cons.mp hbefore
        rw [hy, ih.mpr ⟨before, x', after, rfl, hbefore, hx'⟩]
        rfl

/-- A list can be read if each of its items can. -/
theorem exists_mapM_eq_ok_iff : (∃ ys, xs.mapM f = .ok ys) ↔ ∀ x ∈ xs, ∃ y, f x = .ok y := by
  constructor
  · rintro ⟨ys, h⟩ x hx
    have hmem := List.mem_map_of_mem (f := f) hx
    rw [mapM_eq_ok_iff.mp h] at hmem
    obtain ⟨y, -, hy⟩ := List.mem_map.mp hmem
    exact ⟨y, hy.symm⟩
  · intro h
    cases hxs : xs.mapM f with
    | ok ys => exact ⟨ys, rfl⟩
    | error e =>
      obtain ⟨before, x, after, rfl, -, hx⟩ := mapM_eq_error_iff.mp hxs
      obtain ⟨y, hy⟩ := h x (by simp)
      rw [hx] at hy
      cases hy

/-- What holds of all that is read holds of all that it was read from, in the terms of the items. -/
theorem forall_mem_mapM_iff {ys : List β} {P : β → Prop} {Q : α → Prop} (h : xs.mapM f = .ok ys)
    (hitem : ∀ x y, f x = .ok y → (P y ↔ Q x)) : (∀ y ∈ ys, P y) ↔ ∀ x ∈ xs, Q x := by
  have hmap := mapM_eq_ok_iff.mp h
  constructor
  · intro hys x hx
    have hmem := List.mem_map_of_mem (f := f) hx
    rw [hmap] at hmem
    obtain ⟨y, hy, heq⟩ := List.mem_map.mp hmem
    exact (hitem x y heq.symm).mp (hys y hy)
  · intro hxs y hy
    have hmem := List.mem_map_of_mem (f := Except.ok (ε := ε)) hy
    rw [← hmap] at hmem
    obtain ⟨x, hx, heq⟩ := List.mem_map.mp hmem
    exact (hitem x y heq).mpr (hxs x hx)

end Telemetry
