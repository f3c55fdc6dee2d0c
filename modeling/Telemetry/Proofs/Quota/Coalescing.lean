import Mathlib.Data.List.Nodup
import Telemetry.Proofs.Quota.Coherence
import Telemetry.Proofs.Quota.Cancellation

/-!
# Getters of one key share one fetch

In every state that the cache can come to, in whatever order things happen: each key has at most one
pending fetch, the entries that are marked as in flight are those of the keys with a pending fetch,
and every waiting getter waits for the fetch of its own key. When that fetch ends, all of them end
with it in the same way. A getter that is cancelled leaves no trace.

Main statement: `coalescing`.
-/

namespace Telemetry.Quota.Cache

variable {ν : Type} {c d : Cache ν} {m : Move ν} {key : String}

/-! ## The end of a fetch -/

/-- The outcome with which a move ends the fetch of a key: the value that was fetched, the value
that the entry has if there is none, or cancellation if the fetch is aborted. -/
inductive EndsWith (c : Cache ν) (key : String) : Move ν → Outcome ν → Prop
  | succeed (value : ν) : EndsWith c key (.succeed key value) (.served value)
  | fail {e : Entry ν} (he : c.entry? key = some e) : EndsWith c key (.fail key) (.served e.value)
  | timeOut {e : Entry ν} (he : c.entry? key = some e) :
    EndsWith c key (.timeOut key) (.served e.value)
  | abort : EndsWith c key (.abort key) .cancelled

/-- A move ends a fetch, and all getters that wait for it, with one outcome. -/
def EndsTogether (c : Cache ν) (m : Move ν) (f : Fetch) : Prop :=
  ∃ outcome, EndsWith c f.key m outcome ∧ (c.move m).2 = c.endingsOf f.key outcome ∧
    (c.move m).1.waiting = c.waiting.filter (·.key != f.key)

theorem finish_eq {e : Entry ν} (he : c.entry? key = some e) (fetched : Option ν) :
    c.finish key fetched = (c.endFetch key ⟨fetched.getD e.value, c.clock, false⟩,
      c.endingsOf key (.served (fetched.getD e.value))) := by
  unfold finish
  rw [he]

theorem abort_eq {e : Entry ν} (he : c.entry? key = some e) :
    c.abort key = (c.endFetch key { e with inFlight := false }, c.endingsOf key .cancelled) := by
  unfold abort
  rw [he]

theorem Coherent.entry (h : Coherent c) (hkey : c.isPending key = true) :
    ∃ e, c.entry? key = some e := by
  obtain ⟨e, he, -⟩ := (h.marked key).mp hkey
  exact ⟨e, he⟩

theorem isPending_of_can_timeOut (h : c.Can (.timeOut key)) : c.isPending key = true := by
  obtain ⟨f, hf, hkey, -⟩ := h
  exact isPending_iff.mpr ⟨f, hf, hkey⟩

theorem key_of_gone {f : Fetch} {e : Entry ν} (hf : f ∈ c.fetches)
    (hgone : f ∉ (c.endFetch key e).fetches) : f.key = key :=
  Decidable.byContradiction fun hne => hgone (List.mem_filter.mpr ⟨hf, by simpa using hne⟩)

/-- A getter that arrives ends no fetch and takes no other getter away. -/
theorem kept_get (c : Cache ν) (tag key : String) :
    (∀ f ∈ c.fetches, f ∈ (c.get tag key).1.fetches) ∧
    ∀ w ∈ c.waiting, w ∈ (c.get tag key).1.waiting := by
  unfold get
  split
  · exact ⟨fun f hf => List.mem_append_left _ hf, fun w hw => List.mem_append_left _ hw⟩
  · split
    · exact ⟨fun f hf => hf, fun w hw => List.mem_append_left _ hw⟩
    · split
      · exact ⟨fun f hf => hf, fun w hw => hw⟩
      · exact ⟨fun f hf => List.mem_append_left _ hf, fun w hw => List.mem_append_left _ hw⟩

/-- No fetch starts or ends, and no getter comes or goes. -/
def SamePending (c d : Cache ν) : Prop := d.fetches = c.fetches ∧ d.waiting = c.waiting

theorem samePending_invalidate (c : Cache ν) (key : String) : SamePending c (c.invalidate key) := by
  unfold invalidate
  split
  · split <;> exact ⟨rfl, rfl⟩
  · exact ⟨rfl, rfl⟩

theorem samePending_wakeSweeper (c : Cache ν) : SamePending c c.wakeSweeper := by
  unfold wakeSweeper
  split
  · split <;> exact ⟨rfl, rfl⟩
  · exact ⟨rfl, rfl⟩

theorem samePending_start (c : Cache ν) : SamePending c c.start := by
  unfold start
  split <;> exact ⟨rfl, rfl⟩

theorem fetches_cancel (c : Cache ν) (tag : String) : (c.cancel tag).1.fetches = c.fetches := by
  unfold cancel
  split <;> rfl

/-- A move that ends the fetch of a key ends the only fetch that it takes away together with all
getters that wait for it. -/
theorem endsTogether_of_endFetch {f : Fetch} {e : Entry ν} {outcome : Outcome ν}
    (hmove : c.move m = (c.endFetch key e, c.endingsOf key outcome))
    (hends : EndsWith c key m outcome) (hf : f ∈ c.fetches) (hgone : f ∉ (c.move m).1.fetches) :
    EndsTogether c m f := by
  rw [hmove] at hgone
  obtain rfl : f.key = key := key_of_gone hf hgone
  refine ⟨outcome, hends, ?_, ?_⟩
  · rw [hmove]
  · rw [hmove]
    rfl

/-- **When a fetch ends, all getters that wait for it end with it, in the same way.** -/
theorem Coherent.endsTogether (h : Coherent c) (hm : c.Can m) {f : Fetch} (hf : f ∈ c.fetches)
    (hgone : f ∉ (c.move m).1.fetches) : EndsTogether c m f := by
  -- Only the four ways to end a fetch take one away, and each takes the fetch of its own key.
  cases m with
  | get tag key => exact absurd ((kept_get c tag key).1 f hf) hgone
  | succeed key value =>
    obtain ⟨e, he⟩ := h.entry hm
    exact endsTogether_of_endFetch (finish_eq he (some value)) (.succeed value) hf hgone
  | fail key =>
    obtain ⟨e, he⟩ := h.entry hm
    exact endsTogether_of_endFetch (finish_eq he none) (.fail he) hf hgone
  | timeOut key =>
    obtain ⟨e, he⟩ := h.entry (isPending_of_can_timeOut hm)
    exact endsTogether_of_endFetch (finish_eq he none) (.timeOut he) hf hgone
  | abort key =>
    obtain ⟨e, he⟩ := h.entry hm
    exact endsTogether_of_endFetch (abort_eq he) .abort hf hgone
  | cancel tag => exact absurd ((fetches_cancel c tag).symm ▸ hf) hgone
  | tick by_ => exact absurd hf hgone
  | wake => exact absurd ((samePending_wakeSweeper c).1.symm ▸ hf) hgone
  | invalidate key => exact absurd ((samePending_invalidate c key).1.symm ▸ hf) hgone
  | sweep => exact absurd hf hgone
  | start => exact absurd ((samePending_start c).1.symm ▸ hf) hgone
  | close => exact absurd hf hgone

/-- A getter waits on in a state, or its fetch has ended there. -/
def WaitsOrEnded (c d : Cache ν) (w : Waiter) : Prop :=
  w ∈ d.waiting ∨ ∀ f ∈ c.fetches, f.key = w.key → f ∉ d.fetches

theorem waitsOrEnded_endFetch {w : Waiter} (hw : w ∈ c.waiting) (key : String) (e : Entry ν) :
    WaitsOrEnded c (c.endFetch key e) w := by
  by_cases hkey : w.key = key
  · refine Or.inr fun f _ hf hmem => ?_
    have hne := (List.mem_filter.mp hmem).2
    rw [hf, hkey] at hne
    simp at hne
  · exact Or.inl (List.mem_filter.mpr ⟨hw, bne_iff_ne.mpr hkey⟩)

theorem waitsOrEnded_finish {w : Waiter} (hw : w ∈ c.waiting) (key : String) (fetched : Option ν) :
    WaitsOrEnded c (c.finish key fetched).1 w := by
  unfold finish
  split
  · exact Or.inl hw
  · exact waitsOrEnded_endFetch hw key _

theorem waitsOrEnded_abort {w : Waiter} (hw : w ∈ c.waiting) (key : String) :
    WaitsOrEnded c (c.abort key).1 w := by
  unfold abort
  split
  · exact Or.inl hw
  · exact waitsOrEnded_endFetch hw key _

/-- **A getter that waits goes on waiting**, unless it is cancelled or its fetch ends. -/
theorem stays (c : Cache ν) (m : Move ν) {w : Waiter} (hw : w ∈ c.waiting) :
    w ∈ (c.move m).1.waiting ∨ m = .cancel w.tag ∨
      ∀ f ∈ c.fetches, f.key = w.key → f ∉ (c.move m).1.fetches := by
  cases m with
  | get tag key => exact Or.inl ((kept_get c tag key).2 w hw)
  | succeed key value => exact (waitsOrEnded_finish hw key (some value)).imp_right Or.inr
  | fail key => exact (waitsOrEnded_finish hw key none).imp_right Or.inr
  | timeOut key => exact (waitsOrEnded_finish hw key none).imp_right Or.inr
  | abort key => exact (waitsOrEnded_abort hw key).imp_right Or.inr
  | cancel tag =>
    by_cases htag : w.tag = tag
    · exact Or.inr (Or.inl (by rw [htag]))
    · refine Or.inl ?_
      show w ∈ (c.cancel tag).1.waiting
      rw [cancel_fst]
      exact List.mem_filter.mpr ⟨hw, bne_iff_ne.mpr htag⟩
  | tick by_ => exact Or.inl hw
  | wake => exact Or.inl ((samePending_wakeSweeper c).2.symm ▸ hw)
  | invalidate key => exact Or.inl ((samePending_invalidate c key).2.symm ▸ hw)
  | sweep => exact Or.inl hw
  | start => exact Or.inl ((samePending_start c).2.symm ▸ hw)
  | close => exact Or.inl hw

/-! ## The main statement -/

/-- Getters of one key share one fetch, and it ends for all of them alike. -/
structure Coalescing (c : Cache ν) : Prop where
  /-- No two pending fetches have the same key. -/
  one : (c.fetches.map Fetch.key).Nodup
  /-- An entry is marked as in flight exactly when its key has a pending fetch. -/
  marked : ∀ key e, c.entry? key = some e → (e.inFlight = true ↔ ∃ f ∈ c.fetches, f.key = key)
  /-- The entry of a pending fetch is there. -/
  present : ∀ f ∈ c.fetches, ∃ e, c.entry? f.key = some e
  /-- A getter that waits has a pending fetch of its own key, and only one. -/
  waits : ∀ w ∈ c.waiting, ∃ f ∈ c.fetches, f.key = w.key ∧ ∀ g ∈ c.fetches, g.key = w.key → g = f
  /-- It waits until it is cancelled or that fetch ends. -/
  stays : ∀ m, c.Can m → ∀ w ∈ c.waiting, w ∈ (c.move m).1.waiting ∨ m = .cancel w.tag ∨
    ∃ f ∈ c.fetches, f.key = w.key ∧ f ∉ (c.move m).1.fetches
  /-- When a fetch ends, all getters that wait for it end with it, in the same way. -/
  together : ∀ m, c.Can m → ∀ f ∈ c.fetches, f ∉ (c.move m).1.fetches → EndsTogether c m f
  /-- A cancelled getter changes no fetch and no entry, now or later, and the end of no other. -/
  unnoticed : ∀ tag, (c.cancel tag).1.entries = c.entries ∧ (c.cancel tag).1.fetches = c.fetches ∧
    ∀ ms ended d, Run c ms ended d →
      ∃ ended' d', Run (c.cancel tag).1 ms ended' d' ∧ AlikeBut tag (d', ended') (d, ended)

theorem Coherent.unique (h : Coherent c) {f g : Fetch} (hf : f ∈ c.fetches) (hg : g ∈ c.fetches)
    (hkey : g.key = f.key) : g = f :=
  List.inj_on_of_nodup_map h.single hg hf hkey

theorem Coherent.shares (h : Coherent c) : Coalescing c where
  one := h.single
  marked := by
    intro key e he
    rw [← isPending_iff, h.marked]
    constructor
    · exact fun hflight => ⟨e, he, hflight⟩
    · rintro ⟨e', he', hflight⟩
      rw [he] at he'
      exact Option.some.inj he' ▸ hflight
  present := fun f hf => h.entry (isPending_iff.mpr ⟨f, hf, rfl⟩)
  waits := by
    intro w hw
    obtain ⟨f, hf, hkey⟩ := isPending_iff.mp (h.waiting w hw)
    exact ⟨f, hf, hkey, fun g hg hgkey => h.unique hf hg (hgkey.trans hkey.symm)⟩
  stays := by
    intro m _ w hw
    obtain ⟨f, hf, hkey⟩ := isPending_iff.mp (h.waiting w hw)
    rcases c.stays m hw with hstays | hcancel | hends
    · exact Or.inl hstays
    · exact Or.inr (Or.inl hcancel)
    · exact Or.inr (Or.inr ⟨f, hf, hkey, hends f hf hkey⟩)
  together := fun m hm f hf hgone => h.endsTogether hm hf hgone
  unnoticed := fun tag =>
    ⟨by rw [cancel_fst]; rfl, fetches_cancel c tag, fun _ _ _ hrun => hrun.unnoticed tag⟩

/-- **In every reachable state the getters of one key share one fetch.** -/
theorem coalescing (h : Reachable c) : Coalescing c := h.coherent.shares

/-- Two getters of one key wait, and one fetch is pending. -/
def shared : Cache Nat := (((empty 0 (.ofInt 300) (.ofInt 600) none).get "a" "k").1.get "b" "k").1

theorem reachable_shared : Reachable shared :=
  ⟨0, .ofInt 300, .ofInt 600, none, [.get "a" "k", .get "b" "k"], _,
    .cons trivial (.single trivial)⟩

/-- Of two getters that share a fetch, the one that is not cancelled is served what is fetched. -/
theorem coalescing_shared : shared.fetches.length = 1 ∧ shared.waiting = [⟨"a", "k"⟩, ⟨"b", "k"⟩] ∧
    Reachable shared ∧ Coalescing shared ∧
    ((shared.cancel "a").1.move (.succeed "k" 7)).2 = [("b", .served 7)] :=
  ⟨rfl, rfl, reachable_shared, coalescing reachable_shared, by decide⟩

end Telemetry.Quota.Cache
