import Telemetry.Proofs.Quota.Moves

/-!
# Entries, fetches and getters agree

The invariant of the quota cache: the keys of entries and of pending fetches are distinct, the
entries that are marked as in flight are those of the keys with a pending fetch, and every waiting
getter waits for a key with one. Every move keeps it. An action of the cache is a run of moves, so
every action keeps it too.

Main statements: `Reachable.coherent`, `Reachable.act`.
-/

namespace Telemetry.Quota.Cache

variable {ν : Type} {c d : Cache ν} {m : Move ν} {key : String}

/-! ## The invariant -/

/-- Entries, fetches and getters agree with each other. -/
structure Coherent (c : Cache ν) : Prop where
  distinct : (c.entries.map Prod.fst).Nodup
  single : (c.fetches.map Fetch.key).Nodup
  marked : ∀ key, c.isPending key = true ↔ ∃ e, c.entry? key = some e ∧ e.inFlight = true
  waiting : ∀ w ∈ c.waiting, c.isPending w.key = true

theorem coherent_empty (default : ν) (ttl sweepInterval : Double) (timeout : Option Double) :
    Coherent (empty default ttl sweepInterval timeout) where
  distinct := .nil
  single := .nil
  marked := by simp [empty, isPending, entry?, Assoc.find?]
  waiting := by simp [empty]

theorem isPending_iff : c.isPending key = true ↔ ∃ f ∈ c.fetches, f.key = key := by
  simp [isPending]

theorem isPending_iff_mem : c.isPending key = true ↔ key ∈ c.fetches.map Fetch.key := by
  rw [isPending_iff, List.mem_map]

/-- Moves of the clock and of the sweeper's alarm touch nothing that the invariant is about. -/
theorem Coherent.congr (h : Coherent c) (hentries : d.entries = c.entries)
    (hfetches : d.fetches = c.fetches) (hwaiting : ∀ w ∈ d.waiting, w ∈ c.waiting) :
    Coherent d := by
  have hpending : ∀ key, d.isPending key = c.isPending key := fun key => by
    rw [isPending, hfetches, isPending]
  refine ⟨hentries ▸ h.distinct, hfetches ▸ h.single, fun key => ?_, fun w hw => ?_⟩
  · rw [hpending, h.marked, entry?, entry?, hentries]
  · rw [hpending]
    exact h.waiting w (hwaiting w hw)

/-- An entry that is not in flight may be there or not. -/
theorem Coherent.filter (h : Coherent c) {p : String × Entry ν → Bool}
    (hp : ∀ key e, c.entry? key = some e → e.inFlight = true → p (key, e) = true) :
    Coherent { c with entries := c.entries.filter p } where
  distinct := Assoc.nodup_filter h.distinct p
  single := h.single
  marked := by
    intro key
    have hfind : entry? { c with entries := c.entries.filter p } key
        = (c.entry? key).filter fun e => p (key, e) := Assoc.find?_filter h.distinct key p
    rw [hfind]
    refine (h.marked key).trans ?_
    constructor
    · rintro ⟨e, he, hflight⟩
      refine ⟨e, ?_, hflight⟩
      rw [he, Option.filter_some, if_pos (hp key e he hflight)]
    · rintro ⟨e, he, hflight⟩
      obtain ⟨hsome, -⟩ := Option.filter_eq_some_iff.mp he
      exact ⟨e, hsome, hflight⟩
  waiting := h.waiting

/-- A getter may wait for a pending fetch. -/
theorem Coherent.wait (h : Coherent c) (hkey : c.isPending key = true) (tag : String) :
    Coherent (c.wait tag key) where
  distinct := h.distinct
  single := h.single
  marked := h.marked
  waiting := by
    intro w hw
    rcases List.mem_append.mp hw with hw | hw
    · exact h.waiting w hw
    · rw [List.mem_singleton.mp hw]
      exact hkey

theorem isPending_startFetch {tag other : String} {e : Entry ν} :
    (c.startFetch tag key e).isPending other = true ↔ other = key ∨ c.isPending other = true := by
  rw [isPending_iff_mem, isPending_iff_mem]
  simp [startFetch, or_comm]

theorem lookup_put {other : String} (e : Entry ν) (entries : List (String × Entry ν)) :
    Assoc.find? other (Assoc.put key e entries)
      = if other = key then some e else Assoc.find? other entries := by
  split
  · rename_i hother
    rw [hother, Assoc.find?_put_self]
  · rename_i hother
    exact Assoc.find?_put_of_ne (Ne.symm hother) e entries

/-- A fetch may start for a key that has none pending. -/
theorem Coherent.startFetch (h : Coherent c) (hkey : c.isPending key = false) (tag : String)
    (e : Entry ν) : Coherent (c.startFetch tag key e) where
  distinct := Assoc.nodup_put h.distinct
  single := by
    have hnew : key ∉ c.fetches.map Fetch.key := fun hmem => by
      rw [isPending_iff_mem.mpr hmem] at hkey
      cases hkey
    simp only [Cache.startFetch, List.map_append, List.map_cons, List.map_nil]
    exact List.nodup_append.mpr ⟨h.single, List.pairwise_singleton _ key, by simpa using hnew⟩
  marked := by
    intro other
    have hentry : entry? (c.startFetch tag key e) other = _ :=
      lookup_put { e with inFlight := true } c.entries
    rw [isPending_startFetch, hentry]
    split
    · rename_i hother
      exact ⟨fun _ => ⟨_, rfl, rfl⟩, fun _ => Or.inl hother⟩
    · rename_i hother
      exact ⟨fun hor => (h.marked other).mp (hor.resolve_left hother),
        fun hex => Or.inr ((h.marked other).mpr hex)⟩
  waiting := by
    intro w hw
    rw [isPending_startFetch]
    rcases List.mem_append.mp hw with hw | hw
    · exact Or.inr (h.waiting w hw)
    · exact Or.inl (by rw [List.mem_singleton.mp hw])

theorem isPending_endFetch {other : String} {e : Entry ν} :
    (c.endFetch key e).isPending other = true ↔ other ≠ key ∧ c.isPending other = true := by
  rw [isPending_iff, isPending_iff]
  simp only [endFetch, List.mem_filter, bne_iff_ne, ne_eq]
  constructor
  · rintro ⟨f, ⟨hf, hne⟩, rfl⟩
    exact ⟨hne, f, hf, rfl⟩
  · rintro ⟨hne, f, hf, rfl⟩
    exact ⟨f, ⟨hf, hne⟩, rfl⟩

/-- A fetch may end, whatever its entry becomes, as long as that is no longer marked. -/
theorem Coherent.endFetch (h : Coherent c) {e : Entry ν} (he : e.inFlight = false)
    (key : String) : Coherent (c.endFetch key e) where
  distinct := Assoc.nodup_put h.distinct
  single := h.single.sublist (List.filter_sublist.map Fetch.key)
  marked := by
    intro other
    have hentry : entry? (c.endFetch key e) other = _ := lookup_put e c.entries
    rw [isPending_endFetch, hentry]
    split
    · rename_i hother
      constructor
      · rintro ⟨hne, -⟩
        exact absurd hother hne
      · rintro ⟨e', he', hflight⟩
        rw [← Option.some.inj he', he] at hflight
        cases hflight
    · rename_i hother
      exact ⟨fun hand => (h.marked other).mp hand.2,
        fun hex => ⟨hother, (h.marked other).mpr hex⟩⟩
  waiting := by
    intro w hw
    obtain ⟨hmem, hne⟩ := List.mem_filter.mp hw
    exact isPending_endFetch.mpr ⟨by simpa using hne, h.waiting w hmem⟩

theorem Coherent.finish (h : Coherent c) (key : String) (fetched : Option ν) :
    Coherent (c.finish key fetched).1 := by
  unfold Cache.finish
  split
  · exact h
  · exact h.endFetch rfl key

theorem Coherent.abort (h : Coherent c) (key : String) : Coherent (c.abort key).1 := by
  unfold Cache.abort
  split
  · exact h
  · exact h.endFetch rfl key

theorem Coherent.get (h : Coherent c) (tag key : String) : Coherent (c.get tag key).1 := by
  unfold Cache.get
  split
  · rename_i hnone
    -- A key without an entry has no pending fetch: that fetch would have marked an entry.
    refine h.startFetch (Bool.eq_false_iff.mpr fun hpending => ?_) tag _
    obtain ⟨e, he, -⟩ := (h.marked key).mp hpending
    rw [hnone] at he
    cases he
  · rename_i e he
    split
    · rename_i hflight
      exact h.wait ((h.marked key).mpr ⟨e, he, hflight⟩) tag
    · rename_i hflight
      split
      · exact h
      · refine h.startFetch (Bool.eq_false_iff.mpr fun hpending => ?_) tag e
        obtain ⟨e', he', hflight'⟩ := (h.marked key).mp hpending
        rw [he] at he'
        cases he'
        exact hflight hflight'

theorem Coherent.invalidate (h : Coherent c) (key : String) : Coherent (c.invalidate key) := by
  unfold Cache.invalidate
  split
  · rename_i e he
    split
    · exact h
    · -- The entry that is dropped is not in flight, and no other entry has its key.
      rename_i hflight
      refine h.filter fun other e' he' hflight' => decide_eq_true fun heq => ?_
      subst heq
      rw [he] at he'
      cases he'
      exact hflight hflight'
  · exact h

theorem Coherent.sweep (h : Coherent c) : Coherent c.sweep :=
  h.filter fun key e _ hflight => by simp [isExpired, hflight]

theorem Coherent.wakeSweeper (h : Coherent c) : Coherent c.wakeSweeper := by
  unfold Cache.wakeSweeper
  split
  · split
    · exact h.sweep.congr rfl rfl fun w hw => hw
    · exact h
  · exact h

theorem Coherent.cancel (h : Coherent c) (tag : String) : Coherent (c.cancel tag).1 := by
  unfold Cache.cancel
  split
  · exact h.congr rfl rfl fun w hw => (List.mem_filter.mp hw).1
  · exact h

theorem Coherent.start (h : Coherent c) : Coherent c.start := by
  unfold Cache.start
  split
  · exact h
  · exact h.congr rfl rfl fun w hw => hw

/-- **Every move keeps entries, fetches and getters in agreement.** -/
theorem Coherent.move (h : Coherent c) (m : Move ν) : Coherent (c.move m).1 := by
  cases m with
  | get tag key => exact h.get tag key
  | succeed key value => exact h.finish key (some value)
  | fail key => exact h.finish key none
  | timeOut key => exact h.finish key none
  | abort key => exact h.abort key
  | cancel tag => exact h.cancel tag
  | tick by_ => exact h.congr rfl rfl fun w hw => hw
  | wake => exact h.wakeSweeper
  | invalidate key => exact h.invalidate key
  | sweep => exact h.sweep
  | start => exact h.start
  | close => exact h.congr rfl rfl fun w hw => hw

theorem Reachable.coherent (h : Reachable c) : Coherent c :=
  h.induction coherent_empty fun _ m hc _ => hc.move m

/-! ## Actions are runs -/

/-- One move for each element of a list, where each is possible when its turn comes. -/
theorem run_foldl {α : Type} (f : α → Move ν) {Q : Cache ν → List α → Prop}
    (hQ : ∀ c a as, Q c (a :: as) → c.Can (f a) ∧ Q (c.move (f a)).1 as) (as : List α) :
    ∀ (c : Cache ν) (acc : Endings ν), Q c as →
      ∃ ended, Run c (as.map f) ended (as.foldl (fun (r : Cache ν × Endings ν) a =>
          ((r.1.move (f a)).1, r.2 ++ (r.1.move (f a)).2)) (c, acc)).1 ∧
        (as.foldl (fun (r : Cache ν × Endings ν) a =>
          ((r.1.move (f a)).1, r.2 ++ (r.1.move (f a)).2)) (c, acc)).2 = acc ++ ended := by
  induction as with
  | nil => exact fun c acc _ => ⟨[], .nil c, (List.append_nil acc).symm⟩
  | cons a as ih =>
    intro c acc h
    obtain ⟨hcan, hrest⟩ := hQ c a as h
    obtain ⟨ended, hrun, hended⟩ := ih (c.move (f a)).1 (acc ++ (c.move (f a)).2) hrest
    refine ⟨_, .cons hcan hrun, ?_⟩
    rw [← List.append_assoc]
    exact hended

theorem run_getAll (c : Cache ν) (key : String) (tags : List String) :
    Run c (tags.map fun tag => .get tag key) (c.getAll key tags).2 (c.getAll key tags).1 := by
  obtain ⟨ended, hrun, hended⟩ := run_foldl (fun tag => Move.get tag key)
    (Q := fun _ _ => True) (fun _ _ _ _ => ⟨trivial, trivial⟩) tags c [] trivial
  rw [List.nil_append] at hended
  subst hended
  exact hrun

/-- A fetch that is due stays due while the fetches of other keys end. -/
theorem due_finish {f : Fetch} (hf : f ∈ c.fetches ∧ c.isOverdue f = true) (hkey : f.key ≠ key)
    (fetched : Option ν) :
    f ∈ (c.finish key fetched).1.fetches ∧ (c.finish key fetched).1.isOverdue f = true := by
  unfold finish
  split
  · exact hf
  · exact ⟨List.mem_filter.mpr ⟨hf.1, bne_iff_ne.mpr hkey⟩, hf.2⟩

theorem Coherent.run_expire (h : Coherent c) :
    Run c ((c.fetches.filter c.isOverdue).map fun f => .timeOut f.key) c.expire.2 c.expire.1 := by
  have hdistinct : ((c.fetches.filter c.isOverdue).map Fetch.key).Nodup :=
    h.single.sublist (List.filter_sublist.map Fetch.key)
  obtain ⟨ended, hrun, hended⟩ := run_foldl (fun f : Fetch => Move.timeOut f.key)
    (Q := fun c fs => (fs.map Fetch.key).Nodup ∧ ∀ f ∈ fs, f ∈ c.fetches ∧ c.isOverdue f = true)
    (by
      -- The fetches that are due have different keys, so ending one leaves the others pending.
      intro c f fs hQ
      obtain ⟨hnodup, hdue⟩ := hQ
      obtain ⟨hnew, hnodup⟩ := List.nodup_cons.mp hnodup
      refine ⟨⟨f, (hdue f (.head fs)).1, rfl, (hdue f (.head fs)).2⟩, hnodup, fun g hg => ?_⟩
      exact due_finish (hdue g (.tail f hg))
        (fun heq => hnew (List.mem_map.mpr ⟨g, hg, heq⟩)) none)
    (c.fetches.filter c.isOverdue) c [] ⟨hdistinct, fun f hf => List.mem_filter.mp hf⟩
  rw [List.nil_append] at hended
  subst hended
  exact hrun

theorem Run.coherent {ms : List (Move ν)} {ended : Endings ν} (h : Run c ms ended d)
    (hc : Coherent c) : Coherent d :=
  h.kept (fun _ m hc _ => hc.move m) hc

theorem Coherent.run_advance (h : Coherent c) (by_ : Double) :
    ∃ ms, Run c ms (c.advance by_).2 (c.advance by_).1 := by
  have hwake : Run c [.tick by_, .wake] [] ({ c with clock := c.clock.add by_ }).wakeSweeper :=
    .cons trivial (.single trivial)
  exact ⟨_, hwake.append (hwake.coherent h).run_expire⟩

/-- **An action is a run of moves.** -/
theorem Coherent.run_act (h : Coherent c) (a : Action ν) :
    ∃ ms, Run c ms (c.act a).2.2 (c.act a).1 := by
  have single : ∀ m, c.Can m → ∃ ms, Run c ms (c.move m).2 (c.move m).1 := fun m hm =>
    ⟨[m], .single hm⟩
  -- A fetch that is to end must be pending; otherwise nothing happens.
  have guarded : ∀ key m, (c.isPending key = true → c.Can m) →
      ∃ ms, Run c ms
        (if c.isPending key then ((c.move m).1, Answer.flag true, (c.move m).2)
          else (c, .flag false, [])).2.2
        (if c.isPending key then ((c.move m).1, Answer.flag true, (c.move m).2)
          else (c, .flag false, [])).1 := by
    intro key m hm
    split
    · rename_i hpending
      exact single m (hm hpending)
    · exact ⟨[], .nil c⟩
  cases a with
  | get key tags =>
    have hget := run_getAll c key tags
    exact ⟨_, hget.append (hget.coherent h).run_expire⟩
  | complete key value => exact guarded key (.succeed key value) id
  | fail key => exact guarded key (.fail key) id
  | abort key => exact guarded key (.abort key) id
  | cancel tag => exact single (.cancel tag) trivial
  | advance by_ => exact h.run_advance by_
  | invalidate key => exact single (.invalidate key) trivial
  | sweep => exact single .sweep trivial
  | start => exact single .start trivial
  | close => exact single .close trivial

theorem Reachable.act (h : Reachable c) (a : Action ν) : Reachable (c.act a).1 := by
  obtain ⟨ms, hrun⟩ := h.coherent.run_act a
  exact h.run hrun

end Telemetry.Quota.Cache
