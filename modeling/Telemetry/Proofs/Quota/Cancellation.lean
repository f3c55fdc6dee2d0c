import Telemetry.Proofs.Quota.Moves

/-!
# A cancelled getter leaves no trace

Two caches that differ in the getters of one tag only are moved alike: the same moves are possible,
the same fetches start and end, and every other getter ends in the same way. A cancelled getter is
such a difference, so no run notices it.

Main statement: `Run.unnoticed`.
-/

namespace Telemetry.Quota.Cache

variable {ν : Type} {c c' d : Cache ν} {m : Move ν} {ms : List (Move ν)} {tag : String}
  {ended : Endings ν}

/-! ## Leaving out a getter -/

/-- The cache with the getters of one tag left out. -/
def without (tag : String) (c : Cache ν) : Cache ν :=
  { c with waiting := c.waiting.filter (·.tag != tag) }

/-- What ends besides the getters of one tag. -/
def others (tag : String) (ended : Endings ν) : Endings ν := ended.filter (·.1 != tag)

theorem others_append (tag : String) (ended more : Endings ν) :
    others tag (ended ++ more) = others tag ended ++ others tag more :=
  List.filter_append ended more

theorem lookup_without (tag key : String) (c : Cache ν) :
    entry? (c.without tag) key = c.entry? key := rfl

theorem isFresh_without (tag : String) (e : Entry ν) (c : Cache ν) :
    (c.without tag).isFresh e = c.isFresh e := rfl

theorem wake_without (tag : String) (c : Cache ν) : (c.without tag).wake = c.wake := rfl

theorem clock_without (tag : String) (c : Cache ν) : (c.without tag).clock = c.clock := rfl

@[simp] theorem without_without (tag : String) (c : Cache ν) :
    (c.without tag).without tag = c.without tag := by
  simp [without, List.filter_filter]

theorem cancel_fst (tag : String) (c : Cache ν) : (c.cancel tag).1 = c.without tag := by
  unfold cancel
  split
  · rfl
  · rename_i habsent
    have hkept : c.waiting.filter (·.tag != tag) = c.waiting := by
      refine List.filter_eq_self.mpr fun w hw => ?_
      refine bne_iff_ne.mpr fun heq => habsent ?_
      exact List.any_eq_true.mpr ⟨w, hw, beq_iff_eq.mpr heq⟩
    rw [without, hkept]

theorem cancel_snd (tag : String) (c : Cache ν) : others tag (c.cancel tag).2 = [] := by
  unfold cancel
  split
  · simp [others]
  · rfl

/-! ## Two caches that differ in one getter -/

/-- Two results of a move that differ in the getters of one tag only. -/
structure AlikeBut (tag : String) (r r' : Cache ν × Endings ν) : Prop where
  state : r.1.without tag = r'.1.without tag
  ended : others tag r.2 = others tag r'.2

theorem AlikeBut.symm {r r' : Cache ν × Endings ν} (h : AlikeBut tag r r') : AlikeBut tag r' r :=
  ⟨h.state.symm, h.ended.symm⟩

theorem AlikeBut.trans {r r' r'' : Cache ν × Endings ν} (h : AlikeBut tag r r')
    (k : AlikeBut tag r' r'') : AlikeBut tag r r'' :=
  ⟨h.state.trans k.state, h.ended.trans k.ended⟩

theorem can_without (tag : String) (c : Cache ν) (m : Move ν) :
    (c.without tag).Can m ↔ c.Can m := by
  cases m <;> exact Iff.rfl

theorem without_endFetch (tag key : String) (e : Entry ν) (c : Cache ν) :
    ((c.without tag).endFetch key e).without tag = (c.endFetch key e).without tag := by
  simp [without, endFetch, List.filter_filter, Bool.and_comm]

theorem others_endingsOf (tag key : String) (outcome : Outcome ν) (c : Cache ν) :
    others tag ((c.without tag).endingsOf key outcome) = others tag (c.endingsOf key outcome) := by
  simp [others, without, endingsOf, List.filter_map, List.filter_filter, Function.comp_def,
    Bool.and_comm]

theorem without_wait (tag other key : String) (c : Cache ν) :
    ((c.without tag).wait other key).without tag = (c.wait other key).without tag := by
  simp [without, wait, List.filter_filter]

theorem without_startFetch (tag other key : String) (e : Entry ν) (c : Cache ν) :
    ((c.without tag).startFetch other key e).without tag
      = (c.startFetch other key e).without tag := by
  simp [without, startFetch, List.filter_filter]

theorem alikeBut_get (tag other key : String) (c : Cache ν) :
    AlikeBut tag ((c.without tag).get other key) (c.get other key) := by
  unfold get
  rw [lookup_without]
  split
  · exact ⟨without_startFetch tag other key _ c, rfl⟩
  · rename_i e _
    rw [isFresh_without]
    split
    · exact ⟨without_wait tag other key c, rfl⟩
    · split
      · exact ⟨without_without tag c, rfl⟩
      · exact ⟨without_startFetch tag other key e c, rfl⟩

theorem alikeBut_finish (tag key : String) (fetched : Option ν) (c : Cache ν) :
    AlikeBut tag ((c.without tag).finish key fetched) (c.finish key fetched) := by
  unfold finish
  rw [lookup_without]
  split
  · exact ⟨without_without tag c, rfl⟩
  · exact ⟨without_endFetch tag key _ c, others_endingsOf tag key _ c⟩

theorem alikeBut_abort (tag key : String) (c : Cache ν) :
    AlikeBut tag ((c.without tag).abort key) (c.abort key) := by
  unfold abort
  rw [lookup_without]
  split
  · exact ⟨without_without tag c, rfl⟩
  · exact ⟨without_endFetch tag key _ c, others_endingsOf tag key _ c⟩

theorem without_comm (tag other : String) (c : Cache ν) :
    (c.without tag).without other = (c.without other).without tag := by
  simp [without, List.filter_filter, Bool.and_comm]

theorem others_cancel (tag other : String) (c : Cache ν) :
    others tag ((c.without tag).cancel other).2 = others tag (c.cancel other).2 := by
  -- Cancelling a getter that is left out ends that getter only; any other is there in both caches.
  by_cases htag : other = tag
  · rw [htag, cancel_snd, cancel_snd]
  · have hany : (c.without tag).waiting.any (·.tag == other) = c.waiting.any (·.tag == other) := by
      refine Bool.eq_iff_iff.mpr ?_
      simp only [List.any_eq_true, without, List.mem_filter, bne_iff_ne, beq_iff_eq]
      constructor
      · rintro ⟨w, ⟨hw, -⟩, heq⟩
        exact ⟨w, hw, heq⟩
      · rintro ⟨w, hw, heq⟩
        exact ⟨w, ⟨hw, heq ▸ htag⟩, heq⟩
    unfold cancel
    rw [hany]
    split <;> rfl

theorem alikeBut_cancel (tag other : String) (c : Cache ν) :
    AlikeBut tag ((c.without tag).cancel other) (c.cancel other) where
  state := by rw [cancel_fst, cancel_fst, without_comm tag other, without_without]
  ended := others_cancel tag other c

theorem without_invalidate (tag key : String) (c : Cache ν) :
    (c.without tag).invalidate key = (c.invalidate key).without tag := by
  unfold invalidate
  rw [lookup_without]
  split
  · split <;> rfl
  · rfl

theorem without_wakeSweeper (tag : String) (c : Cache ν) :
    (c.without tag).wakeSweeper = c.wakeSweeper.without tag := by
  unfold wakeSweeper
  rw [wake_without, clock_without]
  split
  · split <;> rfl
  · rfl

theorem without_start (tag : String) (c : Cache ν) :
    (c.without tag).start = c.start.without tag := by
  unfold start
  rw [wake_without]
  split <;> rfl

/-- **A move does not notice whether a getter of one tag waits.** -/
theorem alikeBut_move (tag : String) (c : Cache ν) (m : Move ν) :
    AlikeBut tag ((c.without tag).move m) (c.move m) := by
  -- A move that ends no getter does the same to the rest of the cache.
  have quiet : ∀ (f : Cache ν → Cache ν), f (c.without tag) = (f c).without tag →
      AlikeBut tag (f (c.without tag), []) (f c, []) := fun f hf =>
    ⟨by rw [hf, without_without], rfl⟩
  cases m with
  | get other key => exact alikeBut_get tag other key c
  | succeed key value => exact alikeBut_finish tag key (some value) c
  | fail key => exact alikeBut_finish tag key none c
  | timeOut key => exact alikeBut_finish tag key none c
  | abort key => exact alikeBut_abort tag key c
  | cancel other => exact alikeBut_cancel tag other c
  | tick by_ => exact quiet (fun c => { c with clock := c.clock.add by_ }) rfl
  | wake => exact quiet wakeSweeper (without_wakeSweeper tag c)
  | invalidate key => exact quiet (invalidate · key) (without_invalidate tag key c)
  | sweep => exact quiet sweep rfl
  | start => exact quiet start (without_start tag c)
  | close => exact quiet close rfl

/-! ## Runs -/

/-- Runs of two caches that differ in the getters of one tag go alike. -/
theorem Run.alikeBut (h : Run c ms ended d) (hc : c'.without tag = c.without tag) :
    ∃ ended' d', Run c' ms ended' d' ∧ AlikeBut tag (d', ended') (d, ended) := by
  -- The other cache makes the same moves; what it differs in is carried along.
  induction h generalizing c' with
  | nil c => exact ⟨[], c', .nil c', hc, rfl⟩
  | @cons c d m ms ended hm _ ih =>
    have hmove : AlikeBut tag (c'.move m) (c.move m) := by
      refine (alikeBut_move tag c' m).symm.trans ?_
      rw [hc]
      exact alikeBut_move tag c m
    have hm' : c'.Can m := by rwa [← can_without tag, hc, can_without]
    obtain ⟨ended', d', hrun, halike⟩ := ih hmove.state
    refine ⟨_, d', .cons hm' hrun, halike.state, ?_⟩
    rw [others_append, others_append, hmove.ended, halike.ended]

/-- **No run notices that a getter has been cancelled**: the same moves are possible, what becomes of
the cache is the same, and the other getters end in the same way. -/
theorem Run.unnoticed (tag : String) (h : Run c ms ended d) :
    ∃ ended' d', Run (c.cancel tag).1 ms ended' d' ∧ AlikeBut tag (d', ended') (d, ended) :=
  h.alikeBut (by rw [cancel_fst, without_without])

end Telemetry.Quota.Cache
