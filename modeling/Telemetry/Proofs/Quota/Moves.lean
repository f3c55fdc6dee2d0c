import Telemetry.Quota.Cache

/-!
# Moves of the quota cache

The smallest things that can happen to the cache, one at a time: a getter arrives, a pending fetch
ends in one of four ways, a getter is cancelled, the clock runs on, the sweeper wakes, a key is
invalidated, a sweep, a start, a stop. A run is any sequence of moves that are possible where they
are made, so it stands for any order in which getters, answers, cancellations and clock movements
can interleave.

Main statement: what every move keeps holds in every reachable state (`Cache.Reachable.induction`).
-/

namespace Telemetry.Quota

variable {ν : Type}

/-- A smallest thing that can happen to the cache. -/
inductive Move (ν : Type)
  | get (tag key : String)
  | succeed (key : String) (value : ν)
  | fail (key : String)
  | timeOut (key : String)
  | abort (key : String)
  | cancel (tag : String)
  | tick (by_ : Double)
  | wake
  | invalidate (key : String)
  | sweep
  | start
  | close

namespace Cache

/-- Whether a move is possible: only a pending fetch can end, and it times out when it is due. -/
def Can (c : Cache ν) : Move ν → Prop
  | .succeed key _ | .fail key | .abort key => c.isPending key = true
  | .timeOut key => ∃ f ∈ c.fetches, f.key = key ∧ c.isOverdue f = true
  | _ => True

/-- The cache after a move, and the getters that end with it. -/
def move (c : Cache ν) : Move ν → Cache ν × Endings ν
  | .get tag key => c.get tag key
  | .succeed key value => c.finish key (some value)
  | .fail key | .timeOut key => c.finish key none
  | .abort key => c.abort key
  | .cancel tag => c.cancel tag
  | .tick by_ => ({ c with clock := c.clock.add by_ }, [])
  | .wake => (c.wakeSweeper, [])
  | .invalidate key => (c.invalidate key, [])
  | .sweep => (c.sweep, [])
  | .start => (c.start, [])
  | .close => (c.close, [])

/-- A sequence of moves, each of them possible where it is made, with the getters that end. -/
inductive Run : Cache ν → List (Move ν) → Endings ν → Cache ν → Prop
  | nil (c : Cache ν) : Run c [] [] c
  | cons {c d : Cache ν} {m : Move ν} {ms : List (Move ν)} {ended : Endings ν} (hm : c.Can m)
    (hrest : Run (c.move m).1 ms ended d) : Run c (m :: ms) ((c.move m).2 ++ ended) d

/-- A state that some run leads to from an empty cache. -/
def Reachable (c : Cache ν) : Prop :=
  ∃ default ttl sweepInterval timeout ms ended,
    Run (empty default ttl sweepInterval timeout) ms ended c

variable {c d e : Cache ν} {m : Move ν} {ms ns : List (Move ν)} {ended more : Endings ν}

theorem Run.single (hm : c.Can m) : Run c [m] (c.move m).2 (c.move m).1 := by
  have h := Run.cons hm (.nil (c.move m).1)
  rwa [List.append_nil] at h

theorem Run.append (h : Run c ms ended d) (k : Run d ns more e) :
    Run c (ms ++ ns) (ended ++ more) e := by
  induction h with
  | nil c => exact k
  | cons hm _ ih =>
    rw [List.cons_append, List.append_assoc]
    exact .cons hm (ih k)

theorem Reachable.run (h : Reachable c) (k : Run c ms ended d) : Reachable d := by
  obtain ⟨default, ttl, sweepInterval, timeout, ns, more, hrun⟩ := h
  exact ⟨default, ttl, sweepInterval, timeout, _, _, hrun.append k⟩

/-- What every move keeps, a run keeps. -/
theorem Run.kept {P : Cache ν → Prop} (hmove : ∀ c m, P c → c.Can m → P (c.move m).1)
    (h : Run c ms ended d) (hc : P c) : P d := by
  induction h with
  | nil c => exact hc
  | cons hm _ ih => exact ih (hmove _ _ hc hm)

/-- What holds of empty caches and is kept by every move holds in every reachable state. -/
theorem Reachable.induction {P : Cache ν → Prop}
    (hempty : ∀ default ttl sweepInterval timeout, P (empty default ttl sweepInterval timeout))
    (hmove : ∀ c m, P c → c.Can m → P (c.move m).1) (h : Reachable c) : P c := by
  obtain ⟨default, ttl, sweepInterval, timeout, ms, ended, hrun⟩ := h
  exact hrun.kept hmove (hempty default ttl sweepInterval timeout)

end Cache

end Telemetry.Quota
