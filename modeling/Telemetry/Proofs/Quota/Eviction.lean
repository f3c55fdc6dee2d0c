import Telemetry.Proofs.Number.Elapsed
import Telemetry.Proofs.Quota.Coherence

/-!
# What a sweep takes away

A sweep evicts entries that have been idle for more than twice the time to live. While the clock
does not run back, such an entry would never have been fresh again: the next getter of its key
starts a fetch with it just as without it.

Main statements: `Coherent.move_sweeping`, `staleForGood_of_isExpired`.
-/

namespace Telemetry.Quota

variable {ν : Type}

/-- A move of the sweeper, or one that starts or stops it. -/
def Move.IsSweeping : Move ν → Bool
  | .sweep | .wake | .start | .close => true
  | _ => false

namespace Cache

variable {c d : Cache ν} {m : Move ν} {key : String} {e : Entry ν} {past by_ : Double}

/-! ## A clock that does not run back -/

/-- The clock does not run back in a move. -/
def NotBack (c : Cache ν) : Move ν → Prop
  | .tick by_ => c.clock.le (c.clock.add by_) = true
  | _ => True

/-- The clock does not run back in a sequence of moves. -/
def Forward (c : Cache ν) : List (Move ν) → Prop
  | [] => True
  | m :: ms => c.NotBack m ∧ (c.move m).1.Forward ms

/-- A cache without entries at some reading of its clock. -/
def emptyAt (clock : Double) (default : ν) (ttl sweepInterval : Double) (timeout : Option Double) :
    Cache ν :=
  { empty default ttl sweepInterval timeout with clock := clock }

theorem coherent_emptyAt (clock : Double) (default : ν) (ttl sweepInterval : Double)
    (timeout : Option Double) : Coherent (emptyAt clock default ttl sweepInterval timeout) :=
  (coherent_empty default ttl sweepInterval timeout).congr rfl rfl fun _ hw => hw

/-- A cache at time zero that gives its fetches all the time they take. -/
def unhurried : Cache Nat := emptyAt .zero 0 defaultTtl defaultSweepInterval none

/-! ## Stale entries that stay stale -/

/-- What was fetched at some time is stale, and stays so whatever the clock reads later. -/
structure StaleForGood (c : Cache ν) (past : Double) : Prop where
  clock : c.clock.le c.clock = true
  later : ∀ now, c.clock.le now = true → (now.sub past).lt c.ttl = false

theorem StaleForGood.not_isFresh (h : StaleForGood c e.fetchedAt) : c.isFresh e = false :=
  h.later c.clock h.clock

theorem StaleForGood.congr (h : StaleForGood c past) (hclock : d.clock = c.clock)
    (httl : d.ttl = c.ttl) : StaleForGood d past := by
  refine ⟨hclock ▸ h.clock, ?_⟩
  rw [hclock, httl]
  exact h.later

theorem StaleForGood.tick (h : StaleForGood c past) (hforward : c.NotBack (.tick by_)) :
    StaleForGood (c.move (.tick by_)).1 past where
  clock := (Double.le_self_of_le hforward).2
  later := fun now hnow => h.later now (Double.le_trans hforward hnow)

/-- **What a sweep would evict is stale for good.** -/
theorem staleForGood_of_isExpired (httl : Double.zero.le c.ttl = true)
    (h : c.isExpired e = true) : StaleForGood c e.fetchedAt := by
  have hcut : e.fetchedAt.lt (c.clock.sub ((Double.ofInt 2).mul c.ttl)) = true :=
    (Bool.and_eq_true_iff.mp h).2
  exact ⟨Double.le_self_of_lt_sub hcut, fun now hnow =>
    Double.not_sub_lt_of_lt_cutoff hcut hnow httl⟩

/-! ## Getters -/

theorem get_of_none (he : c.entry? key = none) (tag : String) :
    c.get tag key = (c.startFetch tag key ⟨c.default, c.clock, false⟩, []) := by
  unfold get
  rw [he]

theorem get_of_inFlight (he : c.entry? key = some e) (hflight : e.inFlight = true) (tag : String) :
    c.get tag key = (c.wait tag key, []) := by
  unfold get
  rw [he]
  exact if_pos hflight

theorem get_of_isFresh (he : c.entry? key = some e) (hflight : e.inFlight = false)
    (hfresh : c.isFresh e = true) (tag : String) :
    c.get tag key = (c, [(tag, .served e.value)]) := by
  unfold get
  rw [he]
  dsimp only
  rw [hflight, if_neg Bool.false_ne_true, if_pos hfresh]

theorem get_of_stale (he : c.entry? key = some e) (hflight : e.inFlight = false)
    (hstale : c.isFresh e = false) (tag : String) :
    c.get tag key = (c.startFetch tag key e, []) := by
  unfold get
  rw [he]
  dsimp only
  rw [hflight, if_neg Bool.false_ne_true, hstale, if_neg Bool.false_ne_true]

/-! ## Moves of the sweeper -/

theorem Coherent.entry_sweep (h : Coherent c) (key : String) :
    entry? c.sweep key = (c.entry? key).filter fun e => !c.isExpired e :=
  Assoc.find?_filter h.distinct key _

/-- The entry of a key is as it was, or it was expired and is gone. -/
def Swept (c : Cache ν) (entries : List (String × Entry ν)) (key : String) : Prop :=
  Assoc.find? key entries = c.entry? key ∨
    Assoc.find? key entries = none ∧ ∃ e, c.entry? key = some e ∧ c.isExpired e = true

theorem Coherent.swept_sweep (h : Coherent c) (key : String) : Swept c c.sweep.entries key := by
  have hsweep := h.entry_sweep key
  unfold Swept
  change entry? c.sweep key = _ ∨ entry? c.sweep key = none ∧ _
  rw [hsweep]
  cases he : c.entry? key with
  | none => exact Or.inl rfl
  | some e =>
    by_cases hexpired : c.isExpired e = true
    · refine Or.inr ⟨?_, e, rfl, hexpired⟩
      rw [Option.filter_some, hexpired]
      rfl
    · refine Or.inl ?_
      rw [Option.filter_some, Bool.eq_false_iff.mpr hexpired]
      rfl

/-- **A move of the sweeper changes its alarm and evicts expired entries**, and nothing else. -/
theorem Coherent.move_sweeping (h : Coherent c) (hm : m.IsSweeping = true) :
    ∃ entries wake, c.move m = ({ c with entries := entries, wake := wake }, []) ∧
      ∀ key, Swept c entries key := by
  have hkept : ∀ key, Swept c c.entries key := fun _ => Or.inl rfl
  cases m with
  | sweep => exact ⟨_, _, rfl, h.swept_sweep⟩
  | close => exact ⟨_, _, rfl, hkept⟩
  | start =>
    cases hwake : c.wake with
    | some time =>
      have hrunning : c.start = c := by
        unfold Cache.start
        rw [hwake]
      exact ⟨c.entries, c.wake, congrArg (·, []) hrunning, hkept⟩
    | none =>
      have hstarted : c.start = { c with wake := some (c.clock.add c.sweepInterval) } := by
        unfold Cache.start
        rw [hwake]
      exact ⟨c.entries, _, congrArg (·, []) hstarted, hkept⟩
  | wake =>
    cases hwake : c.wake with
    | some time =>
      by_cases hdue : time.le c.clock = true
      · have hswept : c.wakeSweeper
            = { c.sweep with wake := some (c.clock.add c.sweepInterval) } := by
          simp [Cache.wakeSweeper, hwake, hdue]
        exact ⟨c.sweep.entries, _, congrArg (·, []) hswept, h.swept_sweep⟩
      · have hasleep : c.wakeSweeper = c := by simp [Cache.wakeSweeper, hwake, hdue]
        exact ⟨c.entries, c.wake, congrArg (·, []) hasleep, hkept⟩
    | none =>
      have hstopped : c.wakeSweeper = c := by simp [Cache.wakeSweeper, hwake]
      exact ⟨c.entries, c.wake, congrArg (·, []) hstopped, hkept⟩
  | _ => cases hm

end Cache

end Telemetry.Quota
