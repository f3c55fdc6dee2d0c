import Telemetry.Proofs.Quota.Coalescing

/-!
# Single lookups

A cache that is asked by one getter at a time, with a lookup that answers at once. Between lookups
nothing is pending, the clock runs on and entries may be evicted. A fresh entry is served as it is;
otherwise the lookup is asked, and its answer is stored and served, or what the entry holds if there
is none.

Main statements: `Idle.getNow_cases`, and `Idle.getNow_of_holds` for a lookup that always has the
same answer.
-/

namespace Telemetry.Quota

variable {ν : Type}

/-- A move with which no getter arrives and no fetch ends. -/
def Move.IsQuiet : Move ν → Prop
  | .get .. | .succeed .. | .fail _ | .timeOut _ | .abort _ => False
  | _ => True

namespace Cache

variable {c : Cache ν} {m : Move ν} {key other : String} {e : Entry ν} {value : ν}

/-! ## Quiet moves -/

theorem Coherent.entry_of_filter (h : Coherent c) {p : String × Entry ν → Bool}
    (he : entry? { c with entries := c.entries.filter p } key = some e) :
    c.entry? key = some e := by
  have hfind : entry? { c with entries := c.entries.filter p } key
      = (c.entry? key).filter fun e => p (key, e) := Assoc.find?_filter h.distinct key p
  rw [hfind] at he
  exact (Option.filter_eq_some_iff.mp he).1

/-- A quiet move writes no entry. It may evict some. -/
theorem Coherent.entry_of_quiet (h : Coherent c) (hm : m.IsQuiet)
    (he : entry? (c.move m).1 key = some e) : c.entry? key = some e := by
  cases m with
  | get | succeed | fail | timeOut | abort => exact hm.elim
  | cancel tag =>
    rw [← he]
    show c.entry? key = entry? (c.cancel tag).1 key
    unfold Cache.cancel
    split <;> rfl
  | tick by_ => exact he
  | wake =>
    change entry? c.wakeSweeper key = some e at he
    unfold Cache.wakeSweeper at he
    split at he
    · split at he
      · exact h.entry_of_filter he
      · exact he
    · exact he
  | invalidate at_ =>
    change entry? (c.invalidate at_) key = some e at he
    unfold Cache.invalidate at he
    split at he
    · split at he
      · exact he
      · exact h.entry_of_filter he
    · exact he
  | sweep => exact h.entry_of_filter he
  | start =>
    rw [← he]
    show c.entry? key = entry? c.start key
    unfold Cache.start
    split <;> rfl
  | close => exact he

theorem fetches_of_quiet (hm : m.IsQuiet) : (c.move m).1.fetches = c.fetches := by
  cases m with
  | get | succeed | fail | timeOut | abort => exact hm.elim
  | cancel tag => exact fetches_cancel c tag
  | tick => rfl
  | wake => exact (samePending_wakeSweeper c).1
  | invalidate at_ => exact (samePending_invalidate c at_).1
  | sweep => rfl
  | start => exact (samePending_start c).1
  | close => rfl

/-! ## Between lookups -/

/-- Nothing is pending. -/
structure Idle (c : Cache ν) : Prop where
  coherent : Coherent c
  quiet : c.fetches = []

/-- Fetches are given time: one that has just been started is not overdue. -/
def Patient (c : Cache ν) : Prop := ∀ key, c.isOverdue ⟨key, c.clock⟩ = false

/-- The entry of a key, if there is one, has a value. -/
def Holds (c : Cache ν) (key : String) (value : ν) : Prop :=
  ∀ e, c.entry? key = some e → e.value = value

theorem Idle.not_pending (h : Idle c) (key : String) : c.isPending key = false := by
  rw [isPending, h.quiet, List.any_nil]

theorem Idle.not_inFlight (h : Idle c) (he : c.entry? key = some e) : e.inFlight = false := by
  refine Bool.eq_false_iff.mpr fun hflight => ?_
  have hpending := (h.coherent.marked key).mpr ⟨e, he, hflight⟩
  rw [h.not_pending] at hpending
  cases hpending

theorem Idle.waiting (h : Idle c) : c.waiting = [] := by
  refine List.eq_nil_iff_forall_not_mem.mpr fun w hw => ?_
  have hpending := h.coherent.waiting w hw
  rw [h.not_pending] at hpending
  cases hpending

theorem idle_empty (default : ν) (ttl sweepInterval : Double) (timeout : Option Double) :
    Idle (empty default ttl sweepInterval timeout) :=
  ⟨coherent_empty default ttl sweepInterval timeout, rfl⟩

theorem Idle.move (h : Idle c) (hm : m.IsQuiet) : Idle (c.move m).1 :=
  ⟨h.coherent.move m, (fetches_of_quiet hm).trans h.quiet⟩

theorem Holds.move (h : Holds c key value) (hc : Coherent c) (hm : m.IsQuiet) :
    Holds (c.move m).1 key value :=
  fun e he => h e (hc.entry_of_quiet hm he)

/-! ## One lookup -/

/-- The cache after a fetch for an entry that has been answered at once. -/
def refreshed (c : Cache ν) (key : String) (e : Entry ν) (answer : Option ν) : Cache ν :=
  ((c.startFetch "" key e).finish key answer).1

theorem entry_startFetch (c : Cache ν) (tag key : String) (e : Entry ν) :
    entry? (c.startFetch tag key e) key = some { e with inFlight := true } :=
  Assoc.find?_put_self key _ c.entries

theorem entry_refreshed (c : Cache ν) (key other : String) (e : Entry ν) (answer : Option ν) :
    entry? (c.refreshed key e answer) other
      = if other = key then some ⟨answer.getD e.value, c.clock, false⟩ else c.entry? other := by
  have hentry : entry? (c.refreshed key e answer) other
      = if other = key then some ⟨answer.getD e.value, c.clock, false⟩
        else entry? (c.startFetch "" key e) other := by
    unfold refreshed
    rw [finish_eq (entry_startFetch c "" key e)]
    exact lookup_put _ _
  rw [hentry]
  split
  · rfl
  · rename_i hne
    exact Assoc.find?_put_of_ne (Ne.symm hne) _ c.entries

theorem clock_refreshed (c : Cache ν) (key : String) (e : Entry ν) (answer : Option ν) :
    (c.refreshed key e answer).clock = c.clock ∧ (c.refreshed key e answer).timeout = c.timeout := by
  unfold refreshed
  rw [finish_eq (entry_startFetch c "" key e)]
  exact ⟨rfl, rfl⟩

theorem Idle.refreshed (h : Idle c) (key : String) (e : Entry ν) (answer : Option ν) :
    Idle (c.refreshed key e answer) := by
  refine ⟨(h.coherent.startFetch (h.not_pending key) "" e).finish key answer, ?_⟩
  unfold Cache.refreshed
  rw [finish_eq (entry_startFetch c "" key e)]
  show (c.fetches ++ [(⟨key, c.clock⟩ : Fetch)]).filter (·.key != key) = []
  rw [h.quiet, List.nil_append]
  simp

theorem Patient.congr {d : Cache ν} (h : Patient c) (hclock : d.clock = c.clock)
    (htimeout : d.timeout = c.timeout) : Patient d := by
  intro key
  have hc := h key
  unfold isOverdue at *
  rw [hclock, htimeout]
  exact hc

/-- A fetch that a single getter starts is answered at once, and the getter is served. -/
theorem Idle.getNow_of_start {σ : Type} (h : Idle c) (hp : Patient c)
    (hget : c.get "" key = (c.startFetch "" key e, [])) (ask : String → σ → Option ν × σ) (s : σ) :
    c.getNow ask key s
      = ((ask key s).1.getD e.value, c.refreshed key e (ask key s).1, (ask key s).2) := by
  have hexpire : (c.startFetch "" key e).expire = (c.startFetch "" key e, []) := by
    have hdue : (c.startFetch "" key e).fetches.filter (c.startFetch "" key e).isOverdue = [] := by
      show (c.fetches ++ [(⟨key, c.clock⟩ : Fetch)]).filter c.isOverdue = []
      rw [h.quiet, List.nil_append, List.filter_cons_of_neg (by rw [hp key]; exact Bool.false_ne_true),
        List.filter_nil]
    unfold expire
    rw [hdue]
    rfl
  have hact : c.act (.get key [""]) = (c.startFetch "" key e, .nothing, []) := by
    unfold act getAll
    simp only [List.foldl_cons, List.foldl_nil, hget, hexpire, List.append_nil]
  have hpending : (c.startFetch "" key e).isPending key = true :=
    isPending_startFetch.mpr (Or.inl rfl)
  have hwaiting : (c.startFetch "" key e).waiting = [⟨"", key⟩] := by
    show c.waiting ++ [⟨"", key⟩] = _
    rw [h.waiting, List.nil_append]
  unfold getNow
  rw [hact]
  dsimp only
  rw [if_pos hpending, Cache.refreshed, finish_eq (entry_startFetch c "" key e)]
  dsimp only
  rw [endingsOf, hwaiting]
  simp

/-- **A single getter is served a fresh entry, or what the lookup answers**, and where that has no
answer, what the entry holds or the default. -/
theorem Idle.getNow_cases {σ : Type} (h : Idle c) (hp : Patient c)
    (ask : String → σ → Option ν × σ) (key : String) (s : σ) :
    (∃ e, c.entry? key = some e ∧ c.getNow ask key s = (e.value, c, s)) ∨
    ∃ e, (c.entry? key = some e ∨ c.entry? key = none ∧ e.value = c.default) ∧
      c.getNow ask key s
        = ((ask key s).1.getD e.value, c.refreshed key e (ask key s).1, (ask key s).2) := by
  cases he : c.entry? key with
  | none =>
    refine Or.inr ⟨⟨c.default, c.clock, false⟩, Or.inr ⟨rfl, rfl⟩, h.getNow_of_start hp ?_ ask s⟩
    unfold get
    rw [he]
  | some e =>
    have hflight : ¬ e.inFlight = true := Bool.eq_false_iff.mp (h.not_inFlight he)
    by_cases hfresh : c.isFresh e = true
    · have hget : c.get "" key = (c, [("", .served e.value)]) := by
        unfold get
        rw [he]
        dsimp only
        rw [if_neg hflight, if_pos hfresh]
      have hact : c.act (.get key [""]) = (c, .nothing, [("", .served e.value)]) := by
        unfold act getAll expire
        simp [hget, h.quiet]
      refine Or.inl ⟨e, rfl, ?_⟩
      unfold getNow
      rw [hact]
      dsimp only
      rw [h.not_pending, if_neg Bool.false_ne_true]
    · refine Or.inr ⟨e, Or.inl rfl, h.getNow_of_start hp ?_ ask s⟩
      unfold get
      rw [he]
      dsimp only
      rw [if_neg hflight, if_neg hfresh]

/-! ## A lookup that always has the same answer -/

section Steady

variable {σ : Type} {ask : String → σ → Option ν × σ} {s : σ}

theorem Idle.getNow_idle (h : Idle c) (hp : Patient c) (ask : String → σ → Option ν × σ)
    (key : String) (s : σ) : Idle (c.getNow ask key s).2.1 ∧ Patient (c.getNow ask key s).2.1 := by
  rcases h.getNow_cases hp ask key s with ⟨e, -, hget⟩ | ⟨e, -, hget⟩
  · rw [hget]
    exact ⟨h, hp⟩
  · rw [hget]
    exact ⟨h.refreshed key e _, hp.congr (clock_refreshed c key e _).1 (clock_refreshed c key e _).2⟩

/-- A getter of a key is served what the lookup always answers, where the cache holds nothing
else. -/
theorem Idle.getNow_of_holds (h : Idle c) (hp : Patient c) (hholds : Holds c key value)
    (hask : (ask key s).1 = some value) :
    (c.getNow ask key s).1 = value ∧ Holds (c.getNow ask key s).2.1 key value := by
  rcases h.getNow_cases hp ask key s with ⟨e, he, hget⟩ | ⟨e, -, hget⟩
  · rw [hget]
    exact ⟨hholds e he, hholds⟩
  · rw [hget, hask]
    refine ⟨rfl, fun found hfound => ?_⟩
    rw [entry_refreshed, if_pos rfl] at hfound
    cases hfound
    rfl

/-- A getter of another key makes no difference. -/
theorem Idle.getNow_holds_of_ne (h : Idle c) (hp : Patient c) (hholds : Holds c other value)
    (hne : other ≠ key) (ask : String → σ → Option ν × σ) (s : σ) :
    Holds (c.getNow ask key s).2.1 other value := by
  rcases h.getNow_cases hp ask key s with ⟨e, -, hget⟩ | ⟨e, -, hget⟩
  · rw [hget]
    exact hholds
  · rw [hget]
    intro found hfound
    rw [entry_refreshed, if_neg hne] at hfound
    exact hholds found hfound

end Steady

end Cache

end Telemetry.Quota
