import Telemetry.Proofs.Number.Rounding
import Telemetry.Proofs.Quota.Coherence

/-!
# Values that are served without a fetch

Which attempts to fetch stand behind a value that a getter is served at once. An entry carries the
time of its last attempt that has completed, but it is made, and stamped with the time, before there
has been any. A fetch that is aborted leaves that first time as it is, so the default can pass for
a value that has just been fetched.

Main statement: `served_recent_iff`.
-/

namespace Telemetry.Quota.Cache

variable {ν : Type} {c d : Cache ν} {key : String} {e : Entry ν}

/-! ## What a run has done -/

/-- What can befall a key: its entry is made, an attempt to fetch it completes, or one is
aborted. -/
inductive Event
  | made
  | attempted
  | aborted
deriving DecidableEq

/-- What befell a key, and when. -/
structure Record where
  event : Event
  key : String
  time : Double
deriving DecidableEq

/-- What a move adds to the history. An attempt completes if it succeeds, fails or times out. -/
def recordOf (c : Cache ν) : Move ν → List Record
  | .get _ key => if (c.entry? key).isNone then [⟨.made, key, c.clock⟩] else []
  | .succeed key _ | .fail key | .timeOut key => [⟨.attempted, key, c.clock⟩]
  | .abort key => [⟨.aborted, key, c.clock⟩]
  | _ => []

/-- The history of a sequence of moves. -/
def history (c : Cache ν) : List (Move ν) → List Record
  | [] => []
  | m :: ms => c.recordOf m ++ (c.move m).1.history ms

/-- A time is less than the time to live ago: the exact difference is below it. Where the clock, the
time or the time to live is not finite, the rounded difference decides. -/
def Recent (c : Cache ν) (time : Double) : Prop :=
  match c.clock.units?, time.units?, c.ttl.units? with
  | some now, some past, some ttl => now - past < ttl
  | _, _, _ => (c.clock.sub time).lt c.ttl = true

theorem recent_of_isFresh (h : c.isFresh e = true) : c.Recent e.fetchedAt := by
  unfold Recent
  split
  · rename_i hnow hpast httl
    exact Double.exact_of_sub_lt h _ _ _ hnow hpast httl
  · exact h

/-! ## What an entry tells of the history -/

/-- The history of a key, cut where its entry was made: before it, the time, and after it. -/
structure CutAt (h before after : List Record) (key : String) (time : Double) : Prop where
  eq : h = before ++ ⟨.made, key, time⟩ :: after
  last : ∀ r ∈ after, r.event = .made → r.key ≠ key

/-- An entry that has not been fetched since it was made: it holds the default and the time at which
it was made, and if nothing is pending, its fetch has been aborted. -/
structure Unfetched (default : ν) (after : List Record) (key : String) (time : Double)
    (e : Entry ν) : Prop where
  none : ∀ r ∈ after, r.event = .attempted → r.key ≠ key
  value : e.value = default
  stamp : e.fetchedAt = time
  aborted : e.inFlight = false → ∃ r ∈ after, r.event = .aborted ∧ r.key = key

/-- What the entry of a key tells of the history: when it was made, and that it either has not been
fetched since, or carries the time of an attempt. -/
def Told (default : ν) (h : List Record) (key : String) (e : Entry ν) : Prop :=
  ∃ before after time, CutAt h before after key time ∧
    (Unfetched default after key time e ∨ ⟨.attempted, key, e.fetchedAt⟩ ∈ after)

theorem CutAt.append {h before after more : List Record} {time : Double}
    (hcut : CutAt h before after key time) (hmore : ∀ r ∈ more, r.event = .made → r.key ≠ key) :
    CutAt (h ++ more) before (after ++ more) key time where
  eq := by rw [hcut.eq, List.append_assoc, List.cons_append]
  last := by
    intro r hr
    rcases List.mem_append.mp hr with hr | hr
    · exact hcut.last r hr
    · exact hmore r hr

/-- What befalls other keys makes no difference to an entry. -/
theorem Told.append {default : ν} {h more : List Record} (ht : Told default h key e)
    (hmore : ∀ r ∈ more, r.key ≠ key) : Told default (h ++ more) key e := by
  obtain ⟨before, after, time, hcut, hkind⟩ := ht
  refine ⟨before, after ++ more, time, hcut.append fun r hr _ => hmore r hr, ?_⟩
  rcases hkind with hunfetched | hattempted
  · refine Or.inl ⟨fun r hr => ?_, hunfetched.value, hunfetched.stamp, fun hflight => ?_⟩
    · rcases List.mem_append.mp hr with hr | hr
      · exact hunfetched.none r hr
      · exact fun _ => hmore r hr
    · obtain ⟨r, hr, haborted⟩ := hunfetched.aborted hflight
      exact ⟨r, List.mem_append_left more hr, haborted⟩
  · exact Or.inr (List.mem_append_left more hattempted)

/-- An entry that is made is stamped with the time, and its fetch is pending. -/
theorem told_made (default : ν) (h : List Record) (key : String) (time : Double) :
    Told default (h ++ [⟨.made, key, time⟩]) key ⟨default, time, true⟩ := by
  refine ⟨h, [], time, ⟨rfl, fun r hr => absurd hr List.not_mem_nil⟩, Or.inl ⟨?_, rfl, rfl, ?_⟩⟩
  · exact fun r hr => absurd hr List.not_mem_nil
  · intro hflight
    cases hflight

/-- A fetch that starts changes nothing of what an entry tells. -/
theorem Told.startFetch {default : ν} {h : List Record} (ht : Told default h key e) :
    Told default h key { e with inFlight := true } := by
  obtain ⟨before, after, time, hcut, hkind⟩ := ht
  refine ⟨before, after, time, hcut, hkind.imp_left fun hunfetched => ?_⟩
  refine ⟨hunfetched.none, hunfetched.value, hunfetched.stamp, fun hflight => ?_⟩
  cases hflight

/-- An attempt that completes stamps the entry. -/
theorem Told.attempt {default : ν} {h : List Record} (ht : Told default h key e) (value : ν)
    (time : Double) (inFlight : Bool) :
    Told default (h ++ [⟨.attempted, key, time⟩]) key ⟨value, time, inFlight⟩ := by
  obtain ⟨before, after, made, hcut, -⟩ := ht
  refine ⟨before, after ++ [⟨.attempted, key, time⟩], made, hcut.append fun r hr hmade => ?_, ?_⟩
  · rw [List.mem_singleton.mp hr] at hmade
    cases hmade
  · exact Or.inr (List.mem_append_right after (List.mem_singleton_self _))

/-- A fetch that is aborted leaves value and time as they are. -/
theorem Told.abort {default : ν} {h : List Record} (ht : Told default h key e) (time : Double) :
    Told default (h ++ [⟨.aborted, key, time⟩]) key { e with inFlight := false } := by
  obtain ⟨before, after, made, hcut, hkind⟩ := ht
  have hlast : (⟨.aborted, key, time⟩ : Record) ∈ after ++ [⟨.aborted, key, time⟩] :=
    List.mem_append_right after (List.mem_singleton_self _)
  refine ⟨before, after ++ [⟨.aborted, key, time⟩], made, hcut.append fun r hr hmade => ?_, ?_⟩
  · rw [List.mem_singleton.mp hr] at hmade
    cases hmade
  rcases hkind with hunfetched | hattempted
  · refine Or.inl ⟨fun r hr hevent => ?_, hunfetched.value, hunfetched.stamp, fun _ =>
      ⟨_, hlast, rfl, rfl⟩⟩
    rcases List.mem_append.mp hr with hr | hr
    · exact hunfetched.none r hr hevent
    · rw [List.mem_singleton.mp hr] at hevent
      cases hevent
  · exact Or.inr (List.mem_append_left _ hattempted)

/-! ## Every move keeps the record -/

/-- Every entry tells what has befallen its key. -/
structure Recorded (default : ν) (h : List Record) (c : Cache ν) : Prop where
  coherent : Coherent c
  default_eq : c.default = default
  told : ∀ key e, c.entry? key = some e → Told default h key e

theorem default_finish (c : Cache ν) (key : String) (outcome : Option ν) :
    (c.finish key outcome).1.default = c.default := by
  unfold finish
  split <;> rfl

theorem default_move (c : Cache ν) (m : Move ν) : (c.move m).1.default = c.default := by
  cases m with
  | get tag key =>
    show (c.get tag key).1.default = _
    unfold get
    split
    · rfl
    · split
      · rfl
      · split <;> rfl
  | succeed key value => exact default_finish c key (some value)
  | fail key => exact default_finish c key none
  | timeOut key => exact default_finish c key none
  | abort key =>
    show (c.abort key).1.default = _
    unfold abort
    split <;> rfl
  | cancel tag =>
    show (c.cancel tag).1.default = _
    unfold cancel
    split <;> rfl
  | tick by_ => rfl
  | wake =>
    show c.wakeSweeper.default = _
    unfold wakeSweeper
    split
    · split <;> rfl
    · rfl
  | invalidate key =>
    show (c.invalidate key).default = _
    unfold invalidate
    split
    · split <;> rfl
    · rfl
  | sweep => rfl
  | start =>
    show c.start.default = _
    unfold start
    split <;> rfl
  | close => rfl

/-- Where an entry is written and the history is about its key only, all other entries tell the
same. -/
theorem Recorded.put {default : ν} {h more : List Record} (hc : Recorded default h c)
    (hkey : Told default (h ++ more) key e) (hmore : ∀ r ∈ more, r.key = key) {other : String}
    {found : Entry ν} (hfound : Assoc.find? other (Assoc.put key e c.entries) = some found) :
    Told default (h ++ more) other found := by
  rw [lookup_put] at hfound
  split at hfound
  · rename_i hother
    rw [hother, ← Option.some.inj hfound]
    exact hkey
  · rename_i hother
    refine (hc.told other found hfound).append fun r hr hr' => hother ?_
    rw [← hr', hmore r hr]

/-- Entries that are left over tell the same. -/
theorem Recorded.filter {default : ν} {h : List Record} (hc : Recorded default h c)
    (p : String × Entry ν → Bool)
    (hfound : Assoc.find? key (c.entries.filter p) = some e) : Told default h key e := by
  rw [Assoc.find?_filter hc.coherent.distinct] at hfound
  exact hc.told key e (Option.filter_eq_some_iff.mp hfound).1

variable {default : ν} {h : List Record}

theorem Recorded.get (hc : Recorded default h c) (tag at_ : String)
    (hfound : entry? (c.get tag at_).1 key = some e) :
    Told default (h ++ c.recordOf (.get tag at_)) key e := by
  unfold Cache.get at hfound
  split at hfound
  · rename_i hnone
    rw [recordOf, hnone, Option.isNone_none, if_pos rfl]
    refine hc.put ?_ (fun r hr => by rw [List.mem_singleton.mp hr]) hfound
    rw [hc.default_eq]
    exact told_made default h at_ c.clock
  · rename_i e' he'
    rw [recordOf, he', Option.isNone_some, if_neg Bool.false_ne_true, List.append_nil]
    split at hfound
    · exact hc.told key e hfound
    · split at hfound
      · exact hc.told key e hfound
      · have hkept : Told default (h ++ []) at_ { e' with inFlight := true } := by
          rw [List.append_nil]
          exact (hc.told at_ e' he').startFetch
        have hput := hc.put hkept (fun r hr => absurd hr List.not_mem_nil) hfound
        rwa [List.append_nil] at hput

theorem Recorded.finish (hc : Recorded default h c) (at_ : String) (fetched : Option ν)
    (hfound : entry? (c.finish at_ fetched).1 key = some e) (hpending : c.isPending at_ = true) :
    Told default (h ++ [⟨.attempted, at_, c.clock⟩]) key e := by
  obtain ⟨e', he', -⟩ := (hc.coherent.marked at_).mp hpending
  unfold Cache.finish at hfound
  rw [he'] at hfound
  refine hc.put ((hc.told at_ e' he').attempt _ c.clock false) (fun r hr => ?_) hfound
  rw [List.mem_singleton.mp hr]

theorem Recorded.abort (hc : Recorded default h c) (at_ : String)
    (hfound : entry? (c.abort at_).1 key = some e) (hpending : c.isPending at_ = true) :
    Told default (h ++ [⟨.aborted, at_, c.clock⟩]) key e := by
  obtain ⟨e', he', -⟩ := (hc.coherent.marked at_).mp hpending
  unfold Cache.abort at hfound
  rw [he'] at hfound
  refine hc.put ((hc.told at_ e' he').abort c.clock) (fun r hr => ?_) hfound
  rw [List.mem_singleton.mp hr]

theorem Recorded.sweep (hc : Recorded default h c) (hfound : entry? c.sweep key = some e) :
    Told default h key e :=
  hc.filter (fun keyed => !c.isExpired keyed.2) hfound

theorem Recorded.wakeSweeper (hc : Recorded default h c)
    (hfound : entry? c.wakeSweeper key = some e) : Told default h key e := by
  unfold Cache.wakeSweeper at hfound
  split at hfound
  · split at hfound
    · exact hc.sweep hfound
    · exact hc.told key e hfound
  · exact hc.told key e hfound

theorem Recorded.invalidate (hc : Recorded default h c) (at_ : String)
    (hfound : entry? (c.invalidate at_) key = some e) : Told default h key e := by
  unfold Cache.invalidate at hfound
  split at hfound
  · split at hfound
    · exact hc.told key e hfound
    · exact hc.filter _ hfound
  · exact hc.told key e hfound

/-- **Every move keeps the record of what has befallen the keys.** -/
theorem Recorded.move (hc : Recorded default h c) {m : Move ν} (hm : c.Can m) :
    Recorded default (h ++ c.recordOf m) (c.move m).1 where
  coherent := hc.coherent.move m
  default_eq := (default_move c m).trans hc.default_eq
  told := by
    intro key e hfound
    -- Moves that end no fetch and make no entry are not recorded.
    have quiet : Told default h key e → Told default (h ++ []) key e := fun ht => by
      rwa [List.append_nil]
    cases m with
    | get tag at_ => exact hc.get tag at_ hfound
    | succeed at_ value => exact hc.finish at_ (some value) hfound hm
    | fail at_ => exact hc.finish at_ none hfound hm
    | timeOut at_ =>
      obtain ⟨f, hf, hkey, -⟩ := hm
      exact hc.finish at_ none hfound (isPending_iff.mpr ⟨f, hf, hkey⟩)
    | abort at_ => exact hc.abort at_ hfound hm
    | cancel tag =>
      refine quiet (hc.told key e ?_)
      rw [← hfound]
      show c.entry? key = entry? (c.cancel tag).1 key
      unfold Cache.cancel
      split <;> rfl
    | tick by_ => exact quiet (hc.told key e hfound)
    | wake => exact quiet (hc.wakeSweeper hfound)
    | invalidate at_ => exact quiet (hc.invalidate at_ hfound)
    | sweep => exact quiet (hc.sweep hfound)
    | start =>
      refine quiet (hc.told key e ?_)
      rw [← hfound]
      show c.entry? key = entry? c.start key
      unfold Cache.start
      split <;> rfl
    | close => exact quiet (hc.told key e hfound)

theorem Run.recorded {ms : List (Move ν)} {ended : Endings ν} (hrun : Run c ms ended d) :
    ∀ {h : List Record}, Recorded default h c → Recorded default (h ++ c.history ms) d := by
  induction hrun with
  | nil c =>
    intro h hc
    rw [history, List.append_nil]
    exact hc
  | cons hm _ ih =>
    intro h hc
    rw [history, ← List.append_assoc]
    exact ih (hc.move hm)

theorem recorded_empty (default : ν) (ttl sweepInterval : Double) (timeout : Option Double) :
    Recorded default [] (empty default ttl sweepInterval timeout) := by
  refine ⟨coherent_empty default ttl sweepInterval timeout, rfl, fun key e he => ?_⟩
  cases he

/-! ## Getters that are served at once -/

/-- A getter that is served at once finds an entry that is not in flight and fresh. -/
theorem entry_of_served {tag : String} {value : ν}
    (h : (c.get tag key).2 = [(tag, .served value)]) :
    ∃ e, c.entry? key = some e ∧ e.inFlight = false ∧ c.isFresh e = true ∧ e.value = value := by
  unfold get at h
  split at h
  · cases h
  · rename_i e he
    split at h
    · cases h
    · rename_i hflight
      split at h
      · rename_i hfresh
        cases h
        exact ⟨e, he, Bool.eq_false_iff.mpr hflight, hfresh, rfl⟩
      · cases h

/-- Some attempt to fetch a key in a history has completed less than the time to live ago. -/
def RecentlyAttempted (c : Cache ν) (h : List Record) (key : String) : Prop :=
  ∃ time, ⟨.attempted, key, time⟩ ∈ h ∧ c.Recent time

/-- Some attempt to fetch a key in a history has completed. -/
def Attempted (h : List Record) (key : String) : Prop :=
  ∃ time, ⟨.attempted, key, time⟩ ∈ h

/-- **A value that is served without a fetch has recently been fetched, or never.** Behind it stands
an attempt that completed less than the time to live ago just if any has completed since the entry
was made, or an earlier one is still recent. If none has, the value is the default, the entry was
made less than the time to live ago, and its fetch has been aborted. -/
theorem served_recent_iff {default : ν} {ttl sweepInterval : Double} {timeout : Option Double}
    {ms : List (Move ν)} {ended : Endings ν} {c : Cache ν} {tag key : String} {value : ν}
    (hrun : Run (empty default ttl sweepInterval timeout) ms ended c)
    (hserved : (c.get tag key).2 = [(tag, .served value)]) :
    ∃ before after time,
      CutAt (history (empty default ttl sweepInterval timeout) ms) before after key time ∧
      (c.RecentlyAttempted (history (empty default ttl sweepInterval timeout) ms) key ↔
        Attempted after key ∨ c.RecentlyAttempted before key) ∧
      (¬ Attempted after key → value = default ∧ c.Recent time ∧
        ∃ r ∈ after, r.event = .aborted ∧ r.key = key) := by
  have hrecorded := hrun.recorded (recorded_empty default ttl sweepInterval timeout)
  rw [List.nil_append] at hrecorded
  obtain ⟨e, he, hflight, hfresh, rfl⟩ := entry_of_served hserved
  have hrecent : c.Recent e.fetchedAt := recent_of_isFresh hfresh
  obtain ⟨before, after, time, hcut, hkind⟩ := hrecorded.told key e he
  refine ⟨before, after, time, hcut, ⟨?_, ?_⟩, fun hnone => ?_⟩
  · rintro ⟨past, hpast, hrecently⟩
    rw [hcut.eq] at hpast
    rcases List.mem_append.mp hpast with hpast | hpast
    · exact Or.inr ⟨past, hpast, hrecently⟩
    · rcases List.mem_cons.mp hpast with hpast | hpast
      · cases hpast
      · exact Or.inl ⟨past, hpast⟩
  · rintro (⟨past, hpast⟩ | ⟨past, hpast, hrecently⟩)
    · -- The last attempt since the entry was made is the one whose time it carries.
      rcases hkind with hunfetched | hattempted
      · exact absurd rfl (hunfetched.none _ hpast rfl)
      · refine ⟨e.fetchedAt, ?_, hrecent⟩
        rw [hcut.eq]
        exact List.mem_append_right before (List.mem_cons_of_mem _ hattempted)
    · refine ⟨past, ?_, hrecently⟩
      rw [hcut.eq]
      exact List.mem_append_left _ hpast
  · rcases hkind with hunfetched | hattempted
    · rw [hunfetched.stamp] at hrecent
      exact ⟨hunfetched.value, hrecent, hunfetched.aborted hflight⟩
    · exact absurd ⟨e.fetchedAt, hattempted⟩ hnone

/-- A cache in which a key has been fetched once. -/
def fetchedOnce : Cache Nat :=
  (((empty 0 defaultTtl defaultSweepInterval (some defaultTimeout)).get "a" "k").1.finish "k"
    (some 7)).1

theorem served_recent_fetchedOnce :
    Run (empty 0 defaultTtl defaultSweepInterval (some defaultTimeout))
      [.get "a" "k", .succeed "k" 7] [("a", .served 7)] fetchedOnce ∧
    (fetchedOnce.get "b" "k").2 = [("b", .served 7)] ∧
    ∃ before after time, CutAt (history (empty 0 defaultTtl defaultSweepInterval
        (some defaultTimeout)) [.get "a" "k", .succeed "k" 7]) before after "k" time ∧
      (fetchedOnce.RecentlyAttempted (history (empty 0 defaultTtl defaultSweepInterval
          (some defaultTimeout)) [.get "a" "k", .succeed "k" 7]) "k" ↔
        Attempted after "k" ∨ fetchedOnce.RecentlyAttempted before "k") ∧
      (¬ Attempted after "k" → 7 = 0 ∧ fetchedOnce.Recent time ∧
        ∃ r ∈ after, r.event = .aborted ∧ r.key = "k") := by
  have hrun : Run (empty 0 defaultTtl defaultSweepInterval (some defaultTimeout))
      [.get "a" "k", .succeed "k" 7] [("a", .served 7)] fetchedOnce :=
    .cons trivial (.single rfl)
  have hserved : (fetchedOnce.get "b" "k").2 = [("b", .served 7)] := by decide +kernel
  exact ⟨hrun, hserved, served_recent_iff hrun hserved⟩

/-- A cache in which the only fetch of a key has been aborted. -/
def abortedOnce : Cache Nat :=
  (((empty 0 defaultTtl defaultSweepInterval (some defaultTimeout)).get "a" "k").1.abort "k").1

/-- **The default is served as if it had been fetched** where the only fetch was aborted: no attempt
has completed at all. -/
theorem aborted_served_default :
    Run (empty 0 defaultTtl defaultSweepInterval (some defaultTimeout))
      [.get "a" "k", .abort "k"] [("a", .cancelled)] abortedOnce ∧
    (abortedOnce.get "b" "k").2 = [("b", .served 0)] ∧
    ∀ time, ⟨.attempted, "k", time⟩ ∉ history (empty 0 defaultTtl defaultSweepInterval
      (some defaultTimeout)) [.get "a" "k", .abort "k"] := by
  refine ⟨.cons trivial (.single rfl), by decide +kernel, fun time hmem => ?_⟩
  have hhistory : history (empty 0 defaultTtl defaultSweepInterval (some defaultTimeout))
      [.get "a" "k", .abort "k"] = [⟨.made, "k", .zero⟩, ⟨.aborted, "k", .zero⟩] := rfl
  rw [hhistory] at hmem
  simp at hmem

end Telemetry.Quota.Cache
