import Telemetry.Proofs.Quota.Knowledge

/-!
# Where served values come from

A getter that waits is served what its fetch has brought. If the fetch has brought nothing, or none
was needed, the getter is served what is known of its key: the value that was fetched last since the
entry of the key was made, or the default. No getter sees a failure, and a fetch that brings nothing
leaves all values as they are.

Main statement: `provenance`.
-/

namespace Telemetry.Quota

variable {ν : Type}

/-- A move ends the fetch of a key, in whatever way. -/
def Move.Ends (key : String) : Move ν → Prop
  | .succeed other _ | .fail other | .timeOut other | .abort other => other = key
  | _ => False

/-- A move ends the fetch of a key without a value. -/
inductive Move.Fruitless (key : String) : Move ν → Prop
  | fail : Fruitless key (.fail key)
  | timeOut : Fruitless key (.timeOut key)

namespace Cache

variable {c d c₀ : Cache ν} {key tag : String} {e : Entry ν} {m : Move ν} {ms : List (Move ν)}
  {ended : Endings ν} {default value : ν} {ttl sweepInterval : Double} {timeout : Option Double}

/-! ## Getters that wait -/

/-- A getter has arrived in a sequence of moves; since then it has not been cancelled, and no fetch
of its key has ended. So the fetch that it awaits is the next of its key to end. -/
def Awaits (ms : List (Move ν)) (tag key : String) : Prop :=
  ∃ before after, ms = before ++ .get tag key :: after ∧
    ∀ m ∈ after, ¬ m.Ends key ∧ m ≠ .cancel tag

theorem Awaits.snoc (h : Awaits ms tag key) (hends : ¬ m.Ends key) (hcancel : m ≠ .cancel tag) :
    Awaits (ms ++ [m]) tag key := by
  obtain ⟨before, after, hms, hafter⟩ := h
  refine ⟨before, after ++ [m], by rw [hms, List.append_assoc, List.cons_append], ?_⟩
  intro m' hm'
  rcases List.mem_append.mp hm' with hm' | hm'
  · exact hafter m' hm'
  · rw [List.mem_singleton.mp hm']
    exact ⟨hends, hcancel⟩

theorem awaits_arrived (ms : List (Move ν)) (tag key : String) :
    Awaits (ms ++ [.get tag key]) tag key :=
  ⟨ms, [], rfl, fun _ h => absurd h List.not_mem_nil⟩

/-- A getter that waits after a get waited before, or it is the one that has arrived. -/
theorem waiting_get {other : String} {w : Waiter} (hw : w ∈ (c.get tag other).1.waiting) :
    w ∈ c.waiting ∨ w = ⟨tag, other⟩ := by
  have happended : w ∈ c.waiting ++ [⟨tag, other⟩] → w ∈ c.waiting ∨ w = ⟨tag, other⟩ := fun h =>
    (List.mem_append.mp h).imp_right List.mem_singleton.mp
  unfold get at hw
  split at hw
  · exact happended hw
  · split at hw
    · exact happended hw
    · split at hw
      · exact Or.inl hw
      · exact happended hw

theorem waiting_endFetch {w : Waiter} (hw : w ∈ (c.endFetch key e).waiting) :
    w ∈ c.waiting ∧ key ≠ w.key := by
  obtain ⟨hmem, hne⟩ := List.mem_filter.mp hw
  exact ⟨hmem, fun heq => bne_iff_ne.mp hne heq.symm⟩

/-- A getter that waits after a move has arrived in it, or it waited before and the move has ended
neither its fetch nor itself. -/
theorem Coherent.waiting_move (h : Coherent c) (hm : c.Can m) {w : Waiter}
    (hw : w ∈ (c.move m).1.waiting) :
    m = .get w.tag w.key ∨ (w ∈ c.waiting ∧ ¬ m.Ends w.key ∧ m ≠ .cancel w.tag) := by
  have hfinish (other : String) (fetched : Option ν) (hpending : c.isPending other = true)
      (hw : w ∈ (c.finish other fetched).1.waiting) : w ∈ c.waiting ∧ other ≠ w.key := by
    obtain ⟨e, he⟩ := h.entry hpending
    rw [finish_eq he] at hw
    exact waiting_endFetch hw
  cases m with
  | get tag other =>
    rcases waiting_get hw with hw | rfl
    · exact Or.inr ⟨hw, id, nofun⟩
    · exact Or.inl rfl
  | succeed other value =>
    obtain ⟨hw, hne⟩ := hfinish other (some value) hm hw
    exact Or.inr ⟨hw, hne, nofun⟩
  | fail other =>
    obtain ⟨hw, hne⟩ := hfinish other none hm hw
    exact Or.inr ⟨hw, hne, nofun⟩
  | timeOut other =>
    obtain ⟨hw, hne⟩ := hfinish other none (isPending_of_can_timeOut hm) hw
    exact Or.inr ⟨hw, hne, nofun⟩
  | abort other =>
    obtain ⟨e, he⟩ := h.entry hm
    change w ∈ (c.abort other).1.waiting at hw
    rw [abort_eq he] at hw
    obtain ⟨hw, hne⟩ := waiting_endFetch hw
    exact Or.inr ⟨hw, hne, nofun⟩
  | cancel tag =>
    change w ∈ (c.cancel tag).1.waiting at hw
    rw [cancel_fst] at hw
    obtain ⟨hw, hne⟩ := List.mem_filter.mp hw
    refine Or.inr ⟨hw, id, fun heq => ?_⟩
    cases heq
    exact bne_iff_ne.mp hne rfl
  | tick by_ => exact Or.inr ⟨hw, id, nofun⟩
  | wake => exact Or.inr ⟨(samePending_wakeSweeper c).2 ▸ hw, id, nofun⟩
  | invalidate other =>
    exact Or.inr ⟨(samePending_invalidate c other).2 ▸ hw, id, nofun⟩
  | sweep => exact Or.inr ⟨hw, id, nofun⟩
  | start => exact Or.inr ⟨(samePending_start c).2 ▸ hw, id, nofun⟩
  | close => exact Or.inr ⟨hw, id, nofun⟩

/-- **Every getter that waits has waited since it arrived**, for the fetch that is pending. -/
theorem Run.awaits (hrun : Run c ms ended d) (hc : Coherent c) :
    ∀ {before : List (Move ν)}, (∀ w ∈ c.waiting, Awaits before w.tag w.key) →
      ∀ w ∈ d.waiting, Awaits (before ++ ms) w.tag w.key := by
  induction hrun with
  | nil c =>
    intro before hbefore
    rwa [List.append_nil]
  | @cons c d m ms ended hm _ ih =>
    intro before hbefore
    have hmove : ∀ w ∈ (c.move m).1.waiting, Awaits (before ++ [m]) w.tag w.key := by
      intro w hw
      rcases hc.waiting_move hm hw with rfl | ⟨hw, hends, hcancel⟩
      · exact awaits_arrived before w.tag w.key
      · exact (hbefore w hw).snoc hends hcancel
    rw [List.append_cons]
    exact ih (hc.move m) hmove

/-! ## Values of entries -/

/-- An entry holds what is known of its key, or the default. -/
theorem Run.value_eq (hrun : Run (empty default ttl sweepInterval timeout) ms ended c)
    (he : c.entry? key = some e) :
    e.value = ((empty default ttl sweepInterval timeout).knownAfter key ms).getD default :=
  (hrun.remembers (remembers_empty default ttl sweepInterval timeout)).value key e he

/-- What is found out about a key was fetched for that key. -/
theorem succeed_of_found (h : .found value ∈ c.findings key ms) : .succeed key value ∈ ms := by
  induction ms generalizing c with
  | nil => exact absurd h List.not_mem_nil
  | cons m ms ih =>
    rcases List.mem_append.mp h with h | h
    · refine List.mem_cons.mpr (Or.inl ?_)
      cases m with
      | succeed other found =>
        rw [findingsOf, List.mem_ite_nil_right, List.mem_singleton] at h
        obtain ⟨hkey, hfound⟩ := h
        rw [hkey, Finding.found.inj hfound]
      | get _ _ | fail _ | timeOut _ =>
        rw [findingsOf, List.mem_ite_nil_right, List.mem_singleton] at h
        obtain ⟨-, hfound⟩ := h
        cases hfound
      | _ => exact absurd h List.not_mem_nil
    · exact List.mem_cons_of_mem m (ih h)

/-- What is known of a key was fetched for that key. -/
theorem succeed_of_known (h : c.knownAfter key ms = some value) : .succeed key value ∈ ms := by
  obtain ⟨before, after, hfindings, -⟩ := known_eq_some h
  refine succeed_of_found (c := c) ?_
  rw [hfindings]
  exact List.mem_append_right before List.mem_cons_self

/-- The value that is stored for a key. -/
def stored? (c : Cache ν) (key : String) : Option ν := (c.entry? key).map Entry.value

/-- Where an entry is written that holds the value of the one before, all values are as they
were. -/
theorem value_endFetch {written : Entry ν} (he : c.entry? key = some e)
    (hvalue : written.value = e.value) (other : String) :
    (c.endFetch key written).stored? other = c.stored? other := by
  have hentry : entry? (c.endFetch key written) other = _ := lookup_put written c.entries
  rw [stored?, stored?, hentry]
  split
  · rename_i hother
    rw [hother, he, Option.map_some, Option.map_some, hvalue]
  · rfl

/-! ## Getters that end -/

theorem mem_endingsOf {outcome found : Outcome ν} (h : (tag, found) ∈ c.endingsOf key outcome) :
    ⟨tag, key⟩ ∈ c.waiting ∧ found = outcome := by
  obtain ⟨w, hw, heq⟩ := List.mem_map.mp h
  obtain ⟨hmem, hkey⟩ := List.mem_filter.mp hw
  cases heq
  obtain rfl : w.key = key := beq_iff_eq.mp hkey
  exact ⟨hmem, rfl⟩

theorem endingsOf_mem {outcome : Outcome ν} {w : Waiter} (hw : w ∈ c.waiting) :
    (w.tag, outcome) ∈ c.endingsOf w.key outcome :=
  List.mem_map.mpr ⟨w, List.mem_filter.mpr ⟨hw, beq_self_eq_true w.key⟩, rfl⟩

/-- A getter ends in a move: it is served from a fresh entry as it arrives, it waits for the fetch
that the move ends, or it is cancelled. -/
inductive Ending (c : Cache ν) : Move ν → String → Outcome ν → Prop
  | atOnce {tag key : String} {e : Entry ν} (he : c.entry? key = some e) :
    Ending c (.get tag key) tag (.served e.value)
  | ended {m : Move ν} {tag key : String} {outcome : Outcome ν} (hw : ⟨tag, key⟩ ∈ c.waiting)
    (h : EndsWith c key m outcome) : Ending c m tag outcome
  | cancelled (tag : String) : Ending c (.cancel tag) tag .cancelled

theorem Coherent.ending_of_mem (h : Coherent c) (hm : c.Can m) {outcome : Outcome ν}
    (hmem : (tag, outcome) ∈ (c.move m).2) : Ending c m tag outcome := by
  cases m with
  | get other key =>
    change (tag, outcome) ∈ (c.get other key).2 at hmem
    unfold Cache.get at hmem
    split at hmem
    · exact absurd hmem List.not_mem_nil
    · rename_i e he
      split at hmem
      · exact absurd hmem List.not_mem_nil
      · split at hmem
        · cases List.mem_singleton.mp hmem
          exact .atOnce he
        · exact absurd hmem List.not_mem_nil
  | succeed key value =>
    obtain ⟨e, he⟩ := h.entry hm
    change (tag, outcome) ∈ (c.finish key (some value)).2 at hmem
    rw [finish_eq he] at hmem
    obtain ⟨hw, rfl⟩ := mem_endingsOf hmem
    exact .ended hw (.succeed value)
  | fail key =>
    obtain ⟨e, he⟩ := h.entry hm
    change (tag, outcome) ∈ (c.finish key none).2 at hmem
    rw [finish_eq he] at hmem
    obtain ⟨hw, rfl⟩ := mem_endingsOf hmem
    exact .ended hw (.fail he)
  | timeOut key =>
    obtain ⟨e, he⟩ := h.entry (isPending_of_can_timeOut hm)
    change (tag, outcome) ∈ (c.finish key none).2 at hmem
    rw [finish_eq he] at hmem
    obtain ⟨hw, rfl⟩ := mem_endingsOf hmem
    exact .ended hw (.timeOut he)
  | abort key =>
    obtain ⟨e, he⟩ := h.entry hm
    change (tag, outcome) ∈ (c.abort key).2 at hmem
    rw [abort_eq he] at hmem
    obtain ⟨hw, rfl⟩ := mem_endingsOf hmem
    exact .ended hw .abort
  | cancel other =>
    change (tag, outcome) ∈ (c.cancel other).2 at hmem
    unfold Cache.cancel at hmem
    split at hmem
    · cases List.mem_singleton.mp hmem
      exact .cancelled tag
    · exact absurd hmem List.not_mem_nil
  | _ => exact absurd hmem List.not_mem_nil

/-! ## The main statement -/

/-- Where the value comes from that a getter of a key is served in a move after some others. -/
inductive ServedFrom (c₀ : Cache ν) (ms : List (Move ν)) (tag key : String) : Move ν → ν → Prop
  /-- The fetch that it awaited has succeeded, with this value. -/
  | fetched {value : ν} (h : Awaits ms tag key) : ServedFrom c₀ ms tag key (.succeed key value) value
  /-- The fetch that it awaited has failed or has taken too long. -/
  | known {m : Move ν} (h : Awaits ms tag key) (hm : m.Fruitless key) :
    ServedFrom c₀ ms tag key m ((c₀.knownAfter key ms).getD c₀.default)
  /-- It awaited no fetch. -/
  | atOnce : ServedFrom c₀ ms tag key (.get tag key) ((c₀.knownAfter key ms).getD c₀.default)

/-- What the getters are told that end in a move, and what the move leaves of the values. -/
structure Provenance (c₀ : Cache ν) (ms : List (Move ν)) (c : Cache ν) (m : Move ν) : Prop where
  /-- A value that is served is that of the awaited fetch, or what is known; and unless it is the
  default, it was fetched for the key that the getter asked for. -/
  served : ∀ tag value, (tag, .served value) ∈ (c.move m).2 →
    ∃ key, ServedFrom c₀ ms tag key m value ∧
      (value = c₀.default ∨ .succeed key value ∈ ms ++ [m])
  /-- A getter ends without a value only if it is cancelled or the fetch that it awaits is
  aborted. -/
  cancelled : ∀ tag, (tag, .cancelled) ∈ (c.move m).2 →
    m = .cancel tag ∨ ∃ key, m = .abort key ∧ Awaits ms tag key
  /-- Every getter that awaits a fetch which brings nothing is served all the same. -/
  failure : ∀ key, m.Fruitless key → ∀ w ∈ c.waiting, w.key = key →
    (w.tag, .served ((c₀.knownAfter key ms).getD c₀.default)) ∈ (c.move m).2
  /-- A fetch that brings nothing, or is aborted, leaves all values as they are. -/
  kept : ∀ key, m.Fruitless key ∨ m = .abort key → ∀ other,
    (c.move m).1.stored? other = c.stored? other

/-- **Every getter is served the value of its fetch, or what is known of its key**, and nothing
else. -/
theorem provenance (hrun : Run (empty default ttl sweepInterval timeout) ms ended c)
    (hm : c.Can m) : Provenance (empty default ttl sweepInterval timeout) ms c m := by
  have hc : Coherent c := hrun.coherent (coherent_empty default ttl sweepInterval timeout)
  have hawaits : ∀ {tag key : String}, ⟨tag, key⟩ ∈ c.waiting → Awaits ms tag key := by
    intro tag key hw
    have hall : ∀ w ∈ c.waiting, Awaits ([] ++ ms) w.tag w.key :=
      hrun.awaits (coherent_empty default ttl sweepInterval timeout)
        fun w hw => absurd hw List.not_mem_nil
    exact hall _ hw
  -- What an entry holds is the default, or has been fetched for its key before.
  have hown : ∀ {key : String} {e : Entry ν}, c.entry? key = some e →
      e.value = default ∨ .succeed key e.value ∈ ms ++ [m] := by
    intro key e he
    rw [hrun.value_eq he]
    cases hknown : (empty default ttl sweepInterval timeout).knownAfter key ms with
    | none => exact Or.inl rfl
    | some value => exact Or.inr (List.mem_append_left [m] (succeed_of_known hknown))
  refine ⟨fun tag value hmem => ?_, fun tag hmem => ?_, fun key hfruitless w hw hkey => ?_, ?_⟩
  · cases hc.ending_of_mem hm hmem with
    | @atOnce _ key e he =>
      refine ⟨key, ?_, hown he⟩
      rw [hrun.value_eq he]
      exact .atOnce
    | @ended _ _ key _ hw hends =>
      cases hends with
      | succeed =>
        exact ⟨key, .fetched (hawaits hw),
          Or.inr (List.mem_append_right ms (List.mem_singleton_self _))⟩
      | fail he =>
        refine ⟨key, ?_, hown he⟩
        rw [hrun.value_eq he]
        exact .known (hawaits hw) .fail
      | timeOut he =>
        refine ⟨key, ?_, hown he⟩
        rw [hrun.value_eq he]
        exact .known (hawaits hw) .timeOut
  · cases hc.ending_of_mem hm hmem with
    | @ended _ _ key _ hw hends =>
      cases hends
      exact Or.inr ⟨key, rfl, hawaits hw⟩
    | cancelled => exact Or.inl rfl
  · subst hkey
    have hfinish (hpending : c.isPending w.key = true) :
        (w.tag, Outcome.served (((empty default ttl sweepInterval timeout).knownAfter w.key
          ms).getD default)) ∈ (c.finish w.key none).2 := by
      obtain ⟨e, he⟩ := hc.entry hpending
      rw [finish_eq he, ← hrun.value_eq he]
      exact endingsOf_mem hw
    cases hfruitless with
    | fail => exact hfinish hm
    | timeOut => exact hfinish (isPending_of_can_timeOut hm)
  · have hfinish (key other : String) (hpending : c.isPending key = true) :
        (c.finish key none).1.stored? other = c.stored? other := by
      obtain ⟨e, he⟩ := hc.entry hpending
      rw [finish_eq he]
      refine value_endFetch he ?_ other
      rfl
    rintro key (hfruitless | rfl) other
    · cases hfruitless with
      | fail => exact hfinish key other hm
      | timeOut => exact hfinish key other (isPending_of_can_timeOut hm)
    · obtain ⟨e, he⟩ := hc.entry hm
      show (c.abort key).1.stored? other = _
      rw [abort_eq he]
      refine value_endFetch he ?_ other
      rfl

/-- A key has been fetched, its value is stale, and a getter waits for the next fetch. -/
def refetching : Cache Nat :=
  ((((((empty 0 defaultTtl defaultSweepInterval none).get "a" "k").1).finish "k" (some 7)).1.move
    (.tick defaultTtl)).1.get "b" "k").1

/-- Where that fetch fails, the getter is served the value that was fetched before. -/
theorem provenance_refetching :
    (∃ ended, Run (empty 0 defaultTtl defaultSweepInterval none)
      [.get "a" "k", .succeed "k" 7, .tick defaultTtl, .get "b" "k"] ended refetching) ∧
    refetching.Can (.fail "k") ∧ (refetching.move (.fail "k")).2 = [("b", .served 7)] ∧
    Provenance (empty 0 defaultTtl defaultSweepInterval none)
      [.get "a" "k", .succeed "k" 7, .tick defaultTtl, .get "b" "k"] refetching (.fail "k") := by
  have hrun : ∃ ended, Run (empty 0 defaultTtl defaultSweepInterval none)
      [.get "a" "k", .succeed "k" 7, .tick defaultTtl, .get "b" "k"] ended refetching :=
    ⟨_, .cons trivial (.cons rfl (.cons trivial (.single trivial)))⟩
  have hcan : refetching.isPending "k" = true := by decide +kernel
  obtain ⟨ended, hended⟩ := hrun
  exact ⟨⟨ended, hended⟩, hcan, by decide +kernel, provenance hended hcan⟩

end Cache

end Telemetry.Quota
