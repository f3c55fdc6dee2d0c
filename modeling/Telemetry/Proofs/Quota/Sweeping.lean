import Telemetry.Proofs.Quota.Coalescing
import Telemetry.Proofs.Quota.Eviction

/-!
# Sweeps are not noticed

Two runs that differ in sweeps only show the same, as long as the clock does not run back and every
fetch that ends succeeds: the same getters end in the same way, the same getters wait, and the same
fetches are started. A run is followed beside the same run without sweeps. Their entries differ where
one has been evicted, which would never have been fresh again, and where such a key is being
fetched: the fetch will bring the same value to both.

Main statement: `sweeps_unnoticed`.
-/

namespace Telemetry.Quota

variable {ν : Type}

/-- A fetch that ends in this move has brought a value. -/
def Move.Works : Move ν → Prop
  | .fail _ | .timeOut _ | .abort _ => False
  | _ => True

namespace Cache

variable {c d c' d' : Cache ν} {m : Move ν} {key other tag : String} {e : Entry ν}
  {ms ms' : List (Move ν)} {ended : Endings ν}

/-! ## What a run shows -/

/-- What can be seen of a move: the getters that end, with how they end, the getters that wait
behind it, the pending fetches, and how many fetches have been started. -/
structure Sight (ν : Type) where
  ended : Endings ν
  waiting : List Waiter
  fetches : List Fetch
  fetchCount : Nat
deriving DecidableEq

/-- What a sequence of moves shows. Moves of the sweeper are not looked at. -/
def shown (c : Cache ν) : List (Move ν) → List (Sight ν)
  | [] => []
  | m :: ms =>
    let next := (c.move m).1
    if m.IsSweeping then next.shown ms
    else ⟨(c.move m).2, next.waiting, next.fetches, next.fetchCount⟩ :: next.shown ms

/-- A sequence of moves without those of the sweeper. -/
def unswept (ms : List (Move ν)) : List (Move ν) := ms.filter fun m => !m.IsSweeping

theorem unswept_cons_sweeping (hm : m.IsSweeping = true) : unswept (m :: ms) = unswept ms :=
  List.filter_cons_of_neg (by simp [hm])

theorem unswept_cons (hm : m.IsSweeping = false) : unswept (m :: ms) = m :: unswept ms :=
  List.filter_cons_of_pos (by simp [hm])

theorem run_cons_iff : Run c (m :: ms) ended d ↔
    c.Can m ∧ ∃ rest, ended = (c.move m).2 ++ rest ∧ Run (c.move m).1 ms rest d := by
  constructor
  · rintro (_ | ⟨hm, hrest⟩)
    exact ⟨hm, _, rfl, hrest⟩
  · rintro ⟨hm, rest, rfl, hrest⟩
    exact .cons hm hrest

/-! ## A cache beside one that has not been swept -/

/-- The entries of a key in a cache and in one that has not been swept: the same, or both in flight,
or the first has been evicted and the second is stale for good. -/
inductive Matches (d : Cache ν) : Option (Entry ν) → Option (Entry ν) → Prop
  | same (found : Option (Entry ν)) : Matches d found found
  | pending {e e' : Entry ν} (h : e.inFlight = true) (h' : e'.inFlight = true) :
    Matches d (some e) (some e')
  | evicted {e : Entry ν} (h : e.inFlight = false) (hstale : StaleForGood d e.fetchedAt) :
    Matches d none (some e)

/-- The first cache is the second one swept: they have all but the alarm and the entries in common,
and the entries match. -/
structure Veils (c d : Cache ν) : Prop where
  coherent : Coherent c
  coherent' : Coherent d
  span : Double.zero.le d.ttl = true
  same : ∃ entries wake, c = { d with entries := entries, wake := wake }
  entry : ∀ key, Matches d (c.entry? key) (d.entry? key)

theorem Matches.congr {found found' : Option (Entry ν)} (h : Matches d found found')
    (hstale : ∀ past, StaleForGood d past → StaleForGood d' past) : Matches d' found found' := by
  cases h with
  | same => exact .same found
  | pending h h' => exact .pending h h'
  | evicted h hold => exact .evicted h (hstale _ hold)

theorem Veils.isPending (h : Veils c d) (key : String) : c.isPending key = d.isPending key := by
  obtain ⟨entries, wake, rfl⟩ := h.same
  rfl

/-- What is the same before the entries are looked at. -/
theorem Veils.sight (h : Veils c d) :
    c.waiting = d.waiting ∧ c.fetches = d.fetches ∧ c.fetchCount = d.fetchCount := by
  obtain ⟨entries, wake, rfl⟩ := h.same
  exact ⟨rfl, rfl, rfl⟩

theorem Veils.can (h : Veils c d) : c.Can m ↔ d.Can m := by
  obtain ⟨entries, wake, rfl⟩ := h.same
  cases m <;> exact Iff.rfl

/-- Where both caches write or drop the entry of one key, the entries of that key are all there is
to check. -/
theorem Veils.update (h : Veils c d) (key : String) (hc : Coherent c') (hd : Coherent d')
    (hsame : ∃ entries wake, c' = { d' with entries := entries, wake := wake })
    (hclock : d'.clock = d.clock) (httl : d'.ttl = d.ttl)
    (hkey : Matches d' (c'.entry? key) (d'.entry? key))
    (hother : ∀ other, other ≠ key →
      c'.entry? other = c.entry? other ∧ d'.entry? other = d.entry? other) : Veils c' d' := by
  refine ⟨hc, hd, httl ▸ h.span, hsame, fun other => ?_⟩
  by_cases heq : other = key
  · rw [heq]
    exact hkey
  · rw [(hother other heq).1, (hother other heq).2]
    exact (h.entry other).congr fun past hstale => hstale.congr hclock httl

/-- What a move makes of two caches matches, and the same getters end. -/
def Alike (r r' : Cache ν × Endings ν) : Prop := Veils r.1 r'.1 ∧ r.2 = r'.2

/-! ## Moves that are seen -/

/-- Both caches start the fetch of a key. -/
theorem Veils.startFetch (h : Veils c d) {e e' : Entry ν} (tag key : String)
    (hc : c.get tag key = (c.startFetch tag key e, []))
    (hd : d.get tag key = (d.startFetch tag key e', [])) : Alike (c.get tag key) (d.get tag key) := by
  have hcoherent := h.coherent.get tag key
  have hcoherent' := h.coherent'.get tag key
  rw [hc] at hcoherent ⊢
  rw [hd] at hcoherent' ⊢
  refine ⟨h.update key hcoherent hcoherent' ?_ rfl rfl ?_ fun other hother => ⟨?_, ?_⟩, rfl⟩
  · obtain ⟨entries, wake, rfl⟩ := h.same
    exact ⟨_, _, rfl⟩
  · show Matches _ (Assoc.find? key (Assoc.put key _ c.entries))
      (Assoc.find? key (Assoc.put key _ d.entries))
    rw [Assoc.find?_put_self, Assoc.find?_put_self]
    exact .pending rfl rfl
  · exact Assoc.find?_put_of_ne (Ne.symm hother) _ c.entries
  · exact Assoc.find?_put_of_ne (Ne.symm hother) _ d.entries

theorem Veils.wait (h : Veils c d) (tag key : String)
    (hc : c.get tag key = (c.wait tag key, [])) (hd : d.get tag key = (d.wait tag key, [])) :
    Alike (c.get tag key) (d.get tag key) := by
  have hcoherent := h.coherent.get tag key
  have hcoherent' := h.coherent'.get tag key
  rw [hc] at hcoherent ⊢
  rw [hd] at hcoherent' ⊢
  refine ⟨⟨hcoherent, hcoherent', h.span, ?_, fun other =>
    (h.entry other).congr fun past hstale => hstale.congr rfl rfl⟩, rfl⟩
  obtain ⟨entries, wake, rfl⟩ := h.same
  exact ⟨_, _, rfl⟩

/-- A getter is served, waits or starts a fetch in both. -/
theorem Veils.get (h : Veils c d) (tag key : String) :
    Alike (c.get tag key) (d.get tag key) := by
  have hfresh (e : Entry ν) : c.isFresh e = d.isFresh e := by
    obtain ⟨entries, wake, rfl⟩ := h.same
    rfl
  have hentry := h.entry key
  generalize hc : c.entry? key = found at hentry
  generalize hd : d.entry? key = found' at hentry
  cases hentry with
  | same =>
    cases found with
    | none => exact h.startFetch tag key (get_of_none hc tag) (get_of_none hd tag)
    | some e =>
      cases hflight : e.inFlight with
      | true =>
        exact h.wait tag key (get_of_inFlight hc hflight tag) (get_of_inFlight hd hflight tag)
      | false =>
        cases hf : d.isFresh e with
        | true =>
          rw [get_of_isFresh hc hflight ((hfresh e).trans hf), get_of_isFresh hd hflight hf]
          exact ⟨h, rfl⟩
        | false =>
          exact h.startFetch tag key (get_of_stale hc hflight ((hfresh e).trans hf) tag)
            (get_of_stale hd hflight hf tag)
  | pending hflight hflight' =>
    exact h.wait tag key (get_of_inFlight hc hflight tag) (get_of_inFlight hd hflight' tag)
  | evicted hidle hstale =>
    -- The entry that is gone would not have been fresh.
    exact h.startFetch tag key (get_of_none hc tag) (get_of_stale hd hidle hstale.not_isFresh tag)

/-- A fetch that succeeds brings the same value to both. -/
theorem Veils.succeed (h : Veils c d) (hpending : d.isPending key = true) (value : ν) :
    Alike (c.finish key (some value)) (d.finish key (some value)) := by
  have hcoherent := h.coherent.finish key (some value)
  have hcoherent' := h.coherent'.finish key (some value)
  obtain ⟨e, he⟩ := h.coherent.entry ((h.isPending key).trans hpending)
  obtain ⟨e', he'⟩ := h.coherent'.entry hpending
  rw [finish_eq he] at hcoherent ⊢
  rw [finish_eq he'] at hcoherent' ⊢
  refine ⟨h.update key hcoherent hcoherent' ?_ rfl rfl ?_ fun other hother => ⟨?_, ?_⟩, ?_⟩
  · obtain ⟨entries, wake, rfl⟩ := h.same
    exact ⟨_, _, rfl⟩
  · show Matches _ (Assoc.find? key (Assoc.put key _ c.entries))
      (Assoc.find? key (Assoc.put key _ d.entries))
    have hclock : c.clock = d.clock := by
      obtain ⟨entries, wake, rfl⟩ := h.same
      rfl
    rw [Assoc.find?_put_self, Assoc.find?_put_self, hclock]
    exact .same _
  · exact Assoc.find?_put_of_ne (Ne.symm hother) _ c.entries
  · exact Assoc.find?_put_of_ne (Ne.symm hother) _ d.entries
  · unfold endingsOf
    rw [h.sight.1]
    rfl

theorem Veils.cancel (h : Veils c d) (tag : String) : Alike (c.cancel tag) (d.cancel tag) := by
  have hcoherent := h.coherent.cancel tag
  have hcoherent' := h.coherent'.cancel tag
  have hended : (c.cancel tag).2 = (d.cancel tag).2 := by
    unfold Cache.cancel
    rw [h.sight.1]
    split <;> rfl
  refine ⟨?_, hended⟩
  rw [cancel_fst] at hcoherent hcoherent' ⊢
  rw [cancel_fst]
  refine ⟨hcoherent, hcoherent', h.span, ?_, fun other =>
    (h.entry other).congr fun past hstale => hstale.congr rfl rfl⟩
  obtain ⟨entries, wake, rfl⟩ := h.same
  exact ⟨_, _, rfl⟩

theorem Veils.tick (h : Veils c d) {by_ : Double} (hforward : d.NotBack (.tick by_)) :
    Alike (c.move (.tick by_)) (d.move (.tick by_)) := by
  refine ⟨⟨h.coherent.move _, h.coherent'.move _, h.span, ?_, fun other =>
    (h.entry other).congr fun past hstale => hstale.tick hforward⟩, rfl⟩
  obtain ⟨entries, wake, rfl⟩ := h.same
  exact ⟨_, _, rfl⟩

theorem invalidate_eq (c : Cache ν) (key : String) :
    c.invalidate key = { c with entries := (c.invalidate key).entries } := by
  unfold invalidate
  split
  · split <;> rfl
  · rfl

theorem entry_invalidate_self (c : Cache ν) (key : String) :
    entry? (c.invalidate key) key = (c.entry? key).filter (·.inFlight) := by
  unfold invalidate
  cases he : c.entry? key with
  | none => exact he
  | some e =>
    dsimp only
    cases hflight : e.inFlight with
    | true =>
      rw [if_pos rfl, he, Option.filter_some, hflight, if_pos rfl]
    | false =>
      rw [if_neg Bool.false_ne_true, Option.filter_some, hflight, if_neg Bool.false_ne_true]
      exact Assoc.find?_erase_self key c.entries

theorem entry_invalidate_of_ne (c : Cache ν) (hother : other ≠ key) :
    entry? (c.invalidate key) other = c.entry? other := by
  unfold invalidate
  split
  · split
    · rfl
    · exact Assoc.find?_erase_of_ne (Ne.symm hother) c.entries
  · rfl

/-- An entry that is invalidated is gone from both, unless it is in flight in both. -/
theorem Veils.invalidate (h : Veils c d) (key : String) :
    Veils (c.invalidate key) (d.invalidate key) := by
  have hclock : (d.invalidate key).clock = d.clock := by rw [invalidate_eq]
  have httl : (d.invalidate key).ttl = d.ttl := by rw [invalidate_eq]
  refine h.update key (h.coherent.invalidate key) (h.coherent'.invalidate key) ?_ hclock httl ?_
    fun other hother => ⟨entry_invalidate_of_ne c hother, entry_invalidate_of_ne d hother⟩
  · obtain ⟨entries, wake, hc⟩ := h.same
    rw [invalidate_eq c, invalidate_eq d]
    exact ⟨(c.invalidate key).entries, wake, by rw [hc]⟩
  · rw [entry_invalidate_self, entry_invalidate_self]
    have hentry := h.entry key
    generalize c.entry? key = found at hentry ⊢
    generalize d.entry? key = found' at hentry ⊢
    cases hentry with
    | same => exact .same _
    | pending hflight hflight' =>
      rw [Option.filter_some, hflight, Option.filter_some, hflight']
      exact .pending hflight hflight'
    | evicted hidle hstale =>
      rw [Option.filter_some, hidle]
      exact .same none

/-- **A move that is seen shows the same in both.** -/
theorem Veils.move (h : Veils c d) (hm : m.IsSweeping = false) (hcan : d.Can m)
    (hforward : d.NotBack m) (hworks : m.Works) : Alike (c.move m) (d.move m) := by
  cases m with
  | get tag key => exact h.get tag key
  | succeed key value => exact h.succeed hcan value
  | cancel tag => exact h.cancel tag
  | tick by_ => exact h.tick hforward
  | invalidate key => exact ⟨h.invalidate key, rfl⟩
  | fail | timeOut | abort => exact hworks.elim
  | wake | sweep | start | close => cases hm

/-- **A sweep is not noticed.** What it evicts is stale for good. -/
theorem Veils.sweeping (h : Veils c d) (hm : m.IsSweeping = true) :
    Veils (c.move m).1 d ∧ (c.move m).2 = [] := by
  have hcoherent := h.coherent.move m
  obtain ⟨entries, wake, hmove, hswept⟩ := h.coherent.move_sweeping hm
  rw [hmove] at hcoherent ⊢
  refine ⟨⟨hcoherent, h.coherent', h.span, ?_, fun key => ?_⟩, rfl⟩
  · obtain ⟨old, alarm, hc⟩ := h.same
    exact ⟨entries, wake, by rw [hc]⟩
  · show Matches d (Assoc.find? key entries) _
    have hentry := h.entry key
    rcases hswept key with hkept | ⟨hgone, e, he, hexpired⟩
    · rw [hkept]
      exact hentry
    · rw [hgone]
      rw [he] at hentry
      have hstale : StaleForGood d e.fetchedAt := by
        obtain ⟨old, alarm, rfl⟩ := h.same
        exact staleForGood_of_isExpired h.span hexpired
      have hidle : e.inFlight = false := by
        simpa using (Bool.and_eq_true_iff.mp hexpired).1
      generalize d.entry? key = found at hentry ⊢
      cases hentry with
      | same => exact .evicted hidle hstale
      | pending hflight =>
        rw [hidle] at hflight
        cases hflight

/-! ## Runs -/

theorem Veils.notBack (h : Veils c d) (hforward : c.NotBack m) : d.NotBack m := by
  obtain ⟨entries, wake, rfl⟩ := h.same
  cases m <;> exact hforward

/-- Leaving the sweeps out of a run changes nothing of what it shows. -/
theorem Veils.run_unswept (h : Veils c d) (hrun : Run c ms ended c') (hforward : c.Forward ms)
    (hworks : ∀ m ∈ ms, m.Works) :
    d.Forward (unswept ms) ∧
      ∃ d', Run d (unswept ms) ended d' ∧ c.shown ms = d.shown (unswept ms) := by
  induction hrun generalizing d with
  | nil => exact ⟨trivial, d, .nil d, rfl⟩
  | @cons c _ m ms _ hm _ ih =>
    have hrest : ∀ m ∈ ms, m.Works := fun m hm => hworks m (.tail _ hm)
    rw [shown]
    cases hsweep : m.IsSweeping with
    | true =>
      obtain ⟨hveils, hnobody⟩ := h.sweeping hsweep
      rw [unswept_cons_sweeping hsweep, hnobody, List.nil_append]
      exact ih hveils hforward.2 hrest
    | false =>
      have hback := h.notBack hforward.1
      have hcan := h.can.mp hm
      obtain ⟨hveils, hended⟩ := h.move hsweep hcan hback (hworks m (.head _))
      obtain ⟨hforward', d', hrun', hshown⟩ := ih hveils hforward.2 hrest
      obtain ⟨hwaiting, hfetches, hcount⟩ := hveils.sight
      rw [unswept_cons hsweep]
      refine ⟨⟨hback, hforward'⟩, d', ?_, ?_⟩
      · rw [hended]
        exact .cons hcan hrun'
      · simp only [shown, hsweep, Bool.false_eq_true, if_false]
        rw [hended, hwaiting, hfetches, hcount, hshown]

/-- Neither does putting sweeps into a run. -/
theorem Veils.run_swept (h : Veils c d) (hrun : Run d (unswept ms) ended d')
    (hforward : d.Forward (unswept ms)) (hworks : ∀ m ∈ unswept ms, m.Works) :
    ∃ c', Run c ms ended c' ∧ c.shown ms = d.shown (unswept ms) := by
  induction ms generalizing c d ended with
  | nil =>
    obtain ⟨⟩ := hrun
    exact ⟨c, .nil c, rfl⟩
  | cons m ms ih =>
    rw [shown]
    cases hsweep : m.IsSweeping with
    | true =>
      obtain ⟨hveils, hnobody⟩ := h.sweeping hsweep
      rw [unswept_cons_sweeping hsweep] at *
      obtain ⟨c', hrun', hshown⟩ := ih hveils hrun hforward hworks
      have hcan : c.Can m := by cases m <;> trivial
      refine ⟨c', ?_, hshown⟩
      have hcons := Run.cons hcan hrun'
      rwa [hnobody, List.nil_append] at hcons
    | false =>
      rw [unswept_cons hsweep] at *
      obtain ⟨hcan, rest, rfl, hrest⟩ := run_cons_iff.mp hrun
      obtain ⟨hveils, hended⟩ := h.move hsweep hcan hforward.1 (hworks m (.head _))
      obtain ⟨c', hrun', hshown⟩ :=
        ih hveils hrest hforward.2 fun m hm => hworks m (.tail _ hm)
      obtain ⟨hwaiting, hfetches, hcount⟩ := hveils.sight
      refine ⟨c', ?_, ?_⟩
      · rw [← hended]
        exact .cons (h.can.mpr hcan) hrun'
      · simp only [shown, hsweep, Bool.false_eq_true, if_false]
        rw [hended, hwaiting, hfetches, hcount, hshown]

/-! ## The main statement -/

theorem Veils.refl (hc : Coherent c) (hspan : Double.zero.le c.ttl = true) : Veils c c :=
  ⟨hc, hc, hspan, ⟨c.entries, c.wake, rfl⟩, fun _ => .same _⟩

variable {clock ttl sweepInterval : Double} {timeout : Option Double} {default : ν}

/-- **Sweeps are not noticed while the lookup works.** Take any run from an empty cache in which the
clock does not run back and every fetch that ends succeeds, and another sequence of moves that is the
same up to sweeps, wake-ups, starts and stops of the sweeper. It is a run too, the same getters end
in the same way, and behind every other move the same getters wait and the same fetches have been
started. -/
theorem sweeps_unnoticed (hrun : Run (emptyAt clock default ttl sweepInterval timeout) ms ended d)
    (hspan : Double.zero.le ttl = true)
    (hforward : (emptyAt clock default ttl sweepInterval timeout).Forward ms)
    (hworks : ∀ m ∈ ms, m.Works) (hsame : unswept ms' = unswept ms) :
    ∃ d', Run (emptyAt clock default ttl sweepInterval timeout) ms' ended d' ∧
      (emptyAt clock default ttl sweepInterval timeout).shown ms'
        = (emptyAt clock default ttl sweepInterval timeout).shown ms := by
  have hveils := Veils.refl (coherent_emptyAt clock default ttl sweepInterval timeout) hspan
  obtain ⟨hforward', d', hrun', hshown⟩ := hveils.run_unswept hrun hforward hworks
  rw [← hsame] at hforward' hrun' hshown
  obtain ⟨d'', hrun'', hshown'⟩ := hveils.run_swept hrun' hforward' fun m hm => by
    rw [hsame] at hm
    exact hworks m (List.mem_of_mem_filter hm)
  exact ⟨d'', hrun'', hshown'.trans hshown.symm⟩

/-- A key is fetched, and again after it has been idle for a long time. -/
def idledAndFetched : List (Move Nat) :=
  [.get "a" "k", .succeed "k" 7, .tick (.ofInt 700), .get "b" "k", .succeed "k" 8]

/-- The same, with the sweeper at work in between. -/
def sweptAndFetched : List (Move Nat) :=
  [.start, .get "a" "k", .sweep, .succeed "k" 7, .tick (.ofInt 700), .wake, .sweep, .get "b" "k",
    .sweep, .succeed "k" 8]

/-- An entry that has been swept away is fetched again just as if it had only been stale. -/
theorem sweeps_unnoticed_idled :
    (unhurried.shown idledAndFetched).map Sight.ended
      = [[], [("a", .served 7)], [], [], [("b", .served 8)]] ∧
    unhurried.shown sweptAndFetched = unhurried.shown idledAndFetched := by
  refine ⟨by decide +kernel, ?_⟩
  have hrun : ∃ ended d, Run unhurried idledAndFetched ended d :=
    ⟨_, _, .cons trivial (.cons rfl (.cons trivial (.cons trivial (.single ?_))))⟩
  · obtain ⟨ended, d, hrun⟩ := hrun
    have hforward : unhurried.Forward idledAndFetched := by
      refine ⟨trivial, trivial, ?_, trivial, trivial, trivial⟩
      show (Double.zero.le (Double.zero.add (.ofInt 700))) = true
      decide +kernel
    have hworks : ∀ m ∈ idledAndFetched, m.Works := by
      intro m hm
      simp only [idledAndFetched, List.mem_cons, List.not_mem_nil, or_false] at hm
      rcases hm with rfl | rfl | rfl | rfl | rfl <;> trivial
    have hswept : ∃ d', Run unhurried sweptAndFetched ended d' ∧
        unhurried.shown sweptAndFetched = unhurried.shown idledAndFetched :=
      sweeps_unnoticed hrun (by decide +kernel) hforward hworks rfl
    obtain ⟨-, -, hshown⟩ := hswept
    exact hshown
  · show isPending _ _ = true
    decide +kernel

end Cache

end Telemetry.Quota
