import Mathlib.Data.List.Chain
import Telemetry.Proofs.Quota.Coalescing
import Telemetry.Proofs.Quota.Eviction

/-!
# The load on the lookup

For each key the calls of the lookup do not overlap, and from the completion of one call to the
start of the next the time to live passes, whether the call succeeded, failed or timed out, and
whatever is evicted in between. The time that passes is measured by the clock, whose differences
are rounded; the exact time can fall short of the time to live by one part in 2⁵³.

Main statement: `spacing`.
-/

namespace Telemetry.Quota.Cache

variable {ν : Type} {c d : Cache ν} {m : Move ν} {key : String} {e : Entry ν}

/-! ## Calls of the lookup -/

/-- What happens to a call: it starts, or it completes, with a value or without one. -/
inductive Signal
  | started
  | completed
deriving DecidableEq

/-- A signal of a call for a key, and the reading of the clock. -/
structure Call where
  signal : Signal
  key : String
  time : Double
deriving DecidableEq

/-- The signals of a move. -/
def callsOf (c : Cache ν) : Move ν → List Call
  | .get tag key =>
    if (c.get tag key).1.fetchCount = c.fetchCount then [] else [⟨.started, key, c.clock⟩]
  | .succeed key _ | .fail key | .timeOut key => [⟨.completed, key, c.clock⟩]
  | _ => []

/-- The signals of a sequence of moves. -/
def calls (c : Cache ν) : List (Move ν) → List Call
  | [] => []
  | m :: ms => c.callsOf m ++ (c.move m).1.calls ms

/-- The signals of one key. -/
def callsFor (key : String) (cs : List Call) : List Call := cs.filter (·.key = key)

/-- A span lies between two readings of the clock, as the clock measures it. Its differences are
rounded: where the exact difference is a double it is no less than the span, and otherwise it falls
short by one part in 2⁵³ at most. -/
structure Apart (span past now : Double) : Prop where
  measured : (now.sub past).lt span = false
  exact : ∀ a b d, now.units? = some a → past.units? = some b → span.units? = some d →
    Double.Representable (a - b).natAbs → d ≤ a - b
  near : ∀ a b d, now.units? = some a → past.units? = some b → span.units? = some d →
    (2 ^ 53 - 1) * d ≤ 2 ^ 53 * (a - b)

/-- Which signal of a key may follow which: a call that has started completes before the next
starts, and before that the time to live passes. -/
inductive Follows (ttl : Double) : Call → Call → Prop
  | completes {key other : String} {past now : Double} :
    Follows ttl ⟨.started, key, past⟩ ⟨.completed, other, now⟩
  | starts {key other : String} {past now : Double} (h : Apart ttl past now) :
    Follows ttl ⟨.completed, key, past⟩ ⟨.started, other, now⟩

theorem apart_of_not_lt {span past now : Double} (hspan : Double.zero.le span = true)
    (h : (now.sub past).lt span = false) : Apart span past now :=
  ⟨h, fun _ _ _ ha hb hd hrepr => Double.le_of_not_sub_lt h ha hb hd hrepr,
    fun _ _ _ ha hb hd => Double.exact_of_not_sub_lt h hspan ha hb hd⟩

/-! ## What an entry tells of the last call -/

/-- What the entry of a key tells of the last signal of the key. An entry in flight belongs to a
call that has started; another one carries the time at which the last call has completed. A key
without an entry has not been asked for, or its last call is stale for good. -/
inductive Tells (c : Cache ν) (key : String) : Option (Entry ν) → Option Call → Prop
  | pending {e : Entry ν} (time : Double) (h : e.inFlight = true) :
    Tells c key (some e) (some ⟨.started, key, time⟩)
  | settled {e : Entry ν} (h : e.inFlight = false) :
    Tells c key (some e) (some ⟨.completed, key, e.fetchedAt⟩)
  | unasked : Tells c key none none
  | evicted {past : Double} (h : StaleForGood c past) :
    Tells c key none (some ⟨.completed, key, past⟩)

theorem Tells.congr {found : Option (Entry ν)} {last : Option Call} (h : Tells c key found last)
    (hstale : ∀ past, StaleForGood c past → StaleForGood d past) : Tells d key found last := by
  cases h with
  | pending time h => exact .pending time h
  | settled h => exact .settled h
  | unasked => exact .unasked
  | evicted h => exact .evicted (hstale _ h)

/-- The signals so far are spaced, and every entry tells of the last one of its key. -/
structure Paced (ttl : Double) (h : List Call) (c : Cache ν) : Prop where
  coherent : Coherent c
  ttl_eq : c.ttl = ttl
  span : Double.zero.le ttl = true
  chain : ∀ key, (callsFor key h).IsChain (Follows ttl)
  last : ∀ key, Tells c key (c.entry? key) (callsFor key h).getLast?

variable {ttl : Double} {h : List Call}

theorem callsFor_snoc (key : String) (h : List Call) (call : Call) :
    callsFor key (h ++ [call])
      = if call.key = key then callsFor key h ++ [call] else callsFor key h := by
  unfold callsFor
  rw [List.filter_append, List.filter_singleton]
  split <;> rename_i hkey <;> simp [hkey]

/-- Without a signal, what the entries tell is all that has to be kept. -/
theorem Paced.quiet (hc : Paced ttl h c) (hd : Coherent d) (httl : d.ttl = c.ttl)
    (hlast : ∀ key, Tells d key (d.entry? key) (callsFor key h).getLast?) : Paced ttl (h ++ []) d := by
  rw [List.append_nil]
  exact ⟨hd, httl.trans hc.ttl_eq, hc.span, hc.chain, hlast⟩

/-- A signal of a key is in its place if it may follow the last one and the key's entry tells of
it. -/
theorem Paced.call (hc : Paced ttl h c) (hd : Coherent d) (httl : d.ttl = c.ttl)
    (hclock : d.clock = c.clock) {call : Call}
    (hfollows : ∀ last ∈ (callsFor call.key h).getLast?, Follows ttl last call)
    (hentry : Tells d call.key (d.entry? call.key) (some call))
    (hother : ∀ other, other ≠ call.key → d.entry? other = c.entry? other) :
    Paced ttl (h ++ [call]) d where
  coherent := hd
  ttl_eq := httl.trans hc.ttl_eq
  span := hc.span
  chain := by
    intro key
    rw [callsFor_snoc]
    split
    · rename_i hkey
      subst hkey
      refine List.isChain_append.mpr ⟨hc.chain _, List.isChain_singleton call, ?_⟩
      intro last hlast next hnext
      obtain rfl : call = next := Option.some.inj hnext
      exact hfollows last hlast
    · exact hc.chain key
  last := by
    intro key
    rw [callsFor_snoc]
    split
    · rename_i hkey
      subst hkey
      rwa [List.getLast?_append, List.getLast?_singleton, Option.some_or]
    · rename_i hkey
      rw [hother key (Ne.symm hkey)]
      exact (hc.last key).congr fun past hstale => hstale.congr hclock httl

/-! ## Every move keeps the spacing -/

theorem Paced.startFetch (hc : Paced ttl h c) {tag : String}
    (hget : c.get tag key = (c.startFetch tag key e, []))
    (hfollows : ∀ last ∈ (callsFor key h).getLast?, Follows ttl last ⟨.started, key, c.clock⟩) :
    Paced ttl (h ++ c.callsOf (.get tag key)) (c.get tag key).1 := by
  have hcoherent := hc.coherent.get tag key
  have hcalls : c.callsOf (.get tag key) = [⟨.started, key, c.clock⟩] := by
    rw [callsOf, hget]
    exact if_neg (Nat.succ_ne_self c.fetchCount)
  rw [hcalls]
  rw [hget] at hcoherent ⊢
  have hentry (other : String) : entry? (c.startFetch tag key e) other
      = if other = key then some { e with inFlight := true } else c.entry? other :=
    lookup_put _ c.entries
  refine hc.call hcoherent rfl rfl hfollows ?_ fun other hother => ?_
  · rw [hentry, if_pos rfl]
    exact .pending c.clock rfl
  · rw [hentry, if_neg hother]

/-- A getter starts a call if the last one of its key is stale. -/
theorem Paced.get (hc : Paced ttl h c) (tag key : String) :
    Paced ttl (h ++ c.callsOf (.get tag key)) (c.get tag key).1 := by
  have hlast := hc.last key
  have hcoherent := hc.coherent.get tag key
  -- A getter that waits or is served leaves the entries and the lookup alone.
  have hquiet (hget : (c.get tag key).1 = c.wait tag key ∨ (c.get tag key).1 = c) :
      Paced ttl (h ++ c.callsOf (.get tag key)) (c.get tag key).1 := by
    have hcalls : c.callsOf (.get tag key) = [] := by
      refine if_pos ?_
      rcases hget with hget | hget <;> rw [hget]
      rfl
    rw [hcalls]
    rcases hget with hget | hget <;> rw [hget] at hcoherent ⊢
    · exact hc.quiet hcoherent rfl fun key => (hc.last key).congr fun _ h => h.congr rfl rfl
    · exact hc.quiet hcoherent rfl hc.last
  cases he : c.entry? key with
  | none =>
    rw [he] at hlast
    refine hc.startFetch (get_of_none he tag) fun last hmem => ?_
    rw [Option.mem_def] at hmem
    rw [hmem] at hlast
    cases hlast with
    | evicted hstale =>
      exact .starts (apart_of_not_lt hc.span (hc.ttl_eq ▸ hstale.later _ hstale.clock))
  | some e =>
    rw [he] at hlast
    cases hflight : e.inFlight with
    | true => exact hquiet (Or.inl (congrArg Prod.fst (get_of_inFlight he hflight tag)))
    | false =>
      cases hfresh : c.isFresh e with
      | true => exact hquiet (Or.inr (congrArg Prod.fst (get_of_isFresh he hflight hfresh tag)))
      | false =>
        refine hc.startFetch (get_of_stale he hflight hfresh tag) fun last hmem => ?_
        rw [Option.mem_def] at hmem
        rw [hmem] at hlast
        cases hlast with
        | pending _ hflight' =>
          rw [hflight] at hflight'
          cases hflight'
        | settled => exact .starts (apart_of_not_lt hc.span (hc.ttl_eq ▸ hfresh))

/-- The end of a call stamps the entry. -/
theorem Paced.finish (hc : Paced ttl h c) (hpending : c.isPending key = true) (fetched : Option ν) :
    Paced ttl (h ++ [⟨.completed, key, c.clock⟩]) (c.finish key fetched).1 := by
  have hcoherent := hc.coherent.finish key fetched
  obtain ⟨e, he, hflight⟩ := (hc.coherent.marked key).mp hpending
  rw [finish_eq he] at hcoherent ⊢
  have hentry (other : String) :
      entry? (c.endFetch key ⟨fetched.getD e.value, c.clock, false⟩) other
        = if other = key then some ⟨fetched.getD e.value, c.clock, false⟩ else c.entry? other :=
    lookup_put _ c.entries
  have hlast := hc.last key
  rw [he] at hlast
  refine hc.call hcoherent rfl rfl (fun last hmem => ?_) ?_ fun other hother => ?_
  · rw [Option.mem_def] at hmem
    rw [hmem] at hlast
    cases hlast with
    | pending => exact .completes
    | settled hidle =>
      rw [hflight] at hidle
      cases hidle
  · rw [hentry, if_pos rfl]
    exact .settled rfl
  · rw [hentry, if_neg hother]

/-- What is evicted is stale for good. -/
theorem Paced.sweeping (hc : Paced ttl h c) (hm : m.IsSweeping = true) :
    Paced ttl (h ++ []) (c.move m).1 := by
  have hcoherent := hc.coherent.move m
  obtain ⟨entries, wake, hmove, hswept⟩ := hc.coherent.move_sweeping hm
  rw [hmove] at hcoherent ⊢
  refine hc.quiet hcoherent rfl fun key => ?_
  have hlast := hc.last key
  rcases hswept key with hkept | ⟨hgone, e, he, hexpired⟩
  · show Tells _ key (Assoc.find? key entries) _
    rw [hkept]
    exact hlast.congr fun _ h => h.congr rfl rfl
  · show Tells _ key (Assoc.find? key entries) _
    have hstale := staleForGood_of_isExpired (hc.ttl_eq ▸ hc.span) hexpired
    have hidle : e.inFlight = false := by
      simpa using (Bool.and_eq_true_iff.mp hexpired).1
    rw [hgone]
    rw [he] at hlast
    generalize (callsFor key h).getLast? = last at hlast ⊢
    cases hlast with
    | pending _ hflight =>
      rw [hidle] at hflight
      cases hflight
    | settled => exact .evicted (hstale.congr rfl rfl)

/-- **Every move keeps the spacing**, as long as the clock does not run back, nothing is invalidated
and no fetch is aborted. -/
theorem Paced.move (hc : Paced ttl h c) (hm : c.Can m) (hforward : c.NotBack m)
    (hinvalidate : ∀ key, m ≠ .invalidate key) (habort : ∀ key, m ≠ .abort key) :
    Paced ttl (h ++ c.callsOf m) (c.move m).1 := by
  cases m with
  | get tag key => exact hc.get tag key
  | succeed key value => exact hc.finish hm (some value)
  | fail key => exact hc.finish hm none
  | timeOut key => exact hc.finish (isPending_of_can_timeOut hm) none
  | abort key => exact absurd rfl (habort key)
  | invalidate key => exact absurd rfl (hinvalidate key)
  | cancel tag =>
    refine hc.quiet (hc.coherent.cancel tag) ?_ fun key => ?_
    · show (c.cancel tag).1.ttl = c.ttl
      rw [cancel_fst]
      rfl
    · show Tells (c.cancel tag).1 key (Assoc.find? key (c.cancel tag).1.entries) _
      rw [cancel_fst]
      exact (hc.last key).congr fun _ h => h.congr rfl rfl
  | tick by_ =>
    exact hc.quiet (hc.coherent.move (.tick by_)) rfl fun key =>
      (hc.last key).congr fun _ h => h.tick hforward
  | wake | sweep | start | close => exact hc.sweeping rfl

/-! ## Every run -/

theorem Run.paced {ms : List (Move ν)} {ended : Endings ν} (hrun : Run c ms ended d) :
    ∀ {h : List Call}, Paced ttl h c → c.Forward ms →
      (∀ m ∈ ms, (∀ key, m ≠ .invalidate key) ∧ ∀ key, m ≠ .abort key) →
      Paced ttl (h ++ c.calls ms) d := by
  induction hrun with
  | nil c =>
    intro h hc _ _
    rw [calls, List.append_nil]
    exact hc
  | cons hm _ ih =>
    intro h hc hforward hms
    obtain ⟨hinvalidate, habort⟩ := hms _ (.head _)
    rw [calls, ← List.append_assoc]
    exact ih (hc.move hm hforward.1 hinvalidate habort) hforward.2 fun m hm => hms m (.tail _ hm)

theorem paced_emptyAt (clock : Double) (default : ν)
    (hspan : Double.zero.le ttl = true) (sweepInterval : Double) (timeout : Option Double) :
    Paced ttl [] (emptyAt clock default ttl sweepInterval timeout) where
  coherent := coherent_emptyAt clock default ttl sweepInterval timeout
  ttl_eq := rfl
  span := hspan
  chain := fun _ => List.isChain_nil
  last := fun _ => .unasked

variable {clock sweepInterval : Double} {timeout : Option Double} {default : ν}
  {ms : List (Move ν)} {ended : Endings ν}

/-- **The calls of the lookup for a key are spaced.** They start and complete in turn, and from each
completion to the next start the time to live passes on the clock, through failures, timeouts,
cancelled getters and evictions, while nothing is invalidated and no fetch is aborted. -/
theorem spacing (hrun : Run (emptyAt clock default ttl sweepInterval timeout) ms ended d)
    (hspan : Double.zero.le ttl = true)
    (hforward : (emptyAt clock default ttl sweepInterval timeout).Forward ms)
    (hms : ∀ m ∈ ms, (∀ key, m ≠ .invalidate key) ∧ ∀ key, m ≠ .abort key) (key : String) :
    (callsFor key ((emptyAt clock default ttl sweepInterval timeout).calls ms)).IsChain
      (Follows ttl) :=
  (hrun.paced (paced_emptyAt clock default hspan sweepInterval timeout) hforward hms).chain key

/-- A fetch fails, its entry is evicted, and another getter arrives. -/
def failedAndEvicted : List (Move Nat) :=
  [.get "a" "k", .fail "k", .tick (.ofInt 700), .sweep, .get "b" "k"]

/-- A lookup that has failed is not asked again before the time to live has passed, though its entry
has been evicted. -/
theorem spacing_evicted :
    unhurried.calls failedAndEvicted
      = [⟨.started, "k", .zero⟩, ⟨.completed, "k", .zero⟩, ⟨.started, "k", .ofInt 700⟩] ∧
    (callsFor "k" (unhurried.calls failedAndEvicted)).IsChain (Follows defaultTtl) := by
  refine ⟨by decide +kernel, ?_⟩
  have hrun : ∃ ended d, Run unhurried failedAndEvicted ended d :=
    ⟨_, _, .cons trivial (.cons rfl (.cons trivial (.cons trivial (.single trivial))))⟩
  obtain ⟨ended, d, hrun⟩ := hrun
  refine spacing hrun (by decide +kernel) ⟨trivial, trivial, ?_, trivial, trivial, trivial⟩ ?_ "k"
  · show (Double.zero.le (Double.zero.add (.ofInt 700))) = true
    decide +kernel
  · intro m hm
    simp only [failedAndEvicted, List.mem_cons, List.not_mem_nil, or_false] at hm
    rcases hm with rfl | rfl | rfl | rfl | rfl <;> exact ⟨nofun, nofun⟩

/-- A fifth of a second. -/
def fifth : Double := .ofRatio false 1 5

/-- A fetch completes after a fifth of a second, and a getter arrives when five minutes have been
added to the clock. -/
def afterFiveMinutes : List (Move Nat) :=
  [.tick fifth, .get "a" "k", .succeed "k" 7, .tick defaultTtl, .get "b" "k"]

/-- The exact time between two calls can fall short of the time to live: both the reading after five
minutes and its difference from the first are rounded, the one down and the other up. -/
theorem exactly_short :
    (∃ ended d, Run unhurried afterFiveMinutes ended d) ∧ unhurried.Forward afterFiveMinutes ∧
    unhurried.calls afterFiveMinutes
      = [⟨.started, "k", fifth⟩, ⟨.completed, "k", fifth⟩,
          ⟨.started, "k", fifth.add defaultTtl⟩] ∧
    ∃ a ∈ (fifth.add defaultTtl).units?, ∃ b ∈ fifth.units?, ∃ d ∈ defaultTtl.units?, a - b < d := by
  refine ⟨⟨_, _, .cons trivial (.cons trivial (.cons ?_ (.cons trivial (.single trivial))))⟩,
    ⟨?_, trivial, trivial, ?_, trivial, trivial⟩, by decide +kernel, by decide +kernel⟩
  · show isPending _ _ = true
    decide +kernel
  · show (Double.zero.le (Double.zero.add fifth)) = true
    decide +kernel
  · show Double.le _ _ = true
    decide +kernel

end Telemetry.Quota.Cache
