import Telemetry.Proofs.Gate.Conversations
import Telemetry.Proofs.Quota.Knowledge

/-!
# Limits that are known

In every conversation the account of the key is asked for its limit at most once, and the request is
refused with 429 just if the usage has been counted and has reached that limit, or the default cap
where the answer was that there is none.

The answer is what a getter of the quota cache is served. The cache hides failed lookups behind its
default, which the gate takes for the answer that no limit is set, so that an account whose limit is
unknown is blocked once it has reached the default cap.

Main statement: `blocks_known_iff`.
-/

namespace Telemetry.Gate

variable {cap : Int} {xs : List Exchange} {r : Result}

/-! ## Requests -/

/-- **In every conversation a request that asks for the limit of an account is refused with 429 just
if its usage has been counted and has reached the limit**, or the default cap if the answer is that
there is none. -/
theorem converses_program {arrival : Arrival} {account : String} {limit : Option Int}
    (h : (arrival.program cap).Converses xs (.ok r)) (hlimit : (account, limit) ∈ limitsAsked xs) :
    (r.status ≠ 429 ∧ ∀ n ∈ counted xs, n < limit.getD cap) ∨
      ∃ n ∈ counted xs, limit.getD cap ≤ n ∧
        r = .refused .quotaCheck (.quotaExceeded n (limit.getD cap)) := by
  cases hbody : arrival.body? with
  | none =>
    obtain ⟨fault, hprogram⟩ := Arrival.program_of_unread hbody cap
    rw [hprogram] at h
    cases h
  | some body =>
    rw [Arrival.program_of_body hbody, Collaborators.ingest_eq] at h
    obtain ⟨ys, zs, res, rfl, hauth, hnext, hstop⟩ := Attempt.converses_atStage h
    obtain ⟨hno, hnone⟩ := unmetered (hauth.obeys (obeys_authenticate (P := Call.IsUnmetered)
      (fun _ => trivial) trivial (fun _ _ => trivial) _)).1
    rw [limitsAsked_append, hno, List.nil_append] at hlimit
    rw [counted_append, hnone, List.nil_append]
    cases res with
    | error fault =>
      obtain ⟨rfl, -⟩ := hstop fault rfl
      exact absurd hlimit List.not_mem_nil
    | ok key =>
      obtain ⟨us, vs, res, rfl, hcheck, hpass, hrefuse⟩ := Attempt.converses_atStage (hnext key rfl)
      obtain ⟨found, hasked, hverdict⟩ := converses_checkQuota hcheck
      rw [limitsAsked_append, hasked] at hlimit
      rw [counted_append]
      rcases hverdict with ⟨rfl, hbelow⟩ | ⟨n, hn, hle, rfl⟩
      · -- The quota lets the request pass, and nothing behind it asks or answers 429.
        obtain ⟨hcalls, hstatus⟩ := (hpass () rfl).obeys (answers_ingestBody
          (P := Call.IsUnmetered) (fun _ _ => trivial) trivial trivial (fun _ => trivial) _ body)
        obtain ⟨hno, hnone⟩ := unmetered hcalls
        rw [hno, List.append_nil, List.mem_singleton] at hlimit
        cases hlimit
        rw [hnone, List.append_nil]
        exact Or.inl ⟨fun h429 => absurd (h429 ▸ hstatus r rfl) (by decide), hbelow⟩
      · obtain ⟨rfl, hrefused⟩ := hrefuse _ rfl
        obtain ⟨refusal, hfault, rfl⟩ := hrefused r rfl
        cases hfault
        rw [limitsAsked, List.filterMap_nil, List.append_nil, List.mem_singleton] at hlimit
        cases hlimit
        exact Or.inr ⟨n, List.mem_append_left _ hn, hle, rfl⟩

/-! ## Known limits -/

/-- A request is blocked on knowledge only: if it is answered 429, then a lookup of the account has
succeeded since its entry was made, and the cap it was compared with is the limit that was found
last, or the default where that was none. -/
def BlocksKnown (cap : Int) (known : Option (Option Int)) (r : Result) : Prop :=
  r.status = 429 → ∃ limit, known = some limit ∧ Json.get "limit" r.body = .int (limit.getD cap)

section Known

variable {default limit : Option Int} {ttl sweepInterval : Double} {timeout : Option Double}
  {ms : List (Quota.Move (Option Int))} {m : Quota.Move (Option Int)}
  {ended : Quota.Endings (Option Int)} {cache : Quota.Cache (Option Int)} {arrival : Arrival}
  {account : String}

/-- **A request is blocked on knowledge only, unless nothing is known and its usage has reached what
the gate takes for the cap then.** Whatever happens to the cache before and while it serves the
limit of the account, and whatever the other calls of the request are answered. -/
theorem blocks_known_iff
    (hrun : Quota.Cache.Run (.empty default ttl sweepInterval timeout) ms ended cache)
    (hserves : cache.Serves m account limit)
    (hconverses : (arrival.program cap).Converses xs (.ok r))
    (hlimit : (account, limit) ∈ limitsAsked xs) :
    BlocksKnown cap
        ((Quota.Cache.empty default ttl sweepInterval timeout).knownAfter account (ms ++ [m])) r ↔
      ((Quota.Cache.empty default ttl sweepInterval timeout).knownAfter account (ms ++ [m]) = none →
        ∀ n ∈ counted xs, n < default.getD cap) := by
  have hvalue := Quota.Cache.served_known hrun hserves
  generalize (Quota.Cache.empty default ttl sweepInterval timeout).knownAfter account (ms ++ [m])
    = known at hvalue ⊢
  rcases converses_program hconverses hlimit with ⟨hstatus, hbelow⟩ | ⟨n, hn, hle, rfl⟩
  · refine ⟨fun _ hnone n hn => ?_, fun _ h429 => absurd h429 hstatus⟩
    rw [hnone, Option.getD_none] at hvalue
    exact hvalue ▸ hbelow n hn
  · cases known with
    | none =>
      rw [Option.getD_none] at hvalue
      refine ⟨fun hblocks => ?_, fun hbelow => absurd (hbelow rfl n hn) ?_⟩
      · obtain ⟨found, hfound, -⟩ := hblocks rfl
        cases hfound
      · rw [← hvalue]
        exact Int.not_lt.mpr hle
    | some found =>
      refine ⟨fun _ hnone => absurd hnone (Option.some_ne_none _), fun _ _ => ⟨found, rfl, ?_⟩⟩
      rw [Option.getD_some] at hvalue
      rw [hvalue]
      rfl

/-- A cache that is fresh out of the box. -/
def untouched : Quota.Cache (Option Int) :=
  .empty none Quota.Cache.defaultTtl Quota.Cache.defaultSweepInterval
    (some Quota.Cache.defaultTimeout)

/-- The cache with the first getter of an account waiting. -/
def awaiting : Quota.Cache (Option Int) := (untouched.get "" "account").1

theorem run_awaiting : Quota.Cache.Run untouched [.get "" "account"] [] awaiting := .single trivial

/-- The conversation of a request with an empty object under a default cap of zero. -/
def conversation (limit : AccountLimit) : List Exchange :=
  (Collaborators.bare.program 0).transcript Collaborators.handle (Collaborators.limitedBy limit)

/-- A request of an account whose limit of zero has been looked up is blocked on knowledge. -/
theorem blocks_known_zero : Quota.Cache.Run untouched [.get "" "account"] [] awaiting ∧
    awaiting.Serves (.succeed "account" (some 0)) "account" (some 0) ∧
    ("account", some 0) ∈ limitsAsked (conversation (.cap 0)) ∧
    ∃ r, (Collaborators.bare.program 0).Converses (conversation (.cap 0)) (.ok r) ∧
      r.status = 429 ∧ BlocksKnown 0 (untouched.knownAfter "account"
        ([.get "" "account"] ++ [.succeed "account" (some 0)])) r := by
  have hserves : awaiting.Serves (.succeed "account" (some 0)) "account" (some 0) :=
    .ended rfl (.succeed _)
  have hasked : ("account", some 0) ∈ limitsAsked (conversation (.cap 0)) := by decide +kernel
  obtain ⟨r, hr, hstatus⟩ := Collaborators.Visit.answer_of_status (by decide +kernel :
    (Collaborators.visit 0 (Collaborators.limitedBy (.cap 0)) Collaborators.bare).status? = some 429)
  have hconverses : (Collaborators.bare.program 0).Converses (conversation (.cap 0)) (.ok r) :=
    converses_visit hr
  refine ⟨run_awaiting, hserves, hasked, r, hconverses, hstatus, ?_⟩
  exact (blocks_known_iff run_awaiting hserves hconverses hasked).mpr (by decide)

/-- **An account whose limit is unknown is blocked** by a default cap of zero: the only lookup has
failed, and the request is answered 429. -/
theorem unknown_blocked : Quota.Cache.Run untouched [.get "" "account"] [] awaiting ∧
    awaiting.Serves (.fail "account") "account" none ∧
    ("account", none) ∈ limitsAsked (conversation .down) ∧
    ∃ r, (Collaborators.bare.program 0).Converses (conversation .down) (.ok r) ∧
      r.status = 429 ∧ ¬ BlocksKnown 0 (untouched.knownAfter "account"
        ([.get "" "account"] ++ [.fail "account"])) r := by
  obtain ⟨r, hr, hstatus⟩ := Collaborators.Visit.answer_of_status (by decide +kernel :
    (Collaborators.visit 0 (Collaborators.limitedBy .down) Collaborators.bare).status? = some 429)
  have hends : awaiting.EndsWith "account" (.fail "account") (.served none) :=
    .fail (e := ⟨none, .zero, true⟩) rfl
  refine ⟨run_awaiting, .ended rfl hends, by decide +kernel, r, converses_visit hr, hstatus,
    fun hblocks => ?_⟩
  obtain ⟨limit, hknown, -⟩ := hblocks hstatus
  cases hknown

end Known

end Telemetry.Gate
