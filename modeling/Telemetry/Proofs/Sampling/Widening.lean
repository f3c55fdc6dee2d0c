import Telemetry.Proofs.Sampling.Points

/-!
# Wider policies

A policy that keeps at least as much by each of its parts keeps at least as much altogether: what
the narrower one keeps by one of its rules the wider one keeps by the same rule, and a point that is
below the lower rate is below the higher one. The rules come first in both, so no decision of the
narrower policy can be undone by an earlier no of the wider one.

Main statement: `keeps_widened`.
-/

namespace Telemetry.Sampling

variable {p q : Policy} {draw point : Double} {event : Json.Object} {kept : Bool}

/-- One number is at most as high as another one, whatever kind of number they are. -/
def AtMost (v w : Json) : Prop := ∃ a b, v.place? = some a ∧ w.place? = some b ∧ a ≤ b

/-- A policy asks for no more than another one does, by any of its parts. -/
structure Policy.Widens (q p : Policy) : Prop where
  rate : p.rate.le q.rate = true
  keepErrors : p.keepErrors = true → q.keepErrors = true
  slowThreshold : AtMost q.slowThreshold p.slowThreshold
  keepPaths : p.keepPaths ⊆ q.keepPaths
  keepUsers : p.keepUsers ⊆ q.keepUsers

/-- What a rule of the narrower policy takes, the same rule of the wider one takes. -/
theorem Policy.Widens.matches (h : q.Widens p) (hmatches : p.Matches event) :
    q.Matches event := by
  cases hmatches with
  | outcome on houtcome => exact .outcome (h.keepErrors on) houtcome
  | status on hx hplace hle => exact .status (h.keepErrors on) hx hplace hle
  | slow hx hplace hbound hlt =>
    obtain ⟨lower, bound, hlower, hbound', hle⟩ := h.slowThreshold
    obtain rfl := Option.some.inj (hbound.symm.trans hbound')
    exact .slow hx hplace hlower (hle.trans_lt hlt)
  | path hpath hpart hin => exact .path hpath (h.keepPaths hpart) hin
  | user hnull hempty hname hmem => exact .user hnull hempty hname (h.keepUsers hmem)

/-- **Sampling is monotone in the policy**: of two decisions on one event with one draw, that of the
wider policy keeps what that of the narrower one keeps. A rate of one keeps everything, and with a
rate of zero the rules alone decide. -/
theorem keeps_widened (p : Policy) (draw : Double) (event : Json.Object) :
    (∀ q : Policy, q.Widens p → keeps p draw event = .ok true →
      ∀ kept, keeps q draw event = .ok kept → kept = true) ∧
    (InUnit draw → ∀ kept, keeps p draw event = .ok kept →
      (p.rate = .ofInt 1 → kept = true) ∧
      (p.rate.isZero = true → (kept = true ↔ p.Matches event))) := by
  constructor
  · intro q h hkept kept hq
    rcases keeps_cases hq with ⟨rfl, -⟩ | ⟨hnormal, point, hpoint, rfl⟩
    · rfl
    · rcases keeps_cases hkept with ⟨-, hmatches⟩ | ⟨-, point', hpoint', hlt⟩
      · exact absurd (h.matches hmatches) hnormal.not_matches
      · obtain rfl := Except.ok.inj (hpoint.symm.trans hpoint')
        exact Double.lt_of_lt_of_le hlt h.rate
  · intro hdraw kept h
    refine ⟨kept_of_rate_one hdraw h, fun hzero => ?_⟩
    rcases keeps_cases h with ⟨rfl, hmatches⟩ | ⟨hnormal, point, hpoint, rfl⟩
    · exact iff_of_true rfl hmatches
    · rw [not_lt_rate_of_zero (inUnit_of_pointOf hdraw hpoint) hzero]
      exact iff_of_false Bool.false_ne_true hnormal.not_matches

/-- A policy that keeps some paths and users, and nothing else. -/
def narrow : Policy := ⟨.zero, false, .float (.infinite false), ["/pay"], ["vip"]⟩

/-- A policy that keeps more of everything. -/
def wide : Policy := ⟨.ofRatio false 1 2, true, .int 1500, ["/health", "/pay"], ["vip", "7"]⟩

/-- A payment that took long. -/
def slowPayment : Json.Object :=
  [("path", .str "/pay/7"), ("duration_ms", .int 1800), ("user_id", .int 7), ("trace_id", .str "t")]

theorem keeps_widened_payment :
    (wide.Widens narrow ∧ keeps narrow .zero slowPayment = .ok true ∧
      keeps wide .zero slowPayment = .ok true ∧ InUnit .zero ∧ narrow.rate.isZero = true) ∧
    (∀ kept, keeps wide .zero slowPayment = .ok kept → kept = true) ∧
    narrow.Matches slowPayment ∧
    ∀ kept, keeps .default .zero slowPayment = .ok kept → kept = true := by
  have hwidens : wide.Widens narrow :=
    ⟨by decide +kernel, nofun, ⟨_, _, rfl, rfl, le_top⟩, by decide, by decide⟩
  have hnarrow : keeps narrow .zero slowPayment = .ok true := ok_of_toOption (by decide +kernel)
  have hwide : keeps wide .zero slowPayment = .ok true := ok_of_toOption (by decide +kernel)
  have hone : Policy.default.rate = .ofInt 1 := by rw [Policy.default]
  refine ⟨⟨hwidens, hnarrow, hwide, inUnit_zero, rfl⟩, ?_, ?_, ?_⟩
  · exact (keeps_widened narrow .zero slowPayment).1 wide hwidens hnarrow
  · exact (((keeps_widened narrow .zero slowPayment).2 inUnit_zero true hnarrow).2 rfl).mp rfl
  · exact fun kept h => ((keeps_widened .default .zero slowPayment).2 inUnit_zero kept h).1 hone

end Telemetry.Sampling
