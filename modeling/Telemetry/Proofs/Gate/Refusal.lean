import Mathlib.Data.Int.Order.Basic
import Telemetry.Proofs.Gate.Accounting

/-!
# Why credentials are refused

Each reason for which a header does not open the gate has a refusal of its own. The reasons exclude
each other and leave nothing out, so the header, the keys and the time of day decide how a request
is refused, and nothing else that the request contains.

Main statements: `Timed.opens_or_refuses`, `Timed.run_authenticate_refused`.
-/

namespace Telemetry.Gate.Collaborators

variable {s : Collaborators} {authorization : Option String} {key : Key} {r : Refusal}

/-! ## Reasons -/

/-- A header presents a key: the keys can be looked up, and its token is that of the key. -/
structure Presents (s : Collaborators) (authorization : Option String) (key : Key) : Prop where
  reachable : s.isDown .find = false
  known : ∃ token, Token.ofHeader? authorization = some token ∧
    s.findKey (Token.digest token) = some key

/-- A key is enabled and not past its expiry. -/
def Current (s : Collaborators) (key : Key) : Prop :=
  key.enabled = true ∧
    ∀ expiry, key.expiresAt = some expiry → s.world.now.instant < expiry.instant

/-- A header does not open the gate, with the refusal that says why. -/
inductive Refuses (s : Collaborators) (authorization : Option String) : Refusal → Prop
  | missing (h : Token.ofHeader? authorization = none) :
    Refuses s authorization (.credential .missing)
  | failing {token : String} (htoken : Token.ofHeader? authorization = some token)
    (hdown : s.isDown .find = true) : Refuses s authorization (.dependency .credentialLookup)
  | unknown {token : String} (htoken : Token.ofHeader? authorization = some token)
    (hup : s.isDown .find = false) (hnone : s.findKey (Token.digest token) = none) :
    Refuses s authorization (.credential .unknown)
  | unusable {key : Key} (hkey : Presents s authorization key) (hnot : ¬ Current s key) :
    Refuses s authorization (.credential .unusable)
  | unbound {key : Key} (hkey : Presents s authorization key) (hcurrent : Current s key)
    (hnone : boundProject? key = none) : Refuses s authorization .unbound

theorem Refuses.status (h : Refuses s authorization r) : r.status ∈ credentialStatuses := by
  cases h <;> decide

theorem Presents.mem (h : Presents s authorization key) : key ∈ s.keys := by
  obtain ⟨token, -, hkey⟩ := h.known
  exact List.mem_of_find?_eq_some hkey

/-- What a usable key is, where expiries can be compared with the time of day. -/
theorem Timed.isUsable_iff (h : Timed s) (hkey : key ∈ s.keys) :
    key.isUsable s.world.now = .ok true ↔ Current s key := by
  unfold Key.isUsable Current
  cases henabled : key.enabled with
  | false => simp
  | true =>
    cases hexpiry : key.expiresAt with
    | none => simp
    | some expiry =>
      have haware : expiry.isAware = s.world.now.isAware := by
        rw [h.expiries key hkey expiry hexpiry, h.clock]
      have hcompare : expiry.compare? s.world.now
          = some (compare expiry.instant s.world.now.instant) := if_pos haware
      simp [hcompare, compare_gt_iff_gt]

theorem Timed.isUsable_of_not (h : Timed s) (hkey : key ∈ s.keys) (hnot : ¬ Current s key) :
    key.isUsable s.world.now = .ok false := by
  obtain ⟨usable, husable⟩ := h.isUsable hkey
  cases usable with
  | false => exact husable
  | true => exact absurd ((h.isUsable_iff hkey).mp husable) hnot

/-! ## The first stage -/

/-- A key that a header presents is the one that its reader goes on with. -/
theorem run_identify_presented (hkey : Presents s authorization key) {usable : Bool}
    (husable : key.isUsable s.world.now = .ok usable) :
    (identify authorization).runWith handle s
      = ((if usable then
            if (boundProject? key).isNone then refuse .unbound else pure (key, s.world.now)
          else refuse (.credential .unusable) : Attempt (Key × Time.DateTime))).runWith handle s := by
  obtain ⟨token, htoken, hfind⟩ := hkey.known
  unfold identify
  rw [htoken]
  dsimp only
  rw [Attempt.runWith_ask_bind]
  dsimp only [handle]
  rw [unlessDown_of_up hkey.reachable, hfind]
  dsimp only
  rw [Attempt.runWith_ask_bind]
  dsimp only [handle]
  rw [Attempt.runWith_lift_bind husable]
  cases usable with
  | false => rfl
  | true => cases (boundProject? key).isNone <;> rfl

theorem Timed.run_identify_refused (h : Timed s) (hr : Refuses s authorization r) :
    (identify authorization).runWith handle s = (.error (.refusal r), s) := by
  cases hr with
  | missing hnone =>
    unfold identify
    rw [hnone]
    rfl
  | failing htoken hdown =>
    unfold identify
    rw [htoken]
    dsimp only
    rw [Attempt.runWith_ask_bind]
    dsimp only [handle]
    rw [unlessDown_of_down hdown]
    rfl
  | unknown htoken hup hnone =>
    unfold identify
    rw [htoken]
    dsimp only
    rw [Attempt.runWith_ask_bind]
    dsimp only [handle]
    rw [unlessDown_of_up hup, hnone]
    rfl
  | unusable hkey hnot =>
    rw [run_identify_presented hkey (h.isUsable_of_not hkey.mem hnot)]
    rfl
  | unbound hkey hcurrent hnone =>
    rw [run_identify_presented hkey ((h.isUsable_iff hkey.mem).mpr hcurrent), hnone]
    rfl

/-- **Credentials that are refused are refused for their reason**, and nothing is noted. -/
theorem Timed.run_authenticate_refused (h : Timed s) (hr : Refuses s authorization r) :
    (authenticate authorization).runWith handle s = (.error (.refusal r), s) :=
  Attempt.runWith_bind_error (h.run_identify_refused hr) _

/-- The key that opens the gate is found, and its use is noted. -/
theorem Timed.run_authenticate_opens (h : Timed s) (hkey : Opens s authorization key) :
    (authenticate authorization).runWith handle s = (.ok key, s.noted key) := by
  rcases run_authenticate h authorization with ⟨other, hother, hrun⟩ | ⟨-, -, hno, -⟩
  · rwa [hkey.unique hother] at hrun
  · exact absurd hkey (hno key)

/-- **A header opens the gate, or there is a reason why it does not.** -/
theorem Timed.opens_or_refuses (h : Timed s) (authorization : Option String) :
    (∃ key, Opens s authorization key) ∨ ∃ r, Refuses s authorization r := by
  cases htoken : Token.ofHeader? authorization with
  | none => exact Or.inr ⟨_, .missing htoken⟩
  | some token =>
    cases hdown : s.isDown .find with
    | true => exact Or.inr ⟨_, .failing htoken hdown⟩
    | false =>
      cases hfind : s.findKey (Token.digest token) with
      | none => exact Or.inr ⟨_, .unknown htoken hdown hfind⟩
      | some key =>
        have hkey : Presents s authorization key := ⟨hdown, token, htoken, hfind⟩
        by_cases hcurrent : Current s key
        · cases hbound : boundProject? key with
          | none => exact Or.inr ⟨_, .unbound hkey hcurrent hbound⟩
          | some project =>
            refine Or.inl ⟨key, hdown, hkey.known, (h.isUsable_iff hkey.mem).mpr hcurrent, ?_⟩
            rw [hbound]
            rfl
        · exact Or.inr ⟨_, .unusable hkey hcurrent⟩

/-- A header that opens the gate is not refused. -/
theorem Refuses.not_opens (h : Timed s) (hr : Refuses s authorization r) :
    ¬ Opens s authorization key := by
  intro hkey
  have hrun := h.run_authenticate_refused hr
  rw [h.run_authenticate_opens hkey] at hrun
  cases hrun

end Telemetry.Gate.Collaborators
