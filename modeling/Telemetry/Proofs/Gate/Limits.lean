import Telemetry.Proofs.Gate.Stages
import Telemetry.Proofs.Quota.Lookup

/-!
# Accounts with a fixed limit

The limit of an account is fixed if the limits service always gives the same answer about it and the
quota cache holds nothing else. Then every lookup is answered with that limit, and whatever the
collaborators are asked, it stays so.

Main statements: `Limited.answer`, `Limited.call`.
-/

namespace Telemetry.Gate.Collaborators

variable {s t : Collaborators} {account : String} {limit : Option Int}

/-- The limit of an account is fixed: there is no limits service and no limit, or the service
answers with this limit, lookups are given time, and the quota cache holds nothing else. -/
def Limited (s : Collaborators) (account : String) (limit : Option Int) : Prop :=
  match s.quota with
  | none => limit = none
  | some cache => cache.Idle ∧ cache.Patient ∧ cache.Holds account limit ∧
      ∀ asked, (s.askLimit account asked).1 = some limit

theorem limited_of_none (h : s.quota = none) : Limited s account limit ↔ limit = none := by
  unfold Limited
  rw [h]

theorem limited_of_some {cache : Quota.Cache (Option Int)} (h : s.quota = some cache) :
    Limited s account limit ↔ cache.Idle ∧ cache.Patient ∧ cache.Holds account limit ∧
      ∀ asked, (s.askLimit account asked).1 = some limit := by
  unfold Limited
  rw [h]

/-- Only the quota cache matters, and what the limits service answers about the account. -/
theorem Limited.congr (h : Limited s account limit) (hquota : t.quota = s.quota)
    (hask : ∀ asked, (t.askLimit account asked).1 = (s.askLimit account asked).1) :
    Limited t account limit := by
  unfold Limited at *
  rw [hquota]
  simpa only [hask] using h

theorem handle_limit_some {cache : Quota.Cache (Option Int)} (h : s.quota = some cache)
    (account : String) : handle (.limit account) s
      = ((cache.getNow s.askLimit account s.asked).1,
        { s with
          quota := some (cache.getNow s.askLimit account s.asked).2.1
          asked := (cache.getNow s.askLimit account s.asked).2.2 }) := by
  simp only [handle, h]
  rfl

theorem handle_limit_none (h : s.quota = none) (account : String) :
    handle (.limit account) s = (none, s) := by
  simp only [handle, h]
  rfl

/-- **Every lookup is answered with the limit of the account.** -/
theorem Limited.answer (h : Limited s account limit) : (handle (.limit account) s).1 = limit := by
  cases hquota : s.quota with
  | none =>
    rw [handle_limit_none hquota]
    exact ((limited_of_none hquota).mp h).symm
  | some cache =>
    obtain ⟨hidle, hpatient, hholds, hask⟩ := (limited_of_some hquota).mp h
    rw [handle_limit_some hquota]
    exact (hidle.getNow_of_holds hpatient hholds (hask s.asked)).1

theorem Limited.lookup (h : Limited s account limit) (other : String) :
    Limited (handle (.limit other) s).2 account limit := by
  cases hquota : s.quota with
  | none =>
    rw [handle_limit_none hquota]
    exact h
  | some cache =>
    obtain ⟨hidle, hpatient, hholds, hask⟩ := (limited_of_some hquota).mp h
    obtain ⟨hidle', hpatient'⟩ := hidle.getNow_idle hpatient s.askLimit other s.asked
    rw [handle_limit_some hquota]
    refine (limited_of_some rfl).mpr ⟨hidle', hpatient', ?_, hask⟩
    by_cases hother : account = other
    · subst hother
      exact (hidle.getNow_of_holds hpatient hholds (hask s.asked)).2
    · exact hidle.getNow_holds_of_ne hpatient hholds hother s.askLimit s.asked

/-- **Whatever the collaborators are asked, the limit stays fixed.** -/
theorem Limited.call (h : Limited s account limit) (c : Call) :
    Limited (handle c s).2 account limit := by
  cases c with
  | limit other => exact h.lookup other
  | recordUsage key time =>
    unfold handle
    dsimp only
    split <;> exact h.congr rfl fun _ => rfl
  | insert event =>
    unfold handle
    dsimp only
    split <;> exact h.congr rfl fun _ => rfl
  | freshId =>
    unfold handle freshId
    dsimp only
    split <;> exact h.congr rfl fun _ => rfl
  | query statement => exact h.congr rfl fun _ => rfl
  | findKey | projectsOf | countSince | hasEventType | now => exact h

/-- A quiet move of the quota cache keeps a limit fixed, as long as lookups are still given time. -/
theorem Limited.move {cache : Quota.Cache (Option Int)} (h : Limited s account limit)
    (hquota : s.quota = some cache) {m : Quota.Move (Option Int)} (hm : m.IsQuiet)
    (hpatient : (cache.move m).1.Patient) :
    Limited { s with quota := some (cache.move m).1 } account limit := by
  obtain ⟨hidle, -, hholds, hask⟩ := (limited_of_some hquota).mp h
  exact (limited_of_some rfl).mpr ⟨hidle.move hm, hpatient, hholds.move hidle.coherent hm, hask⟩

end Telemetry.Gate.Collaborators
