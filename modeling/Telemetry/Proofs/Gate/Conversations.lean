import Telemetry.Proofs.Gate.Conduct

/-!
# Conversations

A request is followed through its conversation: the calls that it makes and what each of them is
answered, whoever answers it and whatever happens in between. The conversation of a request is made
up of those of its stages, and each stage makes only calls of its own.

Main statements: `Program.converses_bind` and `Attempt.converses_atStage`, which take a conversation
apart, and `converses_checkQuota` for the quota.
-/

namespace Telemetry.Gate

variable {α β : Type} {cap : Int} {P : Call → Prop}

/-! ## Conversations -/

/-- A call with its answer. -/
abbrev Exchange := (c : Call) × c.Answer

namespace Program

/-- A program ends with a result after its calls have been answered in some way. -/
inductive Converses : Program α → List Exchange → α → Prop
  | done (a : α) : Converses (.done a) [] a
  | call {c : Call} {next : c.Answer → Program α} (answer : c.Answer) {xs : List Exchange} {a : α}
    (h : Converses (next answer) xs a) : Converses (.call c next) (⟨c, answer⟩ :: xs) a

variable {p : Program α} {f : α → Program β} {xs : List Exchange} {a : α} {b : β}
  {Q : α → Prop} {n : Nat}

theorem Converses.obeys (h : p.Converses xs a) (hp : p.Obeys P Q n) : (∀ x ∈ xs, P x.1) ∧ Q a := by
  induction h generalizing n with
  | done a => exact ⟨fun x hx => absurd hx List.not_mem_nil, hp⟩
  | call answer _ ih =>
    cases n with
    | zero => exact hp.elim
    | succ n =>
      obtain ⟨hcalls, hresult⟩ := ih (hp.2 answer)
      refine ⟨fun x hx => ?_, hresult⟩
      rcases List.mem_cons.mp hx with rfl | hx
      · exact hp.1
      · exact hcalls x hx

/-- A conversation of a program and what comes after it is one of each, in this order. -/
theorem converses_bind (h : (p >>= f).Converses xs b) :
    ∃ ys zs a, xs = ys ++ zs ∧ p.Converses ys a ∧ (f a).Converses zs b := by
  induction p generalizing xs with
  | done a => exact ⟨[], xs, a, rfl, .done a, h⟩
  | call c next ih =>
    cases h with
    | call answer h =>
      obtain ⟨ys, zs, a, rfl, hp, hf⟩ := ih answer h
      exact ⟨⟨c, answer⟩ :: ys, zs, a, rfl, .call answer hp, hf⟩

/-- The conversation of a program whose calls are answered one after the other. -/
def transcript {σ : Type} (handler : (c : Call) → σ → c.Answer × σ) :
    Program α → σ → List Exchange
  | .done _, _ => []
  | .call c next, s =>
    ⟨c, (handler c s).1⟩ :: (next (handler c s).1).transcript handler (handler c s).2

theorem converses_transcript {σ : Type} (handler : (c : Call) → σ → c.Answer × σ) (p : Program α)
    (s : σ) : p.Converses (p.transcript handler s) (p.run handler s).1 := by
  induction p generalizing s with
  | done a => exact .done a
  | call c next ih => exact .call _ (ih _ _)

end Program

/-- A request that is handled over memory is a conversation. -/
theorem converses_visit {s : Collaborators} {arrival : Arrival} {r : Result}
    (h : (Collaborators.visit cap s arrival).answer = .ok r) :
    (arrival.program cap).Converses ((arrival.program cap).transcript Collaborators.handle s)
      (.ok r) :=
  h ▸ (arrival.program cap).converses_transcript Collaborators.handle s

namespace Attempt

variable {x : Attempt α} {f : α → Attempt β} {xs : List Exchange} {b : Except Fault β}

theorem converses_ask_bind {c : Call} {f : c.Answer → Attempt β}
    (h : (Attempt.ask c >>= f).run.Converses xs b) :
    ∃ answer ys, xs = ⟨c, answer⟩ :: ys ∧ (f answer).run.Converses ys b := by
  change (Program.call c fun answer => (f answer).run).Converses xs b at h
  cases h with
  | call answer h => exact ⟨answer, _, rfl, h⟩

theorem converses_bind (h : (x >>= f).run.Converses xs b) :
    ∃ ys zs res, xs = ys ++ zs ∧ x.run.Converses ys res ∧
      (ExceptT.bindCont f res).Converses zs b :=
  Program.converses_bind h

/-- Where a stage ends well the next follows. Otherwise it is the end of the request, with a result
if it refuses it. -/
theorem converses_atStage {stage : Stage} {f : α → Attempt Result} {answer : Except Fault Result}
    (h : (atStage stage x f).run.Converses xs answer) :
    ∃ ys zs res, xs = ys ++ zs ∧ x.run.Converses ys res ∧
      (∀ a, res = .ok a → (f a).run.Converses zs answer) ∧
      ∀ fault, res = .error fault → zs = [] ∧
        ∀ r, answer = .ok r → ∃ refusal, fault = .refusal refusal ∧ r = .refused stage refusal := by
  obtain ⟨ys, zs, res, hxs, hx, hrest⟩ := Program.converses_bind h
  refine ⟨ys, zs, res, hxs, hx, fun a hres => ?_, fun fault hres => ?_⟩ <;> subst hres
  · exact hrest
  · cases fault with
    | refusal refusal =>
      cases hrest
      exact ⟨rfl, fun r hr => ⟨refusal, rfl, (Except.ok.inj hr).symm⟩⟩
    | _ =>
      cases hrest
      exact ⟨rfl, fun r hr => nomatch hr⟩

end Attempt

/-! ## What is asked about an account -/

/-- The account and the answer of an exchange that asks for a limit. -/
def Exchange.limit? : Exchange → Option (String × Option Int)
  | ⟨.limit account, limit⟩ => some (account, limit)
  | _ => none

/-- The count of an exchange that counts events, if that has worked. -/
def Exchange.count? : Exchange → Option Int
  | ⟨.countSince .., answer⟩ => Except.toOption answer
  | _ => none

/-- The limits that are asked for in a conversation, with the answers. -/
def limitsAsked (xs : List Exchange) : List (String × Option Int) := xs.filterMap Exchange.limit?

/-- The counts of events in a conversation that have worked. -/
def counted (xs : List Exchange) : List Int := xs.filterMap Exchange.count?

/-- A call that does not ask about the usage of an account. -/
def Call.IsUnmetered : Call → Prop
  | .limit _ | .countSince .. => False
  | _ => True

theorem limitsAsked_append (xs ys : List Exchange) :
    limitsAsked (xs ++ ys) = limitsAsked xs ++ limitsAsked ys := List.filterMap_append

theorem counted_append (xs ys : List Exchange) : counted (xs ++ ys) = counted xs ++ counted ys :=
  List.filterMap_append

theorem unmetered {xs : List Exchange} (h : ∀ x ∈ xs, x.1.IsUnmetered) :
    limitsAsked xs = [] ∧ counted xs = [] := by
  constructor <;>
  · refine List.filterMap_eq_nil_iff.mpr fun x hx => ?_
    obtain ⟨c, answer⟩ := x
    have hc := h _ hx
    cases c <;> first | rfl | exact hc.elim

/-! ## The quota -/

variable {xs : List Exchange} {key : Key} {r : Result}

theorem converses_monthlyUsage {res : Except Fault (Option Int)}
    (h : (monthlyUsage key).run.Converses xs res) :
    ∃ usage, res = .ok usage ∧ limitsAsked xs = [] ∧ counted xs = usage.toList := by
  obtain ⟨projects, ys, rfl, hlisted⟩ := Attempt.converses_ask_bind h
  rcases projects with fault | projects
  · cases hlisted
    exact ⟨none, rfl, rfl, rfl⟩
  · obtain ⟨now, ys, rfl, hnow⟩ := Attempt.converses_ask_bind hlisted
    cases hsince : monthStart now with
    | error fault =>
      rw [hsince] at hnow
      cases hnow
      exact ⟨none, rfl, rfl, rfl⟩
    | ok since =>
      rw [hsince] at hnow
      obtain ⟨count, ys, rfl, hcount⟩ := Attempt.converses_ask_bind hnow
      rcases count with fault | n
      · cases hcount
        exact ⟨none, rfl, rfl, rfl⟩
      · cases hcount
        exact ⟨some n, rfl, rfl, rfl⟩

/-- **The quota stage asks for one limit, and refuses the request just if the usage has been counted
and has reached it.** -/
theorem converses_checkQuota {res : Except Fault Unit}
    (h : (checkQuota cap key).run.Converses xs res) :
    ∃ limit : Option Int, limitsAsked xs = [(key.account, limit)] ∧
      ((res = .ok () ∧ ∀ n ∈ counted xs, n < limit.getD cap) ∨
        ∃ n ∈ counted xs, limit.getD cap ≤ n ∧
          res = .error (.refusal (.quotaExceeded n (limit.getD cap)))) := by
  obtain ⟨limit, ys, rfl, hasks⟩ := Attempt.converses_ask_bind h
  obtain ⟨ys, zs, found, rfl, husage, hrest⟩ := Attempt.converses_bind hasks
  obtain ⟨usage, rfl, hlimits, hcounted⟩ := converses_monthlyUsage husage
  have hasked : limitsAsked (⟨.limit key.account, limit⟩ :: (ys ++ zs))
      = (key.account, limit) :: limitsAsked zs := by
    rw [← List.singleton_append, limitsAsked_append, limitsAsked_append, hlimits]
    rfl
  have hcounts : counted (⟨.limit key.account, limit⟩ :: (ys ++ zs))
      = usage.toList ++ counted zs := by
    rw [← List.singleton_append, counted_append, counted_append, hcounted]
    rfl
  refine ⟨limit, ?_⟩
  rw [hasked, hcounts]
  cases usage with
  | none =>
    cases hrest
    exact ⟨rfl, Or.inl ⟨rfl, fun n hn => absurd hn List.not_mem_nil⟩⟩
  | some current =>
    change (if Option.getD limit cap ≤ current then refuse (.quotaExceeded current (limit.getD cap))
      else pure () : Attempt Unit).run.Converses zs res at hrest
    split at hrest
    · rename_i hle
      cases hrest
      exact ⟨rfl, Or.inr ⟨current, .head _, hle, rfl⟩⟩
    · rename_i hlt
      cases hrest
      refine ⟨rfl, Or.inl ⟨rfl, fun n hn => ?_⟩⟩
      rw [List.mem_singleton.mp hn]
      exact Int.not_le.mp hlt

/-- No count of events in a conversation has reached the limit that was asked for in it. -/
def WithinQuota (cap : Int) (xs : List Exchange) : Prop :=
  ∀ x ∈ limitsAsked xs, ∀ n ∈ counted xs, n < x.2.getD cap

instance (cap : Int) (xs : List Exchange) : Decidable (WithinQuota cap xs) :=
  inferInstanceAs (Decidable (∀ x ∈ limitsAsked xs, ∀ n ∈ counted xs, n < x.2.getD cap))

theorem WithinQuota.of_append {ys : List Exchange} (h : WithinQuota cap (xs ++ ys)) :
    WithinQuota cap xs ∧ WithinQuota cap ys := by
  unfold WithinQuota at h
  rw [limitsAsked_append, counted_append] at h
  exact ⟨fun x hx n hn => h x (List.mem_append_left _ hx) n (List.mem_append_left _ hn),
    fun x hx n hn => h x (List.mem_append_right _ hx) n (List.mem_append_right _ hn)⟩

theorem converses_checkQuota_within {res : Except Fault Unit} (hquota : WithinQuota cap xs)
    (h : (checkQuota cap key).run.Converses xs res) : res = .ok () := by
  obtain ⟨limit, hasked, ⟨hres, -⟩ | ⟨n, hn, hle, -⟩⟩ := converses_checkQuota h
  · exact hres
  · have hmem : (key.account, limit) ∈ limitsAsked xs := by
      rw [hasked]
      exact .head _
    exact absurd (hquota _ hmem n hn) (Int.not_lt.mpr hle)

end Telemetry.Gate
