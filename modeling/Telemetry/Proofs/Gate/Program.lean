import Telemetry.Gate.Ingest

/-!
# Running programs

How the run of a program is made up of the runs of its parts, whoever answers its calls, and which
calls a program can make at all, whatever it is answered.

Main statements: a stage that ends well is followed by the next (`runWith_atStage_ok`), one that
refuses the request is the end of it (`runWith_atStage_refused`).
-/

namespace Telemetry.Gate

variable {σ α β : Type} {handler : (c : Call) → σ → c.Answer × σ} {P : Call → Prop}

/-! ## Programs -/

namespace Program

theorem run_bind (p : Program α) (f : α → Program β) (s : σ) :
    (p >>= f).run handler s = (f (p.run handler s).1).run handler (p.run handler s).2 := by
  induction p generalizing s with
  | done a => rfl
  | call c next ih => exact ih (handler c s).1 (handler c s).2

/-- Every call that a program can make, whatever it is answered, is one of these. -/
def Calls (P : Call → Prop) : Program α → Prop
  | .done _ => True
  | .call c next => P c ∧ ∀ answer, (next answer).Calls P

theorem Calls.bind {p : Program α} {f : α → Program β} (hp : p.Calls P) (hf : ∀ a, (f a).Calls P) :
    (p >>= f).Calls P := by
  induction p with
  | done a => exact hf a
  | call c next ih => exact ⟨hp.1, fun answer => ih answer (hp.2 answer)⟩

end Program

/-! ## Attempts -/

namespace Attempt

/-- Runs an attempt, with its calls answered one after the other. -/
def runWith (handler : (c : Call) → σ → c.Answer × σ) (x : Attempt α) (s : σ) :
    Except Fault α × σ :=
  Program.run handler x.run s

theorem runWith_ask_bind (c : Call) (f : c.Answer → Attempt β) (s : σ) :
    (ask c >>= f).runWith handler s = (f (handler c s).1).runWith handler (handler c s).2 := rfl

theorem runWith_lift_bind {x : Except Fault α} {a : α} (h : x = .ok a) (f : α → Attempt β)
    (s : σ) : ((liftM x : Attempt α) >>= f).runWith handler s = (f a).runWith handler s := by
  rw [h]
  rfl

section Parts

variable {x : Attempt α} {s t : σ} {a : α} {fault : Fault} {r : Refusal}

theorem runWith_bind (x : Attempt α) (f : α → Attempt β) (s : σ) :
    (x >>= f).runWith handler s
      = (ExceptT.bindCont f (x.runWith handler s).1).run handler (x.runWith handler s).2 :=
  Program.run_bind x.run (ExceptT.bindCont f) s

theorem runWith_bind_ok (h : x.runWith handler s = (.ok a, t)) (f : α → Attempt β) :
    (x >>= f).runWith handler s = (f a).runWith handler t := by
  rw [runWith_bind, h]
  rfl

theorem runWith_bind_error (h : x.runWith handler s = (.error fault, t)) (f : α → Attempt β) :
    (x >>= f).runWith handler s = (.error fault, t) := by
  rw [runWith_bind, h]
  rfl

/-- A program that goes on with how an attempt has ended. -/
theorem run_bind_of_runWith {result : Except Fault α} (h : x.runWith handler s = (result, t))
    (f : Except Fault α → Program β) : (x.run >>= f).run handler s = (f result).run handler t := by
  have hrun : x.run.run handler s = (result, t) := h
  rw [Program.run_bind, hrun]

theorem runWith_atStage_ok (h : x.runWith handler s = (.ok a, t)) (stage : Stage)
    (f : α → Attempt Result) :
    (atStage stage x f).runWith handler s = (f a).runWith handler t := by
  unfold atStage
  exact run_bind_of_runWith h _

theorem runWith_atStage_refused (h : x.runWith handler s = (.error (.refusal r), t))
    (stage : Stage) (f : α → Attempt Result) :
    (atStage stage x f).runWith handler s = (.ok (.refused stage r), t) := by
  unfold atStage
  exact run_bind_of_runWith h _

end Parts

/-- Every call that an attempt can make is one of these. -/
def Calls (P : Call → Prop) (x : Attempt α) : Prop := x.run.Calls P

theorem Calls.pure (a : α) : (pure a : Attempt α).Calls P := trivial

theorem Calls.refuse (r : Refusal) : (refuse r : Attempt α).Calls P := trivial

theorem Calls.lift (x : Except Fault α) : (liftM x : Attempt α).Calls P := by
  cases x <;> trivial

theorem Calls.ask {c : Call} (h : P c) : (ask c).Calls P := ⟨h, fun _ => trivial⟩

theorem Calls.bind {x : Attempt α} {f : α → Attempt β} (hx : x.Calls P) (hf : ∀ a, (f a).Calls P) :
    (x >>= f).Calls P := by
  refine Program.Calls.bind (f := ExceptT.bindCont f) hx fun r => ?_
  cases r with
  | ok a => exact hf a
  | error fault => trivial

end Attempt

end Telemetry.Gate
