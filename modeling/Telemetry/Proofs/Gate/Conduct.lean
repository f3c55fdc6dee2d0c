import Telemetry.Proofs.Gate.Requests

/-!
# What a request can do

Whatever its calls are answered, each stage of a request makes calls of its own, no more than a few
of them, and refuses the request with statuses of its own. So a request makes at most twelve calls.

Main statements: one for each stage, and `answers_program` for the whole request.
-/

namespace Telemetry.Gate

variable {α β : Type} {P : Call → Prop} {Q Q' : α → Prop} {R : β → Prop} {S S' : Nat → Prop}
  {m n : Nat}

/-! ## Programs -/

namespace Program

/-- Whatever its calls are answered, a program makes at most so many of them, each is one of these,
and its result satisfies this. -/
def Obeys (P : Call → Prop) (Q : α → Prop) : Program α → Nat → Prop
  | .done a, _ => Q a
  | .call .., 0 => False
  | .call c next, n + 1 => P c ∧ ∀ answer, (next answer).Obeys P Q n

variable {p : Program α} {f : α → Program β}

theorem Obeys.mono (h : p.Obeys P Q m) (hQ : ∀ a, Q a → Q' a) (hle : m ≤ n) : p.Obeys P Q' n := by
  induction p generalizing m n with
  | done a => exact hQ a h
  | call c next ih =>
    cases m with
    | zero => exact h.elim
    | succ m =>
      obtain ⟨n, rfl⟩ : ∃ k, n = k + 1 := ⟨n - 1, by omega⟩
      exact ⟨h.1, fun answer => ih answer (h.2 answer) (Nat.le_of_succ_le_succ hle)⟩

theorem Obeys.bind (hp : p.Obeys P Q m) (hf : ∀ a, Q a → (f a).Obeys P R n) :
    (p >>= f).Obeys P R (m + n) := by
  induction p generalizing m with
  | done a => exact (hf a hp).mono (fun _ h => h) (Nat.le_add_left ..)
  | call c next ih =>
    cases m with
    | zero => exact hp.elim
    | succ m =>
      rw [Nat.succ_add]
      exact ⟨hp.1, fun answer => ih answer (hp.2 answer)⟩

end Program

/-! ## Attempts -/

namespace Attempt

/-- Whatever its calls are answered, an attempt makes at most so many of them, each is one of these,
and it refuses the request with these statuses only. -/
def Obeys (P : Call → Prop) (S : Nat → Prop) (x : Attempt α) (n : Nat) : Prop :=
  x.run.Obeys P (fun res => ∀ r, res = .error (.refusal r) → S r.status) n

/-- Whatever its calls are answered, an attempt makes at most so many of them, each is one of these,
and its results have these statuses only. -/
def Answers (P : Call → Prop) (S : Nat → Prop) (x : Attempt Result) (n : Nat) : Prop :=
  x.run.Obeys P (fun res => ∀ r, res = .ok r → S r.status) n

theorem Obeys.pure (a : α) : (pure a : Attempt α).Obeys P S n := fun _ h => nomatch h

theorem Obeys.refuse {r : Refusal} (h : S r.status) : (refuse r : Attempt α).Obeys P S n := by
  intro r' hr
  cases hr
  exact h

theorem Obeys.lift {x : Except Fault α} (h : ∀ r, x ≠ .error (.refusal r)) :
    (liftM x : Attempt α).Obeys P S n := by
  cases x with
  | ok a => exact .pure a
  | error fault => exact fun r hr => absurd (by cases hr; rfl) (h r)

theorem Obeys.ask {c : Call} (h : P c) : (ask c).Obeys P S 1 :=
  ⟨h, fun _ _ hr => nomatch hr⟩

theorem Obeys.mono {x : Attempt α} (h : x.Obeys P S m) (hS : ∀ status, S status → S' status) :
    x.Obeys P S' m :=
  Program.Obeys.mono h (fun _ hres r hr => hS _ (hres r hr)) (Nat.le_refl m)

theorem Obeys.bind {x : Attempt α} {f : α → Attempt β} (hx : x.Obeys P S m)
    (hf : ∀ a, (f a).Obeys P S n) : (x >>= f).Obeys P S (m + n) := by
  refine Program.Obeys.bind (f := ExceptT.bindCont f) hx fun res hres => ?_
  cases res with
  | ok a => exact hf a
  | error fault =>
    intro r hr
    cases hr
    exact hres r rfl

theorem Answers.pure {r : Result} (h : S r.status) : (pure r : Attempt Result).Answers P S n := by
  intro r' hr
  cases hr
  exact h

theorem answers_atStage {x : Attempt α} {f : α → Attempt Result} {stage : Stage}
    (hx : x.Obeys P S m) (hf : ∀ a, (f a).Answers P S n) :
    (atStage stage x f).Answers P S (m + n) := by
  refine Program.Obeys.bind hx fun res hres => ?_
  cases res with
  | ok a => exact hf a
  | error fault =>
    cases fault with
    | refusal refusal =>
      intro r hr
      cases hr
      exact hres refusal rfl
    | _ => exact fun r hr => nomatch hr

end Attempt

/-! ## Stages -/

theorem obeys_authenticate (hfind : ∀ digest, P (.findKey digest)) (hnow : P .now)
    (huse : ∀ key time, P (.recordUsage key time)) (authorization : Option String) :
    (authenticate authorization).Obeys P (· ∈ Collaborators.credentialStatuses) 3 := by
  have hidentify : (identify authorization).Obeys P (· ∈ Collaborators.credentialStatuses) 2 := by
    unfold identify
    split
    · exact .refuse (by decide)
    · refine .bind (n := 1) (.ask (hfind _)) fun found => ?_
      split
      · exact .refuse (by decide)
      · exact .refuse (by decide)
      · rename_i key
        refine .bind (n := 0) (.ask hnow) fun now => ?_
        refine .bind (m := 0) (n := 0) (.lift (Key.isUsable_ne_refusal key now)) fun usable => ?_
        split
        · split
          · exact .bind (m := 0) (n := 0) (.refuse (by decide)) fun _ => .pure _
          · exact .pure _
        · exact .refuse (by decide)
  refine .bind (n := 1) hidentify fun (key, now) => ?_
  exact .bind (n := 0) (.bind (n := 0) (.ask (huse _ _)) fun _ => .pure _) fun _ => .pure _

theorem obeys_checkQuota (hlimit : ∀ account, P (.limit account))
    (hprojects : ∀ account, P (.projectsOf account)) (hnow : P .now)
    (hcount : ∀ projects since, P (.countSince projects since)) (cap : Int) (key : Key) :
    (checkQuota cap key).Obeys P (· = 429) 4 := by
  have husage : (monthlyUsage key).Obeys P (· = 429) 3 := by
    refine .bind (n := 2) (.ask (hprojects _)) fun projects => ?_
    split
    · exact .pure _
    · refine .bind (n := 1) (.ask hnow) fun now => ?_
      split
      · exact .pure _
      · refine .bind (n := 0) (.ask (hcount _ _)) fun count => ?_
        split <;> exact .pure _
  refine .bind (n := 3) (.ask (hlimit _)) fun limit => .bind (n := 0) husage fun usage => ?_
  split
  · split
    · exact .refuse rfl
    · exact .pure _
  · exact .pure _

theorem obeys_checkBody (hcheck : ∀ project eventType, P (.hasEventType project eventType))
    (project : String) (body : Body) : (checkBody project body).Obeys P (· = 400) 1 := by
  unfold checkBody
  split
  · exact .refuse rfl
  · split
    · refine .bind (n := 0) (.bind (n := 0) (.ask (hcheck _ _)) fun found => ?_) fun _ => .pure _
      split <;> exact .pure _
    · exact .pure _
  · exact .refuse rfl

/-- Nothing is refused when the record is built. -/
theorem obeys_buildEvent (hnow : P .now) (hid : P .freshId) (project : String)
    (fields : Json.Object) : (buildEvent project fields).Obeys P (fun _ => False) 3 := by
  unfold buildEvent Event.build
  refine .bind (n := 2) (.ask hnow) fun now => .bind (n := 1) (.ask hid) fun id => ?_
  dsimp only
  split
  · exact .bind (n := 0) (.ask hid) fun _ => .pure _
  · exact .bind (m := 1) (n := 0) (.pure _) fun _ => .pure _

theorem obeys_persist (hinsert : ∀ event, P (.insert event)) (event : Event) :
    (persist event).Obeys P (· = 500) 1 := by
  refine .bind (n := 0) (.ask (hinsert _)) fun stored => ?_
  split
  · exact .pure _
  · exact .refuse rfl

/-! ## Requests -/

/-- Behind the quota a request is answered with one of these. -/
def bodyStatuses : List Nat := [200, 400, 500]

theorem answers_ingestBody (hcheck : ∀ project eventType, P (.hasEventType project eventType))
    (hnow : P .now) (hid : P .freshId) (hinsert : ∀ event, P (.insert event)) (project : String)
    (body : Body) : (Collaborators.ingestBody project body).Answers P (· ∈ bodyStatuses) 5 := by
  refine Attempt.answers_atStage (n := 4)
    ((obeys_checkBody hcheck project body).mono fun _ h => by rw [h]; decide)
    fun (fields, repeated) => ?_
  dsimp only
  split
  · exact .pure (by decide)
  · refine Attempt.answers_atStage (n := 1)
      ((obeys_buildEvent hnow hid project fields).mono fun _ h => h.elim) fun event => ?_
    exact Attempt.answers_atStage (n := 0)
      ((obeys_persist hinsert event).mono fun _ h => by rw [h]; decide) fun _ => .pure (.head _)

/-- Everything that a request can be answered with. -/
def requestStatuses : List Nat := Collaborators.credentialStatuses ++ 429 :: bodyStatuses

/-- **Whatever its calls are answered, a request makes at most twelve of them**, and its result has
one of a few statuses. -/
theorem answers_program (cap : Int) (arrival : Arrival) :
    (arrival.program cap).Obeys (fun _ => True)
      (fun res => ∀ r, res = .ok r → r.status ∈ requestStatuses) 12 := by
  cases hbody : arrival.body? with
  | none =>
    obtain ⟨fault, hprogram⟩ := Arrival.program_of_unread hbody cap
    rw [hprogram]
    exact fun r hr => nomatch hr
  | some body =>
    rw [Arrival.program_of_body hbody, Collaborators.ingest_eq]
    refine Attempt.answers_atStage (n := 9) ((obeys_authenticate (fun _ => trivial) trivial
      (fun _ _ => trivial) _).mono fun _ h => List.mem_append_left _ h) fun key => ?_
    refine Attempt.answers_atStage (n := 5) ((obeys_checkQuota (fun _ => trivial)
      (fun _ => trivial) trivial (fun _ _ => trivial) cap key).mono fun _ h => by rw [h]; decide)
      fun _ => ?_
    exact Program.Obeys.mono (answers_ingestBody (fun _ _ => trivial) trivial trivial
      (fun _ => trivial) _ body)
      (fun _ h r hr => List.mem_append_right _ (.tail _ (h r hr))) (Nat.le_refl 5)

end Telemetry.Gate
