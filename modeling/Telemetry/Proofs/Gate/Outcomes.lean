import Telemetry.Proofs.Gate.RawBodies

/-!
# Requests that have a result

Whoever answers its calls, and whatever the answers are, a request ends with a success or with a
refusal. There are two exceptions, and both come before anything is refused or stored: reading the
bytes of the body stops at a limit, or the expiry of the key that the header presents cannot be
compared with the time of day.

Main statement: `ingestBytes_outcome`.
-/

namespace Telemetry.Gate

variable {σ α β : Type}

/-- A result is a success or the refusal of a stage. -/
inductive Result.Proper : Result → Prop
  | success (eventId : Option String) : Proper (.success eventId)
  | refused (stage : Stage) (refusal : Refusal) : Proper (.refused stage refusal)

/-! ## Whatever the answers are -/

/-- Whatever its calls are answered, the result of a program satisfies this. -/
def Program.Yields (Q : α → Prop) : Program α → Prop
  | .done a => Q a
  | .call _ next => ∀ answer, (next answer).Yields Q

theorem Program.Yields.bind {Q : α → Prop} {R : β → Prop} {p : Program α} {f : α → Program β}
    (hp : p.Yields Q) (hf : ∀ a, Q a → (f a).Yields R) : (p >>= f).Yields R := by
  induction p with
  | done a => exact hf a hp
  | call c next ih => exact fun answer => ih answer (hp answer)

theorem Program.Yields.run {Q : α → Prop} {p : Program α} (h : p.Yields Q)
    (handler : (c : Call) → σ → c.Answer × σ) (s : σ) : Q (p.run handler s).1 := by
  induction p generalizing s with
  | done a => exact h
  | call c next ih => exact ih _ (h _) (handler c s).2

namespace Attempt

/-- Whatever its calls are answered, an attempt ends well or refuses the request. -/
def Settles (x : Attempt α) : Prop :=
  x.run.Yields fun res => ∀ fault, res = .error fault → ∃ r, fault = .refusal r

/-- Whatever its calls are answered, an attempt has a result. -/
def Concludes (x : Attempt Result) : Prop :=
  x.run.Yields fun res => ∃ r : Result, res = .ok r ∧ r.Proper

theorem Settles.pure (a : α) : (pure a : Attempt α).Settles := fun _ h => nomatch h

theorem Settles.refuse (r : Refusal) : (refuse r : Attempt α).Settles := by
  intro fault h
  cases h
  exact ⟨r, rfl⟩

theorem Settles.ask_bind {c : Call} {f : c.Answer → Attempt β} (hf : ∀ a, (f a).Settles) :
    (ask c >>= f).Settles := hf

theorem Settles.bind {x : Attempt α} {f : α → Attempt β} (hx : x.Settles)
    (hf : ∀ a, (f a).Settles) : (x >>= f).Settles := by
  refine Program.Yields.bind (f := ExceptT.bindCont f) hx fun res hres => ?_
  cases res with
  | ok a => exact hf a
  | error fault =>
    intro fault' h
    cases h
    exact hres fault rfl

theorem Concludes.pure {r : Result} (h : r.Proper) : (pure r : Attempt Result).Concludes :=
  ⟨r, rfl, h⟩

/-- A stage that settles has a result, if what follows it has one. -/
theorem Concludes.atStage {x : Attempt α} {f : α → Attempt Result} {stage : Stage}
    (hx : x.Settles) (hf : ∀ a, (f a).Concludes) : (atStage stage x f).Concludes := by
  refine Program.Yields.bind hx fun res hres => ?_
  cases res with
  | ok a => exact hf a
  | error fault =>
    obtain ⟨refusal, rfl⟩ := hres fault rfl
    exact ⟨_, rfl, .refused stage refusal⟩

theorem Concludes.run {x : Attempt Result} (h : x.Concludes)
    (handler : (c : Call) → σ → c.Answer × σ) (s : σ) :
    ∃ r t, x.runWith handler s = (.ok r, t) ∧ r.Proper := by
  obtain ⟨r, hr, hproper⟩ := Program.Yields.run h handler s
  exact ⟨r, _, Prod.ext hr rfl, hproper⟩

end Attempt

/-! ## Stages -/

theorem settles_monthlyUsage (key : Key) : (monthlyUsage key).Settles := by
  refine .ask_bind fun projects => ?_
  split
  · exact .pure _
  · refine .ask_bind fun now => ?_
    split
    · exact .pure _
    · refine .ask_bind fun count => ?_
      split <;> exact .pure _

theorem settles_checkQuota (cap : Int) (key : Key) : (checkQuota cap key).Settles := by
  refine .ask_bind fun limit => .bind (settles_monthlyUsage key) fun usage => ?_
  split
  · split
    · exact .refuse _
    · exact .pure _
  · exact .pure _

theorem settles_checkBody (project : String) (body : Body) : (checkBody project body).Settles := by
  unfold checkBody
  split
  · exact .refuse _
  · split
    · refine .bind (.ask_bind fun found => ?_) fun _ => .pure _
      split <;> exact .pure _
    · exact .pure _
  · exact .refuse _

theorem settles_buildEvent (project : String) (fields : Json.Object) :
    (buildEvent project fields).Settles := by
  unfold buildEvent Event.build
  refine .ask_bind fun now => .ask_bind fun id => ?_
  split
  · exact .ask_bind fun _ => .pure _
  · exact .bind (.pure _) fun _ => .pure _

theorem settles_persist (event : Event) : (persist event).Settles := by
  refine .ask_bind fun stored => ?_
  split
  · exact .pure _
  · exact .refuse _

theorem concludes_ingestBody (project : String) (body : Body) :
    (Collaborators.ingestBody project body).Concludes := by
  refine .atStage (settles_checkBody project body) fun (fields, repeated) => ?_
  dsimp only
  split
  · exact .pure (.success none)
  · exact .atStage (settles_buildEvent project fields) fun event =>
      .atStage (settles_persist event) fun _ => .pure (.success (some event.id))

/-! ## Credentials -/

variable {handler : (c : Call) → σ → c.Answer × σ} {authorization : Option String} {s : σ}

/-- The key that is found for a header, if any, can be judged at the time of day. -/
def Judges (handler : (c : Call) → σ → c.Answer × σ) (authorization : Option String) (s : σ) :
    Prop :=
  ∀ token key t now u, Token.ofHeader? authorization = some token →
    handler (.findKey (Token.digest token)) s = (Except.ok (some key), t) →
    handler .now t = (now, u) → ∃ usable, Key.isUsable key now = .ok usable

theorem run_identify_judged (h : Judges handler authorization s) :
    (∃ found t, (identify authorization).runWith handler s = (.ok found, t)) ∨
      ∃ refusal t, (identify authorization).runWith handler s = (.error (.refusal refusal), t) := by
  unfold identify
  cases htoken : Token.ofHeader? authorization with
  | none => exact .inr ⟨_, _, rfl⟩
  | some token =>
    dsimp only
    rw [Attempt.runWith_ask_bind]
    rcases hfind : handler (.findKey (Token.digest token)) s with ⟨_ | _ | key, t⟩
    · exact .inr ⟨_, _, rfl⟩
    · exact .inr ⟨_, _, rfl⟩
    · rcases hnow : handler .now t with ⟨now, u⟩
      obtain ⟨usable, husable⟩ := h token key t now u htoken hfind hnow
      dsimp only
      rw [Attempt.runWith_ask_bind, hnow, Attempt.runWith_lift_bind husable]
      cases usable with
      | false => exact .inr ⟨_, _, rfl⟩
      | true =>
        cases (boundProject? key).isNone with
        | true => exact .inr ⟨_, _, rfl⟩
        | false => exact .inl ⟨_, _, rfl⟩

theorem run_identify_unjudged (h : ¬ Judges handler authorization s) :
    ∃ fault t, (identify authorization).runWith handler s = (.error fault, t) ∧
      ∀ refusal, fault ≠ .refusal refusal := by
  unfold Judges at h
  push Not at h
  obtain ⟨token, key, t, now, u, htoken, hfind, hnow, hnone⟩ := h
  cases husable : key.isUsable now with
  | ok usable => exact absurd husable (hnone usable)
  | error fault =>
    refine ⟨fault, u, ?_, fun refusal hr => Key.isUsable_ne_refusal key now refusal (hr ▸ husable)⟩
    unfold identify
    rw [htoken]
    dsimp only
    rw [Attempt.runWith_ask_bind, hfind]
    dsimp only
    rw [Attempt.runWith_ask_bind, hnow, husable]
    rfl

theorem Collaborators.Timed.judges {s : Collaborators} (h : Collaborators.Timed s)
    (authorization : Option String) : Judges Collaborators.handle authorization s := by
  intro token key t now u _ hfind hnow
  cases hdown : s.isDown .find with
  | true =>
    unfold Collaborators.handle at hfind
    dsimp only at hfind
    rw [Collaborators.unlessDown_of_down hdown] at hfind
    cases hfind
  | false =>
    unfold Collaborators.handle at hfind hnow
    dsimp only at hfind hnow
    rw [Collaborators.unlessDown_of_up hdown] at hfind
    cases hnow
    obtain ⟨hkey, rfl⟩ := Prod.mk.inj hfind
    exact h.isUsable (List.mem_of_find?_eq_some (Except.ok.inj hkey))

/-! ## Requests -/

/-- **A request has a result exactly if the key of its header can be judged**, whoever answers its
calls. -/
theorem ingest_outcome (handler : (c : Call) → σ → c.Answer × σ) (cap : Int)
    (authorization : Option String) (body : Body) (s : σ) :
    (Judges handler authorization s ∧
      ∃ r t, (ingest cap authorization body).runWith handler s = (.ok r, t) ∧ r.Proper) ∨
    (¬ Judges handler authorization s ∧
      ∃ fault t, (ingest cap authorization body).runWith handler s = (.error fault, t)) := by
  rw [Collaborators.ingest_eq]
  by_cases hjudges : Judges handler authorization s
  · refine .inl ⟨hjudges, ?_⟩
    rcases run_identify_judged hjudges with ⟨found, t, hfound⟩ | ⟨refusal, t, hrefused⟩
    · have hnoted : ∃ u, (authenticate authorization).runWith handler s = (.ok found.1, u) := by
        unfold authenticate
        rw [Attempt.runWith_bind_ok hfound]
        exact ⟨_, rfl⟩
      obtain ⟨u, hnoted⟩ := hnoted
      rw [Attempt.runWith_atStage_ok hnoted]
      exact (Attempt.Concludes.atStage (settles_checkQuota cap found.1)
        fun _ => concludes_ingestBody _ body).run handler u
    · have hauth : (authenticate authorization).runWith handler s
          = (.error (.refusal refusal), t) := Attempt.runWith_bind_error hrefused _
      rw [Attempt.runWith_atStage_refused hauth]
      exact ⟨_, t, rfl, .refused _ refusal⟩
  · refine .inr ⟨hjudges, ?_⟩
    obtain ⟨fault, t, hrun, hfault⟩ := run_identify_unjudged hjudges
    have hauth : (authenticate authorization).runWith handler s = (.error fault, t) :=
      Attempt.runWith_bind_error hrun _
    obtain ⟨answer, hstage, hanswer⟩ := Attempt.runWith_atStage_stopped hauth .authenticating
      fun key => atStage .quotaCheck (checkQuota cap key) fun () =>
        Collaborators.ingestBody (key.project.getD "") body
    cases answer with
    | error fault' => exact ⟨fault', t, hstage⟩
    | ok r =>
      obtain ⟨refusal, hr, -⟩ := hanswer r rfl
      exact absurd hr (hfault refusal)

/-- **A request with bytes has a result exactly if reading the bytes does not stop at a limit and
the key of its header can be judged**, whoever answers its calls. -/
theorem ingestBytes_outcome (handler : (c : Call) → σ → c.Answer × σ) (cap : Int)
    (authorization : Option String) (raw : List UInt8) (s : σ) :
    ((¬ Json.PastLimit raw ∧ Judges handler authorization s) ∧
      ∃ r t, (ingestBytes cap authorization raw).runWith handler s = (.ok r, t) ∧ r.Proper) ∨
    (¬ (¬ Json.PastLimit raw ∧ Judges handler authorization s) ∧
      ∃ fault t, (ingestBytes cap authorization raw).runWith handler s = (.error fault, t)) := by
  unfold ingestBytes
  rcases readBody_cases raw with ⟨body, hbody, hwithin⟩ | ⟨fault, hbody, hpast⟩
  · rw [Attempt.runWith_lift_bind hbody]
    rcases ingest_outcome handler cap authorization body s with ⟨hjudges, hrun⟩ | ⟨hnot, hrun⟩
    · exact .inl ⟨⟨hwithin, hjudges⟩, hrun⟩
    · exact .inr ⟨fun h => hnot h.2, hrun⟩
  · refine .inr ⟨fun h => h.1 hpast, fault, s, ?_⟩
    rw [hbody]
    rfl

end Telemetry.Gate
