import Telemetry.Http.Dashboard
import Telemetry.Proofs.Gate.Refusal
import Telemetry.Proofs.Query.Isolation

/-!
# Questions are answered within the project of their key

Whatever a question about events is asked with, its key is looked at first. Without a key that opens
the gate the answer is the refusal that says why, and the store of events is asked nothing. With one,
every statement that the store is asked is restricted to the key's project before anything else.

Main statement: `reads_scoped`.
-/

namespace Telemetry.Query

open Sql

/-! ## Statements about one project -/

/-- A reader takes a statement to be about one project: all its literals are closed, the first of
the conditions between the keywords `AND` fixes the project, and none of them stands beside an
alternative. -/
structure ScopedTo (project text : String) : Prop where
  read : ∃ ls c rest raw, lexemes? text.toList = some ls ∧
    conditions (wherePart (nested 0 ls)) = c :: rest ∧ lexemes? c.toList = some (projectTest raw) ∧
    unescape raw = project.toList ∧ ∀ x ∈ wherePart (nested 0 ls), isKeyword "or" x = false

theorem Isolated.scopedTo {op : Operation} {s : Statement} {ls : List Lexeme}
    (h : Isolated op s ls) : ScopedTo op.project s.text := by
  obtain ⟨c, rest, raw, hconjuncts, hfirst, hproject⟩ := h.first
  exact ⟨ls, c, rest, raw, h.reading.scanned, h.conditions.trans hconjuncts, hfirst, hproject,
    h.free⟩

/-- All statements of a plan are about one project. -/
def Plan.Within {α : Type} (project : String) (plan : Plan α) : Prop :=
  ∀ s ∈ plan.statements, ScopedTo project s.text

theorem Plan.Within.map {α β : Type} {project : String} {plan : Plan α}
    (h : plan.Within project) (f : α → β) : (plan.map f).Within project := by
  cases plan with
  | answer value => exact h
  | ask statement read => exact h

/-- A plan that has been compiled for a project is about it, if each statement that it can issue
is. -/
theorem within_of_isolated {α : Type} {op : Operation} {x : Except Fault (Plan α)} {plan : Plan α}
    (hx : x = .ok plan)
    (h : ∀ {s : Statement} {read : List Row → Except Fault α}, x = .ok (.ask s read) →
      ∃ ls, Isolated op s ls) : plan.Within op.project := by
  intro s hs
  obtain ⟨read, hread⟩ := mem_issued (x := x) (s := s) (by rw [hx]; exact hs)
  obtain ⟨ls, hisolated⟩ := h hread
  exact hisolated.scopedTo

theorem create_project {project : String} {startTime endTime : Option Time.DateTime}
    {eventType : Option String} {status : Json} {limit offset : Int} {o : Options}
    (h : Options.create project startTime endTime eventType status limit offset = .ok o) :
    o.project = project := by
  unfold Options.create at h
  split at h
  · cases h
  · split at h
    · cases h
    · cases h
      rfl

theorem options_project {params : Params} {project : String} {o : Options}
    (h : params.options project = .ok o) : o.project = project := create_project h

end Telemetry.Query

namespace Telemetry.Http.Dashboard

open Gate (Attempt Program Collaborators boundProject?)
open Gate.Collaborators (Timed Opens Refuses handle)
open Query (Plan ScopedTo)

/-! ## Plans -/

/-- **What a question asks is about the project that it is asked for**, whatever its parameters. -/
theorem planOf_within {question : Question} {r : Request} {project : String} {plan : Plan Json}
    (h : planOf question r project = .ok plan) : plan.Within project := by
  unfold planOf at h
  cases question with
  | list =>
    obtain ⟨o, ho, h⟩ := bind_eq_ok h
    obtain ⟨events, hevents, h⟩ := bind_eq_ok h
    cases h
    rw [← Query.options_project ho]
    refine Plan.Within.map ?_ _
    unfold listPlan at hevents
    dsimp only at hevents
    split at hevents
    · exact Query.within_of_isolated hevents Query.isolated_list
    · exact Query.within_of_isolated hevents Query.isolated_search
  | aggregate =>
    obtain ⟨o, ho, h⟩ := bind_eq_ok h
    obtain ⟨field, -, h⟩ := bind_eq_ok h
    obtain ⟨groups, hgroups, h⟩ := bind_eq_ok h
    cases h
    rw [← Query.options_project ho]
    exact (Query.within_of_isolated hgroups Query.isolated_aggregate).map _
  | latency =>
    obtain ⟨o, ho, h⟩ := bind_eq_ok h
    obtain ⟨field, -, h⟩ := bind_eq_ok h
    obtain ⟨groups, hgroups, h⟩ := bind_eq_ok h
    cases h
    rw [← Query.options_project ho]
    exact (Query.within_of_isolated hgroups Query.isolated_latency).map _
  | errors =>
    obtain ⟨o, ho, h⟩ := bind_eq_ok h
    obtain ⟨field, -, h⟩ := bind_eq_ok h
    obtain ⟨groups, hgroups, h⟩ := bind_eq_ok h
    cases h
    rw [← Query.options_project ho]
    exact (Query.within_of_isolated hgroups Query.isolated_errors).map _
  | stats =>
    obtain ⟨o, ho, h⟩ := bind_eq_ok h
    obtain ⟨stats, hstats, h⟩ := bind_eq_ok h
    cases h
    rw [← Query.options_project ho]
    exact (Query.within_of_isolated hstats Query.isolated_stats).map _
  | trace traceId =>
    obtain ⟨events, hevents, h⟩ := bind_eq_ok h
    cases h
    exact (Query.within_of_isolated hevents Query.isolated_trace).map _
  | fields =>
    obtain ⟨events, hevents, h⟩ := bind_eq_ok h
    cases h
    exact (Query.within_of_isolated hevents Query.isolated_recent).map _

/-! ## Runs -/

variable {s : Collaborators} {r : Request} {question : Question} {refusal : Refusal} {key : Key}
  {project : String}

/-- The store of events has been asked some more statements, all about one project. -/
def AsksWithin (s : Collaborators) (project : String) (t : Collaborators) : Prop :=
  ∃ asked, t.statements = s.statements ++ asked ∧ ∀ text ∈ asked, ScopedTo project text

theorem run_perform {α : Type} (plan : Plan α) (s : Collaborators) :
    ∃ result t, (perform plan).runWith handle s = (result, t) ∧
      t.statements = s.statements ++ plan.statements.map Query.Statement.text := by
  cases plan with
  | answer value => exact ⟨_, s, rfl, (List.append_nil _).symm⟩
  | ask statement read =>
    unfold perform
    rw [Attempt.runWith_ask_bind]
    dsimp only [handle]
    cases s.rows with
    | error fault => exact ⟨_, _, rfl, rfl⟩
    | ok rows =>
      dsimp only
      cases read rows with
      | error fault => exact ⟨_, _, rfl, rfl⟩
      | ok value => exact ⟨_, _, rfl, rfl⟩

theorem statements_noted (s : Collaborators) (key : Key) :
    (s.noted key).statements = s.statements := by
  unfold Collaborators.noted
  split <;> rfl

theorem run_answer_refused (h : Timed s) (hr : Refuses s (r.exactHeader? "authorization") refusal)
    (question : Question) :
    (answer question r).runWith handle s = (.error (.refusal refusal), s) := by
  unfold answer projectOf
  exact Attempt.runWith_bind_error (Attempt.runWith_bind_error (h.run_authenticate_refused hr) _) _

theorem run_answer_opens (h : Timed s) (hkey : Opens s (r.exactHeader? "authorization") key)
    (hproject : key.project = some project) (question : Question) :
    ∃ result t, (answer question r).runWith handle s = (result, t) ∧ AsksWithin s project t := by
  have hof : (projectOf r).runWith handle s = (.ok project, s.noted key) := by
    unfold projectOf
    rw [Attempt.runWith_bind_ok (h.run_authenticate_opens hkey), hproject]
    rfl
  unfold answer
  rw [Attempt.runWith_bind_ok hof]
  cases hplan : planOf question r project with
  | error fault =>
    refine ⟨.error fault, s.noted key, rfl, [], ?_, fun text htext => absurd htext List.not_mem_nil⟩
    rw [statements_noted, List.append_nil]
  | ok plan =>
    rw [Attempt.runWith_lift_bind rfl]
    obtain ⟨result, t, hrun, ht⟩ := run_perform plan (s.noted key)
    refine ⟨result, t, hrun, plan.statements.map Query.Statement.text, ?_, fun text htext => ?_⟩
    · rw [ht, statements_noted]
    · obtain ⟨statement, hstatement, rfl⟩ := List.mem_map.mp htext
      exact planOf_within hplan statement hstatement

/-- A question that is asked where it can be asked is answered with what comes of it. -/
theorem run_serve (hplain : r.plain = true) (hroute : Route.ofPath? r.path = some (.ask question))
    (hverb : r.verb = "GET") (defaultCap : Int) (incoming : List Incoming) {t : Collaborators}
    {result : Except Fault Json} (h : (answer question r).runWith handle s = (result, t)) :
    (serve defaultCap r incoming).run handle s = (some (respondTo result), t) := by
  have hat : (serveAt defaultCap (.ask question) r incoming).run handle s
      = (respondTo result, t) := by
    unfold serveAt
    rw [if_neg (by simp [hverb, Route.verb])]
    exact Attempt.run_bind_of_runWith h _
  unfold serve
  rw [hplain, hroute]
  simp only [Bool.not_true, Bool.false_eq_true, if_false]
  rw [Program.run_bind, hat]
  rfl

/-! ## The main statement -/

/-- The response that tells a refusal. -/
def refusalResponse (refusal : Refusal) : Served :=
  ⟨jsonResponse refusal.status (.obj refusal.body), none⟩

theorem respondTo_refusal (refusal : Refusal) :
    respondTo (.error (.refusal refusal)) = refusalResponse refusal := by
  have hfinite : (Json.obj refusal.body).allFinite = true := by cases refusal <;> rfl
  exact if_pos hfinite

/-- How a question is answered, as far as its key decides it. -/
structure Scoped (s : Collaborators) (r : Request) (served : Served) (t : Collaborators) :
    Prop where
  /-- There is a reason for refusing every header that does not open the gate. -/
  refuses : (∀ key, ¬ Opens s (r.exactHeader? "authorization") key) →
    ∃ refusal, Refuses s (r.exactHeader? "authorization") refusal
  /-- The reason alone decides the response, and the store is asked nothing. -/
  refused : ∀ refusal, Refuses s (r.exactHeader? "authorization") refusal →
    refusal.status ∈ [401, 400, 502] ∧ served = refusalResponse refusal ∧
      t.statements = s.statements
  /-- Otherwise whatever the store is asked is about the project of the key. -/
  within : ∀ key, Opens s (r.exactHeader? "authorization") key →
    ∃ project, boundProject? key = some project ∧ AsksWithin s project t

theorem Opens.exists_project (hkey : Opens s (r.exactHeader? "authorization") key) :
    ∃ project, key.project = some project ∧ boundProject? key = some project := by
  have hbound := hkey.bound
  unfold boundProject? at hbound ⊢
  split at hbound
  · rename_i project hproject
    split at hbound
    · cases hbound
    · rename_i hne
      exact ⟨project, hproject, if_neg hne⟩
  · cases hbound

/-- **Every question is answered within the project of its key, or refused.** Path, parameters and
headers other than the key's are whatever they are. -/
theorem reads_scoped (h : Timed s) (hplain : r.plain = true)
    (hroute : Route.ofPath? r.path = some (.ask question)) (hverb : r.verb = "GET")
    (defaultCap : Int) (incoming : List Incoming) :
    ∃ served t, (serve defaultCap r incoming).run handle s = (some served, t) ∧
      Scoped s r served t := by
  rcases h.opens_or_refuses (r.exactHeader? "authorization") with ⟨key, hkey⟩ | ⟨refusal, hr⟩
  · obtain ⟨project, hproject, hbound⟩ := Opens.exists_project hkey
    obtain ⟨result, t, hanswer, hwithin⟩ := run_answer_opens h hkey hproject question
    refine ⟨_, t, run_serve hplain hroute hverb defaultCap incoming hanswer, ?_, ?_, ?_⟩
    · exact fun hno => absurd hkey (hno key)
    · exact fun refusal hr => absurd hkey (hr.not_opens h)
    · intro other hother
      rw [hkey.unique hother]
      exact ⟨project, hbound, hwithin⟩
  · have hanswer := run_answer_refused h hr question
    refine ⟨_, s, run_serve hplain hroute hverb defaultCap incoming hanswer, ?_, ?_, ?_⟩
    · exact fun _ => ⟨refusal, hr⟩
    · intro other hother
      -- The run has one result, so the two reasons have one refusal.
      have hsame := (run_answer_refused h hother question).symm.trans hanswer
      cases hsame
      exact ⟨hr.status, respondTo_refusal refusal, rfl⟩
    · exact fun key hkey => absurd hkey (hr.not_opens h)

/-- A question about the events of a trace, with a key that is not known. -/
def strange : Request :=
  ⟨true, "GET", "/traces/t' OR 1=1", "exclude=x&_project_id=p", [("authorization", "Bearer we_2")]⟩

theorem reads_scoped_strange : Timed Gate.Collaborators.oneKey ∧ strange.plain = true ∧
    Route.ofPath? strange.path = some (.ask (.trace "t' OR 1=1")) ∧ strange.verb = "GET" ∧
    ∃ served t, (serve 0 strange []).run handle Gate.Collaborators.oneKey = (some served, t) ∧
      Scoped Gate.Collaborators.oneKey strange served t := by
  have hroute : Route.ofPath? strange.path = some (.ask (.trace "t' OR 1=1")) := by decide +kernel
  exact ⟨Gate.Collaborators.timed_oneKey, rfl, hroute, rfl,
    reads_scoped Gate.Collaborators.timed_oneKey rfl hroute rfl 0 []⟩

end Telemetry.Http.Dashboard
