import Telemetry.Proofs.Gate.Interleavings
import Telemetry.Proofs.Gate.Pings

/-!
# Pings at the same time

The duplicate check of a ping and its insertion are two calls, and calls of other requests can come
between them. Every ping whose check comes before the first insertion finds no row and stores one,
and every later one is suppressed. So pings that come at the same time leave as many rows as checks
came before the first insertion: at least one, and one only if no second check was that early.

Main statement: `pings_interleaved`.
-/

namespace Telemetry.Gate

/-! ## Checks and insertions -/

/-- A ping of a project is stored. -/
def Exchange.stores (project : String) : Exchange → Bool
  | ⟨.insert event, _⟩ => event.project == project && event.eventType == pingType
  | _ => false

/-- The duplicate check for a project is made. -/
def Exchange.checks (project : String) : Exchange → Bool
  | ⟨.hasEventType owner eventType, _⟩ => owner == project && eventType == pingType
  | _ => false

/-- The duplicate check for a project finds no ping. -/
def Exchange.misses (project : String) : Exchange → Bool
  | ⟨.hasEventType owner eventType, answer⟩ =>
    owner == project && eventType == pingType && Except.toOption answer == some false
  | _ => false

/-- How many checks for a project were made before a ping of it was stored. -/
def earlyChecks (project : String) : List Exchange → Nat
  | [] => 0
  | x :: xs =>
    if x.stores project then 0 else (if x.checks project then 1 else 0) + earlyChecks project xs

variable {project : String} {x : Exchange} {xs : List Exchange}

theorem checks_of_stores (h : x.stores project = true) : x.checks project = false := by
  obtain ⟨c, answer⟩ := x
  cases c with
  | insert event => rfl
  | _ => cases h

theorem earlyChecks_snoc (project : String) (xs : List Exchange) (x : Exchange) :
    earlyChecks project (xs ++ [x]) = earlyChecks project xs
      + if xs.countP (·.stores project) = 0 ∧ x.checks project = true then 1 else 0 := by
  induction xs with
  | nil =>
    show (if x.stores project then 0 else (if x.checks project then 1 else 0) + 0) = _
    cases hstores : x.stores project with
    | true => simp [earlyChecks, checks_of_stores hstores]
    | false => simp [earlyChecks]
  | cons y ys ih =>
    rw [List.cons_append, earlyChecks, earlyChecks, ih, List.countP_cons]
    cases y.stores project with
    | true => simp
    | false => simp [Nat.add_assoc]

/-- Before anything is stored every check is early. -/
theorem earlyChecks_of_none (h : xs.countP (·.stores project) = 0) :
    earlyChecks project xs = xs.countP (·.checks project) := by
  induction xs with
  | nil => rfl
  | cons y ys ih =>
    rw [List.countP_cons, Nat.add_eq_zero_iff] at h
    have hstores : ¬ y.stores project = true := fun hy => by simp [hy] at h
    rw [earlyChecks, if_neg hstores, ih h.1, List.countP_cons, Nat.add_comm]

/-- A call that neither checks for an event nor stores one. -/
def Call.IsAside : Call → Prop
  | .hasEventType .. | .insert _ => False
  | _ => True

theorem countP_aside (project : String) (h : ∀ x ∈ xs, x.1.IsAside) :
    xs.countP (·.stores project) = 0 ∧ xs.countP (·.misses project) = 0 := by
  refine ⟨List.countP_eq_zero.mpr fun x hx => ?_, List.countP_eq_zero.mpr fun x hx => ?_⟩ <;>
  · obtain ⟨c, answer⟩ := x
    have hc := h _ hx
    cases c <;> first | exact Bool.false_ne_true | exact hc.elim

theorem checks_check (project : String) (answer : Except Fault Bool) :
    Exchange.checks project ⟨.hasEventType project pingType, answer⟩ = true := by
  simp [Exchange.checks]

theorem misses_found (project : String) (found : Bool) :
    Exchange.misses project ⟨.hasEventType project pingType, .ok found⟩ = !found := by
  cases found <;> simp [Exchange.misses, Except.toOption]

/-- Storing the record of a request stores a ping just if the request names it. -/
theorem stores_ofDraft (project id traceId : String) (now : Time.DateTime) (fields : Json.Object)
    (answer : Except Fault Unit) : Exchange.stores project
      ⟨.insert (Event.ofDraft project id traceId now (Collaborators.draftOf fields)), answer⟩
        = Collaborators.namesPing fields := by
  rw [← Collaborators.isPing_ofDraft id traceId now]
  show (project == project && _) = _
  rw [beq_self_eq_true, Bool.true_and]

namespace Collaborators

variable {cap : Int} {s t : Collaborators} {arrivals : List Arrival} {key : Key}
  {fields : Json.Object} {authorization : Option String}

/-! ## Rows -/

theorem isDown_of_nil (h : s.down = []) (collaborator : Collaborator) :
    s.isDown collaborator = false := by
  unfold isDown
  rw [h]
  rfl

theorem handle_insert_up (h : t.down = []) (event : Event) :
    handle (.insert event) t = (.ok (), { t with events := t.events ++ [event] }) := by
  refine if_neg ?_
  rw [isDown_of_nil h]
  exact Bool.false_ne_true

/-- A call adds a row just if it stores a ping. -/
theorem pings_handle (h : t.down = []) (project : String) (c : Call) :
    pings project (handle c t).2.events = pings project t.events
      + if Exchange.stores project ⟨c, (handle c t).1⟩ then 1 else 0 := by
  cases c with
  | insert event =>
    rw [handle_insert_up h, pings_append, pings, pings, List.countP_singleton]
    rfl
  | limit account =>
    rw [(kept_limit account t).events]
    rfl
  | freshId =>
    rw [(kept_freshId t).events]
    rfl
  | recordUsage key time =>
    unfold handle
    dsimp only
    split <;> rfl
  | findKey | projectsOf | countSince | hasEventType | query | now => rfl

/-- A check finds no ping just if there is no row. -/
theorem misses_handle (h : t.down = []) (project : String) (c : Call) :
    Exchange.misses project ⟨c, (handle c t).1⟩
      = (Exchange.checks project ⟨c, (handle c t).1⟩ && decide (pings project t.events = 0)) := by
  cases c with
  | hasEventType owner eventType =>
    show (owner == project && eventType == pingType
        && Except.toOption (t.unlessDown .hasType
          (.ok (Store.Memory.hasEventType owner eventType t.events))) == some false)
      = (owner == project && eventType == pingType && decide (pings project t.events = 0))
    rw [unlessDown_of_up (isDown_of_nil h _)]
    cases hcheck : owner == project && eventType == pingType with
    | false => rfl
    | true =>
      obtain ⟨howner, htype⟩ := Bool.and_eq_true_iff.mp hcheck
      obtain rfl := eq_of_beq howner
      obtain rfl := eq_of_beq htype
      have hpos : 0 < pings owner t.events ↔ _ := pings_pos
      cases hfound : Store.Memory.hasEventType owner pingType t.events with
      | true =>
        have hne : pings owner t.events ≠ 0 := Nat.ne_of_gt (hpos.mpr hfound)
        simp [Except.toOption, hne]
      | false =>
        have hzero : pings owner t.events = 0 := by
          refine Nat.eq_zero_of_not_pos fun h => ?_
          rw [hpos, hfound] at h
          cases h
        simp [Except.toOption, hzero]
  | _ => rfl

/-- The rows of a project are the pings that have been stored, and the checks that have found none
are the early ones. -/
structure Pool.Tallies (project : String) (p : Pool) : Prop where
  rows : pings project p.state.events = p.trace.countP (·.stores project)
  early : p.trace.countP (·.misses project) = earlyChecks project p.trace

theorem Pool.Tallies.next {p q : Pool} (h : Tallies project p) (hdown : p.state.down = [])
    (hnext : Next p q) : Tallies project q := by
  obtain ⟨t, before, after, arrival, said, c, next, trace⟩ := hnext
  have hrows : pings project t.events = trace.countP (·.stores project) := h.rows
  have hearly : trace.countP (·.misses project) = earlyChecks project trace := h.early
  constructor
  · show pings project (handle c t).2.events = _
    rw [pings_handle hdown, hrows, List.countP_append, List.countP_singleton]
  · rw [List.countP_append, List.countP_singleton, earlyChecks_snoc, hearly,
      misses_handle hdown, hrows]
    congr 1
    cases Exchange.checks project ⟨c, (handle c t).1⟩ <;> simp

theorem Pool.Interleaved.tallies {p : Pool} (hdown : s.down = [])
    (hnone : pings project s.events = 0) (h : Interleaved cap s arrivals p) :
    Tallies project p := by
  unfold Interleaved at h
  induction h with
  | refl => exact ⟨hnone, rfl⟩
  | tail hbefore hnext ih =>
    exact ih.next ((Interleaved.faithful hbefore).setting.down.trans hdown) hnext

/-! ## Answers where nothing is down -/

section Answers

variable (hdown : s.down = [])
include hdown

theorem Pool.Answered.up {x : Exchange} (h : Pool.Answered s x) :
    ∃ t, SameSetting s t ∧ t.down = [] ∧ x.2 = (handle x.1 t).1 := by
  obtain ⟨t, hset, hx⟩ := h
  exact ⟨t, hset, hset.down.trans hdown, hx⟩

theorem Pool.Answered.findKey {digest : String} {answer : Except Fault (Option Key)}
    (h : Pool.Answered s ⟨.findKey digest, answer⟩) : answer = .ok (s.findKey digest) := by
  obtain ⟨t, hset, hup, hx⟩ := h.up hdown
  change answer = t.unlessDown .find (.ok (t.findKey digest)) at hx
  rw [hx, unlessDown_of_up (isDown_of_nil hup _)]
  unfold Collaborators.findKey
  rw [hset.keys]

theorem Pool.Answered.hasEventType {eventType : String} {answer : Except Fault Bool}
    (h : Pool.Answered s ⟨.hasEventType project eventType, answer⟩) :
    ∃ found, answer = .ok found := by
  obtain ⟨t, -, hup, hx⟩ := h.up hdown
  change answer = t.unlessDown .hasType _ at hx
  rw [hx, unlessDown_of_up (isDown_of_nil hup _)]
  exact ⟨_, rfl⟩

theorem Pool.Answered.insert {event : Event} {answer : Except Fault Unit}
    (h : Pool.Answered s ⟨.insert event, answer⟩) : answer = .ok () := by
  obtain ⟨t, -, hup, hx⟩ := h.up hdown
  rw [handle_insert_up hup] at hx
  exact hx

end Answers

theorem Pool.Answered.now {answer : Time.DateTime} (h : Pool.Answered s ⟨.now, answer⟩) :
    answer = s.world.now := by
  obtain ⟨t, hset, hx⟩ := h
  exact hx.trans hset.now

/-! ## The conversation of a ping -/

section Conversation

variable (hdown : s.down = []) (hxs : ∀ x ∈ xs, Pool.Answered s x)
include hdown hxs

theorem converses_authenticate {res : Except Fault Key} (hkey : Opens s authorization key)
    (h : (authenticate authorization).run.Converses xs res) : res = .ok key := by
  obtain ⟨token, htoken, hfind⟩ := hkey.known
  obtain ⟨ys, zs, found, rfl, hidentify, hnote⟩ := Attempt.converses_bind h
  unfold identify at hidentify
  rw [htoken] at hidentify
  obtain ⟨answer, ys, rfl, hfound⟩ := Attempt.converses_ask_bind hidentify
  obtain rfl := (hxs _ (List.mem_append_left _ (.head _))).findKey hdown
  rw [hfind] at hfound
  obtain ⟨now, ys, rfl, hjudged⟩ := Attempt.converses_ask_bind hfound
  obtain rfl := (hxs _ (List.mem_append_left _ (.tail _ (.head _)))).now
  rw [hkey.usable] at hjudged
  obtain ⟨project, hbound⟩ := Option.isSome_iff_exists.mp hkey.bound
  rw [hbound] at hjudged
  cases hjudged
  cases hnote with
  | call noted hnoted =>
    cases hnoted
    rfl

theorem converses_checkBody {res : Except Fault (Json.Object × Bool)}
    (hping : namesPing fields = true)
    (h : (checkBody project (.value (.obj fields))).run.Converses xs res) :
    ∃ found, res = .ok (fields, found) ∧ xs = [⟨.hasEventType project pingType, .ok found⟩] := by
  unfold checkBody at h
  dsimp only at h
  rw [if_pos (show (Json.get "event" fields).isText pingType = true from hping)] at h
  obtain ⟨ys, zs, repeated, rfl, hcheck, hrest⟩ := Attempt.converses_bind h
  obtain ⟨answer, ys, rfl, hfound⟩ := Attempt.converses_ask_bind hcheck
  obtain ⟨found, rfl⟩ := (hxs _ (List.mem_append_left _ (.head _))).hasEventType hdown
  cases hfound
  cases hrest
  exact ⟨found, rfl, rfl⟩

theorem converses_persist {event : Event} {res : Except Fault Unit}
    (h : (persist event).run.Converses xs res) :
    res = .ok () ∧ xs = [⟨.insert event, .ok ()⟩] := by
  obtain ⟨answer, ys, rfl, hstored⟩ := Attempt.converses_ask_bind h
  obtain rfl := (hxs _ (.head _)).insert hdown
  cases hstored
  exact ⟨rfl, rfl⟩

end Conversation

theorem converses_buildEvent {res : Except Fault Event}
    (h : (buildEvent project fields).run.Converses xs res) :
    ∃ id traceId now, res = .ok (Event.ofDraft project id traceId now (draftOf fields)) := by
  obtain ⟨now, ys, rfl, hbuild⟩ := Attempt.converses_ask_bind h
  obtain ⟨id, ys, rfl, htrace⟩ := Attempt.converses_ask_bind hbuild
  dsimp only at htrace
  split at htrace
  · obtain ⟨traceId, ys, rfl, hdone⟩ := Attempt.converses_ask_bind htrace
    cases hdone
    exact ⟨id, traceId, now, rfl⟩
  · cases htrace
    exact ⟨id, "", now, rfl⟩

/-- What is not repeated is stored. -/
theorem converses_store {answer : Except Fault Result} (hdown : s.down = [])
    (hxs : ∀ x ∈ xs, Pool.Answered s x)
    (h : (atStage .build (buildEvent project fields) fun event =>
      atStage .persist (persist event) fun () =>
      pure (.success (some event.id))).run.Converses xs answer) :
    ∃ id traceId now ys, (∀ y ∈ ys, y.1.IsAside) ∧
      xs = ys ++ [⟨.insert (Event.ofDraft project id traceId now (draftOf fields)), .ok ()⟩] ∧
      answer = .ok (.success (some id)) := by
  obtain ⟨ys, zs, res, rfl, hbuild, hnext, -⟩ := Attempt.converses_atStage h
  obtain ⟨haside, -⟩ := hbuild.obeys
    (obeys_buildEvent (P := Call.IsAside) trivial trivial project fields)
  obtain ⟨id, traceId, now, rfl⟩ := converses_buildEvent hbuild
  obtain ⟨us, vs, res, rfl, hpersist, hlast, -⟩ := Attempt.converses_atStage (hnext _ rfl)
  obtain ⟨rfl, rfl⟩ := converses_persist hdown
    (fun x hx => hxs x (List.mem_append_right _ (List.mem_append_left _ hx))) hpersist
  have hdone := hlast () rfl
  cases hdone
  exact ⟨id, traceId, now, ys, haside, rfl, rfl⟩

/-- How a ping ends: it is acknowledged after a check, and stored just if the check found none. -/
structure Acknowledged (project : String) (xs : List Exchange) (answer : Except Fault Result) :
    Prop where
  answer : ∃ r, answer = .ok r ∧ r.status = 200 ∧ r.body = [("success", .bool true)]
  stores : xs.countP (·.stores project) = xs.countP (·.misses project)
  checks : 0 < xs.countP (·.checks project)

theorem Acknowledged.after {ys : List Exchange} {answer : Except Fault Result}
    (h : Acknowledged project xs answer) (hys : ∀ x ∈ ys, x.1.IsAside) :
    Acknowledged project (ys ++ xs) answer := by
  obtain ⟨hstores, hmisses⟩ := countP_aside project hys
  refine ⟨h.answer, ?_, ?_⟩
  · rw [List.countP_append, List.countP_append, hstores, hmisses, h.stores]
  · rw [List.countP_append]
    exact Nat.lt_of_lt_of_le h.checks (Nat.le_add_left ..)

theorem acknowledged_ingestBody {answer : Except Fault Result} (hdown : s.down = [])
    (hxs : ∀ x ∈ xs, Pool.Answered s x) (hping : namesPing fields = true)
    (h : (ingestBody project (.value (.obj fields))).run.Converses xs answer) :
    Acknowledged project xs answer := by
  obtain ⟨ys, zs, res, rfl, hcheck, hnext, -⟩ := Attempt.converses_atStage h
  obtain ⟨found, rfl, rfl⟩ := converses_checkBody hdown
    (fun x hx => hxs x (List.mem_append_left _ hx)) hping hcheck
  have hrest := hnext _ rfl
  cases found with
  | true =>
    cases hrest
    refine ⟨⟨_, rfl, rfl, rfl⟩, ?_, ?_⟩
    · rw [List.append_nil, List.countP_singleton, List.countP_singleton, misses_found]
      rfl
    · exact List.countP_pos_iff.mpr ⟨_, .head _, checks_check ..⟩
  | false =>
    obtain ⟨id, traceId, now, us, haside, rfl, hanswer⟩ := converses_store hdown
      (fun x hx => hxs x (List.mem_append_right _ hx)) hrest
    obtain ⟨hstores, hmisses⟩ := countP_aside project haside
    refine ⟨⟨_, hanswer, rfl, rfl⟩, ?_, ?_⟩
    · simp only [List.countP_append, List.countP_singleton, hstores, hmisses, misses_found,
        stores_ofDraft, hping]
      rfl
    · exact List.countP_pos_iff.mpr ⟨_, .head _, checks_check ..⟩

/-- A request with a ping of a project: it can be read, and its key opens the gate and is bound to
the project. -/
structure PingsFor (s : Collaborators) (project : String) (arrival : Arrival) : Prop where
  ping : ∃ fields, arrival.body? = some (.value (.obj fields)) ∧ namesPing fields = true
  key : ∃ key, Opens s arrival.authorization key ∧ key.project = some project

/-- **A ping within quota is acknowledged, and stored just if its check has found none**, whatever
other requests do in between. -/
theorem acknowledged_program {arrival : Arrival} {answer : Except Fault Result}
    (hdown : s.down = []) (hxs : ∀ x ∈ xs, Pool.Answered s x)
    (harrival : PingsFor s project arrival) (hquota : WithinQuota cap xs)
    (h : (arrival.program cap).Converses xs answer) : Acknowledged project xs answer := by
  obtain ⟨fields, hbody, hping⟩ := harrival.ping
  obtain ⟨key, hkey, hproject⟩ := harrival.key
  rw [Arrival.program_of_body hbody, ingest_eq] at h
  obtain ⟨ys, zs, res, rfl, hauth, hnext, -⟩ := Attempt.converses_atStage h
  obtain ⟨haside, -⟩ := hauth.obeys (obeys_authenticate (P := Call.IsAside) (fun _ => trivial)
    trivial (fun _ _ => trivial) _)
  obtain rfl := converses_authenticate hdown (fun x hx => hxs x (List.mem_append_left _ hx)) hkey
    hauth
  refine Acknowledged.after ?_ haside
  obtain ⟨us, vs, res, rfl, hcheck, hpass, -⟩ := Attempt.converses_atStage (hnext key rfl)
  obtain ⟨haside, -⟩ := hcheck.obeys (obeys_checkQuota (P := Call.IsAside) (fun _ => trivial)
    (fun _ => trivial) trivial (fun _ _ => trivial) cap key)
  obtain rfl := converses_checkQuota_within hquota.of_append.2.of_append.1 hcheck
  refine Acknowledged.after ?_ haside
  have hrun := hpass () rfl
  rw [hproject] at hrun
  exact acknowledged_ingestBody hdown
    (fun x hx => hxs x (List.mem_append_right _ (List.mem_append_right _ hx))) hping hrun

/-! ## All pings -/

/-- **Pings that come at the same time are all acknowledged, and leave as many rows as checks were
made before the first was stored**: at least one, and one only if no second check was that early.
Every order of their calls comes to an end. -/
theorem pings_interleaved {p : Pool} (harrivals : ∀ arrival ∈ arrivals, PingsFor s project arrival)
    (hnone : pings project s.events = 0) (hdown : s.down = []) (h : Pool.Interleaved cap s arrivals p)
    (hquota : ∀ w ∈ p.requests, WithinQuota cap w.said) :
    p.trace.length ≤ 12 * arrivals.length ∧
    (p.IsOver →
      (∀ w ∈ p.requests, ∃ r, w.rest = .done (.ok r) ∧ r.status = 200 ∧
        r.body = [("success", .bool true)]) ∧
      pings project p.state.events = earlyChecks project p.trace ∧
      (arrivals ≠ [] → 0 < pings project p.state.events)) := by
  have hfaithful := h.faithful
  have htallies := h.tallies hdown hnone
  refine ⟨hfaithful.length_le, fun hover => ?_⟩
  have hends : ∀ w ∈ p.requests, ∃ answer, w.rest = .done answer ∧
      Acknowledged project w.said answer := by
    intro w hw
    obtain ⟨answer, hrest⟩ := hover.done hw
    have harrival : w.arrival ∈ arrivals := by
      rw [← hfaithful.arrivals]
      exact List.mem_map_of_mem hw
    exact ⟨answer, hrest, acknowledged_program hdown (hfaithful.answered w hw)
      (harrivals _ harrival) (hquota w hw) (hrest ▸ hfaithful.leaves w hw).converses⟩
  have hrows : pings project p.state.events = earlyChecks project p.trace := by
    rw [htallies.rows, ← htallies.early, hfaithful.shared, hfaithful.shared]
    refine congrArg List.sum (List.map_congr_left fun w hw => ?_)
    obtain ⟨answer, -, hend⟩ := hends w hw
    exact hend.stores
  refine ⟨fun w hw => ?_, hrows, fun hsome => ?_⟩
  · obtain ⟨answer, hrest, hend⟩ := hends w hw
    obtain ⟨r, rfl, hr⟩ := hend.answer
    exact ⟨r, hrest, hr⟩
  · refine Nat.pos_of_ne_zero fun hzero => ?_
    -- If nothing had been stored, every check would have been early.
    have hstores := htallies.rows.symm.trans hzero
    rw [hrows, earlyChecks_of_none hstores, hfaithful.shared, List.sum_eq_zero_iff] at hzero
    obtain ⟨w, hw⟩ : ∃ w, w ∈ p.requests := by
      refine List.exists_mem_of_ne_nil _ fun hnil => hsome ?_
      rw [← hfaithful.arrivals, hnil]
      rfl
    obtain ⟨answer, -, hend⟩ := hends w hw
    exact Nat.ne_of_gt hend.checks (hzero _ (List.mem_map_of_mem hw))

theorem pingsFor_small : ∀ arrival ∈ [pingRequest, pingRequest],
    PingsFor small "project" arrival := by
  have hping : PingsFor small "project" pingRequest := by
    refine ⟨⟨_, rfl, by decide⟩, small.keys.head (List.cons_ne_nil _ _),
      ⟨rfl, ⟨"we_1", by decide +kernel, ?_⟩, rfl, rfl⟩, rfl⟩
    exact List.find?_cons_of_pos (beq_self_eq_true _)
  intro arrival harrival
  rcases List.mem_pair.mp harrival with rfl | rfl <;> exact hping

/-- Two pings of which the second comes when the first has been answered. -/
def inTurn : Pool :=
  (Pool.start 10000 small [pingRequest, pingRequest]).follow
    (List.replicate 12 0 ++ List.replicate 8 1)

/-- Of two pings one after the other the second is suppressed. -/
theorem pings_inTurn : (∀ arrival ∈ [pingRequest, pingRequest], PingsFor small "project" arrival) ∧
    pings "project" small.events = 0 ∧ small.down = [] ∧
    Pool.Interleaved 10000 small [pingRequest, pingRequest] inTurn ∧
    (∀ w ∈ inTurn.requests, WithinQuota 10000 w.said) ∧ inTurn.IsOver ∧
    earlyChecks "project" inTurn.trace = 1 ∧ pings "project" inTurn.state.events = 1 := by
  have hrun : Pool.Interleaved 10000 small [pingRequest, pingRequest] inTurn :=
    Pool.interleaved_follow ..
  have hquota : ∀ w ∈ inTurn.requests, WithinQuota 10000 w.said := by decide +kernel
  have hover : inTurn.IsOver :=
    Pool.isOver_of_status (by decide +kernel : ∀ w ∈ inTurn.requests, w.status? = some 200)
  have hearly : earlyChecks "project" inTurn.trace = 1 := by decide +kernel
  obtain ⟨-, hends⟩ := pings_interleaved pingsFor_small rfl rfl hrun hquota
  exact ⟨pingsFor_small, rfl, rfl, hrun, hquota, hover, hearly, (hends hover).2.1.trans hearly⟩

/-- Two pings that are both checked before the first of them is stored. -/
def overlapping : Pool :=
  (Pool.start 10000 small [pingRequest, pingRequest]).follow
    (List.replicate 11 0 ++ List.replicate 11 1 ++ [0, 1])

/-- **Two pings that are both checked before one is stored leave two rows**, though nothing is down
and both are within quota. -/
theorem pings_overlapping :
    (∀ arrival ∈ [pingRequest, pingRequest], PingsFor small "project" arrival) ∧
    pings "project" small.events = 0 ∧ small.down = [] ∧
    Pool.Interleaved 10000 small [pingRequest, pingRequest] overlapping ∧
    (∀ w ∈ overlapping.requests, WithinQuota 10000 w.said) ∧ overlapping.IsOver ∧
    (∀ w ∈ overlapping.requests, w.status? = some 200) ∧
    pings "project" overlapping.state.events = 2 := by
  have hstatus : ∀ w ∈ overlapping.requests, w.status? = some 200 := by decide +kernel
  exact ⟨pingsFor_small, rfl, rfl, Pool.interleaved_follow .., by decide +kernel,
    Pool.isOver_of_status hstatus, hstatus, by decide +kernel⟩

end Collaborators

end Telemetry.Gate
