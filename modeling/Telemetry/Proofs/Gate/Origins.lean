import Telemetry.Proofs.Event.Columns
import Telemetry.Proofs.Gate.Races

/-!
# Where a stored event comes from

A request that sends an event to the store has found a key, read the time of day, drawn identifiers
and brought a body. What the caller has a say in is the body alone, and the body decides about
columns of its own: what it says cannot be told from the columns of the system, and what the caller
sent stands in the row as it came.

Main statements: `Sends.origin` for the event, `rows_isolated` for the rows of two requests.
-/

namespace Telemetry.Gate

open Collaborators (draftOf)

variable {cap cap' : Int} {arrival arrival' : Arrival} {fields fields' : Json.Object}
  {xs ys : List Exchange} {e e' : Event} {key : Key} {authorization : Option String}

/-! ## What a conversation holds -/

/-- The key of an exchange that finds one. -/
def Exchange.key? : Exchange → Option Key
  | ⟨.findKey _, answer⟩ => (Except.toOption answer).join
  | _ => none

/-- The time of an exchange that reads it. -/
def Exchange.time? : Exchange → Option Time.DateTime
  | ⟨.now, time⟩ => some time
  | _ => none

/-- The identifier of an exchange that draws one. -/
def Exchange.id? : Exchange → Option String
  | ⟨.freshId, id⟩ => some id
  | _ => none

/-- The event of an exchange that stores one, whether that has worked or not. -/
def Exchange.event? : Exchange → Option Event
  | ⟨.insert event, _⟩ => some event
  | _ => none

/-- The keys that are found in a conversation. -/
def keysFound (xs : List Exchange) : List Key := xs.filterMap Exchange.key?

/-- The readings of the time of day in a conversation. -/
def timesRead (xs : List Exchange) : List Time.DateTime := xs.filterMap Exchange.time?

/-- The identifiers that are drawn in a conversation. -/
def idsDrawn (xs : List Exchange) : List String := xs.filterMap Exchange.id?

/-- The events that are sent to the store in a conversation. -/
def eventsSent (xs : List Exchange) : List Event := xs.filterMap Exchange.event?

@[simp] theorem keysFound_append : keysFound (xs ++ ys) = keysFound xs ++ keysFound ys :=
  List.filterMap_append

@[simp] theorem timesRead_append : timesRead (xs ++ ys) = timesRead xs ++ timesRead ys :=
  List.filterMap_append

@[simp] theorem idsDrawn_append : idsDrawn (xs ++ ys) = idsDrawn xs ++ idsDrawn ys :=
  List.filterMap_append

@[simp] theorem eventsSent_append : eventsSent (xs ++ ys) = eventsSent xs ++ eventsSent ys :=
  List.filterMap_append

/-- A call that finds no key, draws no identifier and stores no event. -/
def Call.IsBystander : Call → Prop
  | .findKey _ | .freshId | .insert _ => False
  | _ => True

theorem traces_of_bystanders (h : ∀ x ∈ xs, x.1.IsBystander) :
    keysFound xs = [] ∧ idsDrawn xs = [] ∧ eventsSent xs = [] := by
  refine ⟨?_, ?_, ?_⟩ <;>
  · refine List.filterMap_eq_nil_iff.mpr fun x hx => ?_
    obtain ⟨c, answer⟩ := x
    have hc := h _ hx
    cases c <;> first | rfl | exact hc.elim

theorem eventsSent_aside (h : ∀ x ∈ xs, x.1.IsAside) : eventsSent xs = [] := by
  refine List.filterMap_eq_nil_iff.mpr fun x hx => ?_
  obtain ⟨c, answer⟩ := x
  have hc := h _ hx
  cases c <;> first | rfl | exact hc.elim

theorem timesRead_eq_nil (h : ∀ x ∈ xs, x.1 ≠ .now) : timesRead xs = [] := by
  refine List.filterMap_eq_nil_iff.mpr fun x hx => ?_
  obtain ⟨c, answer⟩ := x
  have hc := h _ hx
  cases c <;> first | rfl | exact absurd rfl hc

/-! ## The stages -/

/-- The first stage lets a request pass with the key that it has found. -/
theorem converses_authenticate_ok
    (h : (authenticate authorization).run.Converses xs (.ok key)) :
    (∃ project, key.project = some project) ∧ ∃ digest now noted,
      xs = [⟨.findKey digest, .ok (some key)⟩, ⟨.now, now⟩, ⟨.recordUsage key.id now, noted⟩] := by
  obtain ⟨ys, zs, res, rfl, hidentify, hnote⟩ := Attempt.converses_bind h
  unfold identify at hidentify
  split at hidentify
  · cases hidentify
    cases hnote
  · obtain ⟨answer, ys, rfl, hfound⟩ := Attempt.converses_ask_bind hidentify
    split at hfound
    · cases hfound
      cases hnote
    · cases hfound
      cases hnote
    · rename_i found
      obtain ⟨now, ys, rfl, hjudged⟩ := Attempt.converses_ask_bind hfound
      cases husable : found.isUsable now with
      | error fault =>
        rw [husable] at hjudged
        cases hjudged
        cases hnote
      | ok usable =>
        rw [husable] at hjudged
        cases usable with
        | false =>
          cases hjudged
          cases hnote
        | true =>
          cases hbound : boundProject? found with
          | none =>
            rw [hbound] at hjudged
            cases hjudged
            cases hnote
          | some project =>
            rw [hbound] at hjudged
            cases hjudged
            obtain ⟨noted, ws, rfl, hdone⟩ := Attempt.converses_ask_bind hnote
            cases hdone
            refine ⟨?_, _, now, noted, rfl⟩
            unfold boundProject? at hbound
            split at hbound
            · exact ⟨_, ‹_›⟩
            · cases hbound

/-- The body is taken as it is. -/
theorem converses_checkBody_fields {project : String} {found : Json.Object × Bool}
    (h : (checkBody project (.value (.obj fields))).run.Converses xs (.ok found)) :
    found.1 = fields := by
  unfold checkBody at h
  dsimp only at h
  split at h
  · obtain ⟨ys, zs, repeated, rfl, -, hrest⟩ := Attempt.converses_bind h
    cases repeated with
    | ok repeated =>
      cases hrest
      rfl
    | error fault => cases hrest
  · cases h
    rfl

/-- What the record of a body is made of: the body, the time of day, an identifier, and another one
if the body has no trace id. -/
structure Made (project : String) (fields : Json.Object) (xs : List Exchange) (e : Event)
    (id traceId : String) (now : Time.DateTime) : Prop where
  event : e = Event.ofDraft project id traceId now (draftOf fields)
  keys : keysFound xs = []
  times : timesRead xs = [now]
  ids : ∃ more, idsDrawn xs = id :: more ∧ ((draftOf fields).needsTraceId = true → traceId ∈ more)

theorem converses_buildEvent_ok {project : String}
    (h : (buildEvent project fields).run.Converses xs (.ok e)) :
    ∃ id traceId now, Made project fields xs e id traceId now := by
  obtain ⟨now, ys, rfl, hbuild⟩ := Attempt.converses_ask_bind h
  obtain ⟨id, ys, rfl, htrace⟩ := Attempt.converses_ask_bind hbuild
  dsimp only at htrace
  split at htrace
  · obtain ⟨traceId, ys, rfl, hdone⟩ := Attempt.converses_ask_bind htrace
    cases hdone
    exact ⟨id, traceId, now, rfl, rfl, rfl, [traceId], rfl, fun _ => .head _⟩
  · rename_i hnone
    cases htrace
    exact ⟨id, "", now, rfl, rfl, rfl, [], rfl, fun hneeds => absurd hneeds hnone⟩

/-- Storing a record is one call. -/
theorem converses_persist_any {res : Except Fault Unit}
    (h : (persist e).run.Converses xs res) : ∃ stored, xs = [⟨.insert e, stored⟩] := by
  obtain ⟨stored, ys, rfl, hstored⟩ := Attempt.converses_ask_bind h
  refine ⟨stored, ?_⟩
  split at hstored <;>
  · cases hstored
    rfl

/-! ## The origin of an event -/

/-- A request with an object as its body sends an event to the store, whatever else happens to
it. -/
structure Sends (cap : Int) (arrival : Arrival) (fields : Json.Object) (xs : List Exchange)
    (e : Event) : Prop where
  read : arrival.body? = some (.value (.obj fields))
  converses : ∃ answer, (arrival.program cap).Converses xs answer
  sent : e ∈ eventsSent xs

/-- What is not repeated is built and sent to the store. -/
theorem sent_store {project : String} {answer : Except Fault Result}
    (h : (atStage .build (buildEvent project fields) fun event =>
      atStage .persist (persist event) fun () =>
      pure (.success (some event.id))).run.Converses xs answer) (hsent : e ∈ eventsSent xs) :
    ∃ id traceId now, Made project fields xs e id traceId now := by
  obtain ⟨build, rest, res, rfl, hbuild, hnext, hstop⟩ := Attempt.converses_atStage h
  obtain ⟨haside, -⟩ := hbuild.obeys
    (obeys_buildEvent (P := Call.IsAside) trivial trivial project fields)
  rw [eventsSent_append, eventsSent_aside haside, List.nil_append] at hsent
  cases res with
  | error fault =>
    obtain ⟨rfl, -⟩ := hstop fault rfl
    cases hsent
  | ok event =>
    obtain ⟨id, traceId, now, rfl, hkeys, htimes, more, hids, htrace⟩ :=
      converses_buildEvent_ok hbuild
    obtain ⟨store, last, res, rfl, hpersist, hlast, hstop⟩ :=
      Attempt.converses_atStage (hnext _ rfl)
    obtain ⟨stored, rfl⟩ := converses_persist_any hpersist
    -- Whatever the store replies, that was the last call.
    have hnothing : last = [] := by
      cases res with
      | error fault => exact (hstop fault rfl).1
      | ok _ =>
        have hdone := hlast () rfl
        cases hdone
        rfl
    subst hnothing
    obtain rfl : e = _ := List.mem_singleton.mp hsent
    refine ⟨id, traceId, now, rfl, ?_, ?_, more, ?_, htrace⟩
    · rw [keysFound_append, hkeys]
      rfl
    · rw [timesRead_append, htimes]
      rfl
    · rw [idsDrawn_append, hids]
      exact List.append_nil _

/-- The event of a body is made of the body, the only reading of the time of day and the first
identifier. -/
theorem sent_ingestBody {project : String} {answer : Except Fault Result}
    (h : (Collaborators.ingestBody project (.value (.obj fields))).run.Converses xs answer)
    (hsent : e ∈ eventsSent xs) :
    ∃ id traceId now, Made project fields xs e id traceId now := by
  obtain ⟨check, rest, res, rfl, hcheck, hnext, hstop⟩ := Attempt.converses_atStage h
  obtain ⟨hcalls, -⟩ := hcheck.obeys (obeys_checkBody (P := fun c => c.IsBystander ∧ c ≠ .now)
    (fun _ _ => ⟨trivial, nofun⟩) project _)
  obtain ⟨hkeys, hids, hevents⟩ := traces_of_bystanders fun x hx => (hcalls x hx).1
  have htimes := timesRead_eq_nil fun x hx => (hcalls x hx).2
  rw [eventsSent_append, hevents, List.nil_append] at hsent
  cases res with
  | error fault =>
    obtain ⟨rfl, -⟩ := hstop fault rfl
    cases hsent
  | ok found =>
    obtain ⟨found, repeated⟩ := found
    obtain rfl : found = fields := converses_checkBody_fields hcheck
    have hstore := hnext _ rfl
    cases repeated with
    | true =>
      cases hstore
      cases hsent
    | false =>
      obtain ⟨id, traceId, now, hmade⟩ := sent_store hstore hsent
      refine ⟨id, traceId, now, hmade.event, ?_, ?_, ?_⟩
      · rw [keysFound_append, hkeys, List.nil_append, hmade.keys]
      · rw [timesRead_append, htimes, List.nil_append, hmade.times]
      · rw [idsDrawn_append, hids, List.nil_append]
        exact hmade.ids

/-- What the event of a request is made of. -/
structure Origin (fields : Json.Object) (xs : List Exchange) (e : Event)
    (project id traceId : String) (now : Time.DateTime) : Prop where
  event : e = Event.ofDraft project id traceId now (draftOf fields)
  key : ∃ key, keysFound xs = [key] ∧ key.project = some project
  time : (timesRead xs).getLast? = some now
  id : (idsDrawn xs).head? = some id
  trace : (draftOf fields).needsTraceId = true → traceId ∈ idsDrawn xs

/-- **An event is made of the body, the project of the key that was found, the last reading of the
time of day and the first identifier that was drawn**; its trace id is drawn too if the body has
none. -/
theorem Sends.origin (h : Sends cap arrival fields xs e) :
    ∃ project id traceId now, Origin fields xs e project id traceId now := by
  obtain ⟨answer, hprogram⟩ := h.converses
  have hsent := h.sent
  rw [Arrival.program_of_body h.read, Collaborators.ingest_eq] at hprogram
  obtain ⟨auth, rest, res, rfl, hauth, hnext, hstop⟩ := Attempt.converses_atStage hprogram
  -- The event is sent by none of the stages before the body's, so none of them can have failed.
  obtain ⟨haside, -⟩ := hauth.obeys (obeys_authenticate (P := Call.IsAside) (fun _ => trivial)
    trivial (fun _ _ => trivial) _)
  rw [eventsSent_append, eventsSent_aside haside, List.nil_append] at hsent
  cases res with
  | error fault =>
    obtain ⟨rfl, -⟩ := hstop fault rfl
    cases hsent
  | ok key =>
    obtain ⟨⟨project, hproject⟩, digest, found, noted, rfl⟩ := converses_authenticate_ok hauth
    obtain ⟨quota, body, res, rfl, hquota, hpass, hstop⟩ :=
      Attempt.converses_atStage (hnext key rfl)
    obtain ⟨hbystanders, -⟩ := hquota.obeys (obeys_checkQuota (P := Call.IsBystander)
      (fun _ => trivial) (fun _ => trivial) trivial (fun _ _ => trivial) cap key)
    obtain ⟨hkeys, hids, hevents⟩ := traces_of_bystanders hbystanders
    rw [eventsSent_append, hevents, List.nil_append] at hsent
    cases res with
    | error fault =>
      obtain ⟨rfl, -⟩ := hstop fault rfl
      cases hsent
    | ok _ =>
      have hrun := hpass () rfl
      rw [hproject, Option.getD_some] at hrun
      obtain ⟨id, traceId, now, rfl, hnone, htimes, more, hdrawn, htrace⟩ :=
        sent_ingestBody hrun hsent
      refine ⟨project, id, traceId, now, rfl, ⟨key, ?_, hproject⟩, ?_, ?_, ?_⟩
      · rw [keysFound_append, keysFound_append, hkeys, hnone]
        rfl
      · rw [timesRead_append, timesRead_append, htimes, ← List.append_assoc,
          List.getLast?_concat]
      · rw [idsDrawn_append, idsDrawn_append, hids, hdrawn]
        rfl
      · intro hneeds
        rw [idsDrawn_append, idsDrawn_append, hids, hdrawn]
        exact .tail _ (htrace hneeds)

/-- A trace id is not empty if no identifier is that was drawn. -/
theorem Origin.traceId_ne {project id traceId : String} {now : Time.DateTime}
    (h : Origin fields xs e project id traceId now) (hids : ∀ id ∈ idsDrawn xs, id ≠ "") :
    e.traceId ≠ "" := by
  rw [h.event]
  exact Event.ofDraft_traceId_ne (fun hneeds => hids traceId (h.trace hneeds)) project id now

/-- What was read of a body in bytes is legible. -/
theorem legible_of_raw {bytes : List UInt8} (hraw : arrival = .raw authorization bytes)
    (hread : arrival.body? = some (.value (.obj fields))) : Json.Legible (.obj fields) := by
  subst hraw
  change (readBody bytes).toOption = some (.value (.obj fields)) at hread
  unfold readBody at hread
  split at hread
  · cases hread
  · split at hread
    · rename_i v hv
      cases hread
      exact Json.legible_of_parseBytes hv
    all_goals cases hread

/-! ## Columns -/

/-- The row of an event keeps what the caller sent: it has the columns of the schema, and what was
sent stands in the last one as it came, but for the trace id, which is the event's. -/
structure Keeps (fields : Json.Object) (e : Event) (row : Json.Object) : Prop where
  columns : row.map Prod.fst = Event.columnNames
  payload : ∃ column, Json.get "event" row = .obj column ∧
    Assoc.erase "trace_id" column
      = Assoc.erase "trace_id" (Event.propertiesOfValue (Json.get "properties" fields)) ∧
    Assoc.find? "trace_id" column = some (.str e.traceId)
  trace : e.traceId ≠ ""

theorem Origin.keeps {project id traceId : String} {now : Time.DateTime}
    (h : Origin fields xs e project id traceId now) (hids : ∀ id ∈ idsDrawn xs, id ≠ "") :
    Keeps fields e e.row := by
  have hpayload : e.payload = Event.propertiesOfValue (Json.get "properties" fields) := by
    rw [h.event]
    rfl
  refine ⟨Event.row_names e, ⟨e.payloadColumn, e.get_event, ?_, ?_⟩, h.traceId_ne hids⟩
  · rw [Event.erase_payloadColumn, hpayload]
  · exact Assoc.find?_put_self ..

/-- A request with an object as its body. -/
def plain (fields : Json.Object) : Arrival := .decoded (some "Bearer we_1") (.value (.obj fields))

end Telemetry.Gate
