import Telemetry.Proofs.Gate.Sessions

/-!
# What an acknowledgement is worth

A request comes to storing its event at most once, last of all, and the reply of the warehouse
decides how it ends: below 400 it is acknowledged with the id of the event, at 400 or above, or
without a reply, it is refused. A reply that is neither a success nor an error, such as a redirect,
counts as a success here. So an acknowledged event has been stored unless the reply was one of
those.

Main statement: `acknowledges_iff`.
-/

namespace Telemetry.Gate

open Http

variable {σ α : Type} {cap : Int}

/-! ## Before an event is stored -/

/-- A call that stores no event. -/
def Call.IsQuiet : Call → Prop
  | .insert _ => False
  | _ => True

theorem quiet_identify (authorization : Option String) :
    (identify authorization).Calls Call.IsQuiet := by
  unfold identify
  split
  · exact .refuse _
  · refine .bind (.ask trivial) fun found => ?_
    split
    · exact .refuse _
    · exact .refuse _
    · refine .bind (.ask trivial) fun now => .bind (.lift _) fun usable => ?_
      split
      · split
        · exact .bind (.refuse _) fun _ => .pure _
        · exact .pure _
      · exact .refuse _

theorem quiet_authenticate (authorization : Option String) :
    (authenticate authorization).Calls Call.IsQuiet := by
  refine .bind (quiet_identify authorization) fun (key, now) => ?_
  exact .bind (.bind (.ask trivial) fun _ => .pure _) fun _ => .pure _

theorem quiet_monthlyUsage (key : Key) : (monthlyUsage key).Calls Call.IsQuiet := by
  unfold monthlyUsage
  refine .bind (.ask trivial) fun projects => ?_
  split
  · exact .pure _
  · refine .bind (.ask trivial) fun now => ?_
    split
    · exact .pure _
    · refine .bind (.ask trivial) fun count => ?_
      split <;> exact .pure _

theorem quiet_checkQuota (key : Key) : (checkQuota cap key).Calls Call.IsQuiet := by
  unfold checkQuota
  refine .bind (.ask trivial) fun limit => .bind (quiet_monthlyUsage key) fun usage => ?_
  split
  · split
    · exact .refuse _
    · exact .pure _
  · exact .pure _

theorem quiet_checkBody (project : String) (body : Body) :
    (checkBody project body).Calls Call.IsQuiet := by
  unfold checkBody
  split
  · exact .refuse _
  · split
    · refine .bind (.bind (.ask trivial) fun found => ?_) fun _ => .pure _
      split <;> exact .pure _
    · exact .pure _
  · exact .refuse _

theorem quiet_buildEvent (project : String) (fields : Json.Object) :
    (buildEvent project fields).Calls Call.IsQuiet := by
  unfold buildEvent Event.build
  refine .bind (.ask trivial) fun now => .bind (.ask trivial) fun id => ?_
  dsimp only
  split
  · exact .bind (.ask trivial) fun _ => .pure _
  · exact .bind (.pure _) fun _ => .pure _

/-! ## The one insertion -/

/-- A request that has stored no event so far. It may end without the id of an event; what it does
last, if it comes to that, is to store an event and to end with what the store answers. -/
inductive Awaits : Program (Except Fault Result) → Prop
  | done {r : Except Fault Result} (h : ∀ result, r = .ok result → result.eventId = none) :
    Awaits (.done r)
  | quiet {c : Call} {next : c.Answer → Program (Except Fault Result)} (hc : c.IsQuiet)
    (h : ∀ answer, Awaits (next answer)) : Awaits (.call c next)
  | insert {event : Event} {next : Except Fault Unit → Program (Except Fault Result)}
    (hstored : next (.ok ()) = .done (.ok (.success (some event.id))))
    (hfailed : ∀ fault, next (.error fault) = .done (.ok (.refused .persist .notPersisted))) :
    Awaits (.call (.insert event) next)

/-- Calls that store no event may come first. -/
theorem Awaits.bind {p : Program α} {f : α → Program (Except Fault Result)}
    (hp : p.Calls Call.IsQuiet) (hf : ∀ a, Awaits (f a)) : Awaits (p >>= f) := by
  induction p with
  | done a => exact hf a
  | call c next ih => exact .quiet hp.1 fun answer => ih answer (hp.2 answer)

/-- A stage that stores no event may come first. -/
theorem Awaits.atStage {x : Attempt α} {f : α → Attempt Result} (hx : x.Calls Call.IsQuiet)
    (hf : ∀ a, Awaits (f a).run) (stage : Stage) : Awaits (atStage stage x f).run := by
  refine .bind hx fun r => ?_
  split
  · exact hf _
  · exact .done fun result h => by cases h; rfl
  · exact .done fun result h => nomatch h

theorem awaits_persist (event : Event) :
    Awaits (atStage .persist (persist event) fun () => pure (.success (some event.id))).run :=
  .insert rfl fun _ => rfl

/-- **A request stores at most one event, last of all.** -/
theorem awaits_ingest (authorization : Option String) (body : Body) :
    Awaits (ingest cap authorization body).run := by
  refine .atStage (quiet_authenticate authorization) (fun key => ?_) _
  refine .atStage (quiet_checkQuota key) (fun _ => ?_) _
  refine .atStage (quiet_checkBody _ body) (fun (fields, repeated) => ?_) _
  dsimp only
  split
  · exact .done fun result h => by cases h; rfl
  · exact .atStage (quiet_buildEvent _ fields) awaits_persist _

theorem awaits_program (arrival : Arrival) : Awaits (arrival.program cap) := by
  cases arrival with
  | decoded authorization body => exact awaits_ingest authorization body
  | raw authorization bytes =>
    show Awaits ((liftM (readBody bytes) : Attempt Body) >>= ingest cap authorization).run
    cases readBody bytes with
    | ok body => exact awaits_ingest authorization body
    | error fault => exact .done fun result h => nomatch h

/-! ## Replies -/

/-- How a request ends whose event was sent to the warehouse. -/
def Insertion.verdict (i : Insertion) : Result :=
  match i.answer with
  | .ok () => .success (some i.event.id)
  | .error _ => .refused .persist .notPersisted

/-- The status of the reply, if there is one. -/
def Insertion.status? (i : Insertion) : Option Int :=
  match i.reply with
  | .ok (.response status _) => some status
  | _ => none

/-- The event was stored: the reply is a success in the sense of HTTP. -/
def Insertion.isStored (i : Insertion) : Bool := i.status?.any isSuccess

/-- The reply is neither a success nor an error. -/
def Insertion.isMisread (i : Insertion) : Bool :=
  i.status?.any fun status => decide (status < 400) && !isSuccess status

/-- A reply below 400 acknowledges the event. -/
theorem Insertion.verdict_of_below {i : Insertion} {status : Int} (hreply : i.status? = some status)
    (hstatus : status < 400) : i.verdict = .success (some i.event.id) := by
  obtain ⟨event, reply⟩ := i
  unfold status? at hreply
  split at hreply
  · rename_i status' text hr
    cases hreply
    cases hr
    have haccept : Store.Warehouse.accept (.response status text) = .ok text :=
      if_neg (by omega)
    unfold verdict answer
    show (match Except.bind (Store.Warehouse.accept (.response status text)) _ with
      | .ok () => _ | .error _ => _) = _
    rw [haccept]
    rfl
  · cases hreply

/-- Every other reply, and none at all, refuses it. -/
theorem Insertion.verdict_of_not_below {i : Insertion}
    (hreply : ∀ status, i.status? = some status → 400 ≤ status) :
    i.verdict = .refused .persist .notPersisted := by
  obtain ⟨event, reply⟩ := i
  unfold verdict answer
  rcases reply with fault | ⟨status, text⟩ | reason
  · rfl
  · have hstatus : status ≥ 400 := hreply status rfl
    have haccept : Store.Warehouse.accept (.response status text) = .error _ := if_pos hstatus
    show (match Except.bind (Store.Warehouse.accept (.response status text)) _ with
      | .ok () => _ | .error _ => _) = _
    rw [haccept]
    rfl
  · rfl

theorem isSuccess_iff {status : Int} : isSuccess status = true ↔ 200 ≤ status ∧ status ≤ 299 := by
  simp [isSuccess]

theorem Insertion.not_stored_of_misread (i : Insertion) (h : i.isMisread = true) :
    i.isStored = false := by
  unfold isMisread at h
  unfold isStored
  cases hreply : i.status? with
  | none => rfl
  | some status =>
    rw [hreply, Option.any_some, Bool.and_eq_true] at h
    simpa using h.2

/-- An event is acknowledged if the reply is a success, and if it is misread as one. -/
theorem Insertion.verdict_eq (i : Insertion) : i.verdict =
    if i.isStored || i.isMisread then .success (some i.event.id)
    else .refused .persist .notPersisted := by
  unfold isStored isMisread
  cases hreply : i.status? with
  | none => exact verdict_of_not_below fun status h => by rw [hreply] at h; cases h
  | some status =>
    by_cases hstatus : status < 400
    · rw [verdict_of_below hreply hstatus, if_pos]
      cases hsuccess : isSuccess status <;> simp [hsuccess, hstatus]
    · rw [verdict_of_not_below fun other h => ?_, if_neg]
      · have hfails : ¬ isSuccess status = true := fun h => by
          have := isSuccess_iff.mp h
          omega
        simp [hfails, hstatus]
      · rw [hreply] at h
        cases h
        omega

/-! ## All runs -/

/-- What is known of a request on its way: it has stored no event so far, or it has stored one and
has ended as the reply tells. -/
def Session.IsSound (session : Session) : Prop :=
  (session.inserted = [] ∧ Awaits session.rest) ∨
    ∃ i, session.inserted = [i] ∧ session.rest = .done (.ok i.verdict)

theorem Session.IsSound.call {b : Backend σ} {c : Call}
    {next : c.Answer → Program (Except Fault Result)} {inserted : List Insertion}
    (h : IsSound ⟨.call c next, inserted⟩) (s : σ) :
    IsSound ⟨next (b.handle c s).1, inserted ++ b.insertions c s⟩ := by
  -- A request with a call left to make has not stored its event.
  rcases h with ⟨hnone, hawaits⟩ | ⟨i, -, hdone⟩
  · obtain rfl : inserted = [] := hnone
    cases hawaits with
    | quiet hc h =>
      -- A quiet call makes no insertion.
      refine Or.inl ⟨?_, h _⟩
      cases c <;> first | rfl | exact hc.elim
    | @insert event _ hstored hfailed =>
      refine Or.inr ⟨sendEvent (b.login s) event (b.link s), rfl, ?_⟩
      rw [b.handle_insert]
      unfold Insertion.verdict
      cases (sendEvent (b.login s) event (b.link s)).answer with
      | ok _ => exact hstored
      | error fault => exact hfailed fault
  · cases hdone

/-- **In every run, whoever comes when, each request has stored no event, or has ended as the reply
to its one insertion tells.** -/
theorem Reachable.sound {b : Backend σ} {g : Gateway σ} (h : Reachable b cap g) :
    ∀ session ∈ g.sessions, session.IsSound :=
  h.sessions (P := Session.IsSound) (fun arrival => Or.inl ⟨rfl, awaits_program arrival⟩)
    fun s _ _ _ hsound => hsound.call s

/-- What an acknowledgement promises: a request that is answered 200 with the id of an event has
that event stored, and an event that is not stored has its request refused. -/
structure Session.Acknowledges (session : Session) : Prop where
  stored : ∀ r id, session.rest = .done (.ok r) → r.status = 200 → r.eventId = some id →
    ∃ i, session.inserted = [i] ∧ i.event.id = id ∧ i.isStored = true
  refused : ∀ i ∈ session.inserted, i.isStored = false →
    ∃ r, session.rest = .done (.ok r) ∧ r.status = 500 ∧ r.stage = .rejected ∧
      r.failedStage = some .persist

theorem Session.IsSound.acknowledges {session : Session} (h : session.IsSound)
    (hread : ∀ i ∈ session.inserted, i.isMisread = false) : session.Acknowledges := by
  rcases h with ⟨hnone, hawaits⟩ | ⟨i, hone, hdone⟩
  · refine ⟨fun r id hr _ hid => ?_, fun i hi => ?_⟩
    · rw [hr] at hawaits
      cases hawaits with
      | done hend =>
        rw [hend r rfl] at hid
        cases hid
    · rw [hnone] at hi
      cases hi
  · have hi : i.isMisread = false := hread i (hone ▸ .head [])
    have hverdict := i.verdict_eq
    rw [hi, Bool.or_false] at hverdict
    refine ⟨fun r id hr _ hid => ⟨i, hone, ?_⟩, fun j hj hlost => ?_⟩
    · rw [hdone] at hr
      cases hr
      rw [hverdict] at hid
      split at hid
      · rename_i hstored
        exact ⟨Option.some.inj hid, hstored⟩
      · cases hid
    · obtain rfl : j = i := List.mem_singleton.mp (hone ▸ hj)
      rw [hlost] at hverdict
      exact ⟨_, hdone, by rw [hverdict]; exact ⟨rfl, rfl, rfl⟩⟩

theorem Session.IsSound.not_acknowledges {session : Session} (h : session.IsSound) {i : Insertion}
    (hi : i ∈ session.inserted) (hmisread : i.isMisread = true) : ¬ session.Acknowledges := by
  intro hacknowledges
  rcases h with ⟨hnone, -⟩ | ⟨j, hone, hdone⟩
  · rw [hnone] at hi
    cases hi
  · obtain rfl : i = j := List.mem_singleton.mp (hone ▸ hi)
    -- A reply that is misread is no success, and yet the request is acknowledged.
    obtain ⟨r, hr, hstatus, -⟩ := hacknowledges.refused i hi (i.not_stored_of_misread hmisread)
    rw [hdone] at hr
    cases hr
    rw [i.verdict_eq, hmisread, Bool.or_true] at hstatus
    cases hstatus

/-- **Every acknowledged event has been stored, except for replies that are neither a success nor
an error**: a request keeps its promise just if no reply to it is one of those. -/
theorem acknowledges_iff {b : Backend σ} {g : Gateway σ} (h : Reachable b cap g) {session : Session}
    (hsession : session ∈ g.sessions) :
    session.Acknowledges ↔ ∀ i ∈ session.inserted, i.isMisread = false := by
  have hsound := h.sound session hsession
  constructor
  · intro hacknowledges i hi
    refine Bool.eq_false_iff.mpr fun hmisread => ?_
    exact hsound.not_acknowledges hi hmisread hacknowledges
  · exact hsound.acknowledges

/-! ## A redirect -/

/-- A service with one key whose warehouse answers the count of events, and then the insertion with
a status. -/
def answering (status : Int) : Service :=
  .create .default
    { persistent := false
      projects := []
      keys := [{
        id := "key", digest := Token.digest "we_1", start := "we_1", account := "account",
        project := some "project", name := none, enabled := true, expiresAt := none,
        requestCount := 0, lastRequest := none, createdAt := .zero }] }
    ⟨[(.response 200 "", .zero), (.response status "", .zero)], []⟩ ⟨[], []⟩
    ⟨Time.DateTime.withZone default, .zero, .zero, 0⟩

/-- The gate after one request, with an empty object as the body. -/
def answered (status : Int) : Gateway Service :=
  alone serviceBackend 10000 (answering status) (.decoded (some "Bearer we_1") (.value (.obj [])))

/-- The statuses that the insertions of each request were answered with. -/
def Gateway.statuses (g : Gateway σ) : List (List (Option Int)) :=
  g.sessions.map fun session => session.inserted.map (·.status?)

/-- A warehouse that redirects an insertion stores nothing, and the request is acknowledged all the
same. -/
theorem redirect_acknowledged : Reachable serviceBackend 10000 (answered 302) ∧
    (answered 302).statuses = [[some 302]] ∧
    ¬ ∀ session ∈ (answered 302).sessions, session.Acknowledges := by
  have hreachable : Reachable serviceBackend 10000 (answered 302) := reachable_alone _ _ _ _
  have hstatuses : (answered 302).statuses = [[some 302]] := by decide +kernel
  refine ⟨hreachable, hstatuses, fun hall => ?_⟩
  have hmisread : ∃ session ∈ (answered 302).sessions, ∃ i ∈ session.inserted,
      i.isMisread = true := by
    decide +kernel
  obtain ⟨session, hsession, i, hi, hmisread⟩ := hmisread
  exact (hreachable.sound session hsession).not_acknowledges hi hmisread (hall session hsession)

/-- A request whose insertion is answered 200 keeps its promise. -/
theorem acknowledges_answered : Reachable serviceBackend 10000 (answered 200) ∧
    (answered 200).statuses = [[some 200]] ∧
    ∀ session ∈ (answered 200).sessions, session.Acknowledges := by
  have hreachable : Reachable serviceBackend 10000 (answered 200) := reachable_alone _ _ _ _
  have hread : ∀ session ∈ (answered 200).sessions, ∀ i ∈ session.inserted,
      i.isMisread = false := by
    decide +kernel
  refine ⟨hreachable, by decide +kernel, fun session hsession => ?_⟩
  exact (acknowledges_iff hreachable hsession).mpr (hread session hsession)

end Telemetry.Gate
