import Telemetry.Proofs.Gate.Requests

/-!
# Pings

Of the pings of a project one is stored, as long as the duplicate check answers: a request is
suppressed if it is a ping of a project that has a ping row, and in no other case. Each ping whose
check fails may add a row, so a run of requests leaves at most one row more than checks have failed.

Main statement: `pings_suppressed`.
-/

namespace Telemetry.Gate

/-- How many ping rows a project has. -/
def pings (project : String) (events : List Event) : Nat :=
  events.countP fun e => e.project == project && e.eventType == pingType

theorem pings_append (project : String) (events more : List Event) :
    pings project (events ++ more) = pings project events + pings project more :=
  List.countP_append

theorem pings_pos {project : String} {events : List Event} :
    0 < pings project events ↔ Store.Memory.hasEventType project pingType events = true := by
  unfold pings Store.Memory.hasEventType
  rw [List.countP_pos_iff, List.any_eq_true]

namespace Collaborators

variable {s t u : Collaborators} {cap : Int} {project : String} {body : Body}
  {fields : Json.Object} {arrival : Arrival} {answer : Except Fault Result} {visits : List Visit}

/-! ## Rows and checks -/

/-- The row of a request has the type of a ping just if the request names it. -/
theorem isPing_ofDraft (id traceId : String) (now : Time.DateTime) :
    ((Event.ofDraft project id traceId now (draftOf fields)).eventType == pingType)
      = namesPing fields := by
  show (Event.typeOfValue (Json.get "event" fields) == pingType)
    = (Json.get "event" fields).isText pingType
  cases Json.get "event" fields with
  | str name =>
    unfold Event.typeOfValue
    dsimp only
    split
    · rename_i hempty
      subst hempty
      decide
    · rfl
  | _ =>
    show (Event.unknownType == pingType) = false
    decide

theorem findsPing_iff :
    s.findsPing project = true ↔ s.isDown .hasType = false ∧ 0 < pings project s.events := by
  unfold findsPing
  rw [pings_pos, Bool.and_eq_true, Bool.not_eq_true']

/-! ## Bodies -/

/-- A repeated ping is acknowledged, and nothing changes. -/
theorem run_ingestBody_repeated (hping : namesPing fields = true)
    (hfound : s.findsPing project = true) :
    (ingestBody project (.value (.obj fields))).runWith handle s = (.ok (.success none), s) := by
  unfold ingestBody
  rcases run_checkBody project (.value (.obj fields)) s with ⟨given, hbody, hcheck⟩ | ⟨hno, -⟩
  · cases hbody
    rw [Attempt.runWith_atStage_ok hcheck, hping, hfound]
    rfl
  · exact absurd rfl (hno fields)

/-- Everything else is stored, unless the store is down. -/
theorem run_ingestBody_new (hnew : (namesPing fields && s.findsPing project) = false)
    (hup : s.isDown .insert = false) :
    ∃ event t, event.project = project ∧ t.events = s.events ++ [event] ∧
      (ingestBody project (.value (.obj fields))).runWith handle s
        = (.ok (.success (some event.id)), t) := by
  obtain ⟨r, t, hrun, hending⟩ := run_ingestBody project (.value (.obj fields)) s
  cases hending with
  | stored hbody _ hevent hevents =>
    refine ⟨_, t, ?_, hevents, hrun⟩
    rw [hevent]
    rfl
  | repeated hbody hping hfound =>
    cases hbody
    rw [hping, hfound] at hnew
    cases hnew
  | noObject hno => exact absurd rfl (hno fields)
  | notPersisted _ hdown =>
    rw [hup] at hdown
    cases hdown

/-! ## Requests -/

/-- A request comes to its body for a project: it is read, its key opens the gate and is bound to
the project, and no known usage has reached the cap. -/
structure Visit.Admitted (v : Visit) (cap : Int) (project : String) (body : Body) : Prop where
  read : v.arrival.body? = some body
  key : ∃ key, Opens v.before v.arrival.authorization key ∧ key.project = some project ∧
    ∀ current, v.before.usage? key = some current → current < v.before.capOf cap key

/-- A request comes to the duplicate check for a project. -/
def Visit.Pings (v : Visit) (cap : Int) (project : String) : Prop :=
  ∃ fields, v.Admitted cap project (.value (.obj fields)) ∧ namesPing fields = true

/-- The duplicate check of a request for a project fails. -/
def Visit.ChecksInVain (v : Visit) (cap : Int) (project : String) : Prop :=
  v.Pings cap project ∧ v.before.isDown .hasType = true

/-- A request is refused before it comes to its body, or it is admitted. -/
theorem visit_cases (cap : Int) (s : Collaborators) (arrival : Arrival) :
    ((visit cap s arrival).after.events = s.events ∧
      ∀ r, (visit cap s arrival).answer = .ok r → r.accepted = false) ∨
    ∃ project body t r, (visit cap s arrival).Admitted cap project body ∧ Alike s t ∧
      (visit cap s arrival).answer = .ok r ∧
      (ingestBody project body).runWith handle t = (.ok r, (visit cap s arrival).after) := by
  have hends := ends_visit cap s arrival
  generalize hanswer : (visit cap s arrival).answer = answer at hends ⊢
  generalize hafter : (visit cap s arrival).after = u at hends ⊢
  cases hends with
  | unread => exact Or.inl ⟨rfl, fun r h => nomatch h⟩
  | closed hno hrefused =>
    refine Or.inl ⟨rfl, fun r h => ?_⟩
    obtain ⟨refusal, -, hresult⟩ := hrefused r h
    rw [hresult]
    rfl
  | overQuota hbody hkey husage hcap ht =>
    refine Or.inl ⟨ht.events, fun r h => ?_⟩
    cases h
    rfl
  | admitted hbody hkey hproject hwithin ht hrun =>
    exact Or.inr ⟨_, _, _, _, ⟨hbody, _, hkey, hproject, hwithin⟩, ht, rfl, hrun⟩

/-- What a request comes to is decided by its arrival and by the state. -/
theorem Visit.Admitted.run (h : (visit cap s arrival).Admitted cap project body) :
    ∃ t r, Alike s t ∧ (visit cap s arrival).answer = .ok r ∧
      (ingestBody project body).runWith handle t = (.ok r, (visit cap s arrival).after) := by
  obtain ⟨key, hkey, hproject, hwithin⟩ := h.key
  have hread : arrival.body?.isSome = true := by
    rw [show arrival.body? = some body from h.read]
    rfl
  rcases (ends_visit cap s arrival).of_opens hread hkey with
    ⟨current, husage, hcap, -⟩ | ⟨body', project', t, r, hbody', hproject', -, ht, hanswer, hrun⟩
  · exact absurd (hwithin current husage) (Int.not_lt.mpr hcap)
  · cases h.read.symm.trans hbody'
    cases hproject.symm.trans hproject'
    exact ⟨t, r, ht, hanswer, hrun⟩

/-! ## What a request does to the rows -/

/-- A request adds no ping row where there is one, unless its check fails. -/
theorem pings_visit (cap : Int) (s : Collaborators) (arrival : Arrival) (project : String) :
    pings project (visit cap s arrival).after.events ≤ max 1 (pings project s.events) ∨
    (visit cap s arrival).ChecksInVain cap project ∧
      pings project (visit cap s arrival).after.events ≤ pings project s.events + 1 := by
  rcases visit_cases cap s arrival with ⟨hevents, -⟩ | ⟨owner, body, t, r, hadmitted, ht, -, hrun⟩
  · rw [hevents]
    exact Or.inl (Nat.le_max_right ..)
  · cases bodyEnding_of_run hrun with
    | @stored _ fields id traceId event hbody hup hevent hevents =>
      have hone : pings project [event] ≤ 1 := List.countP_le_length
      rw [hevents, pings_append, ht.events]
      by_cases hping : owner = project ∧ namesPing fields = true
      · obtain ⟨rfl, hping⟩ := hping
        cases hdown : s.isDown .hasType with
        | true => exact Or.inr ⟨⟨⟨fields, hbody ▸ hadmitted, hping⟩, hdown⟩, by omega⟩
        | false =>
          -- The check has found no row, or the ping would not have been stored.
          have hnone : pings owner s.events = 0 := by
            refine Nat.eq_zero_of_not_pos fun hpos => ?_
            have hfound : t.findsPing owner = true :=
              (ht.findsPing owner).trans (findsPing_iff.mpr ⟨hdown, hpos⟩)
            rw [hbody, run_ingestBody_repeated hping hfound] at hrun
            cases congrArg Prod.fst hrun
          exact Or.inl (by omega)
      · have hzero : pings project [event] = 0 := by
          rw [pings, List.countP_singleton, hevent, isPing_ofDraft, if_neg]
          rw [Bool.and_eq_true, beq_iff_eq]
          exact hping
        exact Or.inl (by omega)
    | repeated => exact Or.inl (ht.events ▸ Nat.le_max_right ..)
    | noObject => exact Or.inl (ht.events ▸ Nat.le_max_right ..)
    | notPersisted _ _ _ hkept =>
      rw [hkept.events, ht.events]
      exact Or.inl (Nat.le_max_right ..)

/-- Nothing is suppressed but a ping of a project that has a ping row: such a ping is answered like
one that is stored, and every other request that comes to an object is stored unless the store is
down. -/
structure Visit.SuppressesPings (v : Visit) (cap : Int) : Prop where
  repeated : ∀ project, v.Pings cap project → 0 < pings project v.before.events →
    v.before.isDown .hasType = false → v.after.events = v.before.events ∧
      ∃ r, v.answer = .ok r ∧ r.status = 200 ∧ r.body = [("success", .bool true)]
  stored : ∀ project fields, v.Admitted cap project (.value (.obj fields)) →
    namesPing fields = false ∨ pings project v.before.events = 0 →
    v.before.isDown .insert = false → ∃ event, event.project = project ∧
      v.after.events = v.before.events ++ [event] ∧ v.answer = .ok (.success (some event.id))
  suppressed : ∀ r, v.answer = .ok r → r.accepted = true → v.after.events = v.before.events →
    ∃ project, v.Pings cap project ∧ 0 < pings project v.before.events

theorem suppressesPings_visit (cap : Int) (s : Collaborators) (arrival : Arrival) :
    (visit cap s arrival).SuppressesPings cap := by
  refine ⟨fun project ⟨fields, hadmitted, hping⟩ hpos hup => ?_,
    fun project fields hadmitted hnew hup => ?_, fun r hr haccepted hsame => ?_⟩
  · obtain ⟨t, r, ht, hanswer, hrun⟩ := hadmitted.run
    have hfound : t.findsPing project = true :=
      (ht.findsPing project).trans (findsPing_iff.mpr ⟨hup, hpos⟩)
    rw [run_ingestBody_repeated hping hfound] at hrun
    obtain ⟨hr, hafter⟩ := Prod.mk.inj hrun
    cases hr
    rw [← hafter]
    exact ⟨ht.events, _, hanswer, rfl, rfl⟩
  · obtain ⟨t, r, ht, hanswer, hrun⟩ := hadmitted.run
    have hfalse : (namesPing fields && t.findsPing project) = false := by
      rw [Bool.and_eq_false_iff, ht.findsPing]
      refine hnew.imp id fun hnone => Bool.eq_false_iff.mpr fun hfound => ?_
      exact absurd (findsPing_iff.mp hfound).2 (Nat.not_lt.mpr (Nat.le_of_eq hnone))
    obtain ⟨event, u, hproject, hevents, hrun'⟩ :=
      run_ingestBody_new hfalse ((ht.isDown .insert).trans hup)
    obtain ⟨hr, hafter⟩ := Prod.mk.inj (hrun.symm.trans hrun')
    cases hr
    exact ⟨event, hproject, by rw [hafter, hevents, ht.events]; rfl, hanswer⟩
  · rcases visit_cases cap s arrival with ⟨-, hno⟩ | ⟨project, body, t, r', hadmitted, ht, hr', hrun⟩
    · rw [hno r hr] at haccepted
      cases haccepted
    · cases hr.symm.trans hr'
      generalize hresult : r = result at hrun
      cases bodyEnding_of_run hrun with
      | stored _ _ _ hevents =>
        have hlength := congrArg List.length (hevents.symm.trans hsame)
        rw [ht.events, List.length_append] at hlength
        exact absurd hlength (Nat.succ_ne_self _)
      | repeated hbody hping hfound =>
        refine ⟨project, ⟨_, hbody ▸ hadmitted, hping⟩, ?_⟩
        exact (findsPing_iff.mp ((ht.findsPing project).symm.trans hfound)).2
      | noObject =>
        rw [hresult] at haccepted
        cases haccepted
      | notPersisted =>
        rw [hresult] at haccepted
        cases haccepted

/-! ## Runs -/

/-- The stored events stay as they are; anything else may change. -/
def SameEvents (s t : Collaborators) : Prop := t.events = s.events

open Classical in
/-- How many requests for a project had their duplicate check fail. -/
noncomputable def failedChecks (cap : Int) (project : String) (visits : List Visit) : Nat :=
  visits.countP fun v => decide (v.ChecksInVain cap project)

theorem failedChecks_cons (cap : Int) (project : String) (v : Visit) (visits : List Visit) :
    failedChecks cap project visits ≤ failedChecks cap project (v :: visits) ∧
    (v.ChecksInVain cap project →
      failedChecks cap project (v :: visits) = failedChecks cap project visits + 1) := by
  unfold failedChecks
  rw [List.countP_cons]
  exact ⟨Nat.le_add_right .., fun h => by simp [h]⟩

/-- **A run leaves at most one ping row more than checks have failed**, where there is none or one
to begin with. -/
theorem Run.pings_le (h : Run cap SameEvents s visits u) (project : String) :
    pings project u.events ≤ max 1 (pings project s.events) + failedChecks cap project visits := by
  induction h with
  | nil s => exact Nat.le_trans (Nat.le_max_right ..) (Nat.le_add_right ..)
  | between hsame _ ih => rwa [hsame] at ih
  | @request s u visits arrival _ ih =>
    obtain ⟨hcons, hfailed⟩ := failedChecks_cons cap project (visit cap s arrival) visits
    rcases pings_visit cap s arrival project with hle | ⟨hvain, hle⟩
    · omega
    · have := hfailed hvain
      omega

/-- **Pings are suppressed once one is stored, and nothing else is.** -/
theorem pings_suppressed (hrun : Run cap SameEvents s visits u) :
    (∀ project, pings project s.events = 0 →
      pings project u.events ≤ 1 + failedChecks cap project visits) ∧
    ∀ v ∈ visits, v.SuppressesPings cap := by
  refine ⟨fun project hnone => ?_, fun v hv => ?_⟩
  · have hle := hrun.pings_le project
    rwa [hnone, Nat.max_eq_left (Nat.zero_le 1)] at hle
  · obtain ⟨-, hvisits⟩ := hrun.kept (P := fun _ => True) (fun _ _ _ _ => trivial)
      (fun _ _ _ => trivial) trivial
    rw [(hvisits v hv).2]
    exact suppressesPings_visit cap v.before v.arrival

/-- A request with a ping. -/
def pingRequest : Arrival :=
  .decoded (some "Bearer we_1") (.value (.obj [("event", .str pingType)]))

/-- The collaborators with others of them down. -/
def withDown (s : Collaborators) (down : List Collaborator) : Collaborators := { s with down }

theorem sameEvents_withDown (s : Collaborators) (down : List Collaborator) :
    SameEvents s (s.withDown down) := rfl

/-- A small gate whose duplicate check is down, after a ping. -/
def uncheckedPing : Collaborators := (visit 10000 (small.withDown [.hasType]) pingRequest).after

/-- A gate that has stored a ping while its duplicate check was down, and suppresses the next. -/
theorem pings_suppressed_outage :
    Run 10000 SameEvents (small.withDown [.hasType])
      [visit 10000 (small.withDown [.hasType]) pingRequest,
        visit 10000 (uncheckedPing.withDown []) pingRequest]
      (visit 10000 (uncheckedPing.withDown []) pingRequest).after ∧
    (pings "project" uncheckedPing.events,
      pings "project" (visit 10000 (uncheckedPing.withDown []) pingRequest).after.events) = (1, 1) ∧
    (visit 10000 (uncheckedPing.withDown []) pingRequest).status? = some 200 ∧
    (visit 10000 (uncheckedPing.withDown []) pingRequest).SuppressesPings 10000 := by
  have hrun : Run 10000 SameEvents (small.withDown [.hasType])
      [visit 10000 (small.withDown [.hasType]) pingRequest,
        visit 10000 (uncheckedPing.withDown []) pingRequest]
      (visit 10000 (uncheckedPing.withDown []) pingRequest).after :=
    .request pingRequest (.between (sameEvents_withDown _ []) (.request pingRequest (.nil _)))
  exact ⟨hrun, by decide +kernel, by decide +kernel,
    (pings_suppressed hrun).2 _ (.tail _ (.head _))⟩

end Collaborators

end Telemetry.Gate
