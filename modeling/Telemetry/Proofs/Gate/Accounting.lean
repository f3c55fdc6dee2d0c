import Telemetry.Proofs.Gate.Stages

/-!
# Every request is accounted for

Whatever a request carries, and whichever collaborators are down, it ends in exactly one of three
ways: its event is stored, it is a ping that has been stored before, or a stage refuses it. The
result says which, and the stored events agree with the result.

Main statement: `ingest_accounts`.
-/

namespace Telemetry.Gate.Collaborators

variable {s t : Collaborators} {authorization : Option String} {key : Key} {body : Body} {r : Result}

/-! ## Ways to end -/

/-- The request's event, and nothing else, has been added to the stored events. -/
def Stored (s : Collaborators) (authorization : Option String) (body : Body) (r : Result)
    (t : Collaborators) : Prop :=
  ∃ key fields traceId event, Opens s authorization key ∧ key.project = some event.project ∧
    body = .value (.obj fields) ∧
    event = Event.ofDraft event.project event.id traceId s.world.now (draftOf fields) ∧
    r = .success (some event.id) ∧ t.events = s.events ++ [event]

/-- The request is a ping of a project for which the duplicate check found one, and the stored
events stay as they are. -/
def Repeated (s : Collaborators) (authorization : Option String) (body : Body) (r : Result)
    (t : Collaborators) : Prop :=
  ∃ key project fields, Opens s authorization key ∧ key.project = some project ∧
    body = .value (.obj fields) ∧ namesPing fields = true ∧ s.findsPing project = true ∧
    r = .success none ∧ t.events = s.events

/-- The stages that refuse requests, each with the statuses of its refusals. -/
def refusals : List (Stage × Nat) := [
  (.authenticating, 401), (.authenticating, 400), (.authenticating, 502), (.quotaCheck, 429),
  (.dupCheck, 400), (.persist, 500)]

/-- A stage has refused the request, and the stored events stay as they are. -/
def Refused (s : Collaborators) (r : Result) (t : Collaborators) : Prop :=
  ∃ stage refusal, (stage, Refusal.status refusal) ∈ refusals ∧ r = .refused stage refusal ∧
    t.events = s.events

/-- Just one of three statements holds. -/
def ExactlyOne (a b c : Prop) : Prop := (a ∧ ¬ b ∧ ¬ c) ∨ (¬ a ∧ b ∧ ¬ c) ∨ (¬ a ∧ ¬ b ∧ c)

/-- The gate lets a request pass: its key opens the gate, no known usage has reached the cap, the
body is an object, and its event can be stored or need not be. -/
def Admits (s : Collaborators) (defaultCap : Int) (authorization : Option String) (body : Body) :
    Prop :=
  ∃ key project fields, Opens s authorization key ∧ key.project = some project ∧
    (∀ current, s.usage? key = some current → current < s.capOf defaultCap key) ∧
    body = .value (.obj fields) ∧
    (s.isDown .insert = false ∨ namesPing fields = true ∧ s.findsPing project = true)

/-- The use of a key that opens the gate is noted, if that works, and no other. -/
def Noted (s : Collaborators) (authorization : Option String) (t : Collaborators) : Prop :=
  (∀ key, Opens s authorization key → t.usage = (s.noted key).usage) ∧
    ((∀ key, ¬ Opens s authorization key) → t.usage = s.usage)

theorem Stored.result (h : Stored s authorization body r t) :
    r.stage = .ack ∧ r.eventId.isSome = true := by
  obtain ⟨-, -, -, event, -, -, -, -, rfl, -⟩ := h
  exact ⟨rfl, rfl⟩

theorem Repeated.result (h : Repeated s authorization body r t) :
    r.stage = .ack ∧ r.eventId.isSome = false := by
  obtain ⟨-, -, -, -, -, -, -, -, rfl, -⟩ := h
  exact ⟨rfl, rfl⟩

theorem Refused.result (h : Refused s r t) : r.stage = .rejected := by
  obtain ⟨stage, refusal, -, rfl, -⟩ := h
  rfl

/-- The three ways to end exclude each other. -/
theorem exactlyOne_of_or (h : Stored s authorization body r t ∨ Repeated s authorization body r t ∨
    Refused s r t) :
    ExactlyOne (Stored s authorization body r t) (Repeated s authorization body r t)
      (Refused s r t) := by
  have hids : Stored s authorization body r t → ¬ Repeated s authorization body r t := by
    intro hs hr
    have hid := hs.result.2
    rw [hr.result.2] at hid
    cases hid
  have hstored : Stored s authorization body r t → ¬ Refused s r t := by
    intro hs hr
    have hstage := hs.result.1
    rw [hr.result] at hstage
    cases hstage
  have hrepeated : Repeated s authorization body r t → ¬ Refused s r t := by
    intro hs hr
    have hstage := hs.result.1
    rw [hr.result] at hstage
    cases hstage
  -- The results differ: an id, a success without one, a refusal.
  rcases h with h | h | h
  · exact Or.inl ⟨h, hids h, hstored h⟩
  · exact Or.inr (Or.inl ⟨fun hs => hids hs h, h, hrepeated h⟩)
  · exact Or.inr (Or.inr ⟨fun hs => hstored hs h, fun hs => hrepeated hs h, h⟩)

/-! ## Requests -/

theorem Opens.project (h : Opens s authorization key) : ∃ project, key.project = some project := by
  have hbound := h.bound
  unfold boundProject? at hbound
  split at hbound
  · rename_i project hproject
    exact ⟨project, hproject⟩
  · cases hbound

theorem Opens.unique {other : Key} (h : Opens s authorization key)
    (k : Opens s authorization other) : other = key := by
  obtain ⟨token, htoken, hkey⟩ := h.known
  have hother := k.findKey htoken
  rw [hkey] at hother
  exact (Option.some.inj hother).symm

/-- The part of a request behind the quota. -/
def ingestBody (project : String) (body : Body) : Attempt Result :=
  atStage .dupCheck (checkBody project body) fun (fields, repeated) =>
  if repeated then pure (.success none)
  else
    atStage .build (buildEvent project fields) fun event =>
    atStage .persist (persist event) fun () =>
    pure (.success (some event.id))

theorem ingest_eq (defaultCap : Int) (authorization : Option String) (body : Body) :
    ingest defaultCap authorization body
      = atStage .authenticating (authenticate authorization) fun key =>
        atStage .quotaCheck (checkQuota defaultCap key) fun () =>
        ingestBody (key.project.getD "") body := rfl

/-- How the part of a request behind the quota ends. -/
inductive BodyEnding (project : String) (body : Body) (s : Collaborators) : Result →
    Collaborators → Prop
  | stored {t : Collaborators} {fields : Json.Object} {id traceId : String} {event : Event}
    (hbody : body = .value (.obj fields)) (hup : s.isDown .insert = false)
    (hevent : event = Event.ofDraft project id traceId s.world.now (draftOf fields))
    (hevents : t.events = s.events ++ [event]) (husage : t.usage = s.usage) :
    BodyEnding project body s (.success (some event.id)) t
  | repeated {fields : Json.Object} (hbody : body = .value (.obj fields))
    (hping : namesPing fields = true) (hfound : s.findsPing project = true) :
    BodyEnding project body s (.success none) s
  | noObject {flaw : RequestFlaw} (hbody : ∀ fields, body ≠ .value (.obj fields)) :
    BodyEnding project body s (.refused .dupCheck (.request flaw)) s
  | notPersisted {t : Collaborators} {fields : Json.Object} (hbody : body = .value (.obj fields))
    (hdown : s.isDown .insert = true) (hnew : (namesPing fields && s.findsPing project) = false)
    (hkept : Kept s t) : BodyEnding project body s (.refused .persist .notPersisted) t

theorem run_ingestBody (project : String) (body : Body) (s : Collaborators) :
    ∃ r t, (ingestBody project body).runWith handle s = (.ok r, t) ∧
      BodyEnding project body s r t := by
  unfold ingestBody
  rcases run_checkBody project body s with ⟨fields, hbody, hcheck⟩ | ⟨hbody, flaw, hcheck⟩
  · rw [Attempt.runWith_atStage_ok hcheck]
    dsimp only
    cases hrepeated : namesPing fields && s.findsPing project with
    | true =>
      obtain ⟨hping, hfound⟩ := Bool.and_eq_true_iff.mp hrepeated
      exact ⟨_, _, rfl, .repeated hbody hping hfound⟩
    | false =>
      obtain ⟨id, traceId, t, hkept, hbuild⟩ := run_buildEvent project fields s
      rw [if_neg Bool.false_ne_true, Attempt.runWith_atStage_ok hbuild]
      have hdown := hkept.isDown .insert
      rcases run_persist (Event.ofDraft project id traceId s.world.now (draftOf fields)) t with
        ⟨hup, hpersist⟩ | ⟨hup, hpersist⟩
      · rw [Attempt.runWith_atStage_ok hpersist]
        refine ⟨_, _, rfl, .stored hbody (hdown.symm.trans hup) rfl ?_ hkept.usage⟩
        rw [hkept.events]
      · rw [Attempt.runWith_atStage_refused hpersist]
        exact ⟨_, _, rfl, .notPersisted hbody (hdown.symm.trans hup) hrepeated hkept⟩
  · rw [Attempt.runWith_atStage_refused hcheck]
    exact ⟨_, _, rfl, .noObject hbody⟩

/-- For a key that opens the gate, what admits the request are the quota, the body and the store. -/
theorem admits_iff (hkey : Opens s authorization key) {project : String}
    (hproject : key.project = some project) (defaultCap : Int) :
    Admits s defaultCap authorization body ↔
      (∀ current, s.usage? key = some current → current < s.capOf defaultCap key) ∧
      ∃ fields, body = .value (.obj fields) ∧
        (s.isDown .insert = false ∨ namesPing fields = true ∧ s.findsPing project = true) := by
  constructor
  · rintro ⟨other, project', fields, hother, hproject', hwithin, hbody, hstore⟩
    have heq := hkey.unique hother
    subst heq
    rw [hproject] at hproject'
    cases hproject'
    exact ⟨hwithin, fields, hbody, hstore⟩
  · rintro ⟨hwithin, fields, hbody, hstore⟩
    exact ⟨key, project, fields, hkey, hproject, hwithin, hbody, hstore⟩

theorem BodyEnding.usage {project : String} (h : BodyEnding project body s r t) :
    t.usage = s.usage := by
  cases h with
  | stored hbody hup hevent hevents husage => exact husage
  | repeated => rfl
  | noObject => rfl
  | notPersisted hbody hdown hnew hkept => exact hkept.usage

/-- What the part behind the quota comes to, seen from where the request started. -/
theorem BodyEnding.accounts {u : Collaborators} (hkey : Opens s authorization key)
    {project : String} (hproject : key.project = some project) (hs : Alike s t)
    (h : BodyEnding project body t r u) :
    (Stored s authorization body r u ∨ Repeated s authorization body r u ∨ Refused s r u) ∧
      (r.accepted = true ↔ ∃ fields, body = .value (.obj fields) ∧
        (s.isDown .insert = false ∨ namesPing fields = true ∧ s.findsPing project = true)) := by
  cases h with
  | @stored _ fields id traceId event hbody hup hevent hevents husage =>
    subst hevent
    rw [hs.now, hs.events] at *
    refine ⟨Or.inl ⟨key, fields, traceId, _, hkey, hproject, hbody, rfl, rfl, hevents⟩, ?_⟩
    exact ⟨fun _ => ⟨fields, hbody, Or.inl ((hs.isDown .insert).symm.trans hup)⟩, fun _ => rfl⟩
  | @repeated fields hbody hping hfound =>
    rw [hs.findsPing] at hfound
    refine ⟨Or.inr (Or.inl ⟨key, project, fields, hkey, hproject, hbody, hping, hfound, rfl,
      hs.events⟩), ?_⟩
    exact ⟨fun _ => ⟨fields, hbody, Or.inr ⟨hping, hfound⟩⟩, fun _ => rfl⟩
  | @noObject flaw hbody =>
    have hstatus : (Stage.dupCheck, (Refusal.request flaw).status) ∈ refusals := by
      simp [refusals, Refusal.status]
    refine ⟨Or.inr (Or.inr ⟨.dupCheck, .request flaw, hstatus, rfl, hs.events⟩), ?_⟩
    constructor
    · intro h
      cases h
    · rintro ⟨fields, hfields, -⟩
      exact absurd hfields (hbody fields)
  | @notPersisted _ fields hbody hdown hnew hkept =>
    refine ⟨Or.inr (Or.inr ⟨.persist, .notPersisted, by decide, rfl,
      hkept.events.trans hs.events⟩), ?_⟩
    constructor
    · intro h
      cases h
    · rintro ⟨other, hother, hstore⟩
      rw [hbody] at hother
      cases hother
      rw [hs.isDown] at hdown
      rw [hs.findsPing] at hnew
      rcases hstore with hup | ⟨hping, hfound⟩
      · rw [hdown] at hup
        cases hup
      · rw [hping, hfound] at hnew
        cases hnew

/-! ## All requests -/

/-- **Every request is accounted for.** It ends with its event stored, as a ping that has been
stored before, or refused; it is accepted just if the gate admits it; and a use is noted for the
key that opens the gate and for no other. -/
theorem ingest_accounts (h : Timed s) (defaultCap : Int) (authorization : Option String)
    (body : Body) :
    ∃ r t, s.run (ingest defaultCap authorization body) = (.ok r, t) ∧
      ExactlyOne (Stored s authorization body r t) (Repeated s authorization body r t)
        (Refused s r t) ∧
      (r.accepted = true ↔ Admits s defaultCap authorization body) ∧
      Noted s authorization t := by
  change ∃ r t, (ingest defaultCap authorization body).runWith handle s = (.ok r, t) ∧ _
  rw [ingest_eq]
  rcases run_authenticate h authorization with ⟨key, hkey, hauth⟩ | ⟨refusal, hstatus, hno, hauth⟩
  · obtain ⟨project, hproject⟩ := hkey.project
    have hnoted : ∀ t : Collaborators, t.usage = (s.noted key).usage → Noted s authorization t := by
      intro t ht
      refine ⟨fun other hother => ?_, fun hno => absurd hkey (hno key)⟩
      rw [hkey.unique hother]
      exact ht
    -- Noting the use is all that the first stage leaves behind; the quota is judged as before it.
    rw [Attempt.runWith_atStage_ok hauth]
    obtain ⟨t, ht, ⟨hquota, hwithin⟩ | ⟨current, hcurrent, hcap, hquota⟩⟩ :=
      run_checkQuota defaultCap key (s.noted key)
    · rw [Attempt.runWith_atStage_ok hquota, hproject, Option.getD_some]
      obtain ⟨r, u, hrun, hending⟩ := run_ingestBody project body t
      obtain ⟨hways, haccepted⟩ :=
        hending.accounts hkey hproject ((alike_noted s key).trans ht.toAlike)
      rw [(alike_noted s key).usage?, capOf_noted] at hwithin
      refine ⟨r, u, hrun, exactlyOne_of_or hways, ?_, hnoted u (hending.usage.trans ht.usage)⟩
      rw [admits_iff hkey hproject, haccepted]
      exact ⟨fun hbody => ⟨hwithin, hbody⟩, fun hall => hall.2⟩
    · rw [Attempt.runWith_atStage_refused hquota]
      rw [(alike_noted s key).usage?] at hcurrent
      rw [capOf_noted] at hcap
      refine ⟨_, t, rfl, exactlyOne_of_or (Or.inr (Or.inr ⟨.quotaCheck, _, ?_, rfl,
        ht.events.trans (alike_noted s key).events⟩)), ?_, hnoted t ht.usage⟩
      · simp [refusals, Refusal.status]
      · rw [admits_iff hkey hproject]
        constructor
        · intro h
          cases h
        · rintro ⟨hwithin, -⟩
          exact absurd (hwithin current hcurrent) (by omega)
  · rw [Attempt.runWith_atStage_refused hauth]
    refine ⟨_, s, rfl, exactlyOne_of_or (Or.inr (Or.inr ⟨.authenticating, refusal, ?_, rfl, rfl⟩)),
      ?_, fun key hkey => absurd hkey (hno key), fun _ => rfl⟩
    · simpa [refusals, credentialStatuses] using hstatus
    · constructor
      · intro h
        cases h
      · rintro ⟨key, -, -, hkey, -⟩
        exact absurd hkey (hno key)

/-- A gate with one key, which expires, and no events. -/
def oneKey : Collaborators where
  world := ⟨Time.DateTime.withZone default, .zero, .zero, 0⟩
  keys := [{
    id := "key", digest := "digest", start := "we_", account := "account", project := some "project",
    expiresAt := some (Time.DateTime.withZone default) }]
  projects := []
  events := []
  down := []
  ids := .unique
  usage := []
  quota := none
  limits := []
  asked := []
  rows := .ok []
  statements := []

theorem timed_oneKey : Timed oneKey := by
  refine ⟨fun key hkey expiry hexpiry => ?_, rfl⟩
  rw [List.mem_singleton.mp hkey] at hexpiry
  cases hexpiry
  rfl

theorem ingest_accounts_oneKey : Timed oneKey ∧
    ∃ r t, oneKey.run (ingest 0 (some "Bearer we_1") (.value .null)) = (.ok r, t) ∧
      ExactlyOne (Stored oneKey (some "Bearer we_1") (.value .null) r t)
        (Repeated oneKey (some "Bearer we_1") (.value .null) r t) (Refused oneKey r t) ∧
      (r.accepted = true ↔ Admits oneKey 0 (some "Bearer we_1") (.value .null)) ∧
      Noted oneKey (some "Bearer we_1") t :=
  ⟨timed_oneKey, ingest_accounts timed_oneKey 0 (some "Bearer we_1") (.value .null)⟩

end Telemetry.Gate.Collaborators
