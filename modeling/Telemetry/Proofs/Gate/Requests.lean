import Telemetry.Proofs.Gate.Refusal
import Telemetry.Proofs.Gate.Sessions

/-!
# Requests one after the other

A gate over memory that handles one request at a time, while other things can happen between two
requests. A request either cannot be read, or its credentials do not open the gate, or the account
of its key has reached its cap, or it is admitted and comes to its body.

Main statements: `ends`, which says everything that one request can come to, and `Run.kept`, which
carries what every request and everything in between keeps to a whole run.
-/

namespace Telemetry.Gate

/-! ## What a request carries -/

/-- The authorization header of a request. -/
def Arrival.authorization : Arrival → Option String
  | .decoded authorization _ | .raw authorization _ => authorization

/-- The body of a request, if it can be read. -/
def Arrival.body? : Arrival → Option Body
  | .decoded _ body => some body
  | .raw _ bytes => (readBody bytes).toOption

theorem Arrival.program_of_body {arrival : Arrival} {body : Body} (h : arrival.body? = some body)
    (cap : Int) : arrival.program cap = (ingest cap arrival.authorization body).run := by
  cases arrival with
  | decoded authorization decoded =>
    cases h
    rfl
  | raw authorization bytes =>
    show ((liftM (readBody bytes) : Attempt Body) >>= ingest cap authorization).run = _
    change (readBody bytes).toOption = some body at h
    cases hread : readBody bytes with
    | ok found =>
      rw [hread] at h
      cases h
      rfl
    | error fault =>
      rw [hread] at h
      cases h

theorem Arrival.program_of_unread {arrival : Arrival} (h : arrival.body? = none) (cap : Int) :
    ∃ fault, arrival.program cap = .done (.error fault) := by
  cases arrival with
  | decoded authorization body => cases h
  | raw authorization bytes =>
    change (readBody bytes).toOption = none at h
    cases hread : readBody bytes with
    | ok found =>
      rw [hread] at h
      cases h
    | error fault =>
      refine ⟨fault, ?_⟩
      show ((liftM (readBody bytes) : Attempt Body) >>= ingest cap authorization).run = _
      rw [hread]
      rfl

/-- Judging a key refuses nothing by itself. -/
theorem Key.isUsable_ne_refusal (key : Key) (now : Time.DateTime) (r : Refusal) :
    key.isUsable now ≠ .error (.refusal r) := by
  unfold Key.isUsable
  split
  · exact nofun
  · split
    · exact nofun
    · split <;> exact nofun

section Programs

variable {σ α : Type} {handler : (c : Call) → σ → c.Answer × σ}

/-- What every call keeps, a program keeps. -/
theorem Program.run_kept {P : σ → Prop} (hcall : ∀ c s, P s → P (handler c s).2) (p : Program α)
    {s : σ} (hs : P s) : P (p.run handler s).2 := by
  induction p generalizing s with
  | done a => exact hs
  | call c next ih => exact ih _ (hcall c s hs)

/-- A stage that stops is the end of the request, with a result if it stops with a refusal. -/
theorem Attempt.runWith_atStage_stopped {x : Attempt α} {s t : σ} {fault : Fault}
    (h : x.runWith handler s = (.error fault, t)) (stage : Stage) (f : α → Attempt Result) :
    ∃ answer, (atStage stage x f).runWith handler s = (answer, t) ∧
      ∀ r, answer = .ok r → ∃ refusal, fault = .refusal refusal ∧ r = .refused stage refusal := by
  unfold atStage runWith
  rw [ExceptT.run_mk, run_bind_of_runWith h]
  cases fault with
  | refusal refusal =>
    refine ⟨_, rfl, fun r hr => ?_⟩
    cases hr
    exact ⟨refusal, rfl, rfl⟩
  | _ =>
    refine ⟨_, rfl, fun r hr => ?_⟩
    cases hr

end Programs

namespace Collaborators

variable {s t u : Collaborators} {authorization : Option String} {key : Key}

/-! ## Credentials -/

theorem run_identify_opens (hkey : Opens s authorization key) :
    (identify authorization).runWith handle s = (.ok (key, s.world.now), s) := by
  have hbound : (boundProject? key).isNone = false := by
    rw [Option.isNone_eq_false_iff]
    exact hkey.bound
  rw [run_identify_presented ⟨hkey.reachable, hkey.known⟩ hkey.usable, if_pos rfl, hbound]
  rfl

/-- A header that does not open the gate is refused, unless the expiry of its key cannot be compared
with the time of day, which is a fault. -/
theorem run_identify_closed (hno : ∀ key, ¬ Opens s authorization key) :
    ∃ fault, (identify authorization).runWith handle s = (.error fault, s) ∧
      ∀ refusal, fault = .refusal refusal → refusal.status ∈ credentialStatuses := by
  cases htoken : Token.ofHeader? authorization with
  | none =>
    refine ⟨.refusal (.credential .missing), ?_, fun refusal h => by cases h; decide⟩
    unfold identify
    rw [htoken]
    rfl
  | some token =>
    cases hdown : s.isDown .find with
    | true =>
      refine ⟨.refusal (.dependency .credentialLookup), ?_, fun refusal h => by cases h; decide⟩
      unfold identify
      rw [htoken]
      dsimp only
      rw [Attempt.runWith_ask_bind]
      dsimp only [handle]
      rw [unlessDown_of_down hdown]
      rfl
    | false =>
      cases hfind : s.findKey (Token.digest token) with
      | none =>
        refine ⟨.refusal (.credential .unknown), ?_, fun refusal h => by cases h; decide⟩
        unfold identify
        rw [htoken]
        dsimp only
        rw [Attempt.runWith_ask_bind]
        dsimp only [handle]
        rw [unlessDown_of_up hdown, hfind]
        rfl
      | some key =>
        have hpresents : Presents s authorization key := ⟨hdown, token, htoken, hfind⟩
        cases husable : key.isUsable s.world.now with
        | error fault =>
          refine ⟨fault, ?_, fun refusal h => ?_⟩
          · unfold identify
            rw [htoken]
            dsimp only
            rw [Attempt.runWith_ask_bind]
            dsimp only [handle]
            rw [unlessDown_of_up hdown, hfind]
            dsimp only
            rw [Attempt.runWith_ask_bind]
            dsimp only [handle]
            rw [husable]
            rfl
          · exact absurd (h ▸ husable) (Key.isUsable_ne_refusal key s.world.now refusal)
        | ok usable =>
          rw [run_identify_presented hpresents husable]
          cases usable with
          | false => exact ⟨_, rfl, fun refusal h => by cases h; decide⟩
          | true =>
            cases hbound : (boundProject? key).isNone with
            | true => exact ⟨.refusal .unbound, rfl, fun refusal h => by cases h; decide⟩
            | false =>
              exact absurd ⟨hdown, ⟨token, htoken, hfind⟩, husable,
                Option.isNone_eq_false_iff.mp hbound⟩ (hno key)

theorem run_authenticate_opens (hkey : Opens s authorization key) :
    (authenticate authorization).runWith handle s = (.ok key, s.noted key) := by
  unfold authenticate
  rw [Attempt.runWith_bind_ok (run_identify_opens hkey)]
  dsimp only
  rw [Attempt.runWith_bind_ok (run_noteUse key s)]
  rfl

/-! ## What a request comes to -/

/-- Everything that a request can come to. -/
inductive Ending (cap : Int) (arrival : Arrival) (s : Collaborators) :
    Except Fault Result → Collaborators → Prop
  | unread {fault : Fault} (hbody : arrival.body? = none) : Ending cap arrival s (.error fault) s
  | closed {answer : Except Fault Result} (hno : ∀ key, ¬ Opens s arrival.authorization key)
    (hanswer : ∀ r, answer = .ok r → ∃ refusal : Refusal, refusal.status ∈ credentialStatuses ∧
      r = .refused .authenticating refusal) : Ending cap arrival s answer s
  | overQuota {body : Body} {key : Key} {current : Int} {t : Collaborators}
    (hbody : arrival.body? = some body) (hkey : Opens s arrival.authorization key)
    (husage : s.usage? key = some current) (hcap : s.capOf cap key ≤ current) (ht : Alike s t) :
    Ending cap arrival s
      (.ok (.refused .quotaCheck (.quotaExceeded current (s.capOf cap key)))) t
  | admitted {body : Body} {key : Key} {project : String} {t u : Collaborators} {r : Result}
    (hbody : arrival.body? = some body) (hkey : Opens s arrival.authorization key)
    (hproject : key.project = some project)
    (hwithin : ∀ current, s.usage? key = some current → current < s.capOf cap key)
    (ht : Alike s t) (hrun : (ingestBody project body).runWith handle t = (.ok r, u)) :
    Ending cap arrival s (.ok r) u

theorem bodyEnding_of_run {project : String} {body : Body} {r : Result}
    (h : (ingestBody project body).runWith handle s = (.ok r, t)) :
    BodyEnding project body s r t := by
  obtain ⟨r', t', hrun, hending⟩ := run_ingestBody project body s
  cases h.symm.trans hrun
  exact hending

/-- A request whose credentials open the gate is refused for its quota or comes to its body. -/
theorem ends_opened {arrival : Arrival} {body : Body} (cap : Int)
    (hbody : arrival.body? = some body) (hkey : Opens s arrival.authorization key) :
    ∃ answer u, (ingest cap arrival.authorization body).runWith handle s = (answer, u) ∧
      Ending cap arrival s answer u := by
  obtain ⟨project, hproject⟩ := hkey.project
  have hnoted := alike_noted s key
  rw [ingest_eq, Attempt.runWith_atStage_ok (run_authenticate_opens hkey)]
  obtain ⟨t, ht, ⟨hquota, hwithin⟩ | ⟨current, hcurrent, hcap, hquota⟩⟩ :=
    run_checkQuota cap key (s.noted key)
  · rw [Attempt.runWith_atStage_ok hquota, hproject, Option.getD_some]
    obtain ⟨r, u, hrun, -⟩ := run_ingestBody project body t
    rw [hnoted.usage?, capOf_noted] at hwithin
    exact ⟨_, u, hrun, .admitted hbody hkey hproject hwithin (hnoted.trans ht.toAlike) hrun⟩
  · rw [Attempt.runWith_atStage_refused hquota]
    rw [hnoted.usage?] at hcurrent
    rw [capOf_noted] at hcap ⊢
    exact ⟨_, t, rfl, .overQuota hbody hkey hcurrent hcap (hnoted.trans ht.toAlike)⟩

/-- **What a request comes to**, whatever the collaborators hold and whichever of them are down. -/
theorem ends (cap : Int) (arrival : Arrival) (s : Collaborators) :
    Ending cap arrival s ((arrival.program cap).run handle s).1
      ((arrival.program cap).run handle s).2 := by
  cases hbody : arrival.body? with
  | none =>
    obtain ⟨fault, hprogram⟩ := Arrival.program_of_unread hbody cap
    rw [hprogram]
    exact .unread hbody
  | some body =>
    rw [Arrival.program_of_body hbody]
    change Ending cap arrival s ((ingest cap arrival.authorization body).runWith handle s).1
      ((ingest cap arrival.authorization body).runWith handle s).2
    by_cases hopens : ∃ key, Opens s arrival.authorization key
    · obtain ⟨key, hkey⟩ := hopens
      obtain ⟨answer, u, hrun, hending⟩ := ends_opened cap hbody hkey
      rw [hrun]
      exact hending
    · have hno : ∀ key, ¬ Opens s arrival.authorization key := not_exists.mp hopens
      obtain ⟨fault, hidentify, hstatus⟩ := run_identify_closed hno
      have hauth : (authenticate arrival.authorization).runWith handle s = (.error fault, s) :=
        Attempt.runWith_bind_error hidentify _
      obtain ⟨answer, hrun, hanswer⟩ := Attempt.runWith_atStage_stopped hauth .authenticating _
      rw [ingest_eq, hrun]
      refine .closed hno fun r hr => ?_
      obtain ⟨refusal, hfault, hr⟩ := hanswer r hr
      exact ⟨refusal, hstatus refusal hfault, hr⟩

/-- A request that is read, and whose credentials open the gate, is refused for the quota of its
account or comes to its body. -/
theorem Ending.of_opens {cap : Int} {arrival : Arrival} {answer : Except Fault Result}
    (h : Ending cap arrival s answer u) (hread : arrival.body?.isSome = true)
    (hkey : Opens s arrival.authorization key) :
    (∃ current, s.usage? key = some current ∧ s.capOf cap key ≤ current ∧ Alike s u ∧
      answer = .ok (.refused .quotaCheck (.quotaExceeded current (s.capOf cap key)))) ∨
    ∃ body project t r, arrival.body? = some body ∧ key.project = some project ∧
      (∀ current, s.usage? key = some current → current < s.capOf cap key) ∧ Alike s t ∧
      answer = .ok r ∧ (ingestBody project body).runWith handle t = (.ok r, u) := by
  cases h with
  | unread hbody =>
    rw [hbody] at hread
    cases hread
  | closed hno => exact absurd hkey (hno key)
  | overQuota hbody hother husage hcap ht =>
    obtain rfl := hkey.unique hother
    exact Or.inl ⟨_, husage, hcap, ht, rfl⟩
  | admitted hbody hother hproject hwithin ht hrun =>
    obtain rfl := hkey.unique hother
    exact Or.inr ⟨_, _, _, _, hbody, hproject, hwithin, ht, rfl, hrun⟩

/-- **A request leaves the stored events as they are, or adds its own.** -/
theorem Ending.events {cap : Int} {arrival : Arrival} {answer : Except Fault Result}
    (h : Ending cap arrival s answer u) :
    u.events = s.events ∨ ∃ body r, arrival.body? = some body ∧ answer = .ok r ∧
      Stored s arrival.authorization body r u := by
  cases h with
  | unread | closed => exact Or.inl rfl
  | overQuota hbody hkey husage hcap ht => exact Or.inl ht.events
  | admitted hbody hkey hproject hwithin ht hrun =>
    rcases ((bodyEnding_of_run hrun).accounts hkey hproject ht).1 with h | h | h
    · exact Or.inr ⟨_, _, hbody, rfl, h⟩
    · obtain ⟨-, -, -, -, -, -, -, -, -, hevents⟩ := h
      exact Or.inl hevents
    · obtain ⟨-, -, -, -, hevents⟩ := h
      exact Or.inl hevents

/-- Two states with the same time of day, keys and projects, and with the same collaborators
down. -/
structure SameSetting (s t : Collaborators) : Prop where
  now : t.world.now = s.world.now
  keys : t.keys = s.keys
  projects : t.projects = s.projects
  down : t.down = s.down

theorem Alike.sameSetting (h : Alike s t) : SameSetting s t := ⟨h.now, h.keys, h.projects, h.down⟩

theorem SameSetting.trans (h : SameSetting s t) (k : SameSetting t u) : SameSetting s u :=
  ⟨k.now.trans h.now, k.keys.trans h.keys, k.projects.trans h.projects, k.down.trans h.down⟩

theorem SameSetting.isDown (h : SameSetting s t) (c : Collaborator) : t.isDown c = s.isDown c := by
  unfold Collaborators.isDown
  rw [h.down]

theorem sameSetting_handle (c : Call) (s : Collaborators) : SameSetting s (handle c s).2 := by
  cases c with
  | limit account => exact (kept_limit account s).toAlike.sameSetting
  | freshId => exact (kept_freshId s).toAlike.sameSetting
  | recordUsage | insert =>
    unfold handle
    dsimp only
    split <;> exact ⟨rfl, rfl, rfl, rfl⟩
  | _ => exact ⟨rfl, rfl, rfl, rfl⟩

/-! ## Runs -/

/-- A request that has been handled: the state in which it arrived, how it was answered, and the
state that it left. -/
structure Visit where
  before : Collaborators
  arrival : Arrival
  answer : Except Fault Result
  after : Collaborators

/-- Handles a request. -/
def visit (cap : Int) (s : Collaborators) (arrival : Arrival) : Visit :=
  ⟨s, arrival, ((arrival.program cap).run handle s).1, ((arrival.program cap).run handle s).2⟩

theorem ends_visit (cap : Int) (s : Collaborators) (arrival : Arrival) :
    Ending cap arrival s (visit cap s arrival).answer (visit cap s arrival).after :=
  ends cap arrival s

theorem sameSetting_visit (cap : Int) (s : Collaborators) (arrival : Arrival) :
    SameSetting s (visit cap s arrival).after := by
  exact Program.run_kept (P := SameSetting s) (fun c t ht => ht.trans (sameSetting_handle c t)) _
    ⟨rfl, rfl, rfl, rfl⟩

/-- The request was read, and its credentials opened the gate. -/
structure Visit.Authenticates (v : Visit) (key : Key) : Prop where
  read : v.arrival.body?.isSome = true
  opens : Opens v.before v.arrival.authorization key

/-- The status of the result that the request is answered with. -/
def Visit.status? (v : Visit) : Option Nat := v.answer.toOption.map (·.status)

theorem Visit.status_of_answer {v : Visit} {r : Result} (h : v.answer = .ok r) :
    v.status? = some r.status := by
  unfold status?
  rw [h]
  rfl

theorem Visit.answer_of_status {v : Visit} {status : Nat} (h : v.status? = some status) :
    ∃ r, v.answer = .ok r ∧ r.status = status := by
  unfold status? at h
  cases hanswer : v.answer with
  | error fault =>
    rw [hanswer] at h
    cases h
  | ok r =>
    rw [hanswer] at h
    exact ⟨r, rfl, Option.some.inj h⟩

/-- Requests that are handled one after the other. In between, the collaborators may change in the
ways of a relation. -/
inductive Run (cap : Int) (Between : Collaborators → Collaborators → Prop) :
    Collaborators → List Visit → Collaborators → Prop
  | nil (s : Collaborators) : Run cap Between s [] s
  | between {s t u : Collaborators} {visits : List Visit} (h : Between s t)
    (hrest : Run cap Between t visits u) : Run cap Between s visits u
  | request {s u : Collaborators} {visits : List Visit} (arrival : Arrival)
    (hrest : Run cap Between (visit cap s arrival).after visits u) :
    Run cap Between s (visit cap s arrival :: visits) u

/-- **What every request and everything in between keeps holds whenever a request arrives.** -/
theorem Run.kept {cap : Int} {Between : Collaborators → Collaborators → Prop} {visits : List Visit}
    {P : Collaborators → Prop} (hbetween : ∀ s t, Between s t → P s → P t)
    (hvisit : ∀ s arrival, P s → P (visit cap s arrival).after) (h : Run cap Between s visits u)
    (hs : P s) : P u ∧ ∀ v ∈ visits, P v.before ∧ v = visit cap v.before v.arrival := by
  induction h with
  | nil s => exact ⟨hs, fun v hv => absurd hv List.not_mem_nil⟩
  | between h _ ih => exact ih (hbetween _ _ h hs)
  | request arrival _ ih =>
    obtain ⟨hu, hvisits⟩ := ih (hvisit _ arrival hs)
    refine ⟨hu, fun v hv => ?_⟩
    rcases List.mem_cons.mp hv with rfl | hv
    · exact ⟨hs, rfl⟩
    · exact hvisits v hv

/-! ## A small gate -/

/-- A gate without events and without a limits service, on the first day of the calendar, with one
key of an account that has one project. -/
def small : Collaborators where
  world := ⟨Time.DateTime.withZone default, .zero, .zero, 0⟩
  keys := [{
    id := "key", digest := Token.digest "we_1", start := "we_1", account := "account",
    project := some "project" }]
  projects := [("account", ["project"])]
  events := []
  down := []
  ids := .unique
  usage := []
  quota := none
  limits := []
  asked := []
  rows := .ok []
  statements := []

/-- A small gate with a limits service and what that says about the account. -/
def limitedBy (limit : AccountLimit) : Collaborators :=
  { small with
    quota := some (.empty none Quota.Cache.defaultTtl Quota.Cache.defaultSweepInterval
      (some Quota.Cache.defaultTimeout))
    limits := [("account", limit)] }

/-- A request with the key of a small gate and an object that says nothing. -/
def bare : Arrival := .decoded (some "Bearer we_1") (.value (.obj []))

end Collaborators

end Telemetry.Gate
