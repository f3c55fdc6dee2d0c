import Telemetry.Gate.Collaborators
import Telemetry.Proofs.Gate.Program

/-!
# The stages of a request over memory

What each stage of a request comes to, from what the collaborators hold and which of them are down,
and what it leaves behind. Only the last stage touches the stored events, and only noting a key's
use touches the record of uses.

Main statements: `run_authenticate`, `run_checkQuota`, `run_checkBody`, `run_buildEvent` and
`run_persist`, one for each stage.
-/

namespace Telemetry.Gate.Collaborators

variable {s t u : Collaborators} {authorization : Option String} {key : Key}

/-! ## What is kept -/

/-- Requests are judged alike in two states. -/
structure Alike (s t : Collaborators) : Prop where
  now : t.world.now = s.world.now
  keys : t.keys = s.keys
  projects : t.projects = s.projects
  events : t.events = s.events
  down : t.down = s.down

/-- Requests are judged alike in two states, and no use of a key has been noted in between. -/
structure Kept (s t : Collaborators) : Prop extends Alike s t where
  usage : t.usage = s.usage

theorem Alike.trans (h : Alike s t) (k : Alike t u) : Alike s u :=
  ⟨k.now.trans h.now, k.keys.trans h.keys, k.projects.trans h.projects, k.events.trans h.events,
    k.down.trans h.down⟩

theorem Kept.trans (h : Kept s t) (k : Kept t u) : Kept s u :=
  ⟨h.toAlike.trans k.toAlike, k.usage.trans h.usage⟩

theorem kept_limit (account : String) (s : Collaborators) : Kept s (handle (.limit account) s).2 := by
  unfold handle
  dsimp only
  split <;> exact ⟨⟨rfl, rfl, rfl, rfl, rfl⟩, rfl⟩

theorem kept_freshId (s : Collaborators) : Kept s (handle .freshId s).2 := by
  unfold handle freshId
  dsimp only
  split <;> exact ⟨⟨rfl, rfl, rfl, rfl, rfl⟩, rfl⟩

theorem Alike.isDown (h : Alike s t) (c : Collaborator) : t.isDown c = s.isDown c := by
  unfold Collaborators.isDown
  rw [h.down]

theorem unlessDown_of_down {α : Type} {c : Collaborator} (h : s.isDown c = true)
    (answer : Except Fault α) : s.unlessDown c answer = .error .unreachable := if_pos h

theorem unlessDown_of_up {α : Type} {c : Collaborator} (h : s.isDown c = false)
    (answer : Except Fault α) : s.unlessDown c answer = answer :=
  if_neg (by rw [h]; exact Bool.false_ne_true)

/-! ## Credentials -/

/-- A header names a key that opens the gate. -/
structure Opens (s : Collaborators) (authorization : Option String) (key : Key) : Prop where
  reachable : s.isDown .find = false
  known : ∃ token, Token.ofHeader? authorization = some token ∧
    s.findKey (Token.digest token) = some key
  usable : key.isUsable s.world.now = .ok true
  bound : (boundProject? key).isSome = true

theorem Opens.findKey {token : String} (h : Opens s authorization key)
    (htoken : Token.ofHeader? authorization = some token) :
    s.findKey (Token.digest token) = some key := by
  obtain ⟨token', ht, hk⟩ := h.known
  rw [htoken] at ht
  cases ht
  exact hk

/-- Every expiry can be compared with the time of day. -/
structure Timed (s : Collaborators) : Prop where
  expiries : ∀ key ∈ s.keys, ∀ expiry, key.expiresAt = some expiry → expiry.isAware = true
  clock : s.world.now.isAware = true

/-- The collaborators after the use of a key has been noted, if that worked. -/
def noted (s : Collaborators) (key : Key) : Collaborators :=
  if s.isDown .usage then s else { s with usage := s.usage ++ [(key.id, s.world.now)] }

/-- A key can be judged where expiries can be compared with the time of day. -/
theorem Timed.isUsable (h : Timed s) (hkey : key ∈ s.keys) :
    ∃ usable, key.isUsable s.world.now = .ok usable := by
  unfold Key.isUsable
  split
  · exact ⟨false, rfl⟩
  · split
    · exact ⟨true, rfl⟩
    · rename_i expiry hexpiry
      have haware : expiry.isAware = s.world.now.isAware := by
        rw [h.expiries key hkey expiry hexpiry, h.clock]
      rw [Time.DateTime.compare?, if_pos haware]
      exact ⟨_, rfl⟩

theorem alike_noted (s : Collaborators) (key : Key) : Alike s (s.noted key) := by
  unfold noted
  split <;> exact ⟨rfl, rfl, rfl, rfl, rfl⟩

theorem run_noteUse (key : Key) (s : Collaborators) :
    (noteUse key s.world.now).runWith handle s = (.ok (), s.noted key) := by
  unfold noteUse noted
  rw [Attempt.runWith_ask_bind]
  dsimp only [handle]
  split <;> rfl

/-- Credentials that do not open the gate are refused with one of three statuses. -/
def credentialStatuses : List Nat := [401, 400, 502]

/-- **The first stage finds the key that opens the gate**, or refuses the request and changes
nothing. -/
theorem run_identify (h : Timed s) (authorization : Option String) :
    (∃ key, Opens s authorization key ∧
      (identify authorization).runWith handle s = (.ok (key, s.world.now), s)) ∨
    (∃ r : Refusal, r.status ∈ credentialStatuses ∧ (∀ key, ¬ Opens s authorization key) ∧
      (identify authorization).runWith handle s = (.error (.refusal r), s)) := by
  unfold identify
  cases htoken : Token.ofHeader? authorization with
  | none =>
    refine Or.inr ⟨.credential .missing, by decide, fun key hkey => ?_, rfl⟩
    obtain ⟨token, ht, -⟩ := hkey.known
    rw [htoken] at ht
    cases ht
  | some token =>
    dsimp only
    rw [Attempt.runWith_ask_bind]
    dsimp only [handle]
    cases hdown : s.isDown .find with
    | true =>
      rw [unlessDown_of_down hdown]
      refine Or.inr ⟨.dependency .credentialLookup, by decide, fun key hkey => ?_, rfl⟩
      have hup := hkey.reachable
      rw [hdown] at hup
      cases hup
    | false =>
      rw [unlessDown_of_up hdown]
      cases hfind : s.findKey (Token.digest token) with
      | none =>
        refine Or.inr ⟨.credential .unknown, by decide, fun key hkey => ?_, rfl⟩
        have hk := hkey.findKey htoken
        rw [hfind] at hk
        cases hk
      | some key =>
        -- Whatever opens the gate has this token's digest, so it is this key.
        have hsame : ∀ other, Opens s authorization other → other = key := fun other hother => by
          have hk := hother.findKey htoken
          rw [hfind] at hk
          exact (Option.some.inj hk).symm
        -- Comparing a naive expiry with the time of day would be a fault; `h` rules that out.
        obtain ⟨usable, husable⟩ := h.isUsable (List.mem_of_find?_eq_some hfind)
        dsimp only
        rw [Attempt.runWith_ask_bind]
        dsimp only [handle]
        rw [Attempt.runWith_lift_bind husable]
        cases usable with
        | false =>
          refine Or.inr ⟨.credential .unusable, by decide, fun other hother => ?_, rfl⟩
          have hopen := hsame other hother ▸ hother.usable
          rw [husable] at hopen
          cases hopen
        | true =>
          cases hbound : (boundProject? key).isNone with
          | true =>
            refine Or.inr ⟨.unbound, by decide, fun other hother => ?_, rfl⟩
            have hopen := hsame other hother ▸ hother.bound
            rw [Option.isNone_iff_eq_none.mp hbound] at hopen
            cases hopen
          | false =>
            exact Or.inl ⟨key, ⟨hdown, ⟨token, htoken, hfind⟩, husable,
              Option.isNone_eq_false_iff.mp hbound⟩, rfl⟩

/-- The key that opens the gate is found and its use is noted, or the request is refused and
nothing changes. -/
theorem run_authenticate (h : Timed s) (authorization : Option String) :
    (∃ key, Opens s authorization key ∧
      (authenticate authorization).runWith handle s = (.ok key, s.noted key)) ∨
    (∃ r : Refusal, r.status ∈ credentialStatuses ∧ (∀ key, ¬ Opens s authorization key) ∧
      (authenticate authorization).runWith handle s = (.error (.refusal r), s)) := by
  unfold authenticate
  rcases run_identify h authorization with ⟨key, hkey, hrun⟩ | ⟨r, hr, hno, hrun⟩
  · refine Or.inl ⟨key, hkey, ?_⟩
    rw [Attempt.runWith_bind_ok hrun]
    dsimp only
    rw [Attempt.runWith_bind_ok (run_noteUse key s)]
    rfl
  · exact Or.inr ⟨r, hr, hno, Attempt.runWith_bind_error hrun _⟩

/-! ## Quota -/

/-- How many events the account of a key has sent this month, if that can be found out. -/
def usage? (s : Collaborators) (key : Key) : Option Int :=
  if s.isDown .projects then none
  else match monthStart s.world.now with
    | .error _ => none
    | .ok since =>
      if s.isDown .count then none
      else
        let projects := countedProjects key ((Assoc.find? key.account s.projects).getD [])
        match Store.Memory.countSince projects since s.events with
        | .error _ => none
        | .ok n => some n

/-- The cap of the account of a key: its limit, or the default. -/
def capOf (s : Collaborators) (defaultCap : Int) (key : Key) : Int :=
  ((handle (.limit key.account) s).1 : Option Int).getD defaultCap

theorem Alike.usage? (h : Alike s t) (key : Key) : t.usage? key = s.usage? key := by
  unfold Collaborators.usage?
  rw [h.isDown, h.isDown, h.now, h.projects, h.events]

theorem capOf_noted (s : Collaborators) (defaultCap : Int) (key other : Key) :
    (s.noted key).capOf defaultCap other = s.capOf defaultCap other := by
  unfold noted
  split
  · rfl
  · unfold capOf
    dsimp only [handle]
    cases s.quota <;> rfl

theorem run_monthlyUsage (key : Key) (s : Collaborators) :
    (monthlyUsage key).runWith handle s = (.ok (s.usage? key), s) := by
  unfold monthlyUsage usage?
  rw [Attempt.runWith_ask_bind]
  dsimp only [handle]
  cases hprojects : s.isDown .projects with
  | true =>
    rw [unlessDown_of_down hprojects]
    rfl
  | false =>
    rw [unlessDown_of_up hprojects]
    dsimp only
    rw [Attempt.runWith_ask_bind]
    dsimp only [handle]
    cases monthStart s.world.now with
    | error fault => rfl
    | ok since =>
      dsimp only
      rw [Attempt.runWith_ask_bind]
      dsimp only [handle]
      cases hcount : s.isDown .count with
      | true =>
        rw [unlessDown_of_down hcount]
        rfl
      | false =>
        rw [unlessDown_of_up hcount]
        cases Store.Memory.countSince
          (countedProjects key ((Assoc.find? key.account s.projects).getD [])) since s.events <;> rfl

/-- **The second stage refuses a request only for a known usage that has reached the cap.** -/
theorem run_checkQuota (defaultCap : Int) (key : Key) (s : Collaborators) :
    ∃ t, Kept s t ∧
      ((checkQuota defaultCap key).runWith handle s = (.ok (), t) ∧
        (∀ current, s.usage? key = some current → current < s.capOf defaultCap key) ∨
      ∃ current, s.usage? key = some current ∧ s.capOf defaultCap key ≤ current ∧
        (checkQuota defaultCap key).runWith handle s
          = (.error (.refusal (.quotaExceeded current (s.capOf defaultCap key))), t)) := by
  have hkept := kept_limit key.account s
  refine ⟨(handle (.limit key.account) s).2, hkept, ?_⟩
  unfold checkQuota
  rw [Attempt.runWith_ask_bind]
  dsimp only
  rw [Attempt.runWith_bind_ok (run_monthlyUsage key _), hkept.usage?]
  cases hcurrent : s.usage? key with
  | none => exact Or.inl ⟨rfl, fun current h => nomatch h⟩
  | some current =>
    by_cases hle : s.capOf defaultCap key ≤ current
    · refine Or.inr ⟨current, rfl, hle, ?_⟩
      dsimp only
      rw [if_pos (show Option.getD (handle (.limit key.account) s).1 defaultCap ≤ current from hle)]
      rfl
    · refine Or.inl ⟨?_, fun c hc => ?_⟩
      · dsimp only
        rw [if_neg (show ¬ Option.getD (handle (.limit key.account) s).1 defaultCap ≤ current
          from hle)]
        rfl
      · cases hc
        omega

/-! ## Bodies -/

/-- Whether the event of a body is a ping. -/
def namesPing (fields : Json.Object) : Bool := (Json.get "event" fields).isText pingType

/-- Whether the duplicate check answers that a ping of a project has been stored. -/
def findsPing (s : Collaborators) (project : String) : Bool :=
  !s.isDown .hasType && Store.Memory.hasEventType project pingType s.events

theorem Alike.findsPing (h : Alike s t) (project : String) :
    t.findsPing project = s.findsPing project := by
  unfold Collaborators.findsPing
  rw [h.isDown, h.events]

theorem run_isRepeatedPing (project : String) (s : Collaborators) :
    (isRepeatedPing project).runWith handle s = (.ok (s.findsPing project), s) := by
  unfold isRepeatedPing findsPing
  rw [Attempt.runWith_ask_bind]
  dsimp only [handle]
  cases hdown : s.isDown .hasType with
  | true =>
    rw [unlessDown_of_down hdown]
    rfl
  | false =>
    rw [unlessDown_of_up hdown]
    rfl

/-- **The third stage takes objects and refuses everything else.** A request is a repeated ping if
its event is a ping and the duplicate check answers that one has been stored. -/
theorem run_checkBody (project : String) (body : Body) (s : Collaborators) :
    (∃ fields, body = .value (.obj fields) ∧ (checkBody project body).runWith handle s
      = (.ok (fields, namesPing fields && s.findsPing project), s)) ∨
    ((∀ fields, body ≠ .value (.obj fields)) ∧ ∃ flaw,
      (checkBody project body).runWith handle s = (.error (.refusal (.request flaw)), s)) := by
  cases body with
  | malformed => exact Or.inr ⟨by simp, .malformedBody, rfl⟩
  | value v =>
    cases v with
    | obj fields =>
      refine Or.inl ⟨fields, rfl, ?_⟩
      unfold checkBody namesPing
      dsimp only
      split
      · rename_i hping
        rw [hping, Bool.true_and, Attempt.runWith_bind_ok (run_isRepeatedPing project s)]
        rfl
      · rename_i hping
        rw [Bool.eq_false_iff.mpr hping, Bool.false_and]
        rfl
    | _ => exact Or.inr ⟨by simp, .bodyNotObject, rfl⟩

/-! ## Records -/

/-- What a body says about its event. -/
def draftOf (fields : Json.Object) : Event.Draft :=
  ⟨Json.get "event" fields, Json.get "properties" fields, Json.get "timestamp" fields⟩

/-- A record takes one identifier, and a second one where no trace id was sent, whoever draws
them. -/
theorem run_build {σ : Type} {handler : (c : Call) → σ → c.Answer × σ} {s t u : σ}
    {fresh : Attempt String} {id traceId : String} (hid : fresh.runWith handler s = (.ok id, t))
    (hnext : fresh.runWith handler t = (.ok traceId, u)) (project : String)
    (arrival : Time.DateTime) (draft : Event.Draft) :
    (Event.build fresh project arrival draft).runWith handler s
      = if draft.needsTraceId then (.ok (Event.ofDraft project id traceId arrival draft), u)
        else (.ok (Event.ofDraft project id "" arrival draft), t) := by
  unfold Event.build
  rw [Attempt.runWith_bind_ok hid]
  split
  · rw [Attempt.runWith_bind_ok hnext]
    rfl
  · rfl

/-- **The fourth stage never refuses a request.** The record is made of the body, of the time of
day and of fresh identifiers. -/
theorem run_buildEvent (project : String) (fields : Json.Object) (s : Collaborators) :
    ∃ id traceId t, Kept s t ∧ (buildEvent project fields).runWith handle s
      = (.ok (Event.ofDraft project id traceId s.world.now (draftOf fields)), t) := by
  have hfresh : ∀ s : Collaborators, (Attempt.ask .freshId).runWith handle s
      = (.ok s.freshId.1, s.freshId.2) := fun s => rfl
  -- The second identifier is only drawn if no trace id was sent.
  have hrun : (buildEvent project fields).runWith handle s = _ :=
    run_build (hfresh s) (hfresh s.freshId.2) project s.world.now (draftOf fields)
  have hid := kept_freshId s
  split at hrun
  · exact ⟨_, _, _, hid.trans (kept_freshId s.freshId.2), hrun⟩
  · exact ⟨_, _, _, hid, hrun⟩

/-- **The last stage stores the record or refuses the request.** -/
theorem run_persist (event : Event) (s : Collaborators) :
    (s.isDown .insert = false ∧ (persist event).runWith handle s
      = (.ok (), { s with events := s.events ++ [event] })) ∨
    (s.isDown .insert = true ∧
      (persist event).runWith handle s = (.error (.refusal .notPersisted), s)) := by
  unfold persist
  rw [Attempt.runWith_ask_bind]
  dsimp only [handle]
  cases hdown : s.isDown .insert with
  | true => exact Or.inr ⟨rfl, rfl⟩
  | false => exact Or.inl ⟨rfl, rfl⟩

end Telemetry.Gate.Collaborators
