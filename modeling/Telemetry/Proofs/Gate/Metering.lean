import Telemetry.Proofs.Gate.Limits
import Telemetry.Proofs.Gate.Requests
import Telemetry.Proofs.Time.Calendar

/-!
# The monthly cap of an account

What a gate over memory counts for an account are the stored events of its projects that have
arrived since the first midnight UTC of the month. For an account with a fixed limit, whose keys are
bound to projects that are listed for it, requests that come one after the other never take that
number past the cap, and are refused just when it has reached the cap.

Main statements: `countSince_eq_ok`, which says what is counted, and `cap_kept`.
-/

namespace Telemetry.Gate

/-! ## Counting -/

/-- How many events of some projects arrived at or after an instant. -/
def arrivedSince (projects : List String) (start : Int) (events : List Event) : Nat :=
  events.countP fun e => projects.contains e.project && decide (start ≤ e.ingestedAt.instant)

theorem countsSince_eq_ok {projects : List String} {since : Time.DateTime} {e : Event} {counts : Bool}
    (h : Store.Memory.countsSince projects since e = .ok counts) :
    counts = (projects.contains e.project && decide (since.instant ≤ e.ingestedAt.instant)) := by
  unfold Store.Memory.countsSince at h
  split at h
  · rename_i hproject
    unfold Time.DateTime.compare? at h
    split at h
    · rename_i order horder
      split at horder
      · cases h
        cases horder
        rw [hproject, Bool.true_and, Bool.eq_iff_iff, bne_iff_ne, ne_eq, compare_lt_iff_lt,
          decide_eq_true_iff, Int.not_lt]
      · cases horder
    · cases h
  · rename_i hproject
    cases h
    rw [Bool.eq_false_iff.mpr hproject, Bool.false_and]

/-- **A count that succeeds is the number of events that arrived at or after an instant.** -/
theorem countSince_eq_ok {projects : List String} {since : Time.DateTime} {events : List Event}
    {n : Nat} (h : Store.Memory.countSince projects since events = .ok n) :
    n = arrivedSince projects since.instant events := by
  induction events generalizing n with
  | nil =>
    cases h
    rfl
  | cons e rest ih =>
    obtain ⟨counts, hcounts, h⟩ := bind_eq_ok h
    obtain ⟨more, hmore, h⟩ := bind_eq_ok h
    cases h
    rw [arrivedSince, List.countP_cons, ← countsSince_eq_ok hcounts, ih hmore]
    cases counts <;> rfl

/-- Only times without an offset can make a count fail. -/
theorem countSince_of_aware {since : Time.DateTime} {events : List Event}
    (hsince : since.isAware = true) (hevents : ∀ e ∈ events, e.ingestedAt.isAware = true)
    (projects : List String) :
    ∃ n, Store.Memory.countSince projects since events = .ok n := by
  induction events with
  | nil => exact ⟨0, rfl⟩
  | cons e rest ih =>
    obtain ⟨more, hmore⟩ := ih fun e he => hevents e (.tail _ he)
    have haware : e.ingestedAt.isAware = since.isAware := by rw [hevents e (.head _), hsince]
    have hcounts : ∃ counts, Store.Memory.countsSince projects since e = .ok counts := by
      unfold Store.Memory.countsSince Time.DateTime.compare?
      rw [if_pos haware]
      split <;> exact ⟨_, rfl⟩
    obtain ⟨counts, hcounts⟩ := hcounts
    rw [Store.Memory.countSince, hcounts, hmore]
    exact ⟨_, rfl⟩

theorem arrivedSince_append (projects : List String) (start : Int) (events more : List Event) :
    arrivedSince projects start (events ++ more)
      = arrivedSince projects start events + arrivedSince projects start more :=
  List.countP_append

theorem arrivedSince_singleton_le (projects : List String) (start : Int) (e : Event) :
    arrivedSince projects start [e] ≤ 1 := List.countP_le_length

namespace Collaborators

variable {s t u : Collaborators} {account : String} {limit : Option Int} {key : Key}
  {defaultCap : Int} {visits : List Visit}

/-! ## Accounts -/

/-- The projects that are listed for an account. -/
def listed (s : Collaborators) (account : String) : List String :=
  (Assoc.find? account s.projects).getD []

/-- How many stored events of an account's projects have arrived this month. -/
def usedThisMonth (s : Collaborators) (account : String) : Nat :=
  arrivedSince (s.listed account) s.world.now.utcMonth s.events

/-- The keys of an account are bound to projects that are listed for it. -/
def KeysListed (s : Collaborators) (account : String) : Prop :=
  ∀ key ∈ s.keys, key.account = account → ∀ project, boundProject? key = some project →
    project ∈ s.listed account

/-- An account with a fixed limit, whose keys are bound to projects that are listed for it. -/
structure Metered (account : String) (limit : Option Int) (s : Collaborators) : Prop where
  limited : Limited s account limit
  keysListed : KeysListed s account

theorem KeysListed.countedProjects (h : KeysListed s account) (hmem : key ∈ s.keys)
    (haccount : key.account = account) :
    countedProjects key (s.listed key.account) = s.listed account := by
  unfold Gate.countedProjects
  rw [haccount]
  split
  · rename_i project hproject
    rw [if_pos (List.contains_iff_mem.mpr (h key hmem haccount project hproject))]
  · rfl

/-- **The usage that the gate finds is the number of events of the account this month.** -/
theorem KeysListed.usage_eq (h : KeysListed s account) (hmem : key ∈ s.keys)
    (haccount : key.account = account) {current : Int} (husage : s.usage? key = some current) :
    current = s.usedThisMonth account := by
  unfold usage? at husage
  split at husage
  · cases husage
  · split at husage
    · cases husage
    · rename_i since hsince
      split at husage
      · cases husage
      · have hprojects : Gate.countedProjects key ((Assoc.find? key.account s.projects).getD [])
            = s.listed account := h.countedProjects hmem haccount
        dsimp only at husage
        rw [hprojects] at husage
        split at husage
        · cases husage
        · rename_i n hcount
          cases husage
          rw [countSince_eq_ok hcount, (Time.monthStart_eq_ok hsince).2]
          rfl

theorem SameSetting.usedThisMonth (h : SameSetting s t) (account : String) :
    t.usedThisMonth account
      = arrivedSince (s.listed account) s.world.now.utcMonth t.events := by
  unfold Collaborators.usedThisMonth listed
  rw [h.now, h.projects]

/-! ## When counting works -/

/-- The projects and the events can be looked up, and every time on record has an offset. -/
structure CanCount (s : Collaborators) : Prop where
  projects : s.isDown .projects = false
  count : s.isDown .count = false
  clock : s.world.now.isAware = true
  inUtc : s.world.now.toUtc?.isSome = true
  dated : ∀ e ∈ s.events, e.ingestedAt.isAware = true

/-- **Where every time has an offset, usage can be counted.** -/
theorem CanCount.usage (h : CanCount s) (key : Key) : (s.usage? key).isSome = true := by
  obtain ⟨utc, hutc⟩ := Option.isSome_iff_exists.mp h.inUtc
  obtain ⟨n, hcount⟩ := countSince_of_aware (Time.isAware_monthStart hutc) h.dated
    (Gate.countedProjects key ((Assoc.find? key.account s.projects).getD []))
  have hup : ∀ c : Collaborator, s.isDown c = false → ¬ s.isDown c = true :=
    fun c hc => Bool.eq_false_iff.mp hc
  unfold usage?
  rw [if_neg (hup _ h.projects), Time.monthStart_of_aware h.clock hutc]
  dsimp only
  rw [if_neg (hup _ h.count), hcount]
  rfl

theorem CanCount.visit (h : CanCount s) (defaultCap : Int) (arrival : Arrival) :
    CanCount (visit defaultCap s arrival).after := by
  have hsetting := sameSetting_visit defaultCap s arrival
  refine ⟨(hsetting.isDown _).trans h.projects, (hsetting.isDown _).trans h.count, ?_, ?_, ?_⟩
  · rw [hsetting.now]
    exact h.clock
  · rw [hsetting.now]
    exact h.inUtc
  · rcases (ends_visit defaultCap s arrival).events with hevents | ⟨_, _, _, _, hstored⟩
    · rw [hevents]
      exact h.dated
    · obtain ⟨_, _, _, event, -, -, -, hevent, -, hevents⟩ := hstored
      rw [hevents]
      intro e he
      rcases List.mem_append.mp he with he | he
      · exact h.dated e he
      · -- The event of the request is dated by the clock.
        rw [List.mem_singleton.mp he, hevent]
        exact h.clock

/-! ## What may change -/

/-- What may change between two requests without a change of an account's limit: anything but the
quota cache, as long as the limits service still gives the same answers about the account and its
keys are still bound to listed projects; or the cache, by a quiet move. -/
inductive Change (account : String) (s : Collaborators) : Collaborators → Prop
  | outside {t : Collaborators} (hquota : t.quota = s.quota)
    (hlimits : ∀ asked, (t.askLimit account asked).1 = (s.askLimit account asked).1)
    (hlisted : KeysListed t account) : Change account s t
  | cache {cache : Quota.Cache (Option Int)} {m : Quota.Move (Option Int)}
    (hquota : s.quota = some cache) (hm : m.IsQuiet) (hpatient : (cache.move m).1.Patient) :
    Change account s { s with quota := some (cache.move m).1 }

theorem Metered.change (h : Metered account limit s) (hchange : Change account s t) :
    Metered account limit t := by
  cases hchange with
  | outside hquota hlimits hlisted => exact ⟨h.limited.congr hquota hlimits, hlisted⟩
  | cache hquota hm hpatient => exact ⟨h.limited.move hquota hm hpatient, h.keysListed⟩

/-- The collaborators with another time of day. -/
def withClock (s : Collaborators) (now : Time.DateTime) : Collaborators :=
  { s with world := { s.world with now } }

/-- A metered account stays so whatever the time is. -/
theorem Metered.withClock (h : Metered account limit s) (now : Time.DateTime) :
    Change account s (s.withClock now) :=
  .outside rfl (fun _ => rfl) h.keysListed

theorem CanCount.withClock (h : CanCount s) {now : Time.DateTime} (haware : now.isAware = true)
    (hutc : now.toUtc?.isSome = true) : CanCount (s.withClock now) :=
  ⟨h.projects, h.count, haware, hutc, h.dated⟩

theorem Metered.call (h : Metered account limit s) (c : Call) :
    Metered account limit (handle c s).2 := by
  have hsetting := sameSetting_handle c s
  refine ⟨h.limited.call c, fun key hkey haccount project hproject => ?_⟩
  rw [hsetting.keys] at hkey
  have hmem := h.keysListed key hkey haccount project hproject
  unfold listed at *
  rwa [hsetting.projects]

theorem Metered.visit (h : Metered account limit s) (arrival : Arrival) :
    Metered account limit (visit defaultCap s arrival).after :=
  Program.run_kept (P := Metered account limit) (fun c _ h => h.call c) _ h

/-! ## Requests of the account -/

/-- The projects lookup and the usage count do not fail. -/
def Visit.CountsUsage (v : Visit) (key : Key) : Prop := (v.before.usage? key).isSome = true

/-- A request of an account keeps its cap: after a write the account has at most the cap, it is
refused just if the account has reached the cap before it, and the refusal says both numbers. -/
structure Visit.KeepsCap (v : Visit) (account : String) (cap : Int) : Prop where
  stored : v.after.events ≠ v.before.events → v.after.usedThisMonth account ≤ cap
  refused : v.status? = some 429 ↔ cap ≤ v.before.usedThisMonth account
  reported : ∀ r, v.answer = .ok r → r.status = 429 →
    Json.get "currentCount" r.body = .int (v.before.usedThisMonth account) ∧
      Json.get "limit" r.body = .int cap

theorem Opens.mem {authorization : Option String} (h : Opens s authorization key) :
    key ∈ s.keys := by
  obtain ⟨token, -, hfind⟩ := h.known
  exact List.mem_of_find?_eq_some hfind

/-- A request adds at most one event to what is counted. -/
theorem usedThisMonth_visit_le (defaultCap : Int) (s : Collaborators) (arrival : Arrival)
    (account : String) :
    (visit defaultCap s arrival).after.usedThisMonth account ≤ s.usedThisMonth account + 1 := by
  rw [(sameSetting_visit defaultCap s arrival).usedThisMonth]
  rcases (ends_visit defaultCap s arrival).events with hevents | ⟨_, _, _, _, hstored⟩
  · rw [hevents]
    exact Nat.le_succ _
  · obtain ⟨_, _, _, event, -, -, -, -, -, hevents⟩ := hstored
    rw [hevents, arrivedSince_append]
    exact Nat.add_le_add_left (arrivedSince_singleton_le ..) _

theorem BodyEnding.status_ne {project : String} {body : Body} {r : Result}
    (h : BodyEnding project body s r t) : r.status ≠ 429 := by
  cases h <;> simp [Result.success, Result.refused, Refusal.status]

/-- **A request of a metered account whose usage can be counted keeps the cap.** -/
theorem Metered.keepsCap (h : Metered account limit s) {arrival : Arrival}
    (hkey : (Collaborators.visit defaultCap s arrival).Authenticates key)
    (haccount : key.account = account)
    (hcounts : (Collaborators.visit defaultCap s arrival).CountsUsage key) :
    (Collaborators.visit defaultCap s arrival).KeepsCap account (limit.getD defaultCap) := by
  have hcap : s.capOf defaultCap key = limit.getD defaultCap := by
    unfold capOf
    rw [haccount, h.limited.answer]
  obtain ⟨current, husage⟩ := Option.isSome_iff_exists.mp hcounts
  have hcurrent := h.keysListed.usage_eq hkey.opens.mem haccount husage
  rcases (ends_visit defaultCap s arrival).of_opens hkey.read hkey.opens with
    ⟨other, hother, hreached, hafter, hanswer⟩ |
    ⟨body, project, t, r, hbody, hproject, hwithin, ht, hanswer, hbodyRun⟩
  · -- The cap has been reached: the request is refused with both numbers and stores nothing.
    cases husage.symm.trans hother
    rw [hcap] at hreached hanswer
    refine ⟨fun hwrite => absurd hafter.events hwrite, ⟨fun _ => hcurrent ▸ hreached,
      fun _ => Visit.status_of_answer hanswer⟩, fun r hr _ => ?_⟩
    cases hanswer.symm.trans hr
    exact ⟨congrArg Json.int hcurrent, rfl⟩
  · have hbelow : current < limit.getD defaultCap := hcap ▸ hwithin current husage
    have hending := bodyEnding_of_run hbodyRun
    have hstatus := Visit.status_of_answer hanswer
    refine ⟨fun _ => ?_, ⟨fun h429 => ?_, fun hreached => ?_⟩, fun r' hr' h429 => ?_⟩
    · have hgrowth := usedThisMonth_visit_le defaultCap s arrival account
      omega
    · exact absurd (Option.some.inj (hstatus.symm.trans h429)) hending.status_ne
    · have hused : current = s.usedThisMonth account := hcurrent
      exact absurd (hused ▸ hreached) (Int.not_le.mpr hbelow)
    · cases hanswer.symm.trans hr'
      exact absurd h429 hending.status_ne

/-- **Requests that come one after the other never overrun the cap of their account.** -/
theorem cap_kept (hs : Metered account limit s)
    (hrun : Run defaultCap (Change account) s visits u)
    (hcounts : ∀ v ∈ visits, ∀ key, v.Authenticates key → key.account = account →
      v.CountsUsage key) :
    ∀ v ∈ visits, ∀ key, v.Authenticates key → key.account = account →
      v.KeepsCap account (limit.getD defaultCap) := by
  obtain ⟨-, hvisits⟩ := hrun.kept (P := Metered account limit)
    (fun _ _ hchange hs => hs.change hchange) (fun _ arrival hs => hs.visit arrival) hs
  intro v hv key hkey haccount
  obtain ⟨hmetered, hvisit⟩ := hvisits v hv
  have hcount := hcounts v hv key hkey haccount
  rw [hvisit] at hkey hcount ⊢
  exact hmetered.keepsCap hkey haccount hcount

/-- A small gate with a limits service that allows one event a month. -/
def oneAMonth : Collaborators := limitedBy (.cap 1)

/-- The gate after a request, an hour later by a clock in another time zone. -/
def anHourLater : Collaborators :=
  (visit 10000 oneAMonth bare).after.withClock
    ⟨2 * 3600 * Time.second, by decide, some ⟨3600 * Time.second, by decide⟩⟩

theorem metered_oneAMonth : Metered "account" (some 1) oneAMonth := by
  refine ⟨(limited_of_some rfl).mpr ⟨Quota.Cache.idle_empty .., fun key => ?_, fun _ => nofun,
    fun _ => rfl⟩, fun key hkey _ project hproject => ?_⟩
  · show (Double.add .zero Quota.Cache.defaultTimeout).le .zero = false
    decide +kernel
  · cases List.mem_singleton.mp hkey
    cases hproject
    exact List.mem_singleton.mpr rfl

theorem canCount_oneAMonth : CanCount oneAMonth :=
  ⟨rfl, rfl, rfl, by decide +kernel, fun _ he => absurd he List.not_mem_nil⟩

theorem canCount_anHourLater : CanCount anHourLater :=
  (canCount_oneAMonth.visit 10000 bare).withClock rfl (by decide +kernel)

/-- Of two requests in a month the first is stored, and the second is refused. -/
theorem cap_kept_oneAMonth : Metered "account" (some 1) oneAMonth ∧
    Run 10000 (Change "account") oneAMonth [visit 10000 oneAMonth bare, visit 10000 anHourLater bare]
      (visit 10000 anHourLater bare).after ∧
    (visit 10000 oneAMonth bare).status? = some 200 ∧
    (visit 10000 anHourLater bare).status? = some 429 ∧
    ∀ v ∈ [visit 10000 oneAMonth bare, visit 10000 anHourLater bare], ∀ key, v.Authenticates key →
      key.account = "account" → v.KeepsCap "account" 1 := by
  have hrun : Run 10000 (Change "account") oneAMonth
      [visit 10000 oneAMonth bare, visit 10000 anHourLater bare]
      (visit 10000 anHourLater bare).after :=
    .request bare (.between ((metered_oneAMonth.visit bare).withClock _) (.request bare (.nil _)))
  have hcounts : ∀ v ∈ [visit 10000 oneAMonth bare, visit 10000 anHourLater bare], ∀ key,
      v.Authenticates key → key.account = "account" → v.CountsUsage key := by
    intro v hv key _ _
    rcases List.mem_pair.mp hv with rfl | rfl
    · exact canCount_oneAMonth.usage key
    · exact canCount_anHourLater.usage key
  exact ⟨metered_oneAMonth, hrun, by decide +kernel, by decide +kernel,
    cap_kept metered_oneAMonth hrun hcounts⟩

end Collaborators

end Telemetry.Gate
