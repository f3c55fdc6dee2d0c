import Mathlib.Logic.Relation
import Telemetry.Proofs.Capture.Transparency
import Telemetry.Proofs.Sampling.Totality

/-!
# Errors that an application records

An application marks the event of its request as failed by recording an error in it. While it runs
the mark stays as long as the application leaves it alone. When it has ended, the layer writes what
it knows itself: an error that was raised takes the place of the one that was recorded, and the
status of the response decides on the outcome, whether or not there is an error in the event. So a
response with the status of a success takes the mark away, and with it what makes the sampler keep
the event, and leaves the description of the error behind.

Main statement: `recorded_iff`.
-/

namespace Telemetry.Capture

open Http
open Event (Addition crashDetails errorDetails objectOf)
open Sampling (HasTexts)

variable {σ α : Type} {relay : Message → Message} {s : Surroundings} {p q : App α × Surroundings}
  {names : List String} {name : String} {details : Json.Object}

/-! ## Steps -/

namespace App

/-- One step of an application that has not ended. -/
inductive Step (relay : Message → Message) : App α × Surroundings → App α × Surroundings → Prop
  | send (message : Message) (next : App α) (s : Surroundings) :
    Step relay (.send message next, s) (next, { s with sent := s.sent ++ [relay message] })
  | receive (next : Incoming → App α) (s : Surroundings) :
    Step relay (.receive next, s)
      (next (nextMessage s.incoming).1, { s with incoming := (nextMessage s.incoming).2 })
  | pause (seconds : Double) (next : App α) (s : Surroundings) :
    Step relay (.pause seconds next, s) (next, { s with world := s.world.elapse seconds })
  | look (next : World → Option Json.Object → App α) (s : Surroundings) :
    Step relay (.look next, s) (next s.world s.context.event?, s)
  | change (event : Json.Object) (next : App α) (s : Surroundings) :
    Step relay (.change event next, s) (next, { s with context := s.context.change event })

/-- Some steps one after the other. -/
abbrev Reaches (relay : Message → Message) (p q : App α × Surroundings) : Prop :=
  Relation.ReflTransGen (Step relay) p q

theorem Step.run_eq (h : Step relay p q) : p.1.run relay p.2 = q.1.run relay q.2 := by
  cases h <;> rfl

/-- What has been reached runs on to the same end. -/
theorem Reaches.run_eq (h : Reaches relay p q) : p.1.run relay p.2 = q.1.run relay q.2 := by
  induction h with
  | refl => rfl
  | tail _ hstep ih => exact ih.trans hstep.run_eq

/-- The end of a run is reached step by step. -/
theorem reaches_end (app : App α) (relay : Message → Message) (s : Surroundings) :
    Reaches relay (app, s)
      (.done (app.run relay s).1 (app.run relay s).2.1, (app.run relay s).2.2) := by
  induction app generalizing s with
  | done ending result => exact .refl
  | send message next ih => exact .head (.send message next s) (ih _)
  | receive next ih => exact .head (.receive next s) (ih _ _)
  | pause seconds next ih => exact .head (.pause seconds next s) (ih _)
  | look next ih => exact .head (.look next s) (ih _ _ s)
  | change event next ih => exact .head (.change event next s) (ih _)

/-! ## Fields that are left alone -/

/-- The value of a field of the current event. -/
def field? (name : String) (p : App α × Surroundings) : Option Json :=
  p.2.context.event?.map (Json.get name)

/-- From here on no change of the event gives a field another value. -/
def Leaves (relay : Message → Message) (names : List String) (p : App α × Surroundings) : Prop :=
  ∀ event next s, Reaches relay p (.change event next, s) →
    ∀ current, s.context.event? = some current →
      ∀ name ∈ names, Json.get name event = Json.get name current

/-- A step keeps the fields that it does not change. -/
theorem Step.field?_eq (h : Step relay p q) (hleaves : Leaves relay names p)
    (hname : name ∈ names) : field? name q = field? name p := by
  cases h with
  | change event next s =>
    cases hcontext : s.context with
    | nil => simp [field?, hcontext, Context.change, Context.event?]
    | cons current outer =>
      have hcurrent : s.context.event? = some current := by rw [hcontext]; rfl
      have hsame := hleaves event next s .refl current hcurrent name hname
      simp [field?, hcontext, Context.change, Context.event?, hsame]
  | _ => rfl

theorem Leaves.of_reaches (h : Leaves relay names p) (hreaches : Reaches relay p q) :
    Leaves relay names q :=
  fun event next s hlater => h event next s (hreaches.trans hlater)

/-- What is left alone has the same value all along. -/
theorem Leaves.field?_eq (h : Leaves relay names p) (hname : name ∈ names)
    (hreaches : Reaches relay p q) : field? name q = field? name p := by
  induction hreaches with
  | refl => rfl
  | tail hbefore hstep ih => exact (hstep.field?_eq (h.of_reaches hbefore) hname).trans ih

theorem leaves_done (ending : Ending) (result : α) (s : Surroundings) :
    Leaves relay names (.done ending result, s) := by
  intro event next s' h
  rcases Relation.ReflTransGen.cases_head h with heq | ⟨q, hstep, -⟩
  · cases heq
  · cases hstep

theorem Leaves.send {message : Message} {next : App α}
    (h : Leaves relay names (next, { s with sent := s.sent ++ [relay message] })) :
    Leaves relay names (.send message next, s) := by
  intro event next' s' hreaches
  rcases Relation.ReflTransGen.cases_head hreaches with heq | ⟨q, hstep, hrest⟩
  · cases heq
  · cases hstep
    exact h event next' s' hrest

/-! ## Recording an error -/

/-- An addition that records an error, and the description that it records: that of an error that is
given as an object, or made of pairs, or that of an error that was raised. -/
inductive Describes : Addition → Json.Object → Prop
  | given {v : Json} {fields : Json.Object} (h : objectOf v = .ok fields) :
    Describes (.setError v) (errorDetails fields)
  | raised (crash : Event.Crash) : Describes (.setCrash crash) (crashDetails crash)

/-- An object is itself what it makes. -/
theorem objectOf_obj (fields : Json.Object) : objectOf (.obj fields) = .ok fields := by
  show Except.ok (Json.ofPairs (fields.map _)) = _
  rw [Json.ofPairs, List.map_map]
  exact congrArg Except.ok (List.map_id fields)

theorem Describes.apply {addition : Addition} (h : Describes addition details) (clock : Double)
    (event : Json.Object) : addition.apply clock event =
      (Assoc.put "error" (.obj details) (Assoc.put "outcome" (.str "error") event), none) := by
  cases h with
  | given hobject =>
    rw [Addition.apply, hobject]
    rfl
  | raised crash => rfl

/-- At some time an application records an error in the event, and from then on it leaves the
outcome and the error alone. -/
inductive Records (relay : Message → Message) (p : App α × Surroundings) (details : Json.Object) :
    Prop
  | intro {addition : Addition} {event marked : Json.Object} {next : App α} {s : Surroundings}
    (hreaches : Reaches relay p (.change marked next, s))
    (hcurrent : s.context.event? = some event) (hdescribes : Describes addition details)
    (hmarked : addition.apply s.world.stopwatch event = (marked, none))
    (hleaves : Leaves relay ["outcome", "error"]
      (next, { s with context := s.context.change marked }))

/-- Making such an addition records the error, if what comes after leaves it alone. -/
theorem records_enrich {addition : Addition} {event marked : Json.Object} {result : α}
    {next : App α} (hcurrent : s.context.event? = some event)
    (hdescribes : Describes addition details)
    (hmarked : addition.apply s.world.stopwatch event = (marked, none))
    (hleaves : Leaves relay ["outcome", "error"]
      (next, { s with context := s.context.change marked })) :
    Records relay (.enrich addition result next, s) details := by
  have hlook : Step relay (.enrich addition result next, s) _ := .look _ s
  simp only [hcurrent, hmarked] at hlook
  exact .intro (.single hlook) hcurrent hdescribes hmarked hleaves

end App

/-- An event says that it failed, and with which error. -/
structure Marked (details event : Json.Object) : Prop where
  outcome : Json.get "outcome" event = .str "error"
  error : Json.get "error" event = .obj details

theorem marked_put (details event : Json.Object) : Marked details
    (Assoc.put "error" (.obj details) (Assoc.put "outcome" (.str "error") event)) := by
  constructor
  · simp [Json.get, Assoc.find?_put_of_ne]
  · simp [Json.get]

/-- No other field has a part in the mark. -/
theorem marked_put_iff {event : Json.Object} {value : Json} (houtcome : name ≠ "outcome")
    (herror : name ≠ "error") :
    Marked details (Assoc.put name value event) ↔ Marked details event := by
  have hsame (other : String) (h : name ≠ other) :
      Json.get other (Assoc.put name value event) = Json.get other event := by
    rw [Json.get, Json.get, Assoc.find?_put_of_ne h]
  constructor
  · intro h
    exact ⟨(hsame _ houtcome).symm.trans h.outcome, (hsame _ herror).symm.trans h.error⟩
  · intro h
    exact ⟨(hsame _ houtcome).trans h.outcome, (hsame _ herror).trans h.error⟩

/-- The mark stays where the outcome is written again only if the same is written. -/
theorem Marked.put_outcome_iff {event : Json.Object} (h : Marked details event) (outcome : String) :
    Marked details (Assoc.put "outcome" (.str outcome) event) ↔ outcome = "error" := by
  have houtcome : Json.get "outcome" (Assoc.put "outcome" (.str outcome) event) = .str outcome := by
    simp [Json.get]
  have herror : Json.get "error" (Assoc.put "outcome" (.str outcome) event) = .obj details := by
    rw [← h.error, Json.get, Assoc.find?_put_of_ne (by decide)]
    rfl
  constructor
  · intro hmarked
    exact Json.str.inj (houtcome.symm.trans hmarked.outcome)
  · rintro rfl
    exact ⟨houtcome, herror⟩

/-- **The mark is there when the application ends.** -/
theorem App.Records.marked (h : Records relay p details) :
    ∃ event, (p.1.run relay p.2).2.2.context.event? = some event ∧ Marked details event := by
  obtain @⟨_, event, marked, next, s, hreaches, hcurrent, hdescribes, hmarked, hleaves⟩ := h
  have hmark : Marked details marked := by
    rw [hdescribes.apply, Prod.mk.injEq] at hmarked
    exact hmarked.1 ▸ marked_put details event
  have hchanged : (s.context.change marked).event? = some marked := by
    cases hcontext : s.context with
    | nil => rw [hcontext] at hcurrent; cases hcurrent
    | cons current outer => rfl
  -- What comes after the mark ends where the whole run does.
  have hend := reaches_end next relay { s with context := s.context.change marked }
  have hlast : Reaches relay p _ := hreaches.tail (.change marked next s)
  rw [hlast.run_eq]
  have hfield (name : String) (hname : name ∈ ["outcome", "error"]) :=
    hleaves.field?_eq hname hend
  simp only [field?, hchanged, Option.map_some, Option.map_eq_some_iff] at hfield
  obtain ⟨event, hevent, houtcome⟩ := hfield "outcome" (by simp)
  obtain ⟨event', hevent', herror⟩ := hfield "error" (by simp)
  obtain rfl := Option.some.inj (hevent.symm.trans hevent')
  exact ⟨event, hevent, houtcome.trans hmark.outcome, herror.trans hmark.error⟩

/-! ## What the layer adds -/

/-- The description of the error in an event when all is done: that of an error that was raised
takes the place of what was recorded. -/
def lastDetails (crash : Option Event.Crash) (details : Json.Object) : Json.Object :=
  (crash.map crashDetails).getD details

/-- **The status of the response decides whether the mark stays**, unless an error was raised. -/
theorem marked_complete_iff {started : Double} {w : World} {crash : Option Event.Crash}
    {status : Option Int} {event : Json.Object} (h : Marked details event) :
    Marked (lastDetails crash details) (complete started w crash status event) ↔
      crash.isSome = true ∨ ∀ code, status = some code → 400 ≤ code := by
  have htiming (event : Json.Object) : add w (.setTiming "duration_ms" started) event =
      Assoc.put "duration_ms" (.float (Event.elapsedMillis started w.stopwatch)) event := rfl
  unfold complete
  dsimp only
  rw [htiming, marked_put_iff (by decide) (by decide)]
  cases crash with
  | some crash => exact iff_of_true (marked_put (crashDetails crash) _) (.inl rfl)
  | none =>
    cases status with
    | none => exact iff_of_true h (.inr nofun)
    | some code =>
      have hcode : Marked details (Assoc.put "status_code" (.int code) event) :=
        (marked_put_iff (by decide) (by decide)).mpr h
      have hstatus : add w (.setStatus (.int code)) event = Assoc.put "outcome"
          (.str (if decide (400 ≤ code) = true then "error" else "success"))
          (Assoc.put "status_code" (.int code) event) := rfl
      dsimp only
      rw [hstatus, lastDetails, Option.map_none, Option.getD_none, hcode.put_outcome_iff]
      by_cases hlow : 400 ≤ code <;> simp [hlow]

/-! ## Requests in the layer -/

variable {layer : Layer σ} {config : Config} {app : App α} {r : RawRequest}
  {incoming : List Incoming} {context : Context} {w : World}

/-- What an application finds when it starts inside the layer: the event of its request, in front of
those around it. -/
def entry (config : Config) (r : Request) (incoming : List Incoming) (context : Context)
    (w : World) : Surroundings :=
  let (traceId, started) := traceIdOf r w
  ⟨started, incoming, [], (context.bind (seedEvent config r traceId started)).2⟩

/-- An ending after which the event of a request is looked at: the application returned, or raised
an error that has a text and ends no more than the request. -/
inductive Ending.Completes : Ending → Prop
  | returned : Completes .returned
  | raised {crash : Event.Crash} (h : crash.isExit = false) : Completes (.raised crash)

/-- The event of a request is what the application leaves, completed. -/
theorem observe_event (config : Config) (app : App α) (r : Request) (incoming : List Incoming)
    (context : Context) (w : World) :
    let o := observe config app r incoming context w
    let (_, _, s) := app.run (addTraceId (traceIdOf r w).1) (entry config r incoming context w)
    o.event = complete w.stopwatch o.world o.ending.crash? (sentStatus? o.messages)
      (s.context.event?.getD (seedEvent config r (traceIdOf r w).1 (traceIdOf r w).2)) :=
  rfl

theorem marked_observe_iff
    (hrecords : App.Records (addTraceId (traceIdOf r.request w).1)
      (app, entry config r.request incoming context w) details) :
    let o := observe config app r.request incoming context w
    Marked (lastDetails o.ending.crash? details) o.event ↔
      o.ending.crash?.isSome = true ∨ ∀ code, sentStatus? o.messages = some code → 400 ≤ code := by
  obtain ⟨event, hevent, hmark⟩ := hrecords.marked
  dsimp only
  rw [observe_event, hevent]
  exact marked_complete_iff hmark

theorem Ending.Completes.not_isStopped {ending : Ending} (h : ending.Completes) :
    ending.isStopped = false := by
  cases h with
  | returned => rfl
  | raised hexit => exact hexit

/-- The event of a request that has been completed is finalized. -/
theorem ready_capture {r : Request}
    (h : (observe config app r incoming context w).ending.Completes) (e : ReadyEvent) :
    (capture config app r incoming context w).ready = some e ↔
      finalize config (observe config app r incoming context w).world
        (observe config app r incoming context w).event = .ok (some e) := by
  unfold capture
  generalize observe config app r incoming context w = o at h ⊢
  dsimp only
  rw [if_neg (h.not_isStopped ▸ Bool.false_ne_true)]
  obtain ⟨ending, result, messages, unread, context, event, world⟩ := o
  dsimp only at h ⊢
  cases h <;> cases finalize config world event <;> simp

/-- What is put under way for such a request is what finalization leaves of its event. -/
theorem exists_pending_iff (hincluded : config.excludes r.path = false)
    (hended : (observe config app r.request incoming context w).ending.Completes)
    {P : ReadyEvent → Prop} :
    let o := observe config app r.request incoming context w
    (∃ e, (layer.call config app r.request incoming context w).2.pending = layer.pending ++ [e] ∧
        P e) ↔
      ∃ e, finalize config o.world o.event = .ok (some e) ∧ P e := by
  have hpending : (layer.call config app r.request incoming context w).2.pending =
      layer.pending ++ (serve config app r.request incoming context w).ready.toList := rfl
  simp only [hpending, serve_included hincluded, List.append_cancel_left_eq,
    Option.toList_eq_singleton_iff, ready_capture hended]

/-- **An error that an application records stays in the event exactly if the status does not take it
away**: the application raises an error, or the last status that it sends, if it sends one, is not
that of a success. Then a policy that keeps errors keeps the event, whatever share it keeps of the
others; to be sent it must have a name. -/
theorem recorded_iff (layer : Layer σ) (hincluded : config.excludes r.path = false)
    (hrecords : App.Records (addTraceId (traceIdOf r.request w).1)
      (app, entry config r.request incoming context w) details)
    (hended : (observe config app r.request incoming context w).ending.Completes) :
    let o := observe config app r.request incoming context w
    (Marked (lastDetails o.ending.crash? details) o.event ∧
        (config.policy.keepErrors = true → ∃ e,
          (layer.call config app r.request incoming context w).2.pending = layer.pending ++ [e] ∧
            e.properties = .obj o.event)) ↔
      (o.ending.crash?.isSome = true ∨ ∀ code, sentStatus? o.messages = some code → 400 ≤ code) ∧
        (config.policy.keepErrors = true → HasTexts ["method", "path"] o.event) := by
  have hmarked := marked_observe_iff hrecords
  dsimp only at hmarked ⊢
  rw [hmarked]
  refine and_congr_right fun hstays => imp_congr_right fun hkeep => ?_
  have hkeeps : Sampling.keeps config.policy
      (observe config app r.request incoming context w).world.draw
      (observe config app r.request incoming context w).event = .ok true :=
    Sampling.keeps_of_isError hkeep (Sampling.isError_of_outcome
      (Sampling.isText_iff.mpr (hmarked.mpr hstays).outcome)) _
  exact (exists_pending_iff hincluded hended).trans (Sampling.exists_sent_iff hkeeps)

/-- A shop that keeps errors and no other events. -/
def thrifty : Config := { shop [] with policy := Sampling.errorsOnly }

/-- A card that was declined. -/
def card : Json.Object := [("code", .str "CARD")]

/-- An application that records that a card was declined, and then answers. -/
def declining (status : Int) : App Unit :=
  .enrich (.setError (.obj card)) () (.send (.start status none []) (.done .returned ()))

theorem records_declining (status : Int) :
    App.Records (addTraceId (traceIdOf checkout.request origin).1)
      (declining status, entry thrifty checkout.request [] [] origin) (errorDetails card) := by
  have hdescribes : App.Describes (.setError (.obj card)) (errorDetails card) :=
    .given (App.objectOf_obj card)
  exact App.records_enrich rfl hdescribes (hdescribes.apply _ _) (App.leaves_done _ _ _).send

theorem completes_declining (status : Int) :
    (observe thrifty (declining status) checkout.request [] [] origin).ending.Completes := .returned

/-- With the status of an error the event is marked, and sent. -/
theorem recorded_declined :
    let o := observe thrifty (declining 402) checkout.request [] [] origin
    thrifty.excludes checkout.path = false ∧
      App.Records (addTraceId (traceIdOf checkout.request origin).1)
        (declining 402, entry thrifty checkout.request [] [] origin) (errorDetails card) ∧
      o.ending.Completes ∧ Marked (errorDetails card) o.event ∧
      (thrifty.policy.keepErrors = true → ∃ e,
        ((⟨[], 0⟩ : Layer Nat).call thrifty (declining 402) checkout.request [] [] origin).2.pending
          = [] ++ [e] ∧ e.properties = .obj o.event) := by
  have hnames : HasTexts ["method", "path"]
      (observe thrifty (declining 402) checkout.request [] [] origin).event :=
    Sampling.hasTexts_pair.mpr ⟨⟨"GET", rfl⟩, ⟨"/checkout", rfl⟩⟩
  have hstatus : ∀ code, sentStatus? (observe thrifty (declining 402) checkout.request [] []
      origin).messages = some code → 400 ≤ code := by
    intro code hcode
    cases hcode
    decide
  obtain ⟨hmarked, hsent⟩ := (recorded_iff ⟨[], 0⟩ rfl (records_declining 402)
    (completes_declining 402)).mpr ⟨.inr hstatus, fun _ => hnames⟩
  exact ⟨rfl, records_declining 402, completes_declining 402, hmarked, hsent⟩

/-- With the status of a success the event says that it succeeded, the error still in it, and is not
sent. -/
theorem recorded_lost :
    let o := observe thrifty (declining 200) checkout.request [] [] origin
    thrifty.excludes checkout.path = false ∧ thrifty.policy.keepErrors = true ∧
      App.Records (addTraceId (traceIdOf checkout.request origin).1)
        (declining 200, entry thrifty checkout.request [] [] origin) (errorDetails card) ∧
      o.ending.Completes ∧ Json.get "outcome" o.event = .str "success" ∧
      Json.get "error" o.event = .obj (errorDetails card) ∧
      ((⟨[], 0⟩ : Layer Nat).call thrifty (declining 200) checkout.request [] [] origin).2.pending
        = [] := by
  refine ⟨rfl, rfl, records_declining 200, completes_declining 200, ?_, ?_, ?_⟩
  · rfl
  · rfl
  · exact List.isEmpty_iff.mp (by decide +kernel)

end Telemetry.Capture
