import Mathlib.Data.List.Forall2
import Telemetry.Capture.Emission
import Telemetry.Proofs.Capture.Applications
import Telemetry.Proofs.Http.Headers
import Telemetry.Proofs.Json.Writing

/-!
# Capturing changes nothing

An application inside the layer does what it does on its own. The client gets its messages, with the
trace id behind the headers of every start of a response, and the server gets its ending. The events
of the requests around are the current ones again afterwards, however the application has ended. At
most one event is put under way, and no failure of a transport gets further than that.

Two things are left out. On a path that is excluded there is no layer at all, hence no trace id and
no event. And an event takes the texts of the error, for its description, and of the method and the
path, for its name. If one of them has no text the request ends with another error than the
application's.

Main statement: `Layer.call_transparent`.
-/

namespace Telemetry.Capture

open Http

variable {σ α : Type} {config : Config} {r : RawRequest} {w : World} {context : Context}

/-! ## Trace ids -/

/-- The trace id of a request in bytes: the first value of the trace header, or else the first
request id, or else a fresh identifier. An empty value counts as none. -/
inductive Traced (headers : List (List UInt8 × List UInt8)) (w : World) (value : List UInt8) : Prop
  | caller (hvalue : FirstValue traceHeader headers value) (hne : value ≠ [])
  | requestId (htrace : ∀ other, FirstValue traceHeader headers other → other = [])
      (hvalue : FirstValue requestIdHeader headers value) (hne : value ≠ [])
  | drawn (htrace : ∀ other, FirstValue traceHeader headers other → other = [])
      (hrequest : ∀ other, FirstValue requestIdHeader headers other → other = [])
      (hvalue : Text.decodeLatin1 value = w.drawId.1)

theorem nonemptyHeader?_eq_some {name text : String} :
    nonemptyHeader? name r.request = some text ↔
      ∃ value, FirstValue name r.headers value ∧ value ≠ [] ∧ Text.decodeLatin1 value = text := by
  rw [nonemptyHeader?, Option.filter_eq_some_iff, RawRequest.header?_eq_some, decide_eq_true_eq]
  constructor
  · rintro ⟨⟨value, hvalue, rfl⟩, hne⟩
    exact ⟨value, hvalue, fun h => hne (Text.decodeLatin1_eq_empty.mpr h), rfl⟩
  · rintro ⟨value, hvalue, hne, rfl⟩
    exact ⟨⟨value, hvalue, rfl⟩, fun h => hne (Text.decodeLatin1_eq_empty.mp h)⟩

theorem nonemptyHeader?_eq_none {name : String} (h : nonemptyHeader? name r.request = none) :
    ∀ value, FirstValue name r.headers value → value = [] := by
  intro value hvalue
  by_contra hne
  rw [nonemptyHeader?_eq_some.mpr ⟨value, hvalue, hne, rfl⟩] at h
  cases h

theorem uniqueText_byte (n : Nat) : ∀ c ∈ (uniqueText n).toList, c.toNat < 256 := by
  have hhex : ∀ c ∈ uniqueHex n, c.toNat < 256 := fun c hc =>
    (Json.printable_hexDigits 32 n c hc).2.trans_lt (by decide)
  have hgroup (start length : Nat) :
      ∀ c ∈ ((uniqueHex n).drop start).take length, c.toNat < 256 :=
    fun c hc => hhex c (List.mem_of_mem_drop (List.mem_of_mem_take hc))
  have hdash : '-'.toNat < 256 := by decide
  rw [uniqueText, String.toList_ofList]
  simp only [List.forall_mem_append, List.forall_mem_cons]
  exact ⟨⟨⟨⟨fun c hc => hhex c (List.mem_of_mem_take hc), hdash, hgroup 8 4⟩, hdash, hgroup 12 4⟩,
    hdash, hgroup 16 4⟩, hdash, fun c hc => hhex c (List.mem_of_mem_drop hc)⟩

/-- Every request has a trace id in bytes. -/
theorem traced (r : RawRequest) (w : World) :
    ∃ value, Traced r.headers w value ∧ Text.decodeLatin1 value = (traceIdOf r.request w).1 := by
  unfold traceIdOf
  cases htrace : nonemptyHeader? traceHeader r.request with
  | some text =>
    obtain ⟨value, hvalue, hne, rfl⟩ := nonemptyHeader?_eq_some.mp htrace
    exact ⟨value, .caller hvalue hne, rfl⟩
  | none =>
    have hno := nonemptyHeader?_eq_none htrace
    cases hrequest : nonemptyHeader? requestIdHeader r.request with
    | some text =>
      obtain ⟨value, hvalue, hne, rfl⟩ := nonemptyHeader?_eq_some.mp hrequest
      exact ⟨value, .requestId hno hvalue hne, rfl⟩
    | none =>
      have hid := Text.decodeLatin1_encodeLatin1 (uniqueText_byte (w.drawn + 1))
      exact ⟨_, .drawn hno (nonemptyHeader?_eq_none hrequest) hid, hid⟩

/-! ## Messages -/

/-- A message of an application as the client gets it: the start of a response has one more header
behind its own, with a value in bytes, and every other message is the same. -/
inductive Echoes (value : List UInt8) : Message → Message → Prop
  | start (status : Int) (headers : Option Headers) (more : List (String × String)) :
    Echoes value (.start status headers more) (.start status
      (some (headers.getD [] ++ [(traceHeader, Text.decodeLatin1 value)])) more)
  | body (text : String) : Echoes value (.body text) (.body text)
  | other (kind : String) (more : List (String × String)) :
    Echoes value (.other kind more) (.other kind more)

theorem forall₂_echoes (value : List UInt8) (messages : List Message) :
    List.Forall₂ (Echoes value) messages
      (messages.map (addTraceId (Text.decodeLatin1 value))) := by
  rw [List.forall₂_map_right_iff, List.forall₂_same]
  intro message _
  cases message with
  | start status headers more => exact .start status headers more
  | body text => exact .body text
  | other kind more => exact .other kind more

/-! ## Requests on their own -/

/-- What an application does with a request, and the completed event. -/
structure Conduct (α : Type) where
  ending : Ending
  result : α
  messages : List Message
  unread : List Incoming
  event : Json.Object
  world : World

/-- What an application does on its own, with the event of its request and nothing around it. -/
def App.conduct (app : App α) (config : Config) (r : Request) (incoming : List Incoming)
    (w : World) : Conduct α :=
  let (traceId, started) := traceIdOf r w
  let seed := seedEvent config r traceId started
  let (ending, result, s) := app.run id ⟨started, incoming, [], [seed]⟩
  ⟨ending, result, s.sent, s.incoming, complete w.stopwatch s.world ending.crash?
    (sentStatus? s.sent) (s.context.event?.getD seed), s.world⟩

/-- In the layer an application does what it does on its own. -/
theorem observe_eq (config : Config) (app : App α) (r : Request) (incoming : List Incoming)
    (context : Context) (w : World) :
    observe config app r incoming context w =
      let c := app.conduct config r incoming w
      ⟨c.ending, c.result, c.messages.map (addTraceId (traceIdOf r w).1), c.unread, context,
        c.event, c.world⟩ := by
  unfold observe App.conduct
  obtain ⟨traceId, started⟩ := traceIdOf r w
  dsimp only
  generalize seedEvent config r traceId started = seed
  -- In the layer the application has the seed for its own event, and `context` around it.
  have hevent : ([seed] : Context) ≠ [] := List.cons_ne_nil _ _
  have hlayer : app.run (addTraceId traceId) ⟨started, incoming, [], (context.bind seed).2⟩ = _ :=
    app.run_within (addTraceId traceId) [] context (s := ⟨started, incoming, [], [seed]⟩) hevent
  obtain ⟨changed, hchanged⟩ :=
    app.run_context_singleton id (s := ⟨started, incoming, [], [seed]⟩) rfl
  rw [hlayer]
  simp only [Surroundings.within, List.nil_append, sentStatus?_addTraceId, hchanged,
    Context.unbind_bind, Context.event?_append (List.cons_ne_nil changed [])]

/-! ## Decisions -/

/-- An event can be decided on: the error that was raised has a text, sampling comes to a decision,
and if the event is kept its method and its path have texts. -/
structure Decides (config : Config) (c : Conduct α) : Prop where
  written : ∀ kind flaw, c.ending ≠ .textless kind flaw
  decision : ∃ kept, Sampling.keeps config.policy c.world.draw c.event = .ok kept
  method : Sampling.keeps config.policy c.world.draw c.event = .ok true →
    ∃ text, (Json.get "method" c.event).shown = .ok text
  path : Sampling.keeps config.policy c.world.draw c.event = .ok true →
    ∃ text, (Json.get "path" c.event).shown = .ok text

theorem Decides.finalize {c : Conduct α} (h : Decides config c) :
    ∃ ready, finalize config c.world c.event = .ok ready ∧
      (ready.isSome = true ↔ Sampling.keeps config.policy c.world.draw c.event = .ok true) ∧
      ∀ e, ready = some e → e.properties = .obj c.event := by
  obtain ⟨kept, hkept⟩ := h.decision
  unfold Capture.finalize
  rw [hkept]
  cases kept with
  | false => exact ⟨none, rfl, by simp, fun e he => absurd he.symm (Option.some_ne_none e)⟩
  | true =>
    obtain ⟨method, hmethod⟩ := h.method hkept
    obtain ⟨path, hpath⟩ := h.path hkept
    rw [hmethod, hpath]
    refine ⟨_, rfl, by simp, fun e he => ?_⟩
    cases he
    rfl

/-! ## Requests in the layer -/

/-- A request that is served as if there were no layer: what the application does with the events
around it is what is seen, and the events around those are left alone. -/
structure Untouched (app : App α) (incoming : List Incoming) (context : Context) (w : World)
    (served : Served α) : Prop where
  own : ∃ ending, served.ending = .ok ending ∧ app.run id ⟨w, incoming, [], context⟩ =
    (ending, served.result, ⟨served.world, served.unread, served.messages, served.context⟩)
  depth : served.context.length = context.length
  outer : served.context.tail = context.tail
  ready : served.ready = none

/-- A request that is served in the layer without a difference for anyone: the client gets the
application's messages with the trace id, the server its ending, and the current event is what it
was. What is new is at most one event, which there is if and only if the application was not stopped
and sampling keeps it. -/
structure Transparent (config : Config) (r : RawRequest) (context : Context) (w : World)
    (c : Conduct α) (served : Served α) : Prop where
  ending : served.ending = .ok c.ending
  result : served.result = c.result
  messages : ∃ value, Traced r.headers w value ∧
    List.Forall₂ (Echoes value) c.messages served.messages
  unread : served.unread = c.unread
  world : served.world = c.world
  context : served.context = context
  ready : served.ready.isSome = true ↔ c.ending.isStopped = false ∧
    Sampling.keeps config.policy c.world.draw c.event = .ok true
  event : ∀ e, served.ready = some e → e.properties = .obj c.event

theorem serve_excluded (h : config.excludes r.path = true) {app : App α} {incoming : List Incoming} :
    serve config app r.request incoming context w = passThrough app incoming context w :=
  if_pos h

theorem serve_included (h : config.excludes r.path = false) {app : App α}
    {incoming : List Incoming} : serve config app r.request incoming context w =
      capture config app r.request incoming context w :=
  if_neg (h ▸ Bool.false_ne_true)

theorem untouched (app : App α) (incoming : List Incoming) (context : Context) (w : World) :
    Untouched app incoming context w (passThrough app incoming context w) where
  own := ⟨_, rfl, rfl⟩
  depth := (app.run_context id ⟨w, incoming, [], context⟩).1
  outer := (app.run_context id ⟨w, incoming, [], context⟩).2
  ready := rfl

theorem transparent {app : App α} {incoming : List Incoming}
    (h : (app.conduct config r.request incoming w).ending.isStopped = false →
      Decides config (app.conduct config r.request incoming w)) (context : Context) :
    Transparent config r context w (app.conduct config r.request incoming w)
      (capture config app r.request incoming context w) := by
  obtain ⟨value, hvalue, htext⟩ := traced r w
  have hmessages := forall₂_echoes value (app.conduct config r.request incoming w).messages
  rw [htext] at hmessages
  unfold capture
  rw [observe_eq]
  dsimp only
  cases hstopped : (app.conduct config r.request incoming w).ending.isStopped with
  | true =>
    -- Sampling is not asked about an application that was stopped.
    rw [if_pos rfl]
    exact ⟨rfl, rfl, ⟨value, hvalue, hmessages⟩, rfl, rfl, rfl, by simp [hstopped],
      fun e he => absurd he.symm (Option.some_ne_none e)⟩
  | false =>
    have hdecides := h hstopped
    obtain ⟨ready, hfinalize, hready, hevent⟩ := hdecides.finalize
    rw [if_neg Bool.false_ne_true, hfinalize]
    split
    · rename_i kind flaw hending
      exact absurd hending (hdecides.written kind flaw)
    · exact ⟨rfl, rfl, ⟨value, hvalue, hmessages⟩, rfl, rfl, rfl, by simp [hstopped, hready], hevent⟩

/-! ## Deliveries -/

/-- A transport can fail in any way, but it is never cancelled. -/
def Transport.Endures (transport : Transport σ) : Prop :=
  ∀ event s, (transport event s).1 ≠ .error .cancelled

theorem Transport.Endures.deliver {transport : Transport σ} (h : transport.Endures)
    (event : ReadyEvent) (s : σ) :
    ∃ accepted, deliver transport event s = (.ok accepted, (transport event s).2) := by
  have hne := h event s
  -- Every other fault is answered as a refusal.
  unfold Capture.deliver
  generalize transport event s = answer at hne ⊢
  obtain ⟨fault | accepted, t⟩ := answer
  · cases fault with
    | cancelled => exact absurd rfl hne
    | _ => exact ⟨false, rfl⟩
  · exact ⟨accepted, rfl⟩

/-- Whatever the transport answers, each event is handed to it once, in order. -/
theorem Transport.Endures.deliverAll {transport : Transport σ} (h : transport.Endures)
    (events : List ReadyEvent) (s : σ) :
    Layer.deliverAll transport events s =
      (.ok (), ⟨[], events.foldl (fun s event => (transport event s).2) s⟩) := by
  induction events generalizing s with
  | nil => rfl
  | cons event rest ih =>
    obtain ⟨accepted, hdeliver⟩ := h.deliver event s
    rw [Layer.deliverAll, hdeliver]
    exact ih _

/-! ## The layer -/

/-- **The layer is transparent**, but on a path that is excluded there is none. A request does not
touch the transport, and puts at most one event under way; when the layer is flushed, the events are
handed to the transport one by one, and none of its failures is seen. -/
theorem Layer.call_transparent (layer : Layer σ) (config : Config) (app : App α) (r : RawRequest)
    (incoming : List Incoming) (context : Context) (w : World)
    (hdecides : config.excludes r.path = false →
      (app.conduct config r.request incoming w).ending.isStopped = false →
        Decides config (app.conduct config r.request incoming w)) :
    ∃ served after, layer.call config app r.request incoming context w = (served, after) ∧
      (config.excludes r.path = true → Untouched app incoming context w served) ∧
      (config.excludes r.path = false →
        Transparent config r context w (app.conduct config r.request incoming w) served) ∧
      after.transport = layer.transport ∧
      after.pending = layer.pending ++ served.ready.toList ∧
      ∀ transport : Transport σ, transport.Endures → after.flush transport =
        (.ok (), ⟨[], after.pending.foldl (fun s event => (transport event s).2) layer.transport⟩) := by
  refine ⟨_, _, rfl, fun hexcluded => ?_, fun hincluded => ?_, rfl, rfl, fun transport h => ?_⟩
  · rw [serve_excluded hexcluded]
    exact untouched app incoming context w
  · rw [serve_included hincluded]
    exact transparent (hdecides hincluded) context
  · exact h.deliverAll _ _

/-- A layer that leaves some paths alone and keeps every event. -/
def shop (excludedPaths : List String) : Config :=
  ⟨"shop", defaultEnvironment, none, excludedPaths, .default⟩

/-- A world in which nothing has happened yet. -/
def origin : World := ⟨default, .zero, .zero, 0⟩

/-- A request with a trace id, the name of the header in capitals. -/
def checkout : RawRequest :=
  ⟨"GET", "/checkout", "", [(Text.encodeLatin1 "X-WideEvent-Trace-Id", Text.encodeLatin1 "abc")]⟩

/-- An application that starts a response, notes the user, and fails. -/
def failing : App Unit :=
  .send (.start 200 none []) (.look fun _ event =>
    .change (Assoc.put "user_id" (.str "u") (event.getD [])) (.done (.raised ⟨"ValueError", "x"⟩) ()))

theorem call_transparent_checkout :
    ((shop []).excludes checkout.path = false →
      (failing.conduct (shop []) checkout.request [] origin).ending.isStopped = false →
        Decides (shop []) (failing.conduct (shop []) checkout.request [] origin)) ∧
    ∃ served after, (⟨[], 0⟩ : Layer Nat).call (shop []) failing checkout.request [] [] origin
        = (served, after) ∧
      ((shop []).excludes checkout.path = true → Untouched failing [] [] origin served) ∧
      ((shop []).excludes checkout.path = false → Transparent (shop []) checkout [] origin
        (failing.conduct (shop []) checkout.request [] origin) served) ∧
      after.transport = 0 ∧ after.pending = [] ++ served.ready.toList ∧
      ∀ transport : Transport Nat, transport.Endures → after.flush transport =
        (.ok (), ⟨[], after.pending.foldl (fun s event => (transport event s).2) 0⟩) := by
  have hdecides : Decides (shop []) (failing.conduct (shop []) checkout.request [] origin) :=
    ⟨fun _ _ h => (nomatch h), ⟨true, rfl⟩, fun _ => ⟨"GET", rfl⟩, fun _ => ⟨"/checkout", rfl⟩⟩
  exact ⟨fun _ _ => hdecides,
    Layer.call_transparent ⟨[], 0⟩ (shop []) failing checkout [] [] origin fun _ _ => hdecides⟩

/-- An application that answers every request. -/
def answering : App Unit := .send (.start 200 none []) (.done .returned ())

/-- An application that puts a value in the place of the method. -/
def renamed (method : Json) : App Unit :=
  .change [("outcome", .str "error"), ("method", method)] (.done .returned ())

/-- An application that raises an error without a text. -/
def mute : App Unit := .done (.textless "ValueError" ⟨"ValueError", "too many digits"⟩) ()

/-- A request for the path of health checks. -/
def health : RawRequest := ⟨"GET", "/health", "", []⟩

theorem health_excluded : (shop ["/health"]).excludes health.path = true := by
  show Text.Glob.fits (Text.Glob.parts ['/', 'h', 'e', 'a', 'l', 't', 'h'])
    ['/', 'h', 'e', 'a', 'l', 't', 'h'] || false = true
  simp [Text.Glob.parts, Text.Glob.fits, Text.Glob.Part.admits]

/-- The first integer of one digit too many. -/
def tooLong : Int := Int.ofNat (Nat.pow 10 Json.maxIntegerDigits)

/-- An integer of too many digits has no text. -/
theorem shown_long {n : Nat} (h : Nat.pow 10 Json.maxIntegerDigits ≤ n) :
    (Json.int (Int.ofNat n)).shown = .error .badValue := by
  have hflaw : (Json.int (Int.ofNat n)).displayFlaw? Json.maxDepth = some .tooManyDigits :=
    if_neg (Nat.not_lt.mpr h)
  rw [Json.shown, hflaw]
  rfl

/-- **Where the layer shows**: there is no trace id on a path that is excluded, and a method without
a text or an error without one ends a request in another way than the application did. -/
theorem layer_shows :
    ¬ Transparent (shop ["/health"]) health [] origin
        (answering.conduct (shop ["/health"]) health.request [] origin)
        (serve (shop ["/health"]) answering health.request [] [] origin) ∧
      ¬ Transparent (shop []) checkout [] origin
        ((renamed (.int tooLong)).conduct (shop []) checkout.request [] origin)
        (serve (shop []) (renamed (.int tooLong)) checkout.request [] [] origin) ∧
      ¬ Transparent (shop []) checkout [] origin
        (mute.conduct (shop []) checkout.request [] origin)
        (serve (shop []) mute checkout.request [] [] origin) := by
  have hincluded : (shop []).excludes checkout.path = false := rfl
  refine ⟨fun h => ?_, fun h => ?_, fun h => ?_⟩
  · obtain ⟨value, -, hmessages⟩ := h.messages
    rw [serve_excluded health_excluded] at hmessages
    cases hmessages with
    | cons hecho _ => cases hecho
  · have hending := h.ending
    rw [serve_included hincluded] at hending
    have hshown : (Json.int tooLong).shown = _ := shown_long (Nat.le_refl _)
    generalize Json.int tooLong = method at hending hshown
    have hfinalize : finalize (shop [])
        ((renamed method).conduct (shop []) checkout.request [] origin).world
        ((renamed method).conduct (shop []) checkout.request [] origin).event
          = .error .badValue := by
      show (method.shown >>= _) = _
      rw [hshown]
      rfl
    rw [capture, observe_eq, hfinalize] at hending
    cases hending
  · have hending := h.ending
    rw [serve_included hincluded] at hending
    cases hending

end Telemetry.Capture
