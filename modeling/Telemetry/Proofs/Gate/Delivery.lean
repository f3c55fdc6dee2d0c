import Telemetry.Delivery
import Telemetry.Http.Endpoint
import Telemetry.Proofs.Gate.Outcomes
import Telemetry.Proofs.Gate.Sessions
import Telemetry.Proofs.Json.RoundTrip

/-!
# The two ways of an event to a gate

An event can be handed to a gate in the same process, or it can be posted as a text to the endpoint
in front of the gate. If JSON can hold the event, both make the same calls with the same answers, and
both answer the same: a text is read back as the body that was written, and the status of the
response tells whether the gate has accepted the event.

Main statement: `delivers_alike`.
-/

namespace Telemetry

open Http

/-! ## Results -/

namespace Gate

variable {σ : Type} {handler : (c : Call) → σ → c.Answer × σ}

/-- The status of a result tells whether the request was accepted. -/
def Result.Agrees (r : Result) : Prop := isSuccess r.status = r.accepted

theorem Result.Proper.agrees {r : Result} (h : r.Proper) : r.Agrees := by
  cases h with
  | success eventId => exact (by decide : isSuccess 200 = true)
  -- No refusal has the status of a success.
  | refused stage refusal => cases refusal <;> rfl

/-- Whatever results an attempt has, their statuses tell whether the request was accepted. -/
def Attempt.Agrees (handler : (c : Call) → σ → c.Answer × σ) (x : Attempt Result) : Prop :=
  ∀ s r t, x.runWith handler s = (.ok r, t) → r.Agrees

/-- **The status of a request's result tells whether the request was accepted.** -/
theorem agrees_ingest (cap : Int) (authorization : Option String) (body : Body) :
    (ingest cap authorization body).Agrees handler := by
  intro s r t hrun
  rcases ingest_outcome handler cap authorization body s with ⟨-, r', t', hrun', hproper⟩ |
    ⟨-, fault, t', hrun'⟩
  · cases hrun.symm.trans hrun'
    exact hproper.agrees
  · cases hrun.symm.trans hrun'

end Gate

/-! ## Events -/

namespace ReadyEvent

variable {e : ReadyEvent}

/-- JSON can hold an event: names are distinct, numbers finite, and what is sent keeps to the limits
of reading. -/
structure IsJson (e : ReadyEvent) : Prop where
  names : e.properties.NamesDistinct
  finite : e.properties.allFinite = true
  fits : Json.Fits Json.maxDepth (.obj e.body)

theorem IsJson.body_names (h : e.IsJson) : (Json.obj e.body).NamesDistinct := by
  have hfields : ["event", "properties", "timestamp"].Nodup := by decide
  exact ⟨hfields, trivial, h.names, trivial, trivial⟩

theorem IsJson.body_finite (h : e.IsJson) : (Json.obj e.body).allFinite = true := by
  show (true && (e.properties.allFinite && (true && true))) = true
  rw [h.finite]
  rfl

end ReadyEvent

/-! ## Requests -/

namespace Delivery

open Gate

variable {σ : Type} {handler : (c : Call) → σ → c.Answer × σ} {apiKey : String} {e : ReadyEvent}
  {request : Outgoing}

/-- The request that posts an event. -/
def posting (apiKey : String) (e : ReadyEvent) : Outgoing where
  verb := "POST"
  path := "/ingest"
  params := []
  headers := [("Authorization", some ("Bearer " ++ apiKey)),
    ("Content-Type", some "application/json")]
  body := (Json.obj e.body).render .compactRaw

theorem request?_eq (apiKey : String) (h : e.IsJson) :
    request? apiKey e = some (posting apiKey e) := by
  rw [request?]
  exact if_pos h.body_finite

theorem bearer_ascii (h : ∀ c ∈ apiKey.toList, c.toNat < 0x80) :
    ∀ c ∈ ("Bearer " ++ apiKey).toList, c.toNat < 0x80 := by
  rw [String.toList_append, List.forall_mem_append]
  exact ⟨Text.ascii_of_all (by decide), h⟩

theorem isSendable_posting (h : ∀ c ∈ apiKey.toList, c.toNat < 0x80) :
    (posting apiKey e).isSendable = true := by
  have hbearer : ("Bearer " ++ apiKey).toList.all (fun c => decide (c.toNat < 0x80)) = true :=
    List.all_eq_true.mpr fun c hc => decide_eq_true (bearer_ascii h c hc)
  show (_ && (_ && true)) = true
  rw [Bool.and_true, Bool.and_eq_true]
  exact ⟨hbearer, by decide⟩

/-- A request arrives at an application as it was sent: verb and path, the value of each header, and
the bytes of the body. -/
structure Arrives (r : Outgoing) (raw : RawRequest) (incoming : List Incoming) : Prop where
  verb : raw.verb = r.verb
  path : raw.path = r.path
  headers : ∀ name value, (name, some value) ∈ r.headers →
    FirstValue (Text.lower name) raw.headers (Text.encodeUtf8 value)
  body : (readPieces incoming).1 = Text.encodeUtf8 r.body

/-- A posted request with these values of its headers. -/
def carried (authorization contentType : List UInt8) : RawRequest where
  verb := "POST"
  path := "/ingest"
  query := ""
  headers := [(Text.encodeUtf8 "authorization", authorization),
    (Text.encodeUtf8 "content-type", contentType)]

theorem readPieces_whole (bytes : List UInt8) :
    (readPieces [.piece (some bytes) false]).1 = bytes := rfl

/-- The request that posts an event can arrive as it was sent, with its body in one piece. -/
theorem arrives_posting (apiKey : String) (e : ReadyEvent) :
    Arrives (posting apiKey e)
      (carried (Text.encodeUtf8 ("Bearer " ++ apiKey)) (Text.encodeUtf8 "application/json"))
      [.piece (some (Text.encodeUtf8 (posting apiKey e).body)) false] where
  verb := rfl
  path := rfl
  body := readPieces_whole _
  headers name value h := by
    have hauthorization : Text.lower (Text.decodeLatin1 (Text.encodeUtf8 "authorization"))
        = "authorization" := by
      rw [Text.decodeLatin1_encodeUtf8 (Text.ascii_of_all (by decide))]
      decide
    have hcontent : Text.lower (Text.decodeLatin1 (Text.encodeUtf8 "content-type"))
        = "content-type" := by
      rw [Text.decodeLatin1_encodeUtf8 (Text.ascii_of_all (by decide))]
      decide
    have hcases : (name = "Authorization" ∧ value = "Bearer " ++ apiKey) ∨
        (name = "Content-Type" ∧ value = "application/json") := by
      simpa [posting] using h
    rcases hcases with ⟨rfl, rfl⟩ | ⟨rfl, rfl⟩
    · exact .here hauthorization
    · exact .later (hauthorization ▸ by decide) (.here hcontent)

/-! ## The endpoint -/

/-- A posted event gets the response to what the gate makes of its bytes. -/
theorem run_serve_posted {r : Request} (hplain : r.plain = true) (hverb : r.verb = "POST")
    (hpath : r.path = "/ingest") (cap : Int) (incoming : List Incoming) {s t : σ}
    {result : Except Fault Result}
    (hrun : (ingestBytes cap (r.header? "authorization") (readPieces incoming).1).runWith handler s
      = (result, t)) :
    (Endpoint.serve cap r incoming).run handler s
      = ((some (Endpoint.ingestResponse result), (readPieces incoming).2.2), t) := by
  have hingest : (Endpoint.ingest cap r incoming).run handler s
      = ((Endpoint.ingestResponse result, (readPieces incoming).2.2), t) := by
    unfold Endpoint.ingest
    generalize readPieces incoming = pieces at hrun ⊢
    obtain ⟨raw, complete, left⟩ := pieces
    exact Attempt.run_bind_of_runWith hrun _
  unfold Endpoint.serve
  have hroot : ¬ r.path = "/" := by
    rw [hpath]
    decide
  rw [hplain, if_neg (by decide), if_neg hroot, if_pos hpath, if_pos hverb, Program.run_bind,
    hingest]
  rfl

/-- Whether an answer of the gate says that the request was accepted. -/
def accepts : Except Fault Result → Bool
  | .ok result => result.accepted
  | .error _ => false

/-- The status of the response tells whether the gate has accepted the request. -/
theorem isSuccess_ingestResponse {result : Except Fault Result}
    (h : ∀ r, result = .ok r → r.Agrees) :
    isSuccess (Endpoint.ingestResponse result).status = accepts result := by
  cases result with
  | ok r => exact h r rfl
  | error fault =>
    show isSuccess 500 = false
    decide

/-! ## Senders -/

/-- A sender in the same process passes on what the gate says. -/
theorem run_sendLocal {cap : Int} {s t : σ} {result : Except Fault Result}
    (hrun : (ingest cap (some ("Bearer " ++ apiKey)) (.value (.obj e.body))).runWith handler s
      = (result, t)) : (sendLocal cap apiKey e).run handler s = (accepts result, t) := by
  unfold sendLocal
  rw [Attempt.run_bind_of_runWith hrun]
  cases result <;> rfl

/-- A response is the next that a server is going to give. -/
def Replies (link : Link) (response : Response) : Prop :=
  ∃ seconds rest, link.remote.script
    = (.response response.status response.body, seconds) :: rest

/-- A sender over HTTP sends its request, and passes on what the status of the response says. -/
theorem send_over (he : e.IsJson) (hkey : ∀ c ∈ apiKey.toList, c.toNat < 0x80) {link : Link}
    {response : Response} (hreply : Replies link response) :
    ∃ after, (send apiKey e).over link = (.ok (isSuccess response.status), after) ∧
      after.remote.sent = link.remote.sent ++ [posting apiKey e] := by
  obtain ⟨seconds, rest, hscript⟩ := hreply
  obtain ⟨⟨script, sent⟩, world⟩ := link
  change script = _ at hscript
  subst hscript
  have hsendable : (posting apiKey e).isSendable = true := isSendable_posting hkey
  have hexchange : (exchange (posting apiKey e)).over
      ⟨⟨(.response response.status response.body, seconds) :: rest, sent⟩, world⟩
      = (.ok (.response response.status response.body),
        ⟨⟨rest, sent ++ [posting apiKey e]⟩, world.elapse seconds⟩) := by
    have hpath : ¬ (posting apiKey e).path.length > maxAddress := by
      show ¬ "/ingest".length > maxAddress
      decide
    unfold exchange
    rw [hsendable, if_neg hpath]
    rfl
  unfold send
  rw [request?_eq apiKey he]
  dsimp only
  rw [hsendable, if_neg (by decide), over_bind, hexchange]
  exact ⟨_, rfl, rfl⟩

/-! ## Both ways -/

/-- What the endpoint makes of a posted event is what the gate makes of the event itself. -/
theorem ingestBytes_arrived (he : e.IsJson) (hkey : ∀ c ∈ apiKey.toList, c.toNat < 0x80)
    {raw : RawRequest} {incoming : List Incoming} (h : Arrives (posting apiKey e) raw incoming)
    (cap : Int) :
    ingestBytes cap (raw.request.header? "authorization") (readPieces incoming).1
      = ingest cap (some ("Bearer " ++ apiKey)) (.value (.obj e.body)) := by
  have hheader : raw.request.header? "authorization" = some ("Bearer " ++ apiKey) :=
    RawRequest.header?_eq_some.mpr ⟨_, h.headers "Authorization" _ List.mem_cons_self,
      Text.decodeLatin1_encodeUtf8 (bearer_ascii hkey)⟩
  have hbody : readBody (readPieces incoming).1 = .ok (.value (.obj e.body)) := by
    rw [h.body]
    exact readBody_object_iff.mpr (Json.parseBytes_render he.body_names he.body_finite he.fits)
  have harrival : (Arrival.raw (some ("Bearer " ++ apiKey)) (readPieces incoming).1).body?
      = some (.value (.obj e.body)) := congrArg Except.toOption hbody
  rw [hheader]
  exact Arrival.program_of_body harrival cap

/-- **An event that JSON can hold is delivered alike over HTTP and in the same process.** Whoever
answers the gate's calls is left in the same state, and both senders answer the same. -/
theorem delivers_alike (he : e.IsJson) (hkey : ∀ c ∈ apiKey.toList, c.toNat < 0x80)
    (handler : (c : Call) → σ → c.Answer × σ) (cap : Int) (s : σ) :
    ∃ request, request? apiKey e = some request ∧
      ∀ raw incoming, Arrives request raw incoming → ∃ response left accepted t,
        (Endpoint.serve cap raw.request incoming).run handler s = ((some response, left), t) ∧
        (sendLocal cap apiKey e).run handler s = (accepted, t) ∧
        ∀ link, Replies link response → ∃ after,
          (send apiKey e).over link = (.ok accepted, after) ∧
          after.remote.sent = link.remote.sent ++ [request] := by
  refine ⟨posting apiKey e, request?_eq apiKey he, fun raw incoming h => ?_⟩
  rcases hrun : (ingest cap (some ("Bearer " ++ apiKey)) (.value (.obj e.body))).runWith handler s
    with ⟨result, t⟩
  have hbytes := hrun
  rw [← ingestBytes_arrived he hkey h cap] at hbytes
  have hagrees : ∀ r, result = .ok r → r.Agrees := by
    rintro r rfl
    exact agrees_ingest cap _ _ s r t hrun
  refine ⟨_, _, _, t, run_serve_posted rfl h.verb h.path cap incoming hbytes, run_sendLocal hrun,
    fun link hreply => ?_⟩
  rw [← isSuccess_ingestResponse hagrees]
  exact send_over he hkey hreply

/-- An event with text outside ASCII, a number and a list among its properties. -/
def purchase : ReadyEvent where
  eventType := "purchase"
  properties := .obj [("shop", .str "Café"), ("price", .float (.ofDecimal false 125 (-1))),
    ("items", .arr [.str "tea", .null])]
  timestamp := .withZone default

theorem isJson_purchase : purchase.IsJson where
  names := ⟨by decide, trivial, trivial, ⟨trivial, trivial, trivial⟩, trivial⟩
  finite := by decide +kernel
  fits := by simp [purchase, ReadyEvent.body, Json.maxDepth, Json.Fits]

theorem delivers_alike_purchase : purchase.IsJson ∧ (∀ c ∈ "we_1".toList, c.toNat < 0x80) ∧
    ∃ request raw incoming, request? "we_1" purchase = some request ∧
      Arrives request raw incoming ∧ ∃ response left accepted t,
        (Endpoint.serve 0 raw.request incoming).run Collaborators.handle Collaborators.oneKey
          = ((some response, left), t) ∧
        (sendLocal 0 "we_1" purchase).run Collaborators.handle Collaborators.oneKey
          = (accepted, t) ∧
        ∀ link, Replies link response → ∃ after,
          (send "we_1" purchase).over link = (.ok accepted, after) ∧
          after.remote.sent = link.remote.sent ++ [request] := by
  have hkey : ∀ c ∈ "we_1".toList, c.toNat < 0x80 := Text.ascii_of_all (by decide)
  obtain ⟨request, hrequest, halike⟩ :=
    delivers_alike isJson_purchase hkey Collaborators.handle 0 Collaborators.oneKey
  cases (request?_eq "we_1" isJson_purchase).symm.trans hrequest
  have harrives := arrives_posting "we_1" purchase
  exact ⟨isJson_purchase, hkey, _, _, _, hrequest, harrives, halike _ _ harrives⟩

end Delivery

end Telemetry
