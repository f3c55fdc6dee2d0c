import Mathlib.Data.List.Find
import Telemetry.Http.Dashboard
import Telemetry.Proofs.Gate.Delivery
import Telemetry.Proofs.Json.Lines

/-!
# Posting to the endpoint and to the dashboard

Events can be posted to the endpoint and to the dashboard in front of the same gate. Both hand the
gate the same credentials and the same bytes, so they leave the same state, and a result of the gate
is answered alike: with one status and one object, which says what is wrong unless the request was
accepted. The endpoint answers with an object even where the gate has no result. The dashboard then
answers in plain text.

Main statement: `surfaces_agree_iff`.
-/

namespace Telemetry.Http

open Gate (Call Collaborators Judges Result)

variable {σ : Type} {handler : (c : Call) → σ → c.Answer × σ} {r : Request}
  {incoming : List Incoming} {fields : Json.Object}

/-! ## Requests -/

/-- A complete request that posts an event. Servers hand on the names of headers in lower case. -/
structure Posted (r : Request) (incoming : List Incoming) : Prop where
  plain : r.plain = true
  verb : r.verb = "POST"
  path : r.path = "/ingest"
  complete : (readPieces incoming).2.1 = true
  lower : ∀ header ∈ r.headers, Text.lower header.1 = "authorization" → header.1 = "authorization"

/-- Both ways of looking for the credentials find the same. -/
theorem Posted.authorization (h : Posted r incoming) :
    r.exactHeader? "authorization" = r.header? "authorization" := by
  have hsame : ∀ header ∈ r.headers,
      (header.1 == "authorization") = (Text.lower header.1 == "authorization") := by
    intro header hheader
    rw [Bool.eq_iff_iff, beq_iff_eq, beq_iff_eq]
    constructor
    · intro hname
      rw [hname]
      decide
    · exact h.lower header hheader
  exact congrArg (Option.map Prod.snd) (List.find?_congr hsame)

/-! ## Responses -/

/-- A response holds an object, in which the wording of an error is unless all went well. -/
structure Holds (response : Response) (fields : Json.Object) : Prop where
  written : Json.Written (.obj fields) response.body.toList
  error : response.status ≠ 200 → ∃ message, ("error", .str message) ∈ fields

/-- Two responses have one status and hold one object. -/
def AnswerAlike (a b : Response) : Prop :=
  a.status = b.status ∧ ∃ fields, Holds a fields ∧ Holds b fields

theorem written_render {style : Json.Style} (hstyle : style.IsStandard)
    (hnames : (Json.obj fields).NamesDistinct) (hfinite : (Json.obj fields).allFinite = true) :
    Json.Written (.obj fields) ((Json.obj fields).render style).toList := by
  rw [Json.render, String.toList_ofList]
  exact Json.written_writeIn hstyle _ hnames hfinite

theorem not_holds_broken (fault : Fault) : ¬ Holds (Dashboard.broken fault).response fields := by
  intro h
  obtain ⟨rest, hrest⟩ := h.written.object_head
  have hhead : "Internal Server Error".toList.head? = some '{' := congrArg List.head? hrest
  exact absurd hhead (by decide)

section Results

variable {result : Result}

theorem names_body (h : result.Proper) : (Json.obj result.body).NamesDistinct := by
  have hquota : ["error", "limitReached", "currentCount", "limit"].Nodup := by decide
  cases h with
  | success eventId => exact ⟨List.pairwise_singleton _ _, trivial, trivial⟩
  | refused stage refusal =>
    cases refusal with
    | quotaExceeded current limit => exact ⟨hquota, trivial, trivial, trivial, trivial, trivial⟩
    | _ => exact ⟨List.pairwise_singleton _ _, trivial, trivial⟩

theorem finite_body (h : result.Proper) : (Json.obj result.body).allFinite = true := by
  cases h with
  | success eventId => rfl
  | refused stage refusal => cases refusal <;> rfl

/-- Every refusal says what is wrong. -/
theorem error_body (h : result.Proper) (hstatus : result.status ≠ 200) :
    ∃ message, ("error", .str message) ∈ result.body := by
  cases h with
  | success eventId => exact absurd rfl hstatus
  | refused stage refusal => cases refusal <;> exact ⟨_, List.mem_cons_self⟩

/-- A result of the gate is answered alike. -/
theorem answerAlike_of_proper (h : result.Proper) :
    AnswerAlike (Endpoint.ingestResponse (.ok result))
      (Dashboard.respondToIngest (.ok result)).response := by
  have hserved : (Dashboard.respondToIngest (.ok result)).response
      = Dashboard.jsonResponse result.status (.obj result.body) := by
    unfold Dashboard.respondToIngest Dashboard.respond
    dsimp only
    rw [if_pos (finite_body h)]
  rw [hserved]
  have herror (hstatus : (result.status : Int) ≠ 200) :
      ∃ message, ("error", .str message) ∈ result.body :=
    error_body h fun hok => hstatus (congrArg Int.ofNat hok)
  exact ⟨rfl, result.body,
    ⟨written_render Json.isStandard_spaced (names_body h) (finite_body h), herror⟩,
    written_render (Json.isStandard_compact false) (names_body h) (finite_body h), herror⟩

theorem holds_errorResponse (status : Int) (message : String) :
    Holds (Endpoint.errorResponse status message) [("error", .str message)] where
  written :=
    written_render Json.isStandard_spaced ⟨List.pairwise_singleton _ _, trivial, trivial⟩ rfl
  error _ := ⟨message, List.mem_cons_self⟩

end Results

/-! ## Both ways -/

/-- A posted event gets the dashboard's response to what the gate makes of its bytes. -/
theorem Dashboard.run_serve_posted (h : Posted r incoming) (cap : Int) {s t : σ}
    {result : Except Fault Result}
    (hrun : (Gate.ingestBytes cap (r.header? "authorization") (readPieces incoming).1).runWith
      handler s = (result, t)) :
    (serve cap r incoming).run handler s = (some (respondToIngest result), t) := by
  have hroute : Route.ofPath? r.path = some .ingest := by
    rw [h.path]
    decide +kernel
  have hingest : (ingest cap r incoming).run handler s = (respondToIngest result, t) := by
    have hcomplete := h.complete
    rw [← h.authorization] at hrun
    unfold ingest
    generalize readPieces incoming = pieces at hrun hcomplete ⊢
    obtain ⟨raw, complete, left⟩ := pieces
    cases hcomplete
    exact Gate.Attempt.run_bind_of_runWith hrun _
  unfold serve serveAt
  rw [h.plain, hroute]
  dsimp only
  rw [if_neg (by decide), if_neg (by rw [h.verb]; decide), Gate.Program.run_bind, hingest]
  rfl

/-- **The endpoint and the dashboard answer a posted event alike exactly if reading its body does
not stop at a limit and the key of its header can be judged**, whoever answers the gate's calls.
They leave the same state in any case, and the endpoint always answers with an object. -/
theorem surfaces_agree_iff (h : Posted r incoming) (handler : (c : Call) → σ → c.Answer × σ)
    (cap : Int) (s : σ) :
    ∃ response left served t,
      (Endpoint.serve cap r incoming).run handler s = ((some response, left), t) ∧
      (Dashboard.serve cap r incoming).run handler s = (some served, t) ∧
      (∃ fields, Holds response fields) ∧
      (AnswerAlike response served.response ↔
        ¬ Json.PastLimit (readPieces incoming).1 ∧
          Judges handler (r.header? "authorization") s) := by
  rcases Gate.ingestBytes_outcome handler cap (r.header? "authorization") (readPieces incoming).1 s
    with ⟨hanswered, result, t, hrun, hproper⟩ | ⟨hnot, fault, t, hrun⟩
  · have halike := answerAlike_of_proper hproper
    obtain ⟨-, fields, hfields, -⟩ := id halike
    exact ⟨_, _, _, t, Delivery.run_serve_posted h.plain h.verb h.path cap incoming hrun,
      Dashboard.run_serve_posted h cap hrun, ⟨fields, hfields⟩, iff_of_true halike hanswered⟩
  · refine ⟨_, _, _, t, Delivery.run_serve_posted h.plain h.verb h.path cap incoming hrun,
      Dashboard.run_serve_posted h cap hrun, ⟨_, holds_errorResponse 500 _⟩, iff_of_false ?_ hnot⟩
    rintro ⟨-, fields, -, hfields⟩
    exact not_holds_broken fault hfields

/-- A request that posts an event with a key. -/
def keyed : Request := ⟨true, "POST", "/ingest", "", [("authorization", "Bearer we_1")]⟩

theorem posted_keyed (bytes : List UInt8) : Posted keyed [.piece (some bytes) false] :=
  ⟨rfl, rfl, rfl, rfl, by decide⟩

/-- An object without fields is answered alike. -/
theorem surfaces_agree_braces : Posted keyed [.piece (some [0x7B, 0x7D]) false] ∧
    ∃ response left served t,
      (Endpoint.serve 0 keyed [.piece (some [0x7B, 0x7D]) false]).run Collaborators.handle
        Collaborators.oneKey = ((some response, left), t) ∧
      (Dashboard.serve 0 keyed [.piece (some [0x7B, 0x7D]) false]).run Collaborators.handle
        Collaborators.oneKey = (some served, t) ∧
      AnswerAlike response served.response := by
  have hposted := posted_keyed [0x7B, 0x7D]
  obtain ⟨response, left, served, t, hendpoint, hdashboard, -, halike⟩ :=
    surfaces_agree_iff hposted Collaborators.handle 0 Collaborators.oneKey
  exact ⟨hposted, response, left, served, t, hendpoint, hdashboard,
    halike.mpr ⟨Collaborators.not_pastLimit_braces, Collaborators.timed_oneKey.judges _⟩⟩

/-- With an integer of too many digits for a body, the endpoint answers with an object, and the
dashboard with none. -/
theorem digits_told_apart : ∃ incoming, Posted keyed incoming ∧
    (readPieces incoming).1 = List.replicate 4301 0x31 ∧ ∃ response left served t,
      (Endpoint.serve 0 keyed incoming).run Collaborators.handle Collaborators.oneKey
        = ((some response, left), t) ∧
      (Dashboard.serve 0 keyed incoming).run Collaborators.handle Collaborators.oneKey
        = (some served, t) ∧
      Holds response [("error", .str "Internal Server Error")] ∧
      (∀ fields, ¬ Holds served.response fields) ∧ ¬ AnswerAlike response served.response := by
  have hposted := posted_keyed (List.replicate 4301 0x31)
  have hpast : Json.PastLimit (List.replicate 4301 0x31) := Json.pastLimit_ones (by decide)
  obtain ⟨fault, hrun⟩ := Collaborators.run_ingestBytes_pastLimit hpast Collaborators.oneKey 0
    (keyed.header? "authorization")
  refine ⟨_, hposted, rfl, _, _, _, _, Delivery.run_serve_posted rfl rfl rfl 0 _ hrun,
    Dashboard.run_serve_posted hposted 0 hrun, holds_errorResponse 500 _,
    fun fields => not_holds_broken fault, ?_⟩
  rintro ⟨-, fields, -, hfields⟩
  exact not_holds_broken fault hfields

end Telemetry.Http
