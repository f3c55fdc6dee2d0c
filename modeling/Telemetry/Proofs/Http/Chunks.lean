import Telemetry.Proofs.Gate.Delivery

/-!
# Bodies in pieces

A body can be cut into messages in many ways. Each message brings a piece, which can be empty or
absent, and each but the last one announces another. The endpoint reads up to the last one and no
further; what it then does depends on the bytes alone, not on where they were cut.

Main statements: `readPieces_eq_iff` and `serve_cut`.
-/

namespace Telemetry.Http

variable {σ : Type} {body : List UInt8} {incoming left : List Incoming}

/-! ## Cutting -/

/-- Messages that bring a body in pieces: each but the last announces another piece. -/
inductive Cut : List UInt8 → List Incoming → Prop
  | last (piece : Option (List UInt8)) : Cut (piece.getD []) [.piece piece false]
  | more (piece : Option (List UInt8)) {body : List UInt8} {incoming : List Incoming}
      (h : Cut body incoming) : Cut (piece.getD [] ++ body) (.piece piece true :: incoming)

/-- A body can come in one message. -/
theorem Cut.whole (body : List UInt8) : Cut body [.piece (some body) false] := .last (some body)

/-- A body is read up to its last piece, whatever comes behind it. -/
theorem Cut.readPieces_append (h : Cut body incoming) (later : List Incoming) :
    readPieces (incoming ++ later) = (body, true, later) := by
  induction h with
  | last piece => simp [readPieces]
  | more piece _ ih => simp [readPieces, ih]

/-- **Reading a body comes to its last piece just if the messages begin with one that is cut
somehow**; it gives that body, and leaves the messages behind. -/
theorem readPieces_eq_iff :
    readPieces incoming = (body, true, left) ↔ ∃ read, Cut body read ∧ incoming = read ++ left := by
  constructor
  · intro h
    induction incoming generalizing body with
    | nil => simp [readPieces] at h
    | cons message rest ih =>
      cases message with
      | disconnect => simp [readPieces] at h
      | piece bytes more =>
        cases more with
        | false =>
          simp only [readPieces, Bool.false_eq_true, if_false, Prod.mk.injEq] at h
          obtain ⟨rfl, -, rfl⟩ := h
          exact ⟨_, .last bytes, rfl⟩
        | true =>
          rcases hrest : readPieces rest with ⟨later, complete, behind⟩
          simp only [readPieces, hrest, if_true, Prod.mk.injEq] at h
          obtain ⟨rfl, rfl, rfl⟩ := h
          obtain ⟨read, hread, rfl⟩ := ih hrest
          exact ⟨_, .more bytes hread, rfl⟩
  · rintro ⟨read, hread, rfl⟩
    exact hread.readPieces_append left

/-! ## Posting -/

/-- A request that posts an event to the endpoint. -/
def Request.posting (query : String) (headers : Headers) : Request :=
  ⟨true, "POST", "/ingest", query, headers⟩

/-- **A posted body is answered alike however it is cut**: with the response that it gets in one
message, by whoever answers the gate's calls, who is left in the same state. The messages that come
behind the body are not read. -/
theorem serve_cut (h : Cut body incoming) (later : List Incoming) (query : String)
    (headers : Headers) (cap : Int) (handler : (c : Gate.Call) → σ → c.Answer × σ) (s : σ) :
    ∃ response t,
      (Endpoint.serve cap (.posting query headers) (incoming ++ later)).run handler s
        = ((some response, later), t) ∧
      (Endpoint.serve cap (.posting query headers) [.piece (some body) false]).run handler s
        = ((some response, []), t) := by
  rcases hgate : (Gate.ingestBytes cap ((Request.posting query headers).header? "authorization")
    body).runWith handler s with ⟨result, t⟩
  have hanswer {read left : List Incoming} (hread : readPieces read = (body, true, left)) :
      (Endpoint.serve cap (.posting query headers) read).run handler s
        = ((some (Endpoint.ingestResponse result), left), t) := by
    have hraw : (Gate.ingestBytes cap ((Request.posting query headers).header? "authorization")
        (readPieces read).1).runWith handler s = (result, t) := by rw [hread, hgate]
    have hrun := Delivery.run_serve_posted rfl rfl rfl cap read hraw
    rwa [hread] at hrun
  refine ⟨Endpoint.ingestResponse result, t, hanswer (h.readPieces_append later), ?_⟩
  exact hanswer ((Cut.whole body).readPieces_append [])

/-- An object without fields, cut between its braces, with a message that brings no piece, an empty
piece, and the end of the connection behind it. -/
theorem serve_cut_braces :
    Cut [0x7B, 0x7D] [.piece none true, .piece (some [0x7B]) true, .piece (some []) true,
      .piece (some [0x7D]) false] ∧
    ∃ response t,
      (Endpoint.serve 0 (.posting "" [("authorization", "Bearer we_1")])
        [.piece none true, .piece (some [0x7B]) true, .piece (some []) true,
          .piece (some [0x7D]) false, .disconnect]).run Gate.Collaborators.handle
            Gate.Collaborators.oneKey = ((some response, [.disconnect]), t) ∧
      (Endpoint.serve 0 (.posting "" [("authorization", "Bearer we_1")])
        [.piece (some [0x7B, 0x7D]) false]).run Gate.Collaborators.handle
          Gate.Collaborators.oneKey = ((some response, []), t) := by
  have hcut : Cut [0x7B, 0x7D] [.piece none true, .piece (some [0x7B]) true,
      .piece (some []) true, .piece (some [0x7D]) false] :=
    .more none (.more (some [0x7B]) (.more (some []) (.last (some [0x7D]))))
  exact ⟨hcut, serve_cut hcut [.disconnect] "" [("authorization", "Bearer we_1")] 0
    Gate.Collaborators.handle Gate.Collaborators.oneKey⟩

end Telemetry.Http
