import Telemetry.Limits
import Telemetry.Proofs.Json.RoundTrip
import Telemetry.Proofs.Sampling.Errors
import Telemetry.Proofs.Store.Replies

/-!
# What the limits service is taken to say

The service is trusted with nothing: it may be away, refuse, or answer with any bytes. What comes
of it is to be a limit, no limit, or a failure of the service. Reading keeps to that but for two
answers that it is not prepared for, an integer that is too large for a double and a document that
is nested too deeply; and asking keeps to it if the question can be put at all.

Main statement: `fetch_meets_iff`.
-/

namespace Telemetry.Limits

open Http
open Gate (over_bind over_lift)

variable {document : Json} {status : Int} {content : List UInt8}
  {outcome : Except Fault (Option Int)}

/-! ## Documents -/

/-- What a document holds in the place of the limit. -/
def limitValue? (document : Json) : Option Json :=
  (document.field? "limits").bind (Json.field? "eventsPerMonth")

/-- A document sets a limit: it holds a finite number in its place, which is cut to an integer. -/
inductive Sets (document : Json) : Int → Prop
  | whole {i : Int} (h : limitValue? document = some (.int i)) : Sets document i
  | cut {x : Double} {i : Int} (h : limitValue? document = some (.float x))
      (hx : x.truncate? = some i) : Sets document i

/-- The integer in the place of the limit is too large for a double. -/
def Oversized (document : Json) : Prop :=
  ∃ i : Int, limitValue? document = some (.int i) ∧ Double.overflow ≤ i.natAbs

theorem limitOfValue_int (i : Int) : limitOfValue (.int i) =
    if (Double.ofInt i).isFinite then .ok (some i) else .error .outOfRange := rfl

theorem readDocument_eq (document : Json) :
    readDocument document = (limitValue? document).elim (.ok none) limitOfValue := by
  unfold readDocument limitValue?
  cases document.field? "limits" with
  | none => rfl
  | some limits =>
    cases limits with
    | obj fields =>
      show limitOfValue (Json.get "eventsPerMonth" fields)
        = (Assoc.find? "eventsPerMonth" fields).elim (.ok none) limitOfValue
      unfold Json.get
      cases Assoc.find? "eventsPerMonth" fields <;> rfl
    | _ => rfl

theorem readDocument_oversized (h : Oversized document) :
    readDocument document = .error .outOfRange := by
  obtain ⟨i, hvalue, hlarge⟩ := h
  have hfinite : ¬ (Double.ofInt i).isFinite = true := fun hfinite =>
    Nat.not_lt.mpr hlarge ((Double.isFinite_ofInt i).mp hfinite)
  rw [readDocument_eq, hvalue, Option.elim_some, limitOfValue_int, if_neg hfinite]

theorem readDocument_sets (h : ¬ Oversized document) {n : Int} (hsets : Sets document n) :
    readDocument document = .ok (some n) := by
  rw [readDocument_eq]
  cases hsets with
  | whole hvalue =>
    have hsmall : n.natAbs < Double.overflow := Nat.lt_of_not_le fun hlarge => h ⟨n, hvalue, hlarge⟩
    rw [hvalue, Option.elim_some, limitOfValue_int, if_pos ((Double.isFinite_ofInt n).mpr hsmall)]
  | cut hvalue hx =>
    rw [hvalue]
    exact congrArg Except.ok hx

theorem readDocument_none (h : ∀ n, ¬ Sets document n) : readDocument document = .ok none := by
  rw [readDocument_eq]
  cases hvalue : limitValue? document with
  | none => rfl
  | some v =>
    cases v with
    | int i => exact absurd (.whole hvalue) (h i)
    | float x =>
      cases hx : x.truncate? with
      | none => exact congrArg Except.ok hx
      | some n => exact absurd (.cut hvalue hx) (h n)
    | _ => rfl

/-! ## Responses -/

/-- What a response is to be taken for, by its status and what it holds: an unknown account has no
limit, neither has a document that sets none, and all that is no document is a failure. -/
inductive Meets (status : Int) (content : List UInt8) : Except Fault (Option Int) → Prop
  | unknown (h : status = 404) : Meets status content (.ok none)
  | refused (hknown : status ≠ 404) (h : isSuccess status = false) :
      Meets status content (.error (.refusal (.dependency (.limitsStatus status))))
  | malformed (h : isSuccess status = true)
      (hread : ∀ document, Json.parseBytes content ≠ .ok document) :
      Meets status content (.error (.refusal (.dependency .limitsMalformed)))
  | limited {document : Json} {n : Int} (h : isSuccess status = true)
      (hread : Json.parseBytes content = .ok document) (hsets : Sets document n) :
      Meets status content (.ok (some n))
  | unlimited {document : Json} (h : isSuccess status = true)
      (hread : Json.parseBytes content = .ok document) (hsets : ∀ n, ¬ Sets document n) :
      Meets status content (.ok none)

/-- A success with something that the reader is not prepared for. -/
def Overruns (status : Int) (content : List UInt8) : Prop :=
  isSuccess status = true ∧ (Json.parseBytes content = .error (.unreadable .tooDeep) ∨
    ∃ document, Json.parseBytes content = .ok document ∧ Oversized document)

/-- What a response is taken for is never one of the faults that reading may end with. -/
theorem Meets.fault {fault : Fault} (h : Meets status content (.error fault)) :
    ∃ flaw, fault = .refusal (.dependency flaw) := by
  cases h with
  | refused | malformed => exact ⟨_, rfl⟩

theorem readResponse_success (h : isSuccess status = true) :
    readResponse status content = match Json.parseBytes content with
      | .ok document => readDocument document
      | .error (.unreadable .tooDeep) => .error .tooDeep
      | .error _ => .error (.refusal (.dependency .limitsMalformed)) := by
  have hknown : status ≠ 404 := by
    rintro rfl
    cases h
  unfold readResponse
  rw [if_neg hknown, h, Bool.not_true]
  exact if_neg Bool.false_ne_true

/-- A response that overruns the reader ends with a fault that is none of the service. -/
theorem readResponse_overruns (h : Overruns status content) :
    readResponse status content = .error .tooDeep ∨
      readResponse status content = .error .outOfRange := by
  obtain ⟨hsuccess, hdeep | ⟨document, hread, hlarge⟩⟩ := h
  · left
    rw [readResponse_success hsuccess, hdeep]
  · right
    rw [readResponse_success hsuccess, hread]
    exact readDocument_oversized hlarge

theorem meets_readResponse (h : ¬ Overruns status content) :
    Meets status content (readResponse status content) := by
  cases hsuccess : isSuccess status with
  | false =>
    unfold readResponse
    split
    · exact .unknown ‹_›
    · rw [hsuccess]
      exact .refused ‹_› hsuccess
  | true =>
    rw [readResponse_success hsuccess]
    cases hread : Json.parseBytes content with
    | ok document =>
      have hfits : ¬ Oversized document := fun hlarge =>
        h ⟨hsuccess, .inr ⟨document, hread, hlarge⟩⟩
      show Meets status content (readDocument document)
      by_cases hsets : ∃ n, Sets document n
      · obtain ⟨n, hn⟩ := hsets
        rw [readDocument_sets hfits hn]
        exact .limited hsuccess hread hn
      · rw [not_exists] at hsets
        rw [readDocument_none hsets]
        exact .unlimited hsuccess hread hsets
    | error e =>
      have hmalformed : Meets status content (.error (.refusal (.dependency .limitsMalformed))) :=
        .malformed hsuccess fun document hdocument => by
          rw [hread] at hdocument
          cases hdocument
      cases e with
      | undecodable => exact hmalformed
      | unreadable e =>
        cases e with
        | tooDeep => exact absurd ⟨hsuccess, .inl hread⟩ h
        | malformed | tooManyDigits => exact hmalformed

/-- **A response is taken for what it is, exactly if it does not overrun the reader.** -/
theorem meets_readResponse_iff :
    Meets status content (readResponse status content) ↔ ¬ Overruns status content := by
  refine ⟨fun hmeets hoverruns => ?_, meets_readResponse⟩
  rcases readResponse_overruns hoverruns with hfault | hfault <;>
    · rw [hfault] at hmeets
      obtain ⟨flaw, hflaw⟩ := hmeets.fault
      cases hflaw

/-! ## Replies -/

/-- What a reply is to be taken for. No reply is a failure of the service as well. -/
def MeetsReply : Reply → Except Fault (Option Int) → Prop
  | .failed reason, outcome =>
    outcome = .error (.refusal (.dependency (.limitsUnreachable reason)))
  | .response status text, outcome => Meets status (Text.encodeUtf8 text) outcome

/-- A reply with something that the reader is not prepared for. -/
def OverrunsReply : Reply → Prop
  | .failed _ => False
  | .response status text => Overruns status (Text.encodeUtf8 text)

theorem MeetsReply.fault {reply : Reply} {fault : Fault} (h : MeetsReply reply (.error fault)) :
    ∃ flaw, fault = .refusal (.dependency flaw) := by
  cases reply with
  | failed reason =>
    cases h
    exact ⟨_, rfl⟩
  | response status text => exact Meets.fault h

theorem meetsReply_readReply_iff (reply : Reply) :
    MeetsReply reply (readReply reply) ↔ ¬ OverrunsReply reply := by
  cases reply with
  | failed reason => exact iff_of_true rfl not_false
  | response status text => exact meets_readResponse_iff

/-! ## Questions -/

/-- A question about an account can be put: its address is not too long, and the secret that goes
with it is ASCII. -/
def Askable (base : String) (secret : Option String) (account : String) : Prop :=
  (accountPath base account).length ≤ maxAddress ∧
    ∀ text, secret = some text → ∀ c ∈ text.toList, c.toNat < 0x80

/-- The request that asks for the limit of an account. -/
def limitRequest (base : String) (secret : Option String) (account : String) : Outgoing where
  verb := "GET"
  path := accountPath base account
  params := []
  headers := [("Authorization", authorization secret)]
  body := ""

variable {base account : String} {secret : Option String} {link : Link}

theorem isSendable_limitRequest : (limitRequest base secret account).isSendable = true ↔
    ∀ text, secret = some text → ∀ c ∈ text.toList, c.toNat < 0x80 := by
  cases secret with
  | none => simp [limitRequest, Outgoing.isSendable, authorization]
  | some text =>
    by_cases htext : text = ""
    · simp [limitRequest, Outgoing.isSendable, authorization, htext]
    · simp [limitRequest, Outgoing.isSendable, authorization, htext]

/-- What comes of a question is in what comes of the request. -/
theorem over_fetch_eq (base : String) (secret : Option String) (account : String) (link : Link) :
    (fetch base secret account).over link =
      ((((exchange (limitRequest base secret account)).over link).1 >>= readReply),
        ((exchange (limitRequest base secret account)).over link).2) := by
  unfold fetch limitRequest
  rw [over_bind]
  rcases Online.over (exchange _) link with ⟨fault | reply, link⟩
  · rfl
  · dsimp only
    exact over_lift (readReply reply) link

/-- Where the question can be put, what comes of it is in the reply. -/
theorem over_fetch (h : Askable base secret account) (link : Link) :
    ((fetch base secret account).over link).1 = readReply link.remote.nextReply := by
  obtain ⟨after, hover, -⟩ := over_exchange (r := limitRequest base secret account) h.1
    (isSendable_limitRequest.mpr h.2) link
  rw [over_fetch_eq, hover]
  rfl

/-- Where it cannot, nothing is heard of the service. -/
theorem over_fetch_unaskable (h : ¬ Askable base secret account) (link : Link) :
    ((fetch base secret account).over link).1 = .error .addressTooLong ∨
      ((fetch base secret account).over link).1 = .error .notAscii := by
  rw [over_fetch_eq]
  by_cases hpath : (accountPath base account).length ≤ maxAddress
  · right
    have hsend : (limitRequest base secret account).isSendable = false :=
      Bool.eq_false_iff.mpr fun hsend => h ⟨hpath, isSendable_limitRequest.mp hsend⟩
    rw [over_exchange_unsendable (r := limitRequest base secret account) hpath hsend]
    rfl
  · left
    rw [over_exchange_long (r := limitRequest base secret account) (Nat.lt_of_not_le hpath)]
    rfl

/-- What comes of a question meets what its reply is to be taken for, exactly if the question can be
put and the reply does not overrun the reader. -/
theorem meetsReply_over_fetch_iff :
    MeetsReply link.remote.nextReply ((fetch base secret account).over link).1 ↔
      Askable base secret account ∧ ¬ OverrunsReply link.remote.nextReply := by
  by_cases hask : Askable base secret account
  · rw [over_fetch hask, meetsReply_readReply_iff]
    exact (and_iff_right hask).symm
  · refine iff_of_false (fun hmeets => ?_) fun h => hask h.1
    rcases over_fetch_unaskable hask link with hfault | hfault <;>
      · rw [hfault] at hmeets
        obtain ⟨flaw, hflaw⟩ := hmeets.fault
        cases hflaw

/-- **Asking for a limit meets what the reply is to be taken for, exactly if the question can be put
and the reply does not overrun the reader**; and so does reading a response with any bytes, of which
a text has only those that are well formed. -/
theorem fetch_meets_iff (base : String) (secret : Option String) (account : String) (link : Link)
    (status : Int) (content : List UInt8) :
    (MeetsReply link.remote.nextReply ((fetch base secret account).over link).1 ↔
        Askable base secret account ∧ ¬ OverrunsReply link.remote.nextReply) ∧
      (Meets status content (readResponse status content) ↔ ¬ Overruns status content) :=
  ⟨meetsReply_over_fetch_iff, meets_readResponse_iff⟩

/-- A document that sets a limit. -/
def limiting (limit : Nat) : Json.Object := [("limits", .obj [("eventsPerMonth", .int limit)])]

/-- A limits service that answers with that document. -/
def limitingLink (limit : Nat) : Link :=
  ⟨⟨[(.response 200 ((Json.obj (limiting limit)).render .compactRaw), .zero)], []⟩,
    ⟨default, .zero, .zero, 0⟩⟩

theorem parseBytes_limiting {limit : Nat} (h : limit < Nat.pow 10 Json.maxIntegerDigits) :
    Json.parseBytes (Text.encodeUtf8 ((Json.obj (limiting limit)).render .compactRaw))
      = .ok (.obj (limiting limit)) := by
  have hnames : (Json.obj (limiting limit)).NamesDistinct := by
    simp [limiting, Json.NamesDistinct, Json.FieldsDistinct]
  have hlimit (depth : Nat) : Json.Fits (depth + 1) (.int limit) := by
    rw [Json.Fits, Int.natAbs_natCast]
    exact h
  have hfits : Json.Fits Json.maxDepth (.obj (limiting limit)) :=
    List.forall_mem_singleton.mpr (List.forall_mem_singleton.mpr (hlimit 997))
  exact Json.parseBytes_render hnames rfl hfits

/-- A limit of one and 309 zeros is no double, so that it ends in a fault that is none of the
service. -/
theorem fetch_oversized : Sets (.obj (limiting (Nat.pow 10 309))) (Nat.pow 10 309) ∧
    ¬ MeetsReply (limitingLink (Nat.pow 10 309)).remote.nextReply
      ((fetch "/" none "acct_1").over (limitingLink (Nat.pow 10 309))).1 := by
  have hask : Askable "/" none "acct_1" := ⟨by decide +kernel, fun _ h => nomatch h⟩
  have hsmall : Nat.pow 10 309 < Nat.pow 10 Json.maxIntegerDigits := by decide +kernel
  have hlarge : Double.overflow ≤ (Nat.pow 10 309 : Int).natAbs := by decide +kernel
  rw [over_fetch hask, meetsReply_readReply_iff]
  exact ⟨.whole rfl, not_not_intro ⟨rfl, .inr ⟨_, parseBytes_limiting hsmall, _, rfl, hlarge⟩⟩⟩

end Telemetry.Limits
