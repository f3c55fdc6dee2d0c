import Telemetry.Proofs.Gate.Requests
import Telemetry.Proofs.Json.Limits

/-!
# Bodies that are bytes

A request whose body is bytes is answered like one whose body has been decoded, with one exception:
the bytes are read before anything else. Where reading stops at a limit the request has no answer at
all, whatever its credentials are.

Main statement: `answers_bytes_iff`.
-/

namespace Telemetry.Gate

variable {raw : List UInt8} {fields : Json.Object}

/-! ## What bytes are -/

/-- Bytes are read as a body unless reading stops at a limit. -/
theorem readBody_cases (raw : List UInt8) :
    (∃ body, readBody raw = .ok body ∧ ¬ Json.PastLimit raw) ∨
      (∃ fault, readBody raw = .error fault ∧ Json.PastLimit raw) := by
  have hmalformed (flaw : Json.SyntaxError) : ¬ (Json.ReadError.malformed flaw).AtLimit := by
    rintro (hlimit | ⟨_, hlimit⟩) <;> cases hlimit
  unfold Json.PastLimit
  cases raw with
  | nil =>
    rw [Json.parseBytes_nil]
    exact Or.inl ⟨.value .null, rfl, fun ⟨_, hlimit, h⟩ => by cases h; exact hmalformed _ hlimit⟩
  | cons b raw =>
    unfold readBody
    rw [List.isEmpty_cons, if_neg Bool.false_ne_true]
    cases hread : Json.parseBytes (b :: raw) with
    | ok v => exact Or.inl ⟨_, rfl, fun ⟨_, _, h⟩ => nomatch h⟩
    | error e =>
      cases e with
      | undecodable => exact Or.inl ⟨_, rfl, fun ⟨_, _, h⟩ => nomatch h⟩
      | unreadable e =>
        cases e with
        | malformed flaw =>
          exact Or.inl ⟨_, rfl, fun ⟨_, hlimit, h⟩ => by cases h; exact hmalformed _ hlimit⟩
        | tooDeep => exact Or.inr ⟨_, rfl, _, .inl rfl, rfl⟩
        | tooManyDigits count => exact Or.inr ⟨_, rfl, _, .inr ⟨count, rfl⟩, rfl⟩

/-- The body is an object just if the bytes are read as it. -/
theorem readBody_object_iff :
    readBody raw = .ok (.value (.obj fields)) ↔ Json.parseBytes raw = .ok (.obj fields) := by
  cases raw with
  | nil =>
    rw [Json.parseBytes_nil]
    exact iff_of_false (fun h => nomatch h) (fun h => nomatch h)
  | cons b raw =>
    unfold readBody
    rw [List.isEmpty_cons, if_neg Bool.false_ne_true]
    cases Json.parseBytes (b :: raw) with
    | ok v => simp
    | error e =>
      cases e with
      | undecodable => simp
      | unreadable e => cases e <;> simp

namespace Collaborators

variable {s t : Collaborators} {cap : Int} {authorization : Option String} {key : Key}
  {body : Body} {r : Result} {refusal : Refusal}

/-! ## Answers -/

/-- How a request with bytes is to be answered. Credentials come first; for a key that opens the
gate, while no known usage has reached the cap, the status 400 says that the bytes are no object;
and an object is treated as if it had been decoded before. -/
structure AnswersBytes (s : Collaborators) (cap : Int) (authorization : Option String)
    (raw : List UInt8) (r : Result) (t : Collaborators) : Prop where
  closed : ∀ flaw, Refuses s authorization (.credential flaw) →
    r = .refused .authenticating (.credential flaw) ∧ r.status = 401
  admitted : ∀ key, Opens s authorization key →
    (∀ current, s.usage? key = some current → current < s.capOf cap key) →
    (r.status = 400 ↔ ∀ fields, Json.parseBytes raw ≠ .ok (.obj fields))
  decoded : ∀ fields, Json.parseBytes raw = .ok (.obj fields) →
    s.run (ingest cap authorization (.value (.obj fields))) = (.ok r, t)

theorem run_ingestBytes (hbody : readBody raw = .ok body) (s : Collaborators) (cap : Int)
    (authorization : Option String) :
    s.run (ingestBytes cap authorization raw) = s.run (ingest cap authorization body) := by
  unfold ingestBytes
  rw [hbody]
  rfl

theorem Timed.run_ingest_refused (h : Timed s) (cap : Int) (body : Body)
    (hrefuses : Refuses s authorization refusal) :
    s.run (ingest cap authorization body) = (.ok (.refused .authenticating refusal), s) := by
  rw [ingest_eq]
  exact Attempt.runWith_atStage_refused (h.run_authenticate_refused hrefuses) .authenticating _

/-- Where expiries can be compared with the time of day, a request with a body has an answer. -/
theorem Timed.ingest_ok (h : Timed s) (cap : Int) (authorization : Option String) (body : Body) :
    ∃ r t, s.run (ingest cap authorization body) = (.ok r, t) := by
  rcases h.opens_or_refuses authorization with ⟨key, hkey⟩ | ⟨refusal, hrefuses⟩
  · have hbody : (Arrival.decoded authorization body).body? = some body := rfl
    obtain ⟨answer, u, hrun, hending⟩ := ends_opened cap hbody hkey
    rcases hending.of_opens rfl hkey with ⟨_, _, _, _, hanswer⟩ | ⟨_, _, _, r, _, _, _, _, hanswer, _⟩
    · exact ⟨_, u, hanswer ▸ hrun⟩
    · exact ⟨r, u, hanswer ▸ hrun⟩
  · exact ⟨_, s, h.run_ingest_refused cap body hrefuses⟩

/-- The status 400 says that the body is no object. -/
theorem BodyEnding.status_iff {project : String} (h : BodyEnding project body s r t) :
    r.status = 400 ↔ ∀ fields, body ≠ .value (.obj fields) := by
  cases h with
  | noObject hbody => exact iff_of_true rfl hbody
  | stored hbody | repeated hbody | notPersisted hbody =>
    refine iff_of_false ?_ fun hno => hno _ hbody
    exact fun hstatus => nomatch hstatus

/-- **Bytes that are read are answered in order**: credentials, then quota, then what they are. -/
theorem Timed.answersBytes (h : Timed s) (hbody : readBody raw = .ok body)
    (hrun : s.run (ingest cap authorization body) = (.ok r, t)) :
    AnswersBytes s cap authorization raw r t where
  closed flaw hrefuses := by
    have heq := hrun.symm.trans (h.run_ingest_refused cap body hrefuses)
    cases heq
    exact ⟨rfl, rfl⟩
  admitted key hkey hwithin := by
    have hdecoded : (Arrival.decoded authorization body).body? = some body := rfl
    obtain ⟨answer, u, hrun', hending⟩ := ends_opened cap hdecoded hkey
    have heq : (answer, u) = (.ok r, t) := hrun'.symm.trans hrun
    cases heq
    rcases hending.of_opens rfl hkey with ⟨current, husage, hcap, _, _⟩ |
      ⟨found, project, before, result, hfound, _, _, _, hanswer, hbodyRun⟩
    · exact absurd (hwithin current husage) (Int.not_lt.mpr hcap)
    -- The quota lets the request through, so that its body decides.
    · cases hfound
      cases hanswer
      rw [(bodyEnding_of_run hbodyRun).status_iff]
      have hobject (fields : Json.Object) :
          body = .value (.obj fields) ↔ Json.parseBytes raw = .ok (.obj fields) := by
        rw [← readBody_object_iff, hbody, Except.ok.injEq]
      exact forall_congr' fun fields => not_congr (hobject fields)
  decoded fields hparse := by
    rw [← readBody_object_iff, hbody] at hparse
    rw [← Except.ok.inj hparse]
    exact hrun

/-- Where reading stops at a limit, the request stops too, before its credentials are looked at. -/
theorem run_ingestBytes_pastLimit (hpast : Json.PastLimit raw) (s : Collaborators) (cap : Int)
    (authorization : Option String) :
    ∃ fault, s.run (ingestBytes cap authorization raw) = (.error fault, s) := by
  rcases readBody_cases raw with ⟨body, hbody, hwithin⟩ | ⟨fault, hbody, -⟩
  · exact absurd hpast hwithin
  · refine ⟨fault, ?_⟩
    unfold ingestBytes
    rw [hbody]
    rfl

/-- **A request with bytes is answered in order, exactly if reading the bytes does not stop at a
limit.** -/
theorem answers_bytes_iff (h : Timed s) (cap : Int) (authorization : Option String)
    (raw : List UInt8) :
    (∃ r t, s.run (ingestBytes cap authorization raw) = (.ok r, t) ∧
      AnswersBytes s cap authorization raw r t) ↔ ¬ Json.PastLimit raw := by
  by_cases hpast : Json.PastLimit raw
  · obtain ⟨fault, hrun⟩ := run_ingestBytes_pastLimit hpast s cap authorization
    refine iff_of_false ?_ (not_not_intro hpast)
    rintro ⟨r, t, hanswer, -⟩
    cases hrun.symm.trans hanswer
  · rcases readBody_cases raw with ⟨body, hbody, -⟩ | ⟨fault, -, h⟩
    · obtain ⟨r, t, hrun⟩ := h.ingest_ok cap authorization body
      refine iff_of_true ⟨r, t, ?_, h.answersBytes hbody hrun⟩ hpast
      rw [run_ingestBytes hbody, hrun]
    · exact absurd h hpast

theorem not_pastLimit_braces : ¬ Json.PastLimit [0x7B, 0x7D] := by
  rintro ⟨e, -, hread⟩
  rw [Json.parseBytes, Json.decodeBytes?_ascii (Json.isAscii_of_all (by decide))] at hread
  cases hread

theorem answers_bytes_braces : Timed oneKey ∧
    ∃ r t, oneKey.run (ingestBytes 0 (some "Bearer we_1") [0x7B, 0x7D]) = (.ok r, t) ∧
      AnswersBytes oneKey 0 (some "Bearer we_1") [0x7B, 0x7D] r t := by
  exact ⟨timed_oneKey,
    (answers_bytes_iff timed_oneKey 0 (some "Bearer we_1") [0x7B, 0x7D]).mpr not_pastLimit_braces⟩

/-- A request without credentials is to be refused for that; with an integer of too many digits for
a body it has no answer. -/
theorem digits_unanswered : Refuses oneKey none (.credential .missing) ∧
    ∃ fault, oneKey.run (ingestBytes 0 none (List.replicate 4301 0x31)) = (.error fault, oneKey) :=
  ⟨.missing rfl, run_ingestBytes_pastLimit (Json.pastLimit_ones (by decide)) oneKey 0 none⟩

end Collaborators

end Telemetry.Gate
