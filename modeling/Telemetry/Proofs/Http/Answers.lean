import Telemetry.Proofs.Event.Rows
import Telemetry.Proofs.Gate.Requests
import Telemetry.Proofs.Http.Reads
import Telemetry.Proofs.Items

/-!
# Answers that cannot be written

A question is answered with its result, with the body of a refusal, or, if anything else goes wrong,
with an internal error, always as JSON. But the result is made into a response after all that. A
number in it that is not finite, or a value that is nested too deeply, breaks the response; and both
can come out of the store, in values that are shown as they are and in numbers that are read
leniently.

Main statement: `answered_iff`, which says which rows keep a question from being answered.
-/

namespace Telemetry.Http.Dashboard

open Gate (Attempt Collaborators)
open Gate.Collaborators (Timed Opens handle)
open Query (Plan Row EventRow AggregateRow LatencyRow ErrorGroupRow readNumber readPayload)

/-! ## Values in an answer -/

/-- A value can be written this many levels deep in an answer. -/
def Writable (level : Nat) (v : Json) : Prop :=
  v.nesting + level ≤ maxAnswerNesting ∧ v.allFinite = true

variable {level : Nat}

theorem nestingItems_le_iff {items : List Json} {n : Nat} :
    Json.nestingItems items ≤ n ↔ ∀ v ∈ items, v.nesting ≤ n := by
  induction items with
  | nil => simp [Json.nestingItems]
  | cons v rest ih => rw [Json.nestingItems, Nat.max_le, List.forall_mem_cons, ih]

theorem nestingFields_le_iff {fields : Json.Object} {n : Nat} :
    Json.nestingFields fields ≤ n ↔ ∀ f ∈ fields, f.2.nesting ≤ n := by
  induction fields with
  | nil => simp [Json.nestingFields]
  | cons f rest ih =>
    obtain ⟨name, v⟩ := f
    rw [Json.nestingFields, Nat.max_le, List.forall_mem_cons, ih]

theorem allFiniteItems_iff {items : List Json} :
    Json.allFiniteItems items = true ↔ ∀ v ∈ items, v.allFinite = true := by
  induction items with
  | nil => simp [Json.allFiniteItems]
  | cons v rest ih => rw [Json.allFiniteItems, Bool.and_eq_true, List.forall_mem_cons, ih]

theorem writable_arr_iff (hlevel : level < maxAnswerNesting) {items : List Json} :
    Writable level (.arr items) ↔ ∀ v ∈ items, Writable (level + 1) v := by
  have hnesting : (Json.arr items).nesting + level ≤ maxAnswerNesting ↔
      Json.nestingItems items ≤ maxAnswerNesting - (level + 1) := by
    rw [Json.nesting]
    omega
  have hitem (v : Json) : v.nesting + (level + 1) ≤ maxAnswerNesting ↔
      v.nesting ≤ maxAnswerNesting - (level + 1) := by omega
  unfold Writable
  rw [hnesting, nestingItems_le_iff, Json.allFinite, allFiniteItems_iff, ← forall₂_and]
  simp only [hitem]

theorem writable_obj_iff (hlevel : level < maxAnswerNesting) {fields : Json.Object} :
    Writable level (.obj fields) ↔ ∀ f ∈ fields, Writable (level + 1) f.2 := by
  have hnesting : (Json.obj fields).nesting + level ≤ maxAnswerNesting ↔
      Json.nestingFields fields ≤ maxAnswerNesting - (level + 1) := by
    rw [Json.nesting]
    omega
  have hfield (f : String × Json) : f.2.nesting + (level + 1) ≤ maxAnswerNesting ↔
      f.2.nesting ≤ maxAnswerNesting - (level + 1) := by omega
  unfold Writable
  rw [hnesting, nestingFields_le_iff, Json.allFinite, Json.allFiniteFields_iff, ← forall₂_and]
  simp only [hfield]

section Scalars

variable (hlevel : level ≤ maxAnswerNesting)
include hlevel

theorem writable_scalar {v : Json} (hnesting : v.nesting = 0) (hfinite : v.allFinite = true) :
    Writable level v := by
  refine ⟨?_, hfinite⟩
  rw [hnesting, Nat.zero_add]
  exact hlevel

theorem writable_str (s : String) : Writable level (.str s) := writable_scalar hlevel rfl rfl

theorem writable_int (i : Int) : Writable level (.int i) := writable_scalar hlevel rfl rfl

theorem writable_ofOption_str (s : Option String) : Writable level (Json.ofOption .str s) := by
  cases s <;> exact writable_scalar hlevel rfl rfl

theorem writable_ofOption_int (i : Option Int) : Writable level (Json.ofOption .int i) := by
  cases i <;> exact writable_scalar hlevel rfl rfl

theorem writable_float_iff {x : Double} : Writable level (.float x) ↔ x.isFinite = true :=
  ⟨fun h => h.2, fun h => writable_scalar hlevel rfl h⟩

theorem writable_ofOption_float_iff {x? : Option Double} :
    Writable level (Json.ofOption .float x?) ↔ ∀ x, x? = some x → x.isFinite = true := by
  cases x? with
  | none =>
    have hnull : Writable level .null := writable_scalar hlevel rfl rfl
    exact iff_of_true hnull fun _ h => nomatch h
  | some x => simp [Json.ofOption, writable_float_iff hlevel]

end Scalars

/-! ## Responses -/

/-- How the result of a question should be told: itself, the refusal, or an internal error. -/
def told : Except Fault Json → Served
  | .ok v => ⟨jsonResponse 200 v, none⟩
  | .error (.refusal refusal) => refusalResponse refusal
  | .error _ => ⟨jsonResponse 500 (.obj [("error", .str "Internal Server Error")]), none⟩

theorem respondTo_told_or_broken (result : Except Fault Json) :
    respondTo result = told result ∨ ∃ fault, respondTo result = broken fault := by
  cases result with
  | ok v =>
    unfold respondTo respond told
    dsimp only
    split
    · exact .inr ⟨_, rfl⟩
    · split
      · exact .inl rfl
      · exact .inr ⟨_, rfl⟩
  | error fault =>
    cases fault with
    | cancelled => exact .inr ⟨_, rfl⟩
    | refusal refusal => exact .inl (respondTo_refusal refusal)
    | _ => exact .inl rfl

/-- A result is told unless the task was cancelled or the result cannot be written. -/
theorem respondTo_eq_told_iff (result : Except Fault Json) : respondTo result = told result ↔
    result ≠ .error .cancelled ∧ ∀ v, result = .ok v → Writable 0 v := by
  have hbroken (fault : Fault) (response : Response) : broken fault ≠ ⟨response, none⟩ :=
    fun h => nomatch congrArg Served.raised h
  cases result with
  | ok v =>
    have hwritable : (Except.ok v ≠ (.error .cancelled : Except Fault Json) ∧
        ∀ w, Except.ok v = (.ok w : Except Fault Json) → Writable 0 w) ↔ Writable 0 v := by
      simp
    rw [hwritable]
    unfold respondTo respond told Writable
    dsimp only
    by_cases hdeep : v.nesting > maxAnswerNesting
    · rw [if_pos hdeep]
      exact iff_of_false (hbroken _ _) fun h => Nat.not_lt.mpr h.1 hdeep
    · rw [if_neg hdeep]
      by_cases hfinite : v.allFinite = true
      · rw [if_pos hfinite]
        exact iff_of_true rfl ⟨Nat.le_of_not_lt hdeep, hfinite⟩
      · rw [if_neg hfinite]
        exact iff_of_false (hbroken _ _) fun h => hfinite h.2
  | error fault =>
    cases fault with
    | cancelled => exact iff_of_false (hbroken _ _) fun h => h.1 rfl
    | refusal refusal => exact iff_of_true (respondTo_refusal refusal) ⟨nofun, nofun⟩
    | _ => exact iff_of_true rfl ⟨nofun, nofun⟩

/-! ## What is shown of a row -/

/-- The values of a row that an answer shows as they are. -/
def Question.shown (question : Question) (fields : Json.Object) : List Json :=
  match question with
  | .list | .trace _ =>
    match readPayload (Json.get "payload" fields) with
    | .ok payload => [.obj payload]
    | .error _ => []
  | .aggregate | .latency | .errors => [Json.get "group_key" fields]
  | .stats | .fields => []

/-- The columns of a row that an answer shows as doubles. -/
def Question.measures : Question → List String
  | .aggregate => ["error_rate", "avg_duration_ms", "p95_duration_ms"]
  | .latency => ["p50", "p90", "p95", "p99"]
  | _ => []

/-- A row can be shown in the answer to a question: what is shown as it is can be written, and no
double is infinite. -/
structure Showable (question : Question) (row : Row) : Prop where
  values : ∀ fields, row.columns = .obj fields → ∀ v ∈ question.shown fields, Writable 3 v
  measures : ∀ fields, row.columns = .obj fields → ∀ name ∈ question.measures, ∀ x,
    readNumber (Json.get name fields) = .ok (some x) → x.isFinite = true

variable {row : Row} {fields : Json.Object} {question : Question}

theorem columns_of_fields (h : row.fields = .ok fields) : row.columns = .obj fields := by
  unfold Row.fields at h
  split at h
  · cases h
    assumption
  · cases h

theorem showable_iff (h : row.columns = .obj fields) : Showable question row ↔
    (∀ v ∈ question.shown fields, Writable 3 v) ∧ ∀ name ∈ question.measures, ∀ x,
      readNumber (Json.get name fields) = .ok (some x) → x.isFinite = true := by
  constructor
  · exact fun hrow => ⟨hrow.values fields h, hrow.measures fields h⟩
  · rintro ⟨hvalues, hmeasures⟩
    constructor <;> intro other hother <;> cases h.symm.trans hother
    · exact hvalues
    · exact hmeasures

/-! ## Records of rows -/

theorem payload_of_ofRow {e : EventRow} (h : EventRow.ofRow row = .ok e) :
    ∃ fields, row.columns = .obj fields ∧
      readPayload (Json.get "payload" fields) = .ok e.payload := by
  obtain ⟨fields, hfields, h⟩ := bind_eq_ok h
  obtain ⟨status, -, h⟩ := bind_eq_ok h
  obtain ⟨id, -, h⟩ := bind_eq_ok h
  refine ⟨fields, columns_of_fields hfields, ?_⟩
  dsimp only at h
  -- The time and the status code may be there or not.
  split at h
  all_goals
    obtain ⟨written, -, h⟩ := bind_eq_ok h
    obtain ⟨timestamp, -, h⟩ := bind_eq_ok h
    obtain ⟨payload, hpayload, h⟩ := bind_eq_ok h
    split at h
    all_goals
      obtain ⟨statusCode, -, h⟩ := bind_eq_ok h
      cases h
      exact hpayload

theorem writable_event_iff (e : EventRow) :
    Writable 2 e.toJson ↔ Writable 3 (.obj e.payload) := by
  have hlevel : 3 ≤ maxAnswerNesting := by decide
  rw [EventRow.toJson, writable_obj_iff (by decide)]
  simp [writable_str hlevel, writable_ofOption_int hlevel, writable_ofOption_str hlevel]

theorem writable_aggregate_iff (g : AggregateRow) : Writable 2 g.toJson ↔ Writable 3 g.key ∧
    g.errorRate.isFinite = true ∧ (∀ x, g.averageDuration = some x → x.isFinite = true) ∧
      ∀ x, g.p95Duration = some x → x.isFinite = true := by
  have hlevel : 3 ≤ maxAnswerNesting := by decide
  rw [AggregateRow.toJson, writable_obj_iff (by decide)]
  simp [writable_int hlevel, writable_float_iff hlevel, writable_ofOption_float_iff hlevel]

theorem writable_latency_iff (l : LatencyRow) : Writable 2 l.toJson ↔ Writable 3 l.key ∧
    ∀ x? ∈ [l.p50, l.p90, l.p95, l.p99], ∀ x, x? = some x → x.isFinite = true := by
  have hlevel : 3 ≤ maxAnswerNesting := by decide
  rw [LatencyRow.toJson, writable_obj_iff (by decide)]
  simp [writable_int hlevel, writable_ofOption_float_iff hlevel]

theorem writable_errors_iff (g : ErrorGroupRow) :
    Writable 2 g.toJson ↔ Writable 3 g.key := by
  have hlevel : 3 ≤ maxAnswerNesting := by decide
  rw [ErrorGroupRow.toJson, writable_obj_iff (by decide)]
  simp [writable_int hlevel, writable_ofOption_str hlevel]

/-- An event can be written exactly if its row can be shown. -/
theorem showable_event {e : EventRow} (h : EventRow.ofRow row = .ok e)
    (hshown : ∀ fields, question.shown fields = Question.list.shown fields)
    (hmeasures : question.measures = []) : Writable 2 e.toJson ↔ Showable question row := by
  obtain ⟨fields, hcolumns, hpayload⟩ := payload_of_ofRow h
  rw [showable_iff hcolumns, writable_event_iff, hshown, hmeasures]
  simp [Question.shown, hpayload]

/-- A zero without its sign is as finite as it was. -/
theorem isFinite_zeroed (x : Double) :
    (if x.isZero then Double.zero else x).isFinite = x.isFinite := by
  cases x with
  | finite negative units h =>
    by_cases hzero : (Double.finite negative units h).isZero = true
    · rw [if_pos hzero]
      rfl
    · rw [if_neg hzero]
  | _ => rfl

theorem showable_aggregate {g : AggregateRow} (h : AggregateRow.ofRow row = .ok g) :
    Writable 2 g.toJson ↔ Showable .aggregate row := by
  obtain ⟨fields, hfields, h⟩ := bind_eq_ok h
  obtain ⟨count, -, h⟩ := bind_eq_ok h
  obtain ⟨errorCount, -, h⟩ := bind_eq_ok h
  obtain ⟨rate, hrate, h⟩ := bind_eq_ok h
  obtain ⟨average, haverage, h⟩ := bind_eq_ok h
  obtain ⟨p95, hp95, h⟩ := bind_eq_ok h
  cases h
  have hzero : Double.zero.isFinite = true := rfl
  rw [showable_iff (columns_of_fields hfields), writable_aggregate_iff]
  cases rate with
  | none => simp [Question.shown, Question.measures, hrate, haverage, hp95, hzero]
  | some x => simp [Question.shown, Question.measures, hrate, haverage, hp95, isFinite_zeroed]

theorem showable_latency {l : LatencyRow} (h : LatencyRow.ofRow row = .ok l) :
    Writable 2 l.toJson ↔ Showable .latency row := by
  obtain ⟨fields, hfields, h⟩ := bind_eq_ok h
  obtain ⟨p50, hp50, h⟩ := bind_eq_ok h
  obtain ⟨p90, hp90, h⟩ := bind_eq_ok h
  obtain ⟨p95, hp95, h⟩ := bind_eq_ok h
  obtain ⟨p99, hp99, h⟩ := bind_eq_ok h
  obtain ⟨count, -, h⟩ := bind_eq_ok h
  cases h
  rw [showable_iff (columns_of_fields hfields), writable_latency_iff]
  simp [Question.shown, Question.measures, hp50, hp90, hp95, hp99]

theorem showable_errors {g : ErrorGroupRow} (h : ErrorGroupRow.ofRow row = .ok g) :
    Writable 2 g.toJson ↔ Showable .errors row := by
  obtain ⟨fields, hfields, h⟩ := bind_eq_ok h
  obtain ⟨count, -, h⟩ := bind_eq_ok h
  cases h
  rw [showable_iff (columns_of_fields hfields), writable_errors_iff]
  simp [Question.shown, Question.measures]

/-! ## Plans -/

/-- What a plan answers can be written exactly if every row that it reads can be shown. -/
def Shows (question : Question) : Plan Json → Prop
  | .answer v => Writable 0 v
  | .ask _ read => ∀ rows v, read rows = .ok v →
    (Writable 0 v ↔ ∀ row ∈ rows, Showable question row)

theorem writable_wrapped_iff {name : String} {items : List Json} :
    Writable 0 (.obj [(name, .arr items)]) ↔ ∀ v ∈ items, Writable 2 v := by
  rw [writable_obj_iff (by decide), List.forall_mem_singleton, writable_arr_iff (by decide)]

theorem shows_wrap {α : Type} {name : String} {toJson : α → Json} {ofRow : Row → Except Fault α}
    {statement : Query.Statement}
    (hitem : ∀ row item, ofRow row = .ok item → (Writable 2 (toJson item) ↔ Showable question row)) :
    Shows question (wrap name toJson (.ask statement (·.mapM ofRow))) := by
  intro rows v hread
  obtain ⟨items, hitems, rfl⟩ := map_eq_ok hread
  rw [writable_wrapped_iff, List.forall_mem_map]
  exact forall_mem_mapM_iff hitems hitem

theorem shows_events {plan : Plan (List EventRow)}
    (hplan : plan = .answer [] ∨ ∃ statement, plan = .ask statement Query.readEvents)
    (hshown : ∀ fields, question.shown fields = Question.list.shown fields)
    (hmeasures : question.measures = []) :
    Shows question (wrap "events" EventRow.toJson plan) := by
  rcases hplan with rfl | ⟨statement, rfl⟩
  · exact writable_wrapped_iff.mpr nofun
  · exact shows_wrap fun row e h => showable_event h hshown hmeasures

/-- Where nothing of a row is shown, every answer can be written. -/
theorem shows_of_nothing {α : Type} {plan : Plan α} {toJson : α → Json}
    (hwritable : ∀ a, Writable 0 (toJson a)) (hshown : ∀ fields, question.shown fields = [])
    (hmeasures : question.measures = []) : Shows question (plan.map toJson) := by
  cases plan with
  | answer a => exact hwritable a
  | ask statement read =>
    intro rows v hread
    have hrows : ∀ row ∈ rows, Showable question row := by
      intro row _
      constructor <;> intro fields _
      · simp [hshown]
      · simp [hmeasures]
    obtain ⟨a, -, rfl⟩ := map_eq_ok hread
    exact iff_of_true (hwritable a) hrows

section Reads

variable {o : Query.Options} {filters : List Query.Condition}

theorem list_reads {plan : Plan (List EventRow)} (h : Plan.list o filters = .ok plan) :
    ∃ statement, plan = .ask statement Query.readEvents := by
  obtain ⟨cs, -, h⟩ := bind_eq_ok h
  cases h
  exact ⟨_, rfl⟩

theorem listPlan_reads {params : Query.Params} {plan : Plan (List EventRow)}
    (h : listPlan params o = .ok plan) :
    plan = .answer [] ∨ ∃ statement, plan = .ask statement Query.readEvents := by
  unfold listPlan at h
  dsimp only at h
  split at h
  · exact .inr (list_reads h)
  · unfold Plan.search at h
    split at h
    · exact .inr (list_reads h)
    · split at h
      · cases h
        exact .inl rfl
      · obtain ⟨cs, -, h⟩ := bind_eq_ok h
        cases h
        exact .inr ⟨_, rfl⟩

theorem aggregate_reads {field : String} {plan : Plan (List AggregateRow)}
    (h : Plan.aggregate field o filters = .ok plan) :
    ∃ statement, plan = .ask statement (·.mapM AggregateRow.ofRow) := by
  obtain ⟨column, -, h⟩ := bind_eq_ok h
  obtain ⟨cs, -, h⟩ := bind_eq_ok h
  cases h
  exact ⟨_, rfl⟩

theorem latency_reads {field duration : String} {plan : Plan (List LatencyRow)}
    (h : Plan.latency field duration o filters = .ok plan) :
    ∃ statement, plan = .ask statement (·.mapM LatencyRow.ofRow) := by
  obtain ⟨column, -, h⟩ := bind_eq_ok h
  obtain ⟨durationColumn, -, h⟩ := bind_eq_ok h
  obtain ⟨cs, -, h⟩ := bind_eq_ok h
  cases h
  exact ⟨_, rfl⟩

theorem errors_reads {field : String} {plan : Plan (List ErrorGroupRow)}
    (h : Plan.errors field o filters = .ok plan) :
    ∃ statement, plan = .ask statement (·.mapM ErrorGroupRow.ofRow) := by
  obtain ⟨column, -, h⟩ := bind_eq_ok h
  obtain ⟨cs, -, h⟩ := bind_eq_ok h
  cases h
  exact ⟨_, rfl⟩

end Reads

theorem writable_stats (s : Query.Stats) : Writable 0 s.toJson := by
  have hlevel : 1 ≤ maxAnswerNesting := by decide
  rw [Query.Stats.toJson, writable_obj_iff (by decide)]
  simp [writable_int hlevel]

theorem writable_texts (hlevel : level < maxAnswerNesting) (texts : List String) :
    Writable level (Query.textsToJson texts) := by
  rw [Query.textsToJson, writable_arr_iff hlevel, List.forall_mem_map]
  exact fun text _ => writable_str hlevel text

theorem writable_suggestions (s : Query.Suggestions) :
    Writable 0 (.obj [("eventTypes", Query.textsToJson s.eventTypes), ("fields", s.fieldsToJson)]) := by
  have hfields : Writable 1 s.fieldsToJson := by
    rw [Query.Suggestions.fieldsToJson, writable_obj_iff (by decide), List.forall_mem_map]
    exact fun f _ => writable_texts (by decide) f.2
  rw [writable_obj_iff (by decide)]
  simp [hfields, writable_texts (show 1 < maxAnswerNesting by decide)]

variable {r : Request} {project : String}

/-- **What a question answers can be written exactly if every row that it reads can be shown.** -/
theorem planOf_shows {plan : Plan Json} (h : planOf question r project = .ok plan) :
    Shows question plan := by
  unfold planOf at h
  cases question with
  | list =>
    obtain ⟨o, -, h⟩ := bind_eq_ok h
    obtain ⟨events, hevents, h⟩ := bind_eq_ok h
    cases h
    exact shows_events (listPlan_reads hevents) (fun _ => rfl) rfl
  | aggregate =>
    obtain ⟨o, -, h⟩ := bind_eq_ok h
    obtain ⟨field, -, h⟩ := bind_eq_ok h
    obtain ⟨groups, hgroups, h⟩ := bind_eq_ok h
    cases h
    obtain ⟨statement, rfl⟩ := aggregate_reads hgroups
    exact shows_wrap fun row g => showable_aggregate
  | latency =>
    obtain ⟨o, -, h⟩ := bind_eq_ok h
    obtain ⟨field, -, h⟩ := bind_eq_ok h
    obtain ⟨groups, hgroups, h⟩ := bind_eq_ok h
    cases h
    obtain ⟨statement, rfl⟩ := latency_reads hgroups
    exact shows_wrap fun row l => showable_latency
  | errors =>
    obtain ⟨o, -, h⟩ := bind_eq_ok h
    obtain ⟨field, -, h⟩ := bind_eq_ok h
    obtain ⟨groups, hgroups, h⟩ := bind_eq_ok h
    cases h
    obtain ⟨statement, rfl⟩ := errors_reads hgroups
    exact shows_wrap fun row g => showable_errors
  | stats =>
    obtain ⟨o, -, h⟩ := bind_eq_ok h
    obtain ⟨stats, -, h⟩ := bind_eq_ok h
    cases h
    exact shows_of_nothing writable_stats (fun _ => rfl) rfl
  | trace traceId =>
    obtain ⟨events, hevents, h⟩ := bind_eq_ok h
    cases h
    obtain ⟨o, -, hevents⟩ := bind_eq_ok hevents
    cases hevents
    exact shows_events (.inr ⟨_, rfl⟩) (fun _ => rfl) rfl
  | fields =>
    obtain ⟨events, -, h⟩ := bind_eq_ok h
    cases h
    exact shows_of_nothing (fun events => writable_suggestions (.ofEvents events)) (fun _ => rfl) rfl

/-! ## The main statement -/

variable {s : Collaborators} {key : Key}

/-- What comes of a question where the store answers like this. -/
def outcome (question : Question) (r : Request) (project : String)
    (rows : Except Fault (List Row)) : Except Fault Json :=
  planOf question r project >>= fun plan => plan.run fun _ => rows

/-- The store answers a question with rows that are read, and one of them cannot be shown. -/
def Breaks (question : Question) (r : Request) (project : String)
    (rows : Except Fault (List Row)) : Prop :=
  ∃ statement read found v, planOf question r project = .ok (.ask statement read) ∧
    rows = .ok found ∧ read found = .ok v ∧ ∃ row ∈ found, ¬ Showable question row

theorem writable_outcome_iff (question : Question) (r : Request) (project : String)
    (rows : Except Fault (List Row)) :
    (∀ v, outcome question r project rows = .ok v → Writable 0 v) ↔
      ¬ Breaks question r project rows := by
  constructor
  · rintro h ⟨statement, read, found, v, hplan, rfl, hread, row, hrow, hnot⟩
    have hv : outcome question r project (.ok found) = .ok v := by
      unfold outcome
      rw [hplan]
      exact hread
    exact hnot ((planOf_shows hplan found v hread).mp (h v hv) row hrow)
  · intro h v hv
    obtain ⟨plan, hplan, hv⟩ := bind_eq_ok hv
    have hshows := planOf_shows hplan
    cases plan with
    | answer value =>
      cases hv
      exact hshows
    | ask statement read =>
      obtain ⟨found, hfound, hread⟩ := bind_eq_ok hv
      refine (hshows found v hread).mpr fun row hrow => ?_
      by_contra hnot
      exact h ⟨statement, read, found, v, hplan, hfound, hread, row, hrow, hnot⟩

theorem rows_noted (s : Collaborators) (key : Key) : (s.noted key).rows = s.rows := by
  unfold Collaborators.noted
  split <;> rfl

theorem run_perform_rows {α : Type} (plan : Plan α) (s : Collaborators) :
    ∃ t, (perform plan).runWith handle s = (plan.run fun _ => s.rows, t) := by
  cases plan with
  | answer value => exact ⟨s, rfl⟩
  | ask statement read =>
    unfold perform Plan.run
    rw [Attempt.runWith_ask_bind]
    dsimp only [handle]
    cases s.rows with
    | error fault => exact ⟨_, rfl⟩
    | ok rows =>
      show ∃ t, (liftM (read rows) : Attempt α).runWith handle _ = (read rows, t)
      cases read rows <;> exact ⟨_, rfl⟩

/-- With a key that opens the gate, the outcome of a question is that of its plan. -/
theorem run_answer_outcome (h : Timed s) (hkey : Opens s (r.exactHeader? "authorization") key)
    (hproject : key.project = some project) (question : Question) :
    ∃ t, (answer question r).runWith handle s = (outcome question r project s.rows, t) := by
  have hof : (projectOf r).runWith handle s = (.ok project, s.noted key) := by
    unfold projectOf
    rw [Attempt.runWith_bind_ok (h.run_authenticate_opens hkey), hproject]
    rfl
  unfold answer outcome
  rw [Attempt.runWith_bind_ok hof]
  cases planOf question r project with
  | error fault => exact ⟨_, rfl⟩
  | ok plan =>
    rw [Attempt.runWith_lift_bind rfl]
    obtain ⟨t, hrun⟩ := run_perform_rows plan (s.noted key)
    rw [rows_noted] at hrun
    exact ⟨t, hrun⟩

/-- **A question with a key that opens the gate is answered with its result, its refusal or an
internal error, exactly if it is not cancelled and no row that it reads holds what cannot be
shown.** Otherwise a fault goes on to the server. -/
theorem answered_iff (h : Timed s) (hkey : Opens s (r.exactHeader? "authorization") key)
    (hproject : key.project = some project) (hplain : r.plain = true)
    (hroute : Route.ofPath? r.path = some (.ask question)) (hverb : r.verb = "GET")
    (defaultCap : Int) (incoming : List Incoming) :
    ∃ served t, (serve defaultCap r incoming).run handle s = (some served, t) ∧
      (served = told (outcome question r project s.rows) ∨ ∃ fault, served = broken fault) ∧
      (served = told (outcome question r project s.rows) ↔
        outcome question r project s.rows ≠ .error .cancelled ∧
          ¬ Breaks question r project s.rows) := by
  obtain ⟨t, hanswer⟩ := run_answer_outcome h hkey hproject question
  refine ⟨_, t, run_serve hplain hroute hverb defaultCap incoming hanswer,
    respondTo_told_or_broken _, ?_⟩
  rw [respondTo_eq_told_iff, writable_outcome_iff]

/-- A question about the events of a project. -/
def listing : Request := ⟨true, "GET", "/events", "", [("authorization", "Bearer we_1")]⟩

/-- The columns of an event with a time and the text of a payload. -/
def columnsWith (written payload : String) : Json.Object :=
  [("id", .str "e"), ("timestamp", .str written), ("event_type", .str "checkout"),
    ("payload", .str payload)]

/-- The row of these columns. -/
def rowWith (written payload : String) : Row := ⟨.obj (columnsWith written payload), none⟩

theorem ofRow_rowWith {written payload : String} {time : Time.DateTime} {fields : Json.Object}
    (htime : Query.readTime (rowWith written payload) (.str written) = .ok time)
    (hpayload : readPayload (.str payload) = .ok fields) :
    EventRow.ofRow (rowWith written payload) = .ok ⟨"e", time, "checkout", fields, none, none⟩ := by
  have hfields : (rowWith written payload).fields = .ok (columnsWith written payload) := rfl
  have hstatus : readNumber (Json.get "status_code" (columnsWith written payload)) = .ok none := rfl
  have hid : Query.required "id" (columnsWith written payload) = .ok (.str "e") := rfl
  have hwritten : Query.required "timestamp" (columnsWith written payload) = .ok (.str written) :=
    rfl
  have hcolumn : Json.get "payload" (columnsWith written payload) = .str payload := rfl
  unfold EventRow.ofRow
  simp only [bind, Except.bind, pure, Except.pure, hfields, hstatus, hid, hcolumn, hpayload]
  rw [show (rowWith written payload).time = none from rfl]
  simp only [hwritten, htime]
  rfl

/-- A small gate over a store with one row. -/
def holding (row : Row) : Collaborators := { Collaborators.small with rows := .ok [row] }

/-- The key of a small gate. -/
def smallKey : Key where
  id := "key"
  digest := Token.digest "we_1"
  start := "we_1"
  account := "account"
  project := some "project"

theorem timed_holding (row : Row) : Timed (holding row) := by
  refine ⟨fun key hkey expiry hexpiry => ?_, rfl⟩
  rw [List.mem_singleton.mp hkey] at hexpiry
  cases hexpiry

theorem opens_holding (row : Row) :
    Opens (holding row) (listing.exactHeader? "authorization") smallKey where
  reachable := rfl
  known := ⟨"we_1", by decide, by
    unfold Collaborators.findKey holding Collaborators.small
    simp [smallKey]⟩
  usable := rfl
  bound := rfl

theorem route_listing : Route.ofPath? listing.path = some (.ask .list) := by decide +kernel

/-- A row with a time and a payload that can be shown. -/
def wholeRow : Row := rowWith "2026-03-01 10:00:00.000" "\x7b\"x\":1\x7d"

theorem answered_iff_whole :
    Timed (holding wholeRow) ∧
    Opens (holding wholeRow) (listing.exactHeader? "authorization") smallKey ∧
    smallKey.project = some "project" ∧ listing.plain = true ∧
    Route.ofPath? listing.path = some (.ask .list) ∧ listing.verb = "GET" ∧
    ∃ served t, (serve 0 listing []).run handle (holding wholeRow) = (some served, t) ∧
      (served = told (outcome .list listing "project" (.ok [wholeRow])) ∨
        ∃ fault, served = broken fault) ∧
      (served = told (outcome .list listing "project" (.ok [wholeRow])) ↔
        outcome .list listing "project" (.ok [wholeRow]) ≠ .error .cancelled ∧
          ¬ Breaks .list listing "project" (.ok [wholeRow])) := by
  have htimed := timed_holding wholeRow
  have hopens := opens_holding wholeRow
  exact ⟨htimed, hopens, rfl, rfl, route_listing, rfl,
    answered_iff htimed hopens rfl rfl route_listing rfl 0 []⟩

section Breaking

variable {written payload : String}

theorem readTime_rowWith {time : Time.DateTime} (h : Time.Iso.read? written = some time) :
    Query.readTime (rowWith written payload) (.str written) = .ok time.withZone := by
  simp [Query.readTime, rowWith, Json.display, h]

/-- An event whose payload cannot be written breaks the answer to a question about events. -/
theorem breaks_rowWith {time : Time.DateTime} {fields : Json.Object}
    (htime : Time.Iso.read? written = some time)
    (hpayload : readPayload (.str payload) = .ok fields) (hnot : ¬ Writable 3 (.obj fields)) :
    Breaks .list listing "project" (.ok [rowWith written payload]) := by
  have hplan : ∃ statement, planOf .list listing "project"
      = .ok (wrap "events" EventRow.toJson (.ask statement Query.readEvents)) := ⟨_, rfl⟩
  obtain ⟨statement, hplan⟩ := hplan
  have hrow := ofRow_rowWith (readTime_rowWith htime) hpayload
  have hread : Query.readEvents [rowWith written payload]
      = .ok [⟨"e", time.withZone, "checkout", fields, none, none⟩] := by
    unfold Query.readEvents
    exact mapM_eq_ok_iff.mpr (by simp [hrow])
  refine ⟨statement, _, _, _, hplan, rfl, congrArg (Except.map _) hread, _, .head [], fun hshow => ?_⟩
  have hshown : .obj fields ∈ Question.list.shown (columnsWith written payload) := by
    have hcolumn : Json.get "payload" (columnsWith written payload) = .str payload := rfl
    simp [Question.shown, hcolumn, hpayload]
  exact hnot (hshow.values _ rfl _ hshown)

end Breaking

/-- A row whose payload is the text of an object with a number that is none. -/
def nanRow : Row := rowWith "2026-03-01 10:00:00.000" "\x7b\"x\":NaN\x7d"

theorem breaks_nanRow : Breaks .list listing "project" (.ok [nanRow]) := by
  have htime : (Time.Iso.read? "2026-03-01 10:00:00.000").isSome = true := by decide +kernel
  obtain ⟨time, htime⟩ := Option.isSome_iff_exists.mp htime
  have hpayload : readPayload (.str "\x7b\"x\":NaN\x7d") = .ok [("x", .float .nan)] := rfl
  have hnot : ¬ Writable 3 (.obj [("x", .float .nan)]) := fun h => absurd h.2 (by decide)
  exact breaks_rowWith htime hpayload hnot

/-- A number that is none in the payload of an event breaks the response. -/
theorem listing_nan : ∃ served t, (serve 0 listing []).run handle (holding nanRow)
    = (some served, t) ∧ ∃ fault, served = broken fault := by
  obtain ⟨t, hanswer⟩ := run_answer_outcome (timed_holding nanRow) (opens_holding nanRow) rfl .list
  refine ⟨_, t, run_serve rfl route_listing rfl 0 [] hanswer, ?_⟩
  rcases respondTo_told_or_broken (outcome .list listing "project" (.ok [nanRow])) with h | h
  · exact absurd breaks_nanRow ((writable_outcome_iff ..).mp ((respondTo_eq_told_iff _).mp h).2)
  · exact h

end Telemetry.Http.Dashboard
