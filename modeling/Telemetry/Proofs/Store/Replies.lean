import Telemetry.Proofs.Gate.Sessions
import Telemetry.Proofs.Items
import Telemetry.Proofs.Json.Lines
import Telemetry.Query.Plan

/-!
# What a statement is answered

The warehouse answers a statement with a text, which may come from anywhere. Rows are read from it
line by line, and the reader of a line takes every value, not only objects, and stops at values that
are nested too deeply. So what comes of a statement need neither be rows nor a failure of the store.

Main statement: `seesRows_iff`, which says after which replies all that asks the warehouse sees rows
or such a failure.
-/

namespace Telemetry

namespace Http

/-! ## One exchange -/

/-- The reply that a server gives to the next request. -/
def Remote.nextReply (r : Remote) : Reply :=
  match r.script with
  | (reply, _) :: _ => reply
  | [] => .response 200 ""

variable {r : Outgoing}

/-- A request that can be sent is sent, and gets the next reply. -/
theorem over_exchange (hpath : r.path.length ≤ maxAddress) (hsend : r.isSendable = true)
    (link : Link) : ∃ after, (exchange r).over link = (.ok link.remote.nextReply, after) ∧
      after.remote.sent = link.remote.sent ++ [r] := by
  have hshort : ¬ r.path.length > maxAddress := Nat.not_lt.mpr hpath
  obtain ⟨⟨script, sent⟩, world⟩ := link
  unfold exchange
  simp only [hshort, hsend]
  cases script <;> exact ⟨_, rfl, rfl⟩

/-- A request that cannot be sent is not. -/
theorem over_exchange_unsendable (hpath : r.path.length ≤ maxAddress) (hsend : r.isSendable = false)
    (link : Link) : (exchange r).over link = (.error .notAscii, link) := by
  have hshort : ¬ r.path.length > maxAddress := Nat.not_lt.mpr hpath
  unfold exchange
  simp only [hshort, hsend]
  rfl

/-- A request whose address is too long is not sent either. -/
theorem over_exchange_long (hpath : maxAddress < r.path.length) (link : Link) :
    (exchange r).over link = (.error .addressTooLong, link) := by
  have hlong : r.path.length > maxAddress := hpath
  unfold exchange
  simp only [hlong]
  rfl

end Http

namespace Json.Lines

/-! ## Readings of a text -/

/-- The lines of a text can be told to be objects, or can be told not to be: either all of them are
objects, or one is no value for another reason than its depth, and all before it are values. -/
def Conclusive (lines : List (List Char)) : Prop :=
  (∀ line ∈ lines, ∃ fields, readLine line = .ok (.obj fields)) ∨
    ∃ before line after e, lines = before ++ line :: after ∧
      (∀ b ∈ before, ∃ v, readLine b = .ok v) ∧ readLine line = .error e ∧ e ≠ .tooDeep

variable {text : String} {rows : List Json} {e : ReadError}

theorem decode_eq_mapM (text : String) : decode text = (Text.kept text.toList).mapM readLine := rfl

/-- What is read is all objects if every line is one. -/
theorem forall_objects_iff (h : decode text = .ok rows) :
    (∀ row ∈ rows, ∃ fields, row = .obj fields) ↔
      ∀ line ∈ Text.kept text.toList, ∃ fields, readLine line = .ok (.obj fields) := by
  refine forall_mem_mapM_iff (decode_eq_mapM text ▸ h) fun line row hrow => ?_
  rw [hrow]
  simp

theorem conclusive_of_ok (h : decode text = .ok rows) :
    Conclusive (Text.kept text.toList) ↔ ∀ row ∈ rows, ∃ fields, row = .obj fields := by
  rw [forall_objects_iff h]
  constructor
  · rintro (hall | ⟨before, line, after, e, hlines, hbefore, he, -⟩)
    · exact hall
    · have herror := mapM_eq_error_iff.mpr ⟨before, line, after, hlines, hbefore, he⟩
      rw [← decode_eq_mapM, h] at herror
      cases herror
  · exact .inl

theorem conclusive_of_error (h : decode text = .error e) :
    Conclusive (Text.kept text.toList) ↔ e ≠ .tooDeep := by
  obtain ⟨before, line, after, hlines, hbefore, he⟩ :=
    mapM_eq_error_iff.mp (decode_eq_mapM text ▸ h)
  constructor
  · rintro (hall | ⟨before', line', after', e', hlines', hbefore', he', hne⟩)
    · obtain ⟨fields, hfields⟩ := hall line (by rw [hlines]; simp)
      rw [hfields] at he
      cases he
    · have herror := mapM_eq_error_iff.mpr ⟨before', line', after', hlines', hbefore', he'⟩
      rw [← decode_eq_mapM, h] at herror
      cases herror
      exact hne
  · exact fun hne => .inr ⟨before, line, after, e, hlines, hbefore, he, hne⟩

end Json.Lines

namespace Store.Warehouse

open Http
open Gate (over_bind over_lift)

variable {α : Type} {login : Login} {statement : String} {link : Link} {reply : Reply}

/-! ## One statement -/

/-- The request that a statement is sent with. -/
def queryRequest (login : Login) (statement : String) : Outgoing where
  verb := "POST"
  path := "/"
  params := [("default_format", "JSONEachRow"), ("output_format_json_quote_64bit_integers", "0")]
  headers := login.headers
  body := statement

/-- A login can be sent: it is ASCII. -/
def Login.Sendable (login : Login) : Prop :=
  ∀ text ∈ [login.user, login.password, login.database], ∀ c ∈ text.toList, c.toNat < 0x80

theorem isSendable_queryRequest :
    (queryRequest login statement).isSendable = true ↔ login.Sendable := by
  simp [queryRequest, Outgoing.isSendable, Login.headers, Login.Sendable]

theorem queryRequest_path_le : (queryRequest login statement).path.length ≤ maxAddress := by
  show "/".length ≤ maxAddress
  decide

/-- The rows in a reply. -/
def rowsOf (reply : Reply) : Except Fault (List Json) := accept reply >>= readRows

/-- A statement is answered with what the exchange gives, and with nothing else. -/
theorem over_query_eq (login : Login) (statement : String) (link : Link) :
    (query login statement).over link =
      ((((exchange (queryRequest login statement)).over link).1 >>= rowsOf),
        ((exchange (queryRequest login statement)).over link).2) := by
  unfold query post queryRequest rowsOf
  rw [over_bind, over_bind]
  rcases Online.over (exchange _) link with ⟨fault | reply, link⟩
  · rfl
  · dsimp only
    rw [over_lift]
    show _ = (Except.bind (accept reply) readRows, link)
    cases accept reply with
    | error fault => rfl
    | ok text => exact over_lift (readRows text) link

/-- A statement is sent, and what comes of it is in the reply. -/
theorem over_query (hlogin : login.Sendable) (statement : String) (link : Link) :
    ∃ after, (query login statement).over link = (rowsOf link.remote.nextReply, after) ∧
      after.remote.sent = link.remote.sent ++ [queryRequest login statement] := by
  obtain ⟨after, hover, hsent⟩ := over_exchange (r := queryRequest login statement)
    queryRequest_path_le (isSendable_queryRequest.mpr hlogin) link
  refine ⟨after, ?_, hsent⟩
  rw [over_query_eq, hover]
  rfl

theorem over_query_unsendable (hlogin : ¬ login.Sendable) (statement : String) (link : Link) :
    (query login statement).over link = (.error .notAscii, link) := by
  have hsend : (queryRequest login statement).isSendable = false :=
    Bool.eq_false_iff.mpr fun h => hlogin (isSendable_queryRequest.mp h)
  rw [over_query_eq, over_exchange_unsendable queryRequest_path_le hsend]
  rfl

/-! ## Rows or a failure of the store -/

/-- Something sees rows: it comes to what is read from a list of objects, or to a failure of the
store. -/
def Sees (read : List Json → Except Fault α) (outcome : Except Fault α) : Prop :=
  (∃ flaw, outcome = .error (.refusal (.store flaw))) ∨
    ∃ rows, (∀ row ∈ rows, ∃ fields, row = .obj fields) ∧ outcome = read rows

/-- What is read from rows sees what the rows are. -/
theorem Sees.bind {rows : Except Fault (List Json)} (h : Sees .ok rows)
    (read : List Json → Except Fault α) : Sees read (rows >>= read) := by
  rcases h with ⟨flaw, rfl⟩ | ⟨objects, hobjects, rfl⟩
  · exact .inl ⟨flaw, rfl⟩
  · exact .inr ⟨objects, hobjects, rfl⟩

/-- A reply is a failure, or its lines can be told to be rows or not to be. -/
def Conclusive : Reply → Prop
  | .failed _ => True
  | .response status text => status ≥ 400 ∨ Json.Lines.Conclusive (Text.kept text.toList)

theorem sees_ok_iff {rows : List Json} :
    Sees .ok (.ok rows) ↔ ∀ row ∈ rows, ∃ fields, row = .obj fields := by
  constructor
  · rintro (⟨flaw, h⟩ | ⟨objects, hobjects, h⟩)
    · cases h
    · cases h
      exact hobjects
  · exact fun h => .inr ⟨rows, h, rfl⟩

theorem sees_error_iff {fault : Fault} :
    Sees .ok (.error fault : Except Fault (List Json)) ↔
      ∃ flaw, fault = .refusal (.store flaw) := by
  constructor
  · rintro (⟨flaw, h⟩ | ⟨rows, -, h⟩)
    · cases h
      exact ⟨flaw, rfl⟩
    · cases h
  · rintro ⟨flaw, rfl⟩
    exact .inl ⟨flaw, rfl⟩

theorem sees_readRows_iff (text : String) :
    Sees .ok (readRows text) ↔ Json.Lines.Conclusive (Text.kept text.toList) := by
  unfold readRows
  cases hdecode : Json.Lines.decode text with
  | ok rows => rw [Json.Lines.conclusive_of_ok hdecode, sees_ok_iff]
  | error e =>
    rw [Json.Lines.conclusive_of_error hdecode]
    cases e <;> simp [sees_error_iff]

theorem sees_rowsOf_iff (reply : Reply) : Sees .ok (rowsOf reply) ↔ Conclusive reply := by
  cases reply with
  | failed reason => exact iff_of_true (.inl ⟨_, rfl⟩) trivial
  | response status text =>
    by_cases hstatus : status ≥ 400
    · have hrows : rowsOf (.response status text)
          = .error (.refusal (.store (.status status
            (String.ofList ((Text.strip text.toList).take maxDetail))))) := by
        simp [rowsOf, accept, hstatus, bind, Except.bind]
      rw [hrows]
      exact iff_of_true (.inl ⟨_, rfl⟩) (.inl hstatus)
    · have hrows : rowsOf (.response status text) = readRows text := by
        simp [rowsOf, accept, hstatus, bind, Except.bind]
      rw [hrows, sees_readRows_iff]
      simp [Conclusive, hstatus]

theorem sees_query_iff (login : Login) (statement : String) (link : Link) :
    Sees .ok ((query login statement).over link).1 ↔
      login.Sendable ∧ Conclusive link.remote.nextReply := by
  by_cases hlogin : login.Sendable
  · obtain ⟨after, hover, -⟩ := over_query hlogin statement link
    rw [hover, sees_rowsOf_iff]
    simp [hlogin]
  · rw [over_query_unsendable hlogin]
    simp [hlogin, sees_error_iff]

/-! ## Whatever asks the warehouse -/

/-- The warehouse as a store of rows. -/
def rowStore (login : Login) (link : Link) (statement : String) : Except Fault (List Query.Row) :=
  ((query login statement).over link).1.map fun rows => rows.map fun columns => ⟨columns, none⟩

/-- All that asks the warehouse sees rows, or a failure of the store. -/
structure SeesRows (login : Login) (link : Link) : Prop where
  query : ∀ statement, Sees .ok ((query login statement).over link).1
  hasEventType : ∀ project eventType,
    Sees (fun rows => .ok !rows.isEmpty) ((hasEventType login project eventType).over link).1
  countSince : ∀ projects since day, projects ≠ [] → utcDay since = .ok day →
    Sees readTotal ((countSince login projects since).over link).1
  plan : ∀ (α : Type) (statement : Query.Statement) (read : List Query.Row → Except Fault α),
    Sees (fun rows => read (rows.map fun columns => ⟨columns, none⟩))
      ((Query.Plan.ask statement read).run (rowStore login link))

theorem over_hasEventType (login : Login) (project eventType : String) (link : Link) :
    ((hasEventType login project eventType).over link).1
      = ((query login (eventTypeStatement project eventType)).over link).1 >>= fun rows =>
          .ok !rows.isEmpty := by
  unfold hasEventType
  rw [over_bind]
  rcases Online.over (query _ _) link with ⟨fault | rows, link⟩ <;> rfl

theorem over_countSince {projects : List String} {since : Time.DateTime} {day : String}
    (hprojects : projects ≠ []) (hday : utcDay since = .ok day) (login : Login) (link : Link) :
    (countSince login projects since).over link
      = (((query login (usageStatement projects day)).over link).1 >>= readTotal,
        ((query login (usageStatement projects day)).over link).2) := by
  have hne : projects.isEmpty = false := by simpa using hprojects
  unfold countSince
  rw [hne, hday]
  show (query login (usageStatement projects day) >>= fun rows =>
    (liftM (readTotal rows) : Online Int)).over link = _
  rw [over_bind]
  rcases Online.over (query _ _) link with ⟨fault | rows, link⟩
  · rfl
  · dsimp only
    rw [over_lift]
    rfl

theorem run_rowStore (login : Login) (link : Link) (statement : Query.Statement)
    (read : List Query.Row → Except Fault α) :
    (Query.Plan.ask statement read).run (rowStore login link)
      = ((query login statement.text).over link).1 >>= fun rows =>
          read (rows.map fun columns => ⟨columns, none⟩) := by
  unfold Query.Plan.run rowStore
  dsimp only
  cases ((query login statement.text).over link).1 <;> rfl

/-- **All that asks the warehouse sees rows or a failure of the store, exactly if the login can be
sent and the reply is a failure, holds nothing but objects, or holds a line that is no JSON** before
anything else goes wrong. A line with another value, or with one that is nested too deeply, is taken
for neither. -/
theorem seesRows_iff (login : Login) (link : Link) :
    SeesRows login link ↔ login.Sendable ∧ Conclusive link.remote.nextReply := by
  constructor
  · exact fun h => (sees_query_iff login "" link).mp (h.query "")
  · intro h
    have hquery (statement : String) := (sees_query_iff login statement link).mpr h
    refine ⟨hquery, fun project eventType => ?_, fun projects since day hprojects hday => ?_,
      fun α statement read => ?_⟩
    · rw [over_hasEventType]
      exact (hquery _).bind _
    · rw [over_countSince hprojects hday]
      exact (hquery _).bind _
    · rw [run_rowStore]
      exact (hquery _).bind _

/-- A proxy that answers with a number. -/
def numberLink : Link := ⟨⟨[(.response 200 "5\n", .zero)], []⟩, ⟨default, .zero, .zero, 0⟩⟩

/-- A number is handed on as a row. -/
theorem query_number :
    ¬ Sees .ok ((query ⟨"default", "default", ""⟩ "SELECT 1").over numberLink).1 := by
  have hrows : rowsOf (.response 200 "5\n") = .ok [.int 5] := by rfl
  have hover : ((query ⟨"default", "default", ""⟩ "SELECT 1").over numberLink).1
      = .ok [.int 5] := by
    rw [over_query_eq]
    exact hrows
  rw [hover, sees_ok_iff]
  intro h
  obtain ⟨fields, hfields⟩ := h _ (.head [])
  cases hfields

end Store.Warehouse

end Telemetry
