import Mathlib.Data.List.Basic
import Telemetry.Proofs.Gate.Metering
import Telemetry.Proofs.Sql.Piece
import Telemetry.Proofs.Store.Replies
import Telemetry.Proofs.Time.Reading

/-!
# Two ways to count a month

A store in memory compares the arrival of every event with the instant at which the month began. The
warehouse keeps one number per project and UTC day, and adds up those of the days from the date of
that instant on. The two agree because a month begins at midnight UTC: an event arrived since then
exactly if it arrived on that day or on a later one.

What the warehouse is asked is read from the text of the statement that is sent, by a reader that
knows nothing of how the text was made.

Main statement: `counters_agree`.
-/

namespace Telemetry

/-! ## Days in UTC -/

namespace Time

/-- The bytes of a date alone are read as its midnight. -/
theorem Iso.read?_date {s : String} {d : Date} (hd : d.Valid)
    (hs : Iso.codes s.toList = Iso.dateCodes d) :
    Iso.read? s = DateTime.ofWall? ((d.toDays : Int) * day + (0 : Nat)) none := by
  have hascii : ∀ c ∈ s.toList, c.toNat < 0x80 := by
    intro c hc
    exact Iso.ascii_dateCodes d _ (hs ▸ List.mem_map_of_mem hc)
  have hlength := Iso.length_dateCodes hd
  have hten := Iso.dateLength?_codes hd []
  have hdate := Iso.date?_codes hd []
  rw [List.append_nil] at hten hdate
  unfold Iso.read?
  rw [Iso.encodeUtf8_codes hascii, hs]
  dsimp only
  rw [if_neg (by omega), hten, Option.bind_eq_bind, Option.bind_some, hdate, Option.bind_eq_bind,
    Option.bind_some, if_neg (by omega), Option.bind_eq_bind, Option.bind_some]

namespace DateTime

/-- The UTC day of an instant, counted from the first day of the year 1. -/
def dayInUtc (t : DateTime) : Int := t.instant / day

theorem codes_dateText (t : DateTime) :
    Iso.codes (t.dateText 4).toList = Iso.dateCodes t.date := by
  have hhyphen : Iso.codes "-".toList = [Iso.code '-'] := rfl
  unfold dateText two Iso.dateCodes
  simp only [String.toList_append, Iso.codes_append, hhyphen, List.append_assoc, List.cons_append,
    List.nil_append]

/-- The midnight of a reading's day, without its zone. -/
def midnight (t : DateTime) : DateTime :=
  ⟨t.wall / day * day, Nat.lt_of_le_of_lt (Nat.div_mul_le_self ..) t.inRange, none⟩

/-- The text of a date is read as its midnight. -/
theorem read?_dateText (t : DateTime) : Iso.read? (t.dateText 4) = some t.midnight := by
  have hdays : t.date.toDays = t.wall / day := toDays_ofDays _
  have hwall : (t.date.toDays : Int) * day + (0 : Nat) = t.midnight.wall := by
    rw [hdays]
    show _ = ((t.wall / day * day : Nat) : Int)
    push_cast
    exact Int.add_zero _
  rw [Iso.read?_date t.valid_date t.codes_dateText]
  exact ofWall?_eq_some hwall none

theorem dayInUtc_midnight (t : DateTime) : t.midnight.dayInUtc = t.wall / day := by
  have hpos : (day : Int) ≠ 0 := by decide
  show (((t.wall / day * day : Nat) : Int) - 0) / day = _
  rw [Int.sub_zero, Int.natCast_mul, Int.mul_ediv_cancel _ hpos]
  exact Int.natCast_ediv ..

theorem toUtc?_of_utc {t : DateTime} (h : t.offset = some .utc) : t.toUtc? = some t := by
  unfold toUtc?
  rw [ofWall?_eq_some (instant_of_utc h), ← h]

end DateTime

end Time

/-! ## Daily counts -/

namespace Store.Warehouse

open Http Sql

/-- A row of the table of daily counts. -/
structure UsageRow where
  project : String
  day : Int
  count : Nat

/-- A table holds for each project and UTC day how many events of the project arrived on that day,
in one row or in several that add up to it. -/
def Tallies (table : List UsageRow) (events : List Event) : Prop :=
  ∀ project day,
    ((table.filter fun row => row.project == project && row.day == day).map UsageRow.count).sum
      = events.countP fun e => e.project == project && e.ingestedAt.dayInUtc == day

/-- What a usage statement asks: the counts of which projects, from which day on. -/
structure UsageQuestion where
  projects : List String
  day : Int

/-- Whether a count is asked for. -/
def UsageQuestion.asks (q : UsageQuestion) (project : String) (day : Int) : Bool :=
  q.projects.contains project && decide (q.day ≤ day)

/-- The counts that are asked for. -/
def UsageQuestion.counts (q : UsageQuestion) (table : List UsageRow) : List Nat :=
  (table.filter fun row => q.asks row.project row.day).map UsageRow.count

/-- The sum of a column, null without rows. -/
def sumColumn : List Nat → Json
  | [] => .null
  | counts => .int counts.sum

/-- The project and day of a row, as often as it counts them. -/
def spread (table : List UsageRow) : List (String × Int) :=
  table.flatMap fun row => List.replicate row.count (row.project, row.day)

variable {table : List UsageRow} {events : List Event}

theorem countP_spread (p : String × Int → Bool) (table : List UsageRow) :
    (spread table).countP p
      = ((table.filter fun row => p (row.project, row.day)).map UsageRow.count).sum := by
  induction table with
  | nil => rfl
  | cons row table ih =>
    have hspread : spread (row :: table)
        = List.replicate row.count (row.project, row.day) ++ spread table := List.flatMap_cons
    rw [hspread, List.countP_append, List.countP_replicate, ih, List.filter_cons]
    by_cases h : p (row.project, row.day) = true
    · simp [h]
    · simp [h]

/-- A table of the arrivals of some events spreads out to their projects and days. -/
theorem Tallies.spread_perm (h : Tallies table events) :
    (spread table).Perm (events.map fun e => (e.project, e.ingestedAt.dayInUtc)) := by
  rw [List.perm_iff_count]
  rintro ⟨project, day⟩
  rw [List.count_eq_countP, List.count_eq_countP, countP_spread, List.countP_map]
  exact h project day

/-- **The counts that are asked for add up to the events that are asked for.** -/
theorem Tallies.sum_counts (h : Tallies table events) (q : UsageQuestion) :
    (q.counts table).sum = events.countP fun e => q.asks e.project e.ingestedAt.dayInUtc := by
  have hcount := h.spread_perm.countP_eq fun key => q.asks key.1 key.2
  rw [countP_spread, List.countP_map] at hcount
  exact hcount

/-! ## Reading a usage statement -/

/-- The lexemes that are no blanks. -/
def dense (ls : List Lexeme) : List Lexeme := ls.filter (· != .mark ' ')

/-- The texts of literals with commas between them up to a parenthesis, and what is behind it. -/
def texts? : List Lexeme → Option (List String × List Lexeme)
  | .literal raw :: .mark ',' :: more =>
    (texts? more).map fun (texts, rest) => (String.ofList (unescape raw) :: texts, rest)
  | .literal raw :: .closing :: rest => some ([String.ofList (unescape raw)], rest)
  | _ => none

/-- What stands in a usage statement in front of the projects. -/
def beforeProjects : String :=
  "SELECT sum(count) AS total FROM daily_usage WHERE project_id IN ("

/-- What stands in a usage statement between the projects and the day. -/
def beforeDay : String := " AND day >= toDate("

/-- Reads what a usage statement asks. The day is the one that its literal is the date of. -/
def readUsage? (statement : String) : Option UsageQuestion := do
  let ls ← lexemes? statement.toList
  let rest ← (dense ls).dropPrefix? (dense (lexed beforeProjects))
  let (projects, rest) ← texts? rest
  match ← rest.dropPrefix? (dense (lexed beforeDay)) with
  | [.literal raw, .closing] =>
    let day ← Time.Iso.read? (String.ofList (unescape raw))
    pure ⟨projects, day.dayInUtc⟩
  | _ => none

/-- The lexeme of the literal of a text. -/
def literalOf (text : String) : Lexeme := .literal (escapeChars text.toList)

/-- The lexemes of literals with commas between them. -/
def listed : List String → List Lexeme
  | [] => []
  | [text] => [literalOf text]
  | text :: more => literalOf text :: .mark ',' :: .mark ' ' :: listed more

theorem unescape_literalOf (text : String) :
    String.ofList (unescape (escapeChars text.toList)) = text := by
  rw [unescape_escapeChars, String.ofList_toList]

theorem lexemes?_listed (texts : List String) :
    lexemes? (Text.joinWith ", " (texts.map textLiteral)).toList = some (listed texts) := by
  induction texts with
  | nil => rfl
  | cons text more ih =>
    cases more with
    | nil => exact lexemes?_textLiteral text
    | cons next more =>
      have hcomma : lexemes? ", ".toList = some [.mark ',', .mark ' '] := by decide
      have hall := scan_append (lexemes?_textLiteral text) (scan_append hcomma ih (.inl rfl))
        (.inl rfl)
      rw [List.map_cons, Text.toList_joinWith_cons ", " _ (by simp)]
      exact hall

theorem texts?_listed {texts : List String} (h : texts ≠ []) (rest : List Lexeme) :
    texts? (dense (listed texts) ++ .closing :: rest) = some (texts, rest) := by
  induction texts with
  | nil => exact absurd rfl h
  | cons text more ih =>
    cases more with
    | nil =>
      show some ([String.ofList (unescape (escapeChars text.toList))], rest) = _
      rw [unescape_literalOf]
    | cons next more =>
      show (texts? (dense (listed (next :: more)) ++ .closing :: rest)).map _ = _
      rw [ih (List.cons_ne_nil next more), Option.map_some]
      dsimp only
      rw [unescape_literalOf]

/-- The lexemes of a usage statement. -/
theorem lexemes?_usageStatement (projects : List String) (day : String) :
    lexemes? (usageStatement projects day).toList = some (lexed beforeProjects ++
      (listed projects ++ .closing :: (lexed beforeDay ++ [literalOf day, .closing]))) := by
  have hclose : lexemes? ")".toList = some [.closing] := by decide
  have hfront : lexemes? beforeProjects.toList = some (lexed beforeProjects) := by decide
  have hmiddle : lexemes? beforeDay.toList = some (lexed beforeDay) := by decide
  have hday := scan_append (lexemes?_textLiteral day) hclose (.inl rfl)
  have hback := scan_append hclose (scan_append hmiddle hday (.inl rfl)) (.inl rfl)
  have hlist := scan_append (lexemes?_listed projects) hback (.inr rfl)
  have hall := scan_append hfront hlist (.inl rfl)
  have htext : (usageStatement projects day).toList = beforeProjects.toList ++
      ((Text.joinWith ", " (projects.map textLiteral)).toList ++ (")".toList ++
        (beforeDay.toList ++ ((textLiteral day).toList ++ ")".toList)))) := by
    unfold usageStatement beforeProjects beforeDay
    simp only [String.toList_append, List.append_assoc]
    rfl
  rw [htext]
  exact hall

theorem dropPrefix?_dense (front rest : List Lexeme) :
    (dense (front ++ rest)).dropPrefix? (dense front) = some (dense rest) :=
  List.dropPrefix?_eq_some_iff.mpr ⟨dense front, List.filter_append .., beq_self_eq_true _⟩

/-- **A usage statement asks for the projects and the day that it was made with.** -/
theorem readUsage?_usageStatement {projects : List String} (h : projects ≠ [])
    {t : Time.DateTime} (ht : t.offset = some .utc) :
    readUsage? (usageStatement projects (t.dateText 4)) = some ⟨projects, t.dayInUtc⟩ := by
  have hutc : t.dayInUtc = t.wall / Time.day := by
    unfold Time.DateTime.dayInUtc
    rw [Time.DateTime.instant_of_utc ht]
  have hrest : dense (listed projects ++ .closing :: (lexed beforeDay ++
      [literalOf (t.dateText 4), .closing])) = dense (listed projects) ++ .closing ::
        dense (lexed beforeDay ++ [literalOf (t.dateText 4), .closing]) := List.filter_append ..
  have hday : dense [literalOf (t.dateText 4), .closing]
      = [.literal (escapeChars (t.dateText 4).toList), .closing] := rfl
  unfold readUsage?
  simp only [lexemes?_usageStatement, Option.bind_eq_bind, Option.bind_some, dropPrefix?_dense,
    hrest, texts?_listed h, hday, unescape_literalOf, Time.DateTime.read?_dateText,
    Time.DateTime.dayInUtc_midnight, hutc]
  rfl

/-! ## Answering a usage statement -/

/-- A reply tells what a statement means over a table of daily counts. -/
def Tells (table : List UsageRow) (statement : String) (reply : Reply) : Prop :=
  ∃ q text, readUsage? statement = some q ∧ reply = .response 200 text ∧
    Json.Lines.decode text = .ok [.obj [("total", sumColumn (q.counts table))]]

variable {login : Login} {link : Link} {projects : List String} {now since : Time.DateTime}

theorem readTotal_sumColumn (counts : List Nat) :
    readTotal [.obj [("total", sumColumn counts)]] = .ok (counts.sum : Nat) := by
  cases counts <;> rfl

/-- The total that a reply tells is the sum of the counts that are asked for. -/
theorem total_of_tells {statement : String} {reply : Reply} {q : UsageQuestion}
    (h : Tells table statement reply) (hq : readUsage? statement = some q) :
    rowsOf reply >>= readTotal = .ok ((q.counts table).sum : Nat) := by
  obtain ⟨other, text, hother, rfl, htext⟩ := h
  cases hq.symm.trans hother
  have hrows : rowsOf (.response 200 text) = .ok [.obj [("total", sumColumn (q.counts table))]] := by
    show readRows text = _
    unfold readRows
    rw [htext]
  rw [hrows]
  exact readTotal_sumColumn _

/-- Whatever is sent to count since a time, the next reply tells what it means. -/
def TellsUsage (table : List UsageRow) (login : Login) (projects : List String)
    (since : Time.DateTime) (link : Link) : Prop :=
  ∀ request,
    ((countSince login projects since).over link).2.remote.sent = link.remote.sent ++ [request] →
      Tells table request.body link.remote.nextReply

theorem utcDay_of_utc (h : since.offset = some .utc) : utcDay since = .ok (since.dateText 4) := by
  have haware := Time.DateTime.isAware_of_utc h
  unfold utcDay
  rw [Time.DateTime.toUtc?_of_utc h]
  simp [haware]

/-- What is sent is the statement for the projects and the day. -/
theorem tellsUsage_iff (hlogin : login.Sendable) (hsince : since.offset = some .utc)
    (hprojects : projects ≠ []) : TellsUsage table login projects since link ↔
      Tells table (usageStatement projects (since.dateText 4)) link.remote.nextReply := by
  have hover := over_countSince hprojects (utcDay_of_utc hsince) login link
  obtain ⟨after, hquery, hsent⟩ :=
    over_query hlogin (usageStatement projects (since.dateText 4)) link
  unfold TellsUsage
  rw [hover, hquery, hsent]
  constructor
  · exact fun h => h (queryRequest login (usageStatement projects (since.dateText 4))) rfl
  · intro h request hrequest
    rw [← List.singleton_inj.mp (List.append_cancel_left hrequest)]
    exact h

/-- What the warehouse counts since a time in UTC are the events from that day on. -/
theorem countSince_told (hlogin : login.Sendable) (htable : Tallies table events)
    (hsince : since.offset = some .utc) (htells : TellsUsage table login projects since link) :
    ((countSince login projects since).over link).1 = .ok ((events.countP fun e =>
      projects.contains e.project && decide (since.dayInUtc ≤ e.ingestedAt.dayInUtc) : Nat)) := by
  by_cases hprojects : projects = []
  · subst hprojects
    have hnone : (events.countP fun e => ([] : List String).contains e.project &&
        decide (since.dayInUtc ≤ e.ingestedAt.dayInUtc)) = 0 :=
      List.countP_eq_zero.mpr fun e _ => Bool.false_ne_true
    rw [hnone]
    rfl
  · obtain ⟨after, hquery, -⟩ :=
      over_query hlogin (usageStatement projects (since.dateText 4)) link
    have htold := (tellsUsage_iff hlogin hsince hprojects).mp htells
    have htotal := total_of_tells htold (readUsage?_usageStatement hprojects hsince)
    rw [over_countSince hprojects (utcDay_of_utc hsince), hquery]
    refine htotal.trans ?_
    rw [htable.sum_counts]
    rfl

/-! ## The two counters -/

theorem offset_of_monthStart (h : Gate.monthStart now = .ok since) : since.offset = some .utc := by
  unfold Gate.monthStart at h
  split at h
  · cases h
  · split at h
    · rename_i utc hutc
      cases h
      rw [Time.DateTime.offset_monthStart]
      exact (Time.DateTime.toUtc?_eq_some hutc).1
    · cases h

/-- An event arrived since the month began exactly if it arrived on that day or on a later one. -/
theorem monthStart_le_iff (h : Gate.monthStart now = .ok since) (t : Time.DateTime) :
    since.instant ≤ t.instant ↔ since.dayInUtc ≤ t.dayInUtc := by
  have hpos : (0 : Int) < Time.day := by decide
  have hmidnight : since.instant = since.dayInUtc * Time.day := by
    unfold Time.DateTime.dayInUtc
    rw [(Time.monthStart_eq_ok h).2]
    unfold Time.DateTime.utcMonth
    rw [Int.natCast_mul, Int.mul_ediv_cancel _ (Int.ne_of_gt hpos)]
  rw [hmidnight]
  exact (Int.le_ediv_iff_mul_le hpos).symm

/-- The two counters find the same number for the month of a time. -/
structure CountersAgree (login : Login) (link : Link) (projects : List String)
    (events : List Event) (now : Time.DateTime) : Prop where
  /-- Every clock with an offset is in a month, unless it is in none of the years in UTC. -/
  begins : now.isAware = true → now.toUtc? = none ∨ ∃ since, Gate.monthStart now = .ok since
  /-- Both count without failing, and find the same. -/
  agree : ∀ since, Gate.monthStart now = .ok since →
    ∃ n : Nat, Memory.countSince projects since events = .ok n ∧
      ((countSince login projects since).over link).1 = .ok (n : Int)

/-- **A store in memory and the warehouse count the same events for a month**, whatever the
projects, the clock and the times of arrival, if the warehouse tells what it is asked from the counts
of the events per day. -/
theorem counters_agree (hlogin : login.Sendable) (htable : Tallies table events)
    (haware : ∀ e ∈ events, e.ingestedAt.isAware = true)
    (htells : ∀ since, Gate.monthStart now = .ok since →
      TellsUsage table login projects since link) :
    CountersAgree login link projects events now := by
  refine ⟨fun hnow => ?_, fun since hsince => ?_⟩
  · cases hutc : now.toUtc? with
    | none => exact .inl rfl
    | some utc => exact .inr ⟨_, Time.monthStart_of_aware hnow hutc⟩
  · obtain ⟨n, hn⟩ := Gate.countSince_of_aware (Time.monthStart_eq_ok hsince).1 haware projects
    refine ⟨n, hn, ?_⟩
    have hsame : Gate.arrivedSince projects since.instant events = events.countP fun e =>
        projects.contains e.project && decide (since.dayInUtc ≤ e.ingestedAt.dayInUtc) := by
      unfold Gate.arrivedSince
      refine List.countP_congr fun e _ => ?_
      rw [decide_eq_decide.mpr (monthStart_le_iff hsince e.ingestedAt)]
    rw [countSince_told hlogin htable (offset_of_monthStart hsince) (htells since hsince),
      Gate.countSince_eq_ok hn, hsame]

/-- A quarter of an hour after midnight of the first of March 2025 on a clock some hours away from
UTC. -/
def marchOn (hours : Int) (h : -24 < hours ∧ hours < 24) : Time.DateTime :=
  ⟨739310 * Time.day + 900 * Time.second, by decide, some ⟨hours * (3600 * Time.second), by
    unfold Time.day Time.second
    omega⟩⟩

/-- An event of a project that arrived at a time. -/
def arrival (time : Time.DateTime) : Event :=
  { id := "id", project := "p", eventType := "e", timestamp := time, ingestedAt := time,
    traceId := "t", payload := [], statusCode := none, outcome := none }

/-- An event of the last of February in UTC, and one of the first of March. -/
def twoArrivals : List Event := [arrival (marchOn 1 (by decide)), arrival (marchOn (-5) (by decide))]

/-- The counts of their days. -/
def twoDays : List UsageRow := [⟨"p", 739309, 1⟩, ⟨"p", 739310, 1⟩]

/-- A warehouse that is going to answer that the total is one. -/
def oneLink : Link :=
  ⟨⟨[(.response 200 "\x7b\"total\":1\x7d\n", .zero)], []⟩, ⟨default, .zero, .zero, 0⟩⟩

/-- A login that can be sent. -/
def plainLogin : Login := ⟨"default", "default", ""⟩

theorem sendable_plainLogin : plainLogin.Sendable := by
  have hsend : (queryRequest plainLogin "").isSendable = true := by decide +kernel
  exact isSendable_queryRequest.mp hsend

theorem tallies_twoDays : Tallies twoDays twoArrivals := by
  have hfebruary : (marchOn 1 (by decide)).dayInUtc = 739309 := by decide
  have hmarch : (marchOn (-5) (by decide)).dayInUtc = 739310 := by decide
  intro project day
  simp only [twoDays, twoArrivals, arrival, List.countP_cons, List.countP_nil, List.filter_cons,
    List.filter_nil, hfebruary, hmarch]
  split <;> split <;> simp

theorem tellsUsage_twoDays {since : Time.DateTime}
    (h : Gate.monthStart (marchOn (-5) (by decide)) = .ok since) :
    TellsUsage twoDays plainLogin ["p", "p"] since oneLink := by
  have hday : since.dayInUtc = 739310 := by
    unfold Time.DateTime.dayInUtc
    rw [(Time.monthStart_eq_ok h).2]
    decide +kernel
  have hoffset := offset_of_monthStart h
  refine (tellsUsage_iff sendable_plainLogin hoffset (List.cons_ne_nil _ _)).mpr
    ⟨_, _, readUsage?_usageStatement (List.cons_ne_nil _ _) hoffset, rfl, ?_⟩
  rw [hday]
  rfl

/-- A month of one event, asked for on a clock that is five hours behind UTC. -/
theorem counters_agree_march :
    plainLogin.Sendable ∧ Tallies twoDays twoArrivals ∧
    (∀ e ∈ twoArrivals, e.ingestedAt.isAware = true) ∧
    (∀ since, Gate.monthStart (marchOn (-5) (by decide)) = .ok since →
      TellsUsage twoDays plainLogin ["p", "p"] since oneLink) ∧
    (∃ since, Gate.monthStart (marchOn (-5) (by decide)) = .ok since) ∧
    CountersAgree plainLogin oneLink ["p", "p"] twoArrivals (marchOn (-5) (by decide)) := by
  have haware : ∀ e ∈ twoArrivals, e.ingestedAt.isAware = true := by decide
  have hutc : (marchOn (-5) (by decide)).toUtc?.isSome = true := by decide
  obtain ⟨utc, hutc⟩ := Option.isSome_iff_exists.mp hutc
  exact ⟨sendable_plainLogin, tallies_twoDays, haware, fun _ h => tellsUsage_twoDays h,
    ⟨_, Time.monthStart_of_aware rfl hutc⟩,
    counters_agree sendable_plainLogin tallies_twoDays haware fun _ h => tellsUsage_twoDays h⟩

end Store.Warehouse

end Telemetry
