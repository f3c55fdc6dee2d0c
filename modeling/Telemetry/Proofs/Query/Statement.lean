import Telemetry.Proofs.Query.Conjuncts
import Telemetry.Query.Plan

/-!
# Statements as they are read

What a reader finds in the parts of a statement that are no conjuncts: the columns in front, the
groups, orders and pages behind. Names of fields occur in them as paths, numbers as numbers, and the
literals are those of the operation itself.

Main statement: a statement of such parts is read as its columns, its conjuncts and its tail
(`read_statement`).
-/

namespace Telemetry.Query

open Sql

variable {names : List String} {vs ws : List String} {ls : List Lexeme}

/-! ## Tails -/

/-- What stands behind the conditions is nothing, or a blank and a clause without literals. -/
def EndsWell (names : List String) (tail : String) : Prop :=
  ∃ k ls, Clause k ls ∧ Reading names 0 (if tail = "" then "" else " " ++ tail).toList 0 [] ls

theorem endsWell_nothing : EndsWell names "" :=
  ⟨0, [], .nothing, rfl, rfl, rfl, by simp⟩

/-- A tail that starts with the keyword of a clause ends a statement well. -/
theorem endsWell_clause {tail : String} {cs : List Char} (hne : tail ≠ "")
    (h : Reading names 0 tail.toList 0 [] ls) (hhead : ls.head? = some (.word cs))
    (hclause : isClause (0, .word cs) = true) : EndsWell names tail := by
  obtain ⟨rest, rfl⟩ := List.head?_eq_some_iff.mp hhead
  have hblank : Reading names 0 " ".toList 0 [] [.mark ' '] := .ofFixed (by decide)
  refine ⟨1, .mark ' ' :: .word cs :: rest, .clause hclause, ?_⟩
  rw [if_neg hne, String.toList_append]
  exact hblank.append h (Or.inl rfl)

/-- Whether a fixed text can stand behind the conditions. -/
def isTail (tail : String) : Bool :=
  isReading 0 tail 0 [] && match lexed tail with
    | .word cs :: _ => isClause (0, .word cs)
    | _ => false

theorem endsWell_fixed {tail : String} (h : isTail tail = true) : EndsWell names tail := by
  obtain ⟨hreading, hclause⟩ := Bool.and_eq_true_iff.mp h
  split at hclause
  · rename_i cs rest hlexed
    refine endsWell_clause ?_ (.ofFixed hreading) (by rw [hlexed]; rfl) hclause
    rintro rfl
    cases hlexed
  · cases hclause

theorem endsWell_page (o : Options) : EndsWell names (pageTail o) := by
  obtain ⟨ls, hlimit⟩ := piece_numeral names 0 (isNumeralChar_integer o.limit)
  obtain ⟨ms, hoffset⟩ := piece_numeral names 0 (isNumeralChar_integer o.offset)
  have horder : Reading names 0 "ORDER BY _timestamp DESC LIMIT ".toList 0 []
      (lexed "ORDER BY _timestamp DESC LIMIT ") := .ofFixed (by decide)
  have hmiddle : Reading names 0 " OFFSET ".toList 0 [] (lexed " OFFSET ") := .ofFixed (by decide)
  have hall := horder.append (hlimit.toReading.append (hmiddle.append hoffset.toReading
    (Or.inl rfl)) (Or.inr rfl)) (Or.inl rfl)
  have htext : (pageTail o).toList = "ORDER BY _timestamp DESC LIMIT ".toList ++
      ((Text.integer o.limit).toList ++ (" OFFSET ".toList ++ (Text.integer o.offset).toList)) := by
    unfold pageTail
    simp only [String.toList_append, List.append_assoc]
  have hne : pageTail o ≠ "" := by
    intro h
    rw [h] at htext
    cases htext
  rw [← htext] at hall
  exact endsWell_clause hne hall rfl (show isClause (0, .word "ORDER".toList) = true by decide)

/-! ## Columns -/

theorem piece_eventColumns : ∃ ls, Piece names 0 eventColumns.toList 0 [] ls := by
  have hfront : Piece names 0
      "_id AS id, _timestamp AS timestamp, _event_type AS event_type, ".toList 0 []
      (lexed "_id AS id, _timestamp AS timestamp, _event_type AS event_type, ") :=
    .ofFixed (by decide +kernel)
  have hback : Piece names 0
      "toString(event) AS payload, _status_code AS status_code, _outcome AS outcome".toList 0 []
      (lexed "toString(event) AS payload, _status_code AS status_code, _outcome AS outcome") :=
    .ofFixed (by decide +kernel)
  unfold eventColumns
  rw [String.toList_append]
  exact ⟨_, hfront.append hback (Or.inl (by decide))⟩

theorem piece_numeric {expression : String} {d : Nat}
    (h : ∃ ls, Piece names (d + 1) expression.toList (d + 1) [] ls) :
    ∃ ls, Piece names d (numeric expression).toList d ["Nullable(Float64)"] ls := by
  obtain ⟨ls, hls⟩ := h
  have hopen : Piece names 0 "CAST(".toList 1 [] (lexed "CAST(") := .ofFixed (by decide)
  have hclose : Piece names 1 ", 'Nullable(Float64)')".toList 0 ["Nullable(Float64)"]
      (lexed ", 'Nullable(Float64)')") := .ofFixed (by decide)
  have hall := (hopen.lift d).append (hls.append (hclose.lift d) (Or.inr rfl)) (Or.inl rfl)
  rw [numeric, String.toList_append, String.toList_append, List.append_assoc]
  exact ⟨_, hall⟩

theorem piece_quantile (level name : String) {expression : String}
    (hlevel : isPiece 0 ("quantile(" ++ level ++ ")(") 1 [] = true ∧
      endsInWord (lexed ("quantile(" ++ level ++ ")(")) = false)
    (hname : isPiece 1 (") AS " ++ name) 0 [] = true ∧
      startsWithWord (lexed (") AS " ++ name)) = false)
    (h : ∃ ls, Piece names 1 expression.toList 1 vs ls) :
    ∃ ls, Piece names 0 (quantileColumn level expression name).toList 0 vs ls := by
  obtain ⟨ls, hls⟩ := h
  obtain ⟨hlevel, hends⟩ := hlevel
  obtain ⟨hname, hstarts⟩ := hname
  have hall := (Piece.ofFixed hlevel).append (hls.append (.ofFixed hname) (Or.inr hstarts))
    (Or.inl hends)
  have htext : (quantileColumn level expression name).toList
      = ("quantile(" ++ level ++ ")(").toList ++ (expression.toList ++ (") AS " ++ name).toList) := by
    simp only [quantileColumn, String.toList_append, List.append_assoc]
  rw [htext]
  rw [List.nil_append, List.append_nil] at hall
  exact ⟨_, hall⟩

/-- The columns of an aggregate. -/
theorem piece_aggregateColumns {name column : String} (hcolumn : Sql.column name = .ok column)
    (hname : name ∈ names) :
    let duration := numeric (Sql.payloadColumn ++ ".duration_ms")
    ∃ ls, Piece names 0 (column ++ " AS group_key, count() AS total, countIf(" ++ serverErrors ++
      ") AS errors, round(errors * 100.0 / total, 2) AS error_rate, avg(" ++ duration ++
      ") AS avg_duration_ms, " ++ quantileColumn "0.95" duration "p95_duration_ms").toList 0
      ["error", "Nullable(Float64)", "Nullable(Float64)"] ls := by
  intro duration
  have hfield : ∀ d, ∃ ls, Piece names d (Sql.payloadColumn ++ ".duration_ms").toList d [] ls :=
    fun d => ⟨_, (Piece.ofFixed (d := 0) (e := 0) (by decide)).lift d⟩
  obtain ⟨cs, hcs⟩ := piece_column hcolumn hname 0
  obtain ⟨ds, hds⟩ := piece_numeric (d := 1) (hfield 2)
  obtain ⟨qs, hqs⟩ := piece_quantile "0.95" "p95_duration_ms" (by decide)
    (by decide) ⟨ds, hds⟩
  have hcount : Piece names 0 " AS group_key, count() AS total, countIf(".toList 1 []
      (lexed " AS group_key, count() AS total, countIf(") := .ofFixed (by decide +kernel)
  have herrors : Piece names 1 serverErrors.toList 1 ["error"] (lexed serverErrors) :=
    .ofFixed (by decide +kernel)
  have hrate : Piece names 1
      ") AS errors, round(errors * 100.0 / total, 2) AS error_rate, avg(".toList 1 []
      (lexed ") AS errors, round(errors * 100.0 / total, 2) AS error_rate, avg(") :=
    .ofFixed (by decide +kernel)
  have haverage : Piece names 1 ") AS avg_duration_ms, ".toList 0 []
      (lexed ") AS avg_duration_ms, ") := .ofFixed (by decide +kernel)
  have hall := hcs.append (hcount.append (herrors.append (hrate.append (hds.append (haverage.append
    hqs (Or.inl rfl)) (Or.inr rfl)) (Or.inl rfl)) (Or.inr rfl)) (Or.inl rfl)) (Or.inr rfl)
  simp only [String.toList_append, List.append_assoc]
  exact ⟨_, hall⟩

/-- The columns of latency percentiles. -/
theorem piece_latencyColumns {name column duration : String} (hcolumn : Sql.column name = .ok column)
    (hname : name ∈ names)
    (hduration : ∃ ls, Piece names 1 duration.toList 1 ["Nullable(Float64)"] ls) :
    ∃ ls, Piece names 0 (column ++ " AS group_key, " ++ quantileColumn "0.50" duration "p50" ++
      ", " ++ quantileColumn "0.90" duration "p90" ++ ", " ++ quantileColumn "0.95" duration "p95" ++
      ", " ++ quantileColumn "0.99" duration "p99" ++ ", count() AS total").toList 0
      (List.replicate 4 "Nullable(Float64)") ls := by
  obtain ⟨cs, hcs⟩ := piece_column hcolumn hname 0
  obtain ⟨_, h50⟩ := piece_quantile "0.50" "p50" (by decide) (by decide)
    hduration
  obtain ⟨_, h90⟩ := piece_quantile "0.90" "p90" (by decide) (by decide)
    hduration
  obtain ⟨_, h95⟩ := piece_quantile "0.95" "p95" (by decide) (by decide)
    hduration
  obtain ⟨_, h99⟩ := piece_quantile "0.99" "p99" (by decide) (by decide)
    hduration
  have hkey : Piece names 0 " AS group_key, ".toList 0 [] (lexed " AS group_key, ") :=
    .ofFixed (by decide)
  have hcomma : Piece names 0 ", ".toList 0 [] (lexed ", ") := .ofFixed (by decide)
  have htotal : Piece names 0 ", count() AS total".toList 0 [] (lexed ", count() AS total") :=
    .ofFixed (by decide)
  have hall := hcs.append (hkey.append (h50.append (hcomma.append (h90.append (hcomma.append
    (h95.append (hcomma.append (h99.append htotal (Or.inr rfl)) (Or.inl rfl)) (Or.inr rfl))
    (Or.inl rfl)) (Or.inr rfl)) (Or.inl rfl)) (Or.inr rfl)) (Or.inl rfl)) (Or.inr rfl)
  simp only [String.toList_append, List.append_assoc]
  exact ⟨_, hall⟩

/-- The columns of grouped errors. -/
theorem piece_errorColumns {name column : String} (hcolumn : Sql.column name = .ok column)
    (hname : name ∈ names) :
    ∃ ls, Piece names 0 (column ++ " AS group_key, " ++ Sql.payloadColumn ++
      ".error.type AS error_type, " ++ Sql.payloadColumn ++
      ".error.code AS error_code, count() AS total").toList 0 [] ls := by
  obtain ⟨cs, hcs⟩ := piece_column hcolumn hname 0
  have hkey : Piece names 0 " AS group_key, ".toList 0 [] (lexed " AS group_key, ") :=
    .ofFixed (by decide)
  have htype : Piece names 0 (Sql.payloadColumn ++ ".error.type AS error_type, ").toList 0 []
      (lexed (Sql.payloadColumn ++ ".error.type AS error_type, ")) := .ofFixed (by decide +kernel)
  have hcode : Piece names 0
      (Sql.payloadColumn ++ ".error.code AS error_code, count() AS total").toList 0 []
      (lexed (Sql.payloadColumn ++ ".error.code AS error_code, count() AS total")) :=
    .ofFixed (by decide +kernel)
  have hall := hcs.append (hkey.append (htype.append hcode (Or.inl (by decide +kernel)))
    (Or.inl rfl)) (Or.inr rfl)
  simp only [String.toList_append, List.append_assoc] at hall ⊢
  exact ⟨_, hall⟩

theorem piece_statsColumns : ∃ ls, Piece names 0
    ("count() AS total, countIf(" ++ anyErrors ++ ") AS errors").toList 0 ["error"] ls :=
  ⟨_, .ofFixed (by decide +kernel)⟩

/-! ## Conjuncts of an operation -/

theorem conjuncts_notNull {expression : String}
    (h : ∃ ls, Piece names 0 (numeric expression).toList 0 vs ls) :
    Conjuncts names [numeric expression ++ " IS NOT NULL"] vs := by
  obtain ⟨ls, hls⟩ := h
  have hnull : Piece names 0 " IS NOT NULL".toList 0 [] (lexed " IS NOT NULL") :=
    .ofFixed (by decide)
  have hall := hls.append hnull (Or.inr rfl)
  rw [List.append_nil, ← String.toList_append] at hall
  refine .single hall ?_ ?_
  · unfold numeric
    rw [String.toList_append, String.toList_append, String.toList_append]
    exact ((Opens.append ⟨'C', "AST(".toList, rfl, rfl⟩ _).append _).append _
  · rw [String.toList_append]
    exact Ends.append ⟨" IS NOT NUL".toList, 'L', rfl, rfl⟩ _

/-- The pattern of the texts in which a term occurs. -/
def searchPattern (term : String) : String :=
  "%" ++ String.ofList (escapePattern term.toList) ++ "%"

/-- The tests of a search are alternatives inside of parentheses: together they are one conjunct. -/
theorem conjuncts_search {term : String} {targets : List String}
    (h : ∀ target ∈ targets, ∃ ls, Piece names 2 target.toList 2 [] ls) :
    Conjuncts names ["(" ++ Text.joinWith " OR " (targets.map fun target =>
      "toString(" ++ target ++ ") ILIKE " ++ containsLiteral term) ++ ")"]
      (targets.map fun _ => searchPattern term) := by
  have htests : List.Forall₂ (fun c vs => ∃ ls, Piece names 1 c.toList 1 vs ls)
      (targets.map fun target => "toString(" ++ target ++ ") ILIKE " ++ containsLiteral term)
      (targets.map fun _ => [searchPattern term]) := by
    rw [List.forall₂_map_left_iff, List.forall₂_map_right_iff, List.forall₂_same]
    intro target htarget
    obtain ⟨ls, hls⟩ := h target htarget
    have hopen : Piece names 1 "toString(".toList 2 [] (lexed "toString(") := .ofFixed (by decide)
    have hclose : Piece names 2 ") ILIKE ".toList 1 [] (lexed ") ILIKE ") := .ofFixed (by decide)
    have hall := hopen.append (hls.append (hclose.append
      (piece_textLiteral names 1 (searchPattern term)) (Or.inl rfl)) (Or.inr rfl)) (Or.inl rfl)
    simp only [String.toList_append, List.append_assoc]
    exact ⟨_, hall⟩
  obtain ⟨ls, hls⟩ : ∃ ls, Piece names 1 (Text.joinWith " OR " _).toList 1 _ ls :=
    exists_piece_joinWith (by decide) rfl (by decide) htests
  have hopen : Piece names 0 "(".toList 1 [] (lexed "(") := .ofFixed (by decide)
  have hclose : Piece names 1 ")".toList 0 [] (lexed ")") := .ofFixed (by decide)
  have hall := hopen.append (hls.append hclose (Or.inr rfl)) (Or.inl rfl)
  rw [← List.append_assoc, ← String.toList_append, ← String.toList_append, List.nil_append,
    List.append_nil, ← List.flatMap_def, ← List.map_eq_flatMap] at hall
  refine .single hall ?_ ?_
  · rw [String.toList_append, String.toList_append]
    exact (Opens.append ⟨'(', [], rfl, rfl⟩ _).append _
  · rw [String.toList_append]
    exact Ends.append ⟨[], ')', rfl, rfl⟩ _

/-- The test that an event belongs to a trace is one conjunct. -/
theorem conjuncts_trace (traceId : String) :
    Conjuncts names ["(" ++ Sql.payloadColumn ++ ".trace_id = " ++ textLiteral traceId ++ " OR " ++
      Sql.payloadColumn ++ ".request_id = " ++ textLiteral traceId ++ ")"] [traceId, traceId] := by
  have hfirst : Piece names 0 "(event.trace_id = ".toList 1 [] (lexed "(event.trace_id = ") :=
    .ofFixed (by decide)
  have hsecond : Piece names 1 " OR event.request_id = ".toList 1 []
      (lexed " OR event.request_id = ") := .ofFixed (by decide)
  have hclose : Piece names 1 ")".toList 0 [] (lexed ")") := .ofFixed (by decide)
  have hvalue := piece_textLiteral names 1 traceId
  have hall := hfirst.append (hvalue.append (hsecond.append (hvalue.append hclose (Or.inr rfl))
    (Or.inl rfl)) (Or.inr rfl)) (Or.inl rfl)
  have htext : ("(" ++ Sql.payloadColumn ++ ".trace_id = " ++ textLiteral traceId ++ " OR " ++
      Sql.payloadColumn ++ ".request_id = " ++ textLiteral traceId ++ ")").toList
      = "(event.trace_id = ".toList ++ ((textLiteral traceId).toList ++
        (" OR event.request_id = ".toList ++ ((textLiteral traceId).toList ++ ")".toList))) := by
    have hopening : "(event.trace_id = ".toList
        = "(".toList ++ (Sql.payloadColumn.toList ++ ".trace_id = ".toList) := by decide
    have hmiddle : " OR event.request_id = ".toList
        = " OR ".toList ++ (Sql.payloadColumn.toList ++ ".request_id = ".toList) := by decide
    simp only [String.toList_append, List.append_assoc, hopening, hmiddle]
  rw [← htext] at hall
  refine .single hall ?_ ?_
  · simp only [String.toList_append, List.append_assoc]
    exact Opens.append ⟨'(', [], rfl, rfl⟩ _
  · rw [String.toList_append]
    exact Ends.append ⟨[], ')', rfl, rfl⟩ _

/-! ## Whole statements -/

/-- The text of a statement is read as its columns, its conjuncts and its tail. -/
theorem read_statement {s : Statement} (hcolumns : ∃ ls, Piece names 0 s.columns.toList 0 vs ls)
    (hconjuncts : Conjuncts names s.conjuncts ws) (hne : s.conjuncts ≠ [])
    (htail : EndsWell names s.tail) :
    ∃ ls, Reading names 0 s.text.toList 0 (vs ++ ws) ls ∧
      conditions (wherePart (nested 0 ls)) = s.conjuncts ∧
      ∀ x ∈ wherePart (nested 0 ls), isKeyword "or" x = false := by
  obtain ⟨cs, hcolumns⟩ := hcolumns
  obtain ⟨lss, hforall, hbody⟩ := hconjuncts.reading
  obtain ⟨k, ts, hclause, htail⟩ := htail
  have hselect : Piece names 0 "SELECT ".toList 0 [] (lexed "SELECT ") := .ofFixed (by decide)
  have hfrom : Piece names 0 " FROM events".toList 0 [] (lexed " FROM events") :=
    .ofFixed (by decide)
  have hwhere : Reading names 0 " WHERE ".toList 0 [] whereLexemes := .ofFixed (by decide)
  -- What stands in front of the conditions is a piece, so it holds no `WHERE` of its own.
  have hfront := hselect.append (hcolumns.append hfrom (Or.inr rfl)) (Or.inl rfl)
  have happart : Apart (joined lss) ts := Or.inr (by cases hclause <;> rfl)
  have hall := hfront.toReading.append
    (hwhere.append (hbody.append htail happart) (Or.inl rfl)) (Or.inr rfl)
  have htext : s.text.toList = "SELECT ".toList ++ (s.columns.toList ++ " FROM events".toList) ++
      (" WHERE ".toList ++ ((Text.joinWith " AND " s.conjuncts).toList ++
        (if s.tail = "" then "" else " " ++ s.tail).toList)) := by
    have hsplit : " FROM events WHERE ".toList = " FROM events".toList ++ " WHERE ".toList := by
      decide
    simp only [Statement.text, String.toList_append, hsplit, List.append_assoc]
  have hpart := wherePart_query hfront.depth hfront.quiet hbody.depth (isClause_joined hforall)
    hclause
  rw [← htext, List.nil_append, List.nil_append, List.append_nil, List.append_nil] at hall
  refine ⟨_, hall, ?_, ?_⟩
  · rw [hpart]
    exact conditions_join hforall hne 1 k
  · rw [hpart]
    intro x hx
    rw [List.mem_append, List.mem_append] at hx
    rcases hx with (hx | hx) | hx
    · exact isKeyword_eq_false (isReserved_of_mem_blanks hx) (by decide)
    · exact isKeyword_joined hforall (by decide) (by decide) x hx
    · exact isKeyword_eq_false (isReserved_of_mem_blanks hx) (by decide)

end Telemetry.Query
