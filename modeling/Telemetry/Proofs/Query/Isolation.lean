import Telemetry.Proofs.Query.Statement

/-!
# Reads stay within one project

Whatever a caller supplies, the statement of a read is taken by a reader just as it was meant: its
literals are closed and stand for the texts that were supplied, its condition falls apart into the
conjuncts that were compiled, and the first of them fixes the project.

Main statement: `isolated`.
-/

namespace Telemetry.Query

open Sql

/-! ## Operations -/

/-- A read operation with what its caller supplies. -/
inductive Operation
  | list (o : Options) (filters : List Condition)
  | aggregate (groupBy : String) (o : Options) (filters : List Condition)
  | latency (groupBy durationField : String) (o : Options) (filters : List Condition)
  | search (term : String) (o : Options) (fields : Option (List String)) (filters : List Condition)
  | trace (traceId project : String) (exclude : Option String)
  | errors (groupBy : String) (o : Options) (filters : List Condition)
  | stats (o : Options) (filters : List Condition)
  | recent (project : String) (limit : Int)

/-- The statements of a plan, if there is one. -/
def issued {α : Type} : Except Fault (Plan α) → List Statement
  | .ok plan => plan.statements
  | .error _ => []

namespace Operation

/-- The statements that an operation hands to the store. -/
def statements : Operation → List Statement
  | .list o filters => issued (Plan.list o filters)
  | .aggregate groupBy o filters => issued (Plan.aggregate groupBy o filters)
  | .latency groupBy durationField o filters => issued (Plan.latency groupBy durationField o filters)
  | .search term o fields filters => issued (Plan.search term o fields filters)
  | .trace traceId project exclude => issued (Plan.trace traceId project exclude)
  | .errors groupBy o filters => issued (Plan.errors groupBy o filters)
  | .stats o filters => issued (Plan.stats o filters)
  | .recent project limit => issued (Plan.recent project limit)

/-- The project that an operation is about. -/
def project : Operation → String
  | .list o _ | .aggregate _ o _ | .latency _ _ o _ | .search _ o _ _ | .errors _ o _
  | .stats o _ => o.project
  | .trace _ project _ | .recent project _ => project

/-- The conjuncts of an operation's options and filters. -/
def compiled : Operation → Except Fault (List String)
  | .list o filters | .aggregate _ o filters | .latency _ _ o filters | .search _ o _ filters
  | .errors _ o filters | .stats o filters => conjuncts o filters
  | .trace _ project _ => Options.ofProject project defaultLimit >>= Options.conjuncts
  | .recent project limit => Options.ofProject project limit >>= Options.conjuncts

/-- The fields whose names an operation is given. -/
def names : Operation → List String
  | .list _ filters | .stats _ filters => filters.map Condition.field
  | .aggregate groupBy _ filters | .errors groupBy _ filters =>
    groupBy :: filters.map Condition.field
  | .latency groupBy durationField _ filters =>
    groupBy :: durationField :: filters.map Condition.field
  | .search _ _ fields filters => fields.getD [] ++ filters.map Condition.field
  | .trace .. | .recent .. => []

/-- The texts in the literals of an operation's statement, in order. -/
def values : Operation → List String
  | .list o filters => queryValues o filters
  | .aggregate _ o filters =>
    ["error", "Nullable(Float64)", "Nullable(Float64)"] ++ queryValues o filters
  | .latency _ _ o filters =>
    List.replicate 4 "Nullable(Float64)" ++ (queryValues o filters ++ ["Nullable(Float64)"])
  | .search term o fields filters =>
    queryValues o filters ++
      if term = "" then [] else (Plan.searchTargets fields).map fun _ => searchPattern term
  | .trace traceId project exclude => [project, traceId, traceId] ++ exclude.toList
  | .errors _ o filters => queryValues o filters ++ ["error"]
  | .stats o filters => "error" :: queryValues o filters
  | .recent project _ => [project]

end Operation

/-- The answer of a plan depends on what the store has for its own statements, and on nothing
else. -/
theorem run_congr {α : Type} {plan : Plan α} {store other : String → Except Fault (List Row)}
    (h : ∀ s ∈ plan.statements, store s.text = other s.text) : plan.run store = plan.run other := by
  cases plan with
  | answer value => rfl
  | ask statement read =>
    rw [Plan.run, Plan.run, h statement (List.mem_singleton_self statement)]

theorem mem_issued {α : Type} {x : Except Fault (Plan α)} {s : Statement} (h : s ∈ issued x) :
    ∃ read, x = .ok (.ask s read) := by
  cases x with
  | error e => exact absurd h List.not_mem_nil
  | ok plan =>
    cases plan with
    | answer value => exact absurd h List.not_mem_nil
    | ask statement read =>
      rw [List.mem_singleton.mp h]
      exact ⟨read, rfl⟩

/-! ## Isolation -/

/-- The test that an event belongs to a project, with the project's literal as it is written. -/
def projectTest (raw : List Char) : List Lexeme :=
  [.word "_project_id".toList, .mark ' ', .mark '=', .mark ' ', .literal raw]

/-- What a reader finds in a statement of an operation. -/
structure Isolated (op : Operation) (s : Statement) (ls : List Lexeme) : Prop where
  /-- Every literal is closed, and they stand for what was supplied. Everything else is part of the
  vocabulary, a number, or part of the path of a field that was named. -/
  reading : Reading op.names 0 s.text.toList 0 op.values ls
  /-- The condition falls apart into the conjuncts of the statement. -/
  conditions : conditions (wherePart (nested 0 ls)) = s.conjuncts
  /-- They begin with the conjuncts of the operation's options and filters. -/
  compiled : ∃ own, op.compiled = .ok own ∧ own <+: s.conjuncts
  /-- The first of them fixes the project. -/
  first : ∃ c rest raw, s.conjuncts = c :: rest ∧ lexemes? c.toList = some (projectTest raw) ∧
    unescape raw = op.project.toList
  /-- Nothing in the condition is an alternative to them. -/
  free : ∀ x ∈ wherePart (nested 0 ls), isKeyword "or" x = false

theorem lexemes?_project (project : String) :
    lexemes? ("_project_id = " ++ textLiteral project).toList
      = some (projectTest (escapeChars project.toList)) := by
  have hfront : lexemes? "_project_id = ".toList = some (lexed "_project_id = ") := by decide
  rw [String.toList_append]
  exact scan_append hfront (piece_textLiteral [] 0 project).scanned (Or.inl rfl)

variable {op : Operation} {columns tail : String} {cs own extra vs ws us : List String}

/-- A statement whose columns and tail are read well, and whose conjuncts are those of the options
and filters with a few of the operation's own behind them. -/
theorem exists_isolated (hcompiled : op.compiled = .ok own)
    (hown : Conjuncts op.names own ws ∧
      ∃ rest, own = ("_project_id = " ++ textLiteral op.project) :: rest)
    (hextra : Conjuncts op.names extra us) (hcs : cs = own ++ extra)
    (hcolumns : ∃ ls, Piece op.names 0 columns.toList 0 vs ls) (htail : EndsWell op.names tail)
    (hvalues : op.values = vs ++ (ws ++ us)) : ∃ ls, Isolated op ⟨columns, cs, tail⟩ ls := by
  subst hcs
  -- The project's conjunct heads the compiled ones, so the list of conjuncts is not empty.
  obtain ⟨hconjuncts, rest, rfl⟩ := hown
  have hne : ("_project_id = " ++ textLiteral op.project) :: rest ++ extra ≠ [] :=
    List.cons_ne_nil _ _
  obtain ⟨ls, hreading, hconditions, hfree⟩ :=
    read_statement (s := ⟨columns, _, tail⟩) hcolumns (hconjuncts.append hextra) hne htail
  refine ⟨ls, ?_, hconditions, ⟨_, hcompiled, List.prefix_append _ extra⟩, ?_, hfree⟩
  · rw [hvalues]
    exact hreading
  · exact ⟨_, rest ++ extra, escapeChars op.project.toList, rfl, lexemes?_project op.project,
      unescape_escapeChars op.project.toList⟩

theorem field_mem {filters : List Condition} (front : List String) :
    ∀ c ∈ filters, c.field ∈ front ++ filters.map Condition.field :=
  fun c hc => List.mem_append_right front (List.mem_map.mpr ⟨c, hc, rfl⟩)

theorem orRefuse_eq_ok {α : Type} {x : Except QueryFlaw α} {a : α} (h : orRefuse x = .ok a) :
    x = .ok a := by
  cases x with
  | ok b =>
    cases h
    rfl
  | error flaw => cases h

variable {o : Options} {filters : List Condition} {s : Statement} {project : String}

theorem isolated_list {read : List Row → Except Fault (List EventRow)}
    (h : Plan.list o filters = .ok (.ask s read)) : ∃ ls, Isolated (.list o filters) s ls := by
  obtain ⟨own, hown, h⟩ := bind_eq_ok h
  cases h
  refine exists_isolated hown (conjuncts_query hown (field_mem [])) .nil (List.append_nil own).symm
    piece_eventColumns (endsWell_page o) ?_
  rw [List.nil_append, List.append_nil]
  rfl

theorem isolated_aggregate {groupBy : String} {read : List Row → Except Fault (List AggregateRow)}
    (h : Plan.aggregate groupBy o filters = .ok (.ask s read)) :
    ∃ ls, Isolated (.aggregate groupBy o filters) s ls := by
  obtain ⟨column, hcolumn, h⟩ := bind_eq_ok h
  obtain ⟨own, hown, h⟩ := bind_eq_ok h
  cases h
  refine exists_isolated hown (conjuncts_query hown (field_mem [groupBy])) .nil
    (List.append_nil own).symm (piece_aggregateColumns (orRefuse_eq_ok hcolumn) List.mem_cons_self)
    (endsWell_fixed (by decide +kernel)) ?_
  rw [List.append_nil]
  rfl

theorem isolated_latency {groupBy durationField : String}
    {read : List Row → Except Fault (List LatencyRow)}
    (h : Plan.latency groupBy durationField o filters = .ok (.ask s read)) :
    ∃ ls, Isolated (.latency groupBy durationField o filters) s ls := by
  obtain ⟨column, hcolumn, h⟩ := bind_eq_ok h
  obtain ⟨field, hfield, h⟩ := bind_eq_ok h
  obtain ⟨own, hown, h⟩ := bind_eq_ok h
  cases h
  have hnumeric : ∀ d, ∃ ls, Piece (Operation.latency groupBy durationField o filters).names d
      (numeric field).toList d ["Nullable(Float64)"] ls := fun d =>
    piece_numeric (piece_column (orRefuse_eq_ok hfield)
      (List.mem_cons_of_mem groupBy List.mem_cons_self) (d + 1))
  refine exists_isolated hown (conjuncts_query hown (field_mem [groupBy, durationField]))
    (conjuncts_notNull (hnumeric 0)) rfl
    (piece_latencyColumns (orRefuse_eq_ok hcolumn) List.mem_cons_self (hnumeric 1))
    (endsWell_fixed (by decide +kernel)) ?_
  rfl

theorem isolated_errors {groupBy : String} {read : List Row → Except Fault (List ErrorGroupRow)}
    (h : Plan.errors groupBy o filters = .ok (.ask s read)) :
    ∃ ls, Isolated (.errors groupBy o filters) s ls := by
  obtain ⟨column, hcolumn, h⟩ := bind_eq_ok h
  obtain ⟨own, hown, h⟩ := bind_eq_ok h
  cases h
  exact exists_isolated hown (conjuncts_query hown (field_mem [groupBy]))
    (conjuncts_fixed (by decide +kernel)) rfl
    (piece_errorColumns (orRefuse_eq_ok hcolumn) List.mem_cons_self)
    (endsWell_fixed (by decide +kernel)) rfl

theorem isolated_stats {read : List Row → Except Fault Stats}
    (h : Plan.stats o filters = .ok (.ask s read)) : ∃ ls, Isolated (.stats o filters) s ls := by
  obtain ⟨own, hown, h⟩ := bind_eq_ok h
  cases h
  refine exists_isolated hown (conjuncts_query hown (field_mem [])) .nil
    (List.append_nil own).symm piece_statsColumns endsWell_nothing ?_
  rw [List.append_nil]
  rfl

theorem piece_searchTarget {names : List String} {fields : Option (List String)}
    (hnames : ∀ name ∈ fields.getD [], name ∈ names) (d : Nat) :
    ∀ target ∈ Plan.searchTargets fields, ∃ ls, Piece names d target.toList d [] ls := by
  intro target htarget
  cases fields with
  | none =>
    rw [List.mem_singleton.mp htarget]
    exact ⟨_, (Piece.ofFixed (d := 0) (e := 0) (by decide)).lift d⟩
  | some fields =>
    obtain ⟨name, hname, hcolumn⟩ := List.mem_filterMap.mp htarget
    cases hc : Sql.column name with
    | error flaw =>
      rw [hc] at hcolumn
      cases hcolumn
    | ok column =>
      rw [hc] at hcolumn
      cases hcolumn
      exact piece_column hc (hnames name hname) d

theorem isolated_search {term : String} {fields : Option (List String)}
    {read : List Row → Except Fault (List EventRow)}
    (h : Plan.search term o fields filters = .ok (.ask s read)) :
    ∃ ls, Isolated (.search term o fields filters) s ls := by
  unfold Plan.search at h
  split at h
  · rename_i hterm
    obtain ⟨own, hown, h⟩ := bind_eq_ok h
    cases h
    refine exists_isolated hown (conjuncts_query hown (field_mem (fields.getD []))) .nil
      (List.append_nil own).symm piece_eventColumns (endsWell_page o) ?_
    rw [Operation.values, if_pos hterm]
    rfl
  · rename_i hterm
    split at h
    · cases h
    · obtain ⟨own, hown, h⟩ := bind_eq_ok h
      cases h
      refine exists_isolated hown (conjuncts_query hown (field_mem (fields.getD [])))
        (conjuncts_search (piece_searchTarget (fun name hname => ?_) 2)) rfl piece_eventColumns
        (endsWell_page o) ?_
      · exact List.mem_append_left _ hname
      · rw [Operation.values, if_neg hterm]
        rfl

/-- The first page of a project is restricted to the project and nothing else. -/
theorem conjuncts_ofProject {limit : Int} (h : Options.ofProject project limit = .ok o) :
    o.project = project ∧ o.conjuncts = .ok [o.projectConjunct] := by
  unfold Options.ofProject Options.create at h
  split at h
  · cases h
  · split at h
    · cases h
    · cases h
      exact ⟨rfl, rfl⟩

theorem conjuncts_traceConjuncts (names : List String) (o : Options) (traceId : String)
    (exclude : Option String) : ∃ extra, Plan.traceConjuncts o traceId exclude
      = [o.projectConjunct] ++ extra ∧
      Conjuncts names extra ([traceId, traceId] ++ exclude.toList) := by
  cases exclude with
  | none => exact ⟨_, rfl, conjuncts_trace traceId⟩
  | some id =>
    have hexclude : Conjuncts names ["_id != " ++ textLiteral id] [id] :=
      conjuncts_compared (by decide) ⟨'_', _, rfl, rfl⟩ (by decide) (piece_textLiteral names 0 id)
        (ends_textLiteral id)
    exact ⟨_, rfl, (conjuncts_trace traceId).append hexclude⟩

theorem isolated_trace {traceId : String} {exclude : Option String}
    {read : List Row → Except Fault (List EventRow)}
    (h : Plan.trace traceId project exclude = .ok (.ask s read)) :
    ∃ ls, Isolated (.trace traceId project exclude) s ls := by
  obtain ⟨o, ho, h⟩ := bind_eq_ok h
  cases h
  obtain ⟨rfl, hown⟩ := conjuncts_ofProject ho
  -- The options are made of the project alone, so their only conjunct is the project's.
  have hcompiled : (Operation.trace traceId o.project exclude).compiled
      = .ok [o.projectConjunct] := by
    rw [Operation.compiled, ho]
    exact hown
  obtain ⟨extra, hcs, hextra⟩ := conjuncts_traceConjuncts [] o traceId exclude
  exact exists_isolated hcompiled ⟨conjuncts_project o, [], rfl⟩ hextra hcs piece_eventColumns
    (endsWell_fixed (by decide +kernel)) rfl

theorem isolated_recent {limit : Int} {read : List Row → Except Fault (List EventRow)}
    (h : Plan.recent project limit = .ok (.ask s read)) :
    ∃ ls, Isolated (.recent project limit) s ls := by
  obtain ⟨o, ho, h⟩ := bind_eq_ok h
  obtain ⟨cs, hcs, h⟩ := bind_eq_ok h
  cases h
  obtain ⟨rfl, hown⟩ := conjuncts_ofProject ho
  have hcompiled : (Operation.recent o.project limit).compiled = .ok [o.projectConjunct] := by
    rw [Operation.compiled, ho]
    exact hown
  rw [conjuncts, hown] at hcs
  cases hcs
  exact exists_isolated hcompiled ⟨conjuncts_project o, [], rfl⟩ .nil rfl piece_eventColumns
    (endsWell_page o) rfl

/-- **No read leaves its project.** Whatever names, values and terms a caller supplies, each
statement that an operation hands to the store is read as it was meant. -/
theorem isolated {op : Operation} (h : s ∈ op.statements) : ∃ ls, Isolated op s ls := by
  cases op with
  | list o filters =>
    obtain ⟨read, hplan⟩ := mem_issued h
    exact isolated_list hplan
  | aggregate groupBy o filters =>
    obtain ⟨read, hplan⟩ := mem_issued h
    exact isolated_aggregate hplan
  | latency groupBy durationField o filters =>
    obtain ⟨read, hplan⟩ := mem_issued h
    exact isolated_latency hplan
  | search term o fields filters =>
    obtain ⟨read, hplan⟩ := mem_issued h
    exact isolated_search hplan
  | trace traceId project exclude =>
    obtain ⟨read, hplan⟩ := mem_issued h
    exact isolated_trace hplan
  | errors groupBy o filters =>
    obtain ⟨read, hplan⟩ := mem_issued h
    exact isolated_errors hplan
  | stats o filters =>
    obtain ⟨read, hplan⟩ := mem_issued h
    exact isolated_stats hplan
  | recent project limit =>
    obtain ⟨read, hplan⟩ := mem_issued h
    exact isolated_recent hplan

theorem isolated_quotes :
    ∃ s ∈ (Operation.trace "' OR 1 = 1" "it's" (some "\\")).statements,
      ∃ ls, Isolated (.trace "' OR 1 = 1" "it's" (some "\\")) s ls :=
  ⟨_, List.mem_singleton_self _, isolated (List.mem_singleton_self _)⟩

end Telemetry.Query
