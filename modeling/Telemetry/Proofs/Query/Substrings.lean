import Telemetry.Proofs.Items
import Telemetry.Proofs.Query.Isolation
import Telemetry.Proofs.Sql.Like
import Telemetry.Proofs.Sql.Names
import Telemetry.Query.Params

/-!
# Looking for a part of a text

Two ways lead to the events in which some text occurs. A search escapes its term, so that the pattern
in the query finds the term and nothing else. A parameter's value is put between percent signs as it
is; then the pattern finds the value and nothing else only if the value is plain.

Main statements: `searches_exactly` and `filters_contain_iff`.
-/

namespace Telemetry.Query

open Sql

/-! ## Patterns in literals -/

/-- The pattern that a literal stands for matches just the texts in which a term occurs. -/
def Finds (raw : List Char) (term : String) : Prop :=
  ∀ text : String, like (unescape raw) text.toList = true ↔ term.toList <:+: text.toList

theorem finds_searchPattern (term : String) : Finds (escapeChars (searchPattern term).toList) term := by
  intro text
  have hpattern : (searchPattern term).toList = '%' :: (escapePattern term.toList ++ ['%']) := by
    simp [searchPattern]
  rw [unescape_escapeChars, hpattern, like_contains_iff]

/-- A value between percent signs is found as it is just if it is plain. -/
theorem finds_between_iff (value : String) :
    Finds (escapeChars ("%" ++ value ++ "%").toList) value ↔ IsPlain value.toList := by
  have hpattern : ("%" ++ value ++ "%").toList = '%' :: (value.toList ++ ['%']) := by simp
  rw [← like_between_iff, Finds, unescape_escapeChars, hpattern]
  constructor
  · intro h text
    simpa using h (String.ofList text)
  · intro h text
    exact h text.toList

/-! ## Searches -/

section Searches

variable {o : Options} {filters : List Condition} {fields : Option (List String)} {term : String}

/-- The test that the text of a target matches a pattern, in any case of its letters. -/
def matchTest (raw : List Char) (target : List Lexeme) : List Lexeme :=
  [.word "toString".toList, .opening] ++
    (target ++ [.closing, .mark ' ', .word "ILIKE".toList, .mark ' ', .literal raw])

/-- The keyword between two alternatives, with a blank on each side. -/
def orLexemes : List Lexeme := [.mark ' ', .word "OR".toList, .mark ' ']

/-- Alternatives in parentheses. -/
def alternatives (tests : List (List Lexeme)) : List Lexeme :=
  .opening :: (orLexemes.intercalate tests ++ [.closing])

theorem lexemes?_matchTest {target : String} {ls : List Lexeme} (term : String)
    (h : lexemes? target.toList = some ls) :
    lexemes? ("toString(" ++ target ++ ") ILIKE " ++ containsLiteral term).toList
      = some (matchTest (escapeChars (searchPattern term).toList) ls) := by
  have hopen : lexemes? "toString(".toList = some [.word "toString".toList, .opening] := by decide
  have hclose : lexemes? ") ILIKE ".toList
      = some [.closing, .mark ' ', .word "ILIKE".toList, .mark ' '] := by decide
  have hliteral := lexemes?_textLiteral (searchPattern term)
  have hall := scan_append hopen
    (scan_append h (scan_append hclose hliteral (.inl rfl)) (.inr rfl)) (.inl rfl)
  simp only [String.toList_append, List.append_assoc]
  exact hall

/-- Texts with `OR` between them are read one by one. -/
theorem lexemes?_joinWith_or {tests : List String} {lss : List (List Lexeme)}
    (h : List.Forall₂ (fun test ls => lexemes? test.toList = some ls) tests lss) :
    lexemes? (Text.joinWith " OR " tests).toList = some (orLexemes.intercalate lss) := by
  induction h with
  | nil => rfl
  | @cons test ls tests lss htest hrest ih =>
    cases hrest with
    | nil => simpa [Text.joinWith] using htest
    | @cons next ms more mss hnext hmore =>
      have hor : lexemes? " OR ".toList = some orLexemes := by decide
      have hall := scan_append htest (scan_append hor ih (.inl rfl)) (.inr rfl)
      rw [Text.toList_joinWith_cons " OR " test (List.cons_ne_nil next more),
        List.intercalate_cons_cons, List.append_assoc]
      exact hall

/-- Each target of a search is read by itself. -/
theorem lexemes?_targets (fields : Option (List String)) :
    List.Forall₂ (fun target ls => lexemes? target.toList = some ls) (Plan.searchTargets fields)
      ((Plan.searchTargets fields).map lexed) := by
  rw [List.forall₂_map_right_iff, List.forall₂_same]
  intro target htarget
  have hnames : ∀ name ∈ fields.getD [], name ∈ fields.getD [] := fun _ hname => hname
  obtain ⟨ls, hls⟩ := piece_searchTarget hnames 0 target htarget
  rw [lexed, hls.scanned]
  rfl

/-- The conjunct of a search: the term occurs in one of the targets. -/
def searchTest (term : String) (targets : List String) : String :=
  "(" ++ Text.joinWith " OR " (targets.map fun target =>
    "toString(" ++ target ++ ") ILIKE " ++ containsLiteral term) ++ ")"

theorem lexemes?_searchTest {targets : List String} {lss : List (List Lexeme)} (term : String)
    (h : List.Forall₂ (fun target ls => lexemes? target.toList = some ls) targets lss) :
    lexemes? (searchTest term targets).toList
      = some (alternatives (lss.map (matchTest (escapeChars (searchPattern term).toList)))) := by
  have htests : List.Forall₂ (fun test ls => lexemes? test.toList = some ls)
      (targets.map fun target => "toString(" ++ target ++ ") ILIKE " ++ containsLiteral term)
      (lss.map (matchTest (escapeChars (searchPattern term).toList))) := by
    rw [List.forall₂_map_left_iff, List.forall₂_map_right_iff]
    exact h.imp fun _ _ htarget => lexemes?_matchTest term htarget
  have hopen : lexemes? "(".toList = some [.opening] := by decide
  have hclose : lexemes? ")".toList = some [.closing] := by decide
  have hall := scan_append hopen (scan_append (lexemes?_joinWith_or htests) hclose (.inr rfl))
    (.inl rfl)
  simp only [searchTest, String.toList_append, List.append_assoc]
  exact hall

theorem statements_search {own : List String} (hterm : term ≠ "")
    (htargets : Plan.searchTargets fields ≠ []) (hown : conjuncts o filters = .ok own) :
    (Operation.search term o fields filters).statements = [⟨eventColumns,
      own ++ [searchTest term (Plan.searchTargets fields)], pageTail o⟩] := by
  rw [Operation.statements, Plan.search, if_neg hterm]
  split
  · rename_i hnone
    exact absurd hnone htargets
  · rw [hown]
    rfl

/-- A statement looks for what a pattern finds: behind the conjuncts of the options and filters stands
one with an alternative for each target, all with the same pattern. -/
structure LooksFor (raw : List Char) (targets own : List String) (s : Statement) : Prop where
  conjuncts : ∃ test lss, s.conjuncts = own ++ [test] ∧
    List.Forall₂ (fun target ls => lexemes? target.toList = some ls) targets lss ∧
    lexemes? test.toList = some (alternatives (lss.map (matchTest raw)))

/-- **The literal of a term is one literal, and its pattern finds just the term.** Each search for the
term looks for it with this pattern. -/
theorem searches_exactly (term : String) :
    ∃ raw, lexemes? (containsLiteral term).toList = some [.literal raw] ∧ Finds raw term ∧
      ∀ o fields filters own, term ≠ "" → Plan.searchTargets fields ≠ [] →
        conjuncts o filters = .ok own →
        ∃ s, (Operation.search term o fields filters).statements = [s] ∧
          LooksFor raw (Plan.searchTargets fields) own s := by
  refine ⟨_, lexemes?_textLiteral (searchPattern term), finds_searchPattern term, ?_⟩
  intro o fields filters own hterm htargets hown
  have hread := lexemes?_targets fields
  exact ⟨_, statements_search hterm htargets hown, _, _, rfl, hread, lexemes?_searchTest term hread⟩

/-- The first page of a project. -/
def firstPage : Options := ⟨"proj_1", none, none, none, .null, 100, 0, by decide⟩

/-- A search for a term with everything in it that a pattern or a literal would take up. -/
theorem searches_exactly_discount :
    "50%_off\\'" ≠ "" ∧ Plan.searchTargets (some ["user.plan", "items.0"]) ≠ [] ∧
      conjuncts firstPage [] = .ok ["_project_id = 'proj_1'"] ∧
      ∃ raw s, Finds raw "50%_off\\'" ∧
        (Operation.search "50%_off\\'" firstPage (some ["user.plan", "items.0"]) []).statements = [s] ∧
        LooksFor raw ["event.user.plan", "event.items.\x600\x60"] ["_project_id = 'proj_1'"] s := by
  have hterm : "50%_off\\'" ≠ "" := by decide
  have htargets : Plan.searchTargets (some ["user.plan", "items.0"])
      = ["event.user.plan", "event.items.\x600\x60"] := by decide +kernel
  have hown : conjuncts firstPage [] = .ok ["_project_id = 'proj_1'"] := by rfl
  obtain ⟨raw, -, hfinds, hsearch⟩ := searches_exactly "50%_off\\'"
  have hne : Plan.searchTargets (some ["user.plan", "items.0"]) ≠ [] := by
    rw [htargets]
    exact List.cons_ne_nil _ _
  obtain ⟨s, hs, hlooks⟩ := hsearch firstPage (some ["user.plan", "items.0"]) [] _ hterm hne hown
  rw [htargets] at hlooks
  exact ⟨hterm, hne, hown, raw, s, hfinds, hs, hlooks⟩

end Searches

/-! ## Conditions of parameters -/

namespace Params

/-- The names and values that ask for a condition, in order: every value that is not empty, of every
name without a meaning of its own. -/
def asked (params : Params) : List (String × String) :=
  (params.flatMap fun (name, values) => values.map fun value => (name, value)).filter
    fun (name, value) => !reservedNames.contains name && value ≠ ""

theorem asked_cons (name : String) (values : List String) (params : Params) :
    asked ((name, values) :: params) = (if name ∈ reservedNames then []
      else (values.filter (· ≠ "")).map fun value => (name, value)) ++ asked params := by
  unfold asked
  rw [List.flatMap_cons, List.filter_append, List.filter_map]
  by_cases h : name ∈ reservedNames
  · simp [h, Function.comp_def]
  · simp [h, Function.comp_def]

theorem filters_eq (params : Params) :
    filters params = (asked params).map fun entry => containsCondition entry.1 entry.2 := by
  induction params with
  | nil => rfl
  | cons entry params ih =>
    obtain ⟨name, values⟩ := entry
    rw [asked_cons, List.map_append, ← ih]
    unfold filters
    by_cases h : name ∈ reservedNames
    · simp [h]
    · simp [h, Function.comp_def]

/-- A condition asks for a value of a name: it is about the field with this name. If there can be
such a field, the condition is one conjunct that matches the field with a pattern, and the pattern
finds the value just if the value is plain. -/
structure Asks (entry : String × String) (c : Condition) : Prop where
  field : c.field = entry.1
  conjunct : IsPath entry.1 → ∃ path target text raw, column entry.1 = .ok path ∧
    lexemes? path.toList = some target ∧ c.compile = .ok text ∧
    lexemes? text.toList
      = some (target ++ [.mark ' ', .word "LIKE".toList, .mark ' ', .literal raw]) ∧
    (Finds raw entry.2 ↔ IsPlain entry.2.toList)
  refused : ¬ IsPath entry.1 → ∀ text, c.compile ≠ .ok text

theorem compile_containsCondition (name value : String) :
    (containsCondition name value).compile = (column name).map fun path =>
      path ++ " LIKE " ++ textLiteral ("%" ++ value ++ "%") := by
  have hsymbol : Operator.ofSymbol? Operator.like.symbol = some .like := rfl
  simp only [Condition.compile, containsCondition, hsymbol]
  cases column name with
  | error flaw => rfl
  | ok path => simp [Except.map, Condition.compileComparison, Json.isContainer, literal,
      Operator.symbol, String.append_assoc, bind, Except.bind]

theorem asks_containsCondition (name value : String) :
    Asks (name, value) (containsCondition name value) := by
  refine ⟨rfl, fun hname => ?_, fun hname text htext => ?_⟩
  · obtain ⟨path, hpath⟩ := (exists_column_iff name).mpr ((isFieldName_iff name).mpr hname)
    obtain ⟨target, htarget⟩ := piece_column hpath (List.mem_singleton.mpr rfl) 0
    have hlike : lexemes? " LIKE ".toList = some [.mark ' ', .word "LIKE".toList, .mark ' '] := by
      decide
    have hliteral := lexemes?_textLiteral ("%" ++ value ++ "%")
    have hall := scan_append htarget.scanned (scan_append hlike hliteral (.inl rfl)) (.inr rfl)
    refine ⟨path, target, path ++ " LIKE " ++ textLiteral ("%" ++ value ++ "%"), _, hpath,
      htarget.scanned, ?_, ?_, finds_between_iff value⟩
    · rw [compile_containsCondition, hpath]
      rfl
    · rw [String.toList_append, String.toList_append, List.append_assoc]
      exact hall
  · rw [compile_containsCondition] at htext
    obtain ⟨path, hpath, -⟩ := map_eq_ok htext
    exact hname ((isFieldName_iff name).mp ((exists_column_iff name).mp ⟨path, hpath⟩))

/-- **Each value that is not empty, of each name without a meaning of its own, becomes one condition,
in order.** The condition finds the value just if the value is plain. -/
theorem filters_contain_iff (params : Params) : List.Forall₂ Asks (asked params) (filters params) := by
  rw [filters_eq, List.forall₂_map_right_iff, List.forall₂_same]
  intro entry _
  exact asks_containsCondition entry.1 entry.2

/-- An underscore in a value is taken for any character. -/
theorem filters_overmatch :
    asked [("user.name", ["user_1"])] = [("user.name", "user_1")] ∧
      (filters [("user.name", ["user_1"])]).map Condition.compile
        = [.ok "event.user.name LIKE '%user_1%'"] ∧
      lexemes? "event.user.name LIKE '%user_1%'".toList = some [.word "event.user.name".toList,
        .mark ' ', .word "LIKE".toList, .mark ' ', .literal "%user_1%".toList] ∧
      ¬ Finds "%user_1%".toList "user_1" := by
  refine ⟨by decide, by rfl, by decide +kernel, fun h => ?_⟩
  exact absurd ((h "user-1").mp (by decide)) (by decide)

end Params

end Telemetry.Query
