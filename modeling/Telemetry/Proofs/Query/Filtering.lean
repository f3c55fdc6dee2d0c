import Telemetry.Proofs.Items
import Telemetry.Proofs.Sql.Names
import Telemetry.Query.Predicate

/-!
# What filters restrict

The conditions of a read query that are accepted become one conjunct each, in order, behind those of
the options; the others leave no trace. Whether a condition is accepted is a matter of its operator,
its field and its value alone.

Main statements: `exists_compile_iff` and `conjuncts_exact`.
-/

namespace Telemetry.Query

open Sql

/-! ## Accepted conditions -/

/-- A value of which there is a literal. -/
def isScalar : Json → Bool
  | .bool _ | .int _ | .str _ => true
  | .float x => x.isFinite
  | .null | .arr _ | .obj _ => false

/-- The operators of conditions. -/
def operators : List String := ["=", "!=", ">", "<", ">=", "<=", "LIKE", "IN"]

/-- Whether an operator takes a value: a scalar, or for `IN` also a list of scalars. -/
def takes (operator : String) : Json → Bool
  | .arr items => operator == "IN" && items.all isScalar
  | v => isScalar v

/-- A condition that becomes a conjunct. -/
structure Condition.Accepted (c : Condition) : Prop where
  operator : c.operator ∈ operators
  field : IsPath c.field
  value : takes c.operator c.value = true

theorem Condition.accepted_iff {c : Condition} : c.Accepted ↔
    c.operator ∈ operators ∧ isFieldName c.field = true ∧ takes c.operator c.value = true := by
  rw [isFieldName_iff]
  exact ⟨fun h => ⟨h.operator, h.field, h.value⟩, fun ⟨ho, hf, hv⟩ => ⟨ho, hf, hv⟩⟩

instance (c : Condition) : Decidable c.Accepted := decidable_of_iff _ Condition.accepted_iff.symm

/-! ## Compiling a condition -/

theorem exists_literal_iff (v : Json) : (∃ text, literal v = .ok text) ↔ isScalar v = true := by
  cases v with
  | float x => cases h : x.isFinite <;> simp [literal, isScalar, h]
  | _ => simp [literal, isScalar]

theorem ofSymbol?_eq_some_iff {symbol : String} {op : Operator} :
    Operator.ofSymbol? symbol = some op ↔ op.symbol = symbol := by
  constructor
  · intro h
    simpa using List.find?_some h
  · rintro rfl
    cases op <;> rfl

theorem exists_ofSymbol?_iff {symbol : String} :
    (∃ op, Operator.ofSymbol? symbol = some op) ↔ symbol ∈ operators := by
  have hall : operators = Operator.all.map Operator.symbol := by decide
  simp only [ofSymbol?_eq_some_iff, hall, List.mem_map]
  constructor
  · rintro ⟨op, h⟩
    exact ⟨op, by cases op <;> decide, h⟩
  · rintro ⟨op, -, h⟩
    exact ⟨op, h⟩

theorem exists_compileMembership_iff {column : String} {value : Json} :
    (∃ text, Condition.compileMembership column value = .ok text) ↔
      ∀ v ∈ membershipItems value, isScalar v = true := by
  have hitems : (∃ texts, (membershipItems value).mapM literal = .ok texts) ↔
      ∀ v ∈ membershipItems value, isScalar v = true := by
    simp only [exists_mapM_eq_ok_iff, exists_literal_iff]
  rw [← hitems, Condition.compileMembership]
  split
  · rename_i hnil
    simp [hnil, pure, Except.pure]
  · exact exists_bind_eq_ok_iff

theorem exists_compileComparison_iff {column : String} {op : Operator} {value : Json} :
    (∃ text, Condition.compileComparison column op value = .ok text) ↔ isScalar value = true := by
  rw [← exists_literal_iff, Condition.compileComparison]
  split
  · rename_i hcontainer
    cases value with
    | arr items => simp [literal]
    | obj fields => simp [literal]
    | _ => cases hcontainer
  · exact exists_bind_eq_ok_iff

theorem takes_isIn_iff {value : Json} :
    takes Operator.isIn.symbol value = true ↔ ∀ v ∈ membershipItems value, isScalar v = true := by
  cases value <;> simp [takes, membershipItems, Operator.symbol]

theorem takes_comparison {op : Operator} {value : Json} (h : op ≠ .isIn) :
    takes op.symbol value = isScalar value := by
  cases value with
  | arr items =>
    have hsymbol : (op.symbol == "IN") = false := by
      cases op <;> first | rfl | exact absurd rfl h
    simp [takes, isScalar, hsymbol]
  | _ => rfl

/-- **Just the accepted conditions compile.** -/
theorem exists_compile_iff (c : Condition) : (∃ text, c.compile = .ok text) ↔ c.Accepted := by
  rw [Condition.accepted_iff, ← exists_ofSymbol?_iff, ← exists_column_iff, Condition.compile]
  constructor
  · rintro ⟨text, h⟩
    split at h
    · cases h
    · rename_i op hop
      obtain ⟨path, hpath, h⟩ := bind_eq_ok h
      refine ⟨⟨op, hop⟩, ⟨path, hpath⟩, ?_⟩
      rw [← ofSymbol?_eq_some_iff.mp hop]
      split at h
      · exact takes_isIn_iff.mpr (exists_compileMembership_iff.mp ⟨text, h⟩)
      · rename_i hne
        rw [takes_comparison hne]
        exact exists_compileComparison_iff.mp ⟨text, h⟩
  · rintro ⟨⟨op, hop⟩, ⟨path, hpath⟩, hvalue⟩
    rw [← ofSymbol?_eq_some_iff.mp hop] at hvalue
    rw [hop, hpath]
    by_cases hne : op = .isIn
    · subst hne
      exact exists_compileMembership_iff.mpr (takes_isIn_iff.mp hvalue)
    · rw [takes_comparison hne] at hvalue
      obtain ⟨text, htext⟩ : ∃ text, Condition.compileComparison path op c.value = .ok text :=
        exists_compileComparison_iff.mpr hvalue
      refine ⟨text, ?_⟩
      cases op <;> first | exact htext | exact absurd rfl hne

/-- Nothing is in the empty list. -/
theorem compile_empty {c : Condition} (h : c.Accepted) (hoperator : c.operator = "IN")
    (hvalue : c.value = .arr []) : c.compile = .ok "1 = 0" := by
  obtain ⟨path, hpath⟩ := (exists_column_iff c.field).mpr ((isFieldName_iff c.field).mpr h.field)
  have hsymbol : Operator.ofSymbol? "IN" = some .isIn := rfl
  rw [Condition.compile, hoperator, hsymbol, hpath, hvalue]
  rfl

theorem acceptedConjuncts_append (filters more : List Condition) :
    acceptedConjuncts (filters ++ more) = acceptedConjuncts filters ++ acceptedConjuncts more :=
  List.filterMap_append

theorem acceptedConjuncts_eq (filters : List Condition) :
    (filters.filter (·.Accepted)).map Condition.compile = (acceptedConjuncts filters).map .ok := by
  induction filters with
  | nil => rfl
  | cons c filters ih =>
    rw [acceptedConjuncts, List.filterMap_cons]
    by_cases h : c.Accepted
    · obtain ⟨text, htext⟩ := (exists_compile_iff c).mpr h
      rw [List.filter_cons_of_pos (by simpa using h), List.map_cons, htext, ih]
      rfl
    · have hnone : c.compile.toOption = none := by
        cases hc : c.compile with
        | error flaw => rfl
        | ok text => exact absurd ((exists_compile_iff c).mp ⟨text, hc⟩) h
      rw [List.filter_cons_of_neg (by simpa using h), hnone, ih]
      rfl

/-! ## Conjuncts of the options -/

/-- A conjunct compares the time with an instant. -/
def TimeTest (operator : String) (t : Time.DateTime) (c : String) : Prop :=
  ∃ text, timeLiteral t = .ok text ∧ c = "_timestamp " ++ operator ++ " " ++ text

/-- A conjunct tests for a status. -/
inductive StatusTest : Json → String → Prop
  | error : StatusTest (.str "error") anyErrors
  | success : StatusTest (.str "success") successes
  | code (n : Int) : StatusTest (.int n) ("_status_code = " ++ Text.integer n)

/-- The conjuncts of options: the project's, and then those of the start, the end, the type and the
status, as far as these are set. -/
def Options.IsOwn (o : Options) (own : List String) : Prop :=
  ∃ start stop kind status : Option String,
    own = ["_project_id = " ++ textLiteral o.project] ++ start.toList ++ stop.toList ++
      kind.toList ++ status.toList ∧
    Option.Rel (TimeTest ">=") o.startTime start ∧ Option.Rel (TimeTest "<=") o.endTime stop ∧
    kind = (o.eventType.filter (· ≠ "")).map (fun s => "_event_type = " ++ textLiteral s) ∧
    Option.Rel StatusTest (if o.status.isNull then none else some o.status) status

theorem boundConjunct_eq_ok {operator : String} {bound : Option Time.DateTime} {cs : List String}
    (h : boundConjunct operator bound = .ok cs) :
    ∃ c : Option String, cs = c.toList ∧ Option.Rel (TimeTest operator) bound c := by
  cases bound with
  | none =>
    cases h
    exact ⟨none, rfl, .none⟩
  | some t =>
    obtain ⟨text, htext, h⟩ := bind_eq_ok h
    cases h
    exact ⟨some _, rfl, .some ⟨text, htext, rfl⟩⟩

theorem typeConjuncts_eq (o : Options) : o.typeConjuncts = ((o.eventType.filter (· ≠ "")).map
    fun s => "_event_type = " ++ textLiteral s).toList := by
  unfold Options.typeConjuncts
  cases o.eventType with
  | none => rfl
  | some s => by_cases hs : s = "" <;> simp [hs, Option.filter]

theorem statusTest_of_ok {status : Json} {c : String} (h : statusConjunct status = .ok c) :
    StatusTest status c := by
  unfold statusConjunct at h
  cases status with
  | str word =>
    by_cases herror : word = "error"
    · subst herror
      cases h
      exact .error
    · by_cases hsuccess : word = "success"
      · subst hsuccess
        cases h
        exact .success
      · simp [Json.isText, herror, hsuccess] at h
  | int code =>
    cases h
    exact .code code
  | _ => cases h

theorem statusConjuncts_eq_ok {o : Options} {cs : List String} (h : o.statusConjuncts = .ok cs) :
    ∃ c : Option String, cs = c.toList ∧
      Option.Rel StatusTest (if o.status.isNull then none else some o.status) c := by
  rw [Options.statusConjuncts] at h
  split at h
  · rename_i hnull
    cases h
    exact ⟨none, rfl, by simp [hnull]⟩
  · rename_i hset
    split at h
    · rename_i c hc
      cases h
      exact ⟨some c, rfl, by simpa [hset] using Option.Rel.some (statusTest_of_ok hc)⟩
    · cases h

theorem isOwn_conjuncts {o : Options} {own : List String} (h : o.conjuncts = .ok own) :
    o.IsOwn own := by
  obtain ⟨lower, hlower, h⟩ := bind_eq_ok h
  obtain ⟨upper, hupper, h⟩ := bind_eq_ok h
  obtain ⟨tests, htests, h⟩ := bind_eq_ok h
  cases h
  obtain ⟨start, rfl, hstart⟩ := boundConjunct_eq_ok hlower
  obtain ⟨stop, rfl, hstop⟩ := boundConjunct_eq_ok hupper
  obtain ⟨status, rfl, hstatus⟩ := statusConjuncts_eq_ok htests
  refine ⟨start, stop, _, status, ?_, hstart, hstop, rfl, hstatus⟩
  rw [typeConjuncts_eq]
  rfl

/-! ## Conjuncts of a read query -/

theorem conjuncts_eq {o : Options} {own : List String} (h : o.conjuncts = .ok own)
    (filters : List Condition) : conjuncts o filters = .ok (own ++ acceptedConjuncts filters) := by
  rw [conjuncts, h]
  rfl

theorem map_ok_injective {ε α : Type} :
    Function.Injective (List.map (Except.ok : α → Except ε α)) :=
  List.map_injective_iff.mpr fun _ _ => Except.ok.inj

theorem acceptedConjuncts_congr {filters others : List Condition}
    (h : others.filter (·.Accepted) = filters.filter (·.Accepted)) :
    acceptedConjuncts others = acceptedConjuncts filters := by
  apply map_ok_injective
  rw [← acceptedConjuncts_eq, ← acceptedConjuncts_eq, h]

/-- **The conjuncts of a read query are those of its options, and then those of the accepted
conditions in their order.** Conditions that are not accepted can stand anywhere and change nothing,
and the conjuncts of more conditions come behind. -/
theorem conjuncts_exact {o : Options} {own : List String} (h : o.conjuncts = .ok own) :
    o.IsOwn own ∧
    (∀ c : Condition, c.Accepted → c.operator = "IN" → c.value = .arr [] →
      c.compile = .ok "1 = 0") ∧
    ∀ filters : List Condition, ∃ texts,
      (filters.filter (·.Accepted)).map Condition.compile = texts.map .ok ∧
      conjuncts o filters = .ok (own ++ texts) ∧
      (∀ others : List Condition,
        others.filter (·.Accepted) = filters.filter (·.Accepted) →
        predicate o others = predicate o filters) ∧
      ∀ more, ∃ behind, conjuncts o more = .ok (own ++ behind) ∧
        conjuncts o (filters ++ more) = .ok (own ++ texts ++ behind) := by
  refine ⟨isOwn_conjuncts h, fun c => compile_empty, fun filters => ?_⟩
  refine ⟨acceptedConjuncts filters, acceptedConjuncts_eq filters, conjuncts_eq h filters,
    fun others hothers => ?_, fun more => ?_⟩
  · rw [predicate, predicate, conjuncts_eq h, conjuncts_eq h, acceptedConjuncts_congr hothers]
  · refine ⟨acceptedConjuncts more, conjuncts_eq h more, ?_⟩
    rw [conjuncts_eq h, acceptedConjuncts_append, List.append_assoc]

/-- The failed signups of a project since an instant in 2024. -/
def failedSignups : Options :=
  ⟨"shop", some ⟨63850568889124000, by decide, some .utc⟩, none, some "signup", .str "error", 100,
    0, by decide⟩

/-- A condition with a list in which an item has no literal, between two that are accepted. -/
def mixedConditions : List Condition :=
  [⟨"user.plan", "IN", .arr [.str "pro", .int 2]⟩, ⟨"user.id", "IN", .arr [.int 1, .null]⟩,
    ⟨"items.0", "IN", .arr []⟩]

theorem conjuncts_exact_mixed :
    ∃ own, failedSignups.conjuncts = .ok own ∧ failedSignups.IsOwn own ∧
      conjuncts failedSignups mixedConditions
        = .ok (own ++ ["event.user.plan IN ('pro', 2)", "1 = 0"]) ∧
      predicate failedSignups (mixedConditions.eraseIdx 1)
        = predicate failedSignups mixedConditions := by
  have hown : failedSignups.conjuncts = .ok ["_project_id = 'shop'",
      "_timestamp >= toDateTime64('2024-05-06 05:08:09.124', 3, 'UTC')", "_event_type = 'signup'",
      "(_status_code >= 400 OR _outcome = 'error')"] := by rfl
  obtain ⟨hisOwn, -, hfilters⟩ := conjuncts_exact hown
  obtain ⟨texts, htexts, hall, hothers, -⟩ := hfilters mixedConditions
  have hcompiled : (mixedConditions.filter (·.Accepted)).map Condition.compile
      = ["event.user.plan IN ('pro', 2)", "1 = 0"].map .ok := by rfl
  rw [map_ok_injective (htexts.symm.trans hcompiled)] at hall
  exact ⟨_, hown, hisOwn, hall, hothers (mixedConditions.eraseIdx 1) (by rfl)⟩

end Telemetry.Query
