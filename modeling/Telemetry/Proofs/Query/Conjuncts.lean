import Telemetry.Proofs.Sql.Piece
import Telemetry.Query.Predicate

/-!
# Conjuncts of the options and the filters

Each conjunct that the options or a condition compile to is one conjunct for a reader as well,
whatever the names and values in it are, and its literals stand for just the texts that the caller
supplied.

Main statement: the conjuncts of a read query are such conjuncts (`conjuncts_query`).
-/

namespace Telemetry.Query

open Sql

/-! ## Texts in literals -/

/-- The texts in the literals of a status. -/
def statusValues (status : Json) : List String :=
  if status.isText "error" then ["error"]
  else if status.isText "success" then ["success"]
  else []

/-- The texts in the literals of the event type. -/
def Options.typeValues (o : Options) : List String :=
  match o.eventType with
  | none => []
  | some s => if s = "" then [] else [s]

/-- The texts in the literals of the options, in order. -/
def Options.values (o : Options) : List String :=
  o.project :: (o.startTime.toList.flatMap timeValues ++ (o.endTime.toList.flatMap timeValues ++
    (o.typeValues ++ statusValues o.status)))

/-- The texts in the literals of a condition that compiles. -/
def Condition.values (c : Condition) : List String :=
  (membershipItems c.value).flatMap literalValues

/-- Whether a condition compiles. -/
def Condition.compiles (c : Condition) : Bool := c.compile.toOption.isSome

/-- The texts in the literals of the conjuncts of a read query, in order. -/
def queryValues (o : Options) (filters : List Condition) : List String :=
  o.values ++ (filters.filter Condition.compiles).flatMap Condition.values

/-! ## Composed conjuncts -/

variable {names : List String} {d : Nat} {vs : List String} {ls : List Lexeme}

/-- Pieces with a fixed text between them are one piece. -/
theorem exists_piece_joinWith {sep : String} {m : Char} (hsep : isPiece d sep d [] = true)
    (hstart : (lexed sep).head? = some (.mark m)) (hend : endsInWord (lexed sep) = false)
    {cs : List String} {vss : List (List String)}
    (h : List.Forall₂ (fun c vs => ∃ ls, Piece names d c.toList d vs ls) cs vss) :
    ∃ ls, Piece names d (Text.joinWith sep cs).toList d vss.flatten ls := by
  obtain ⟨more, hlexed⟩ := List.head?_eq_some_iff.mp hstart
  induction h with
  | nil => exact ⟨[], .flat rfl (by simp) (by simp) rfl (by simp)⟩
  | @cons c vs cs vss hc hrest ih =>
    obtain ⟨ls, hls⟩ := hc
    -- Only behind a text with another one after it stands the separator.
    cases hrest with
    | nil =>
      rw [List.flatten_cons, List.flatten_nil, List.append_nil]
      exact ⟨ls, hls⟩
    | @cons d _ ds _ hd hmore =>
      obtain ⟨ms, hms⟩ := ih
      have hbehind := (Piece.ofFixed hsep).append hms (Or.inl hend)
      have happart : Apart ls (lexed sep ++ ms) := Or.inr (by rw [hlexed]; rfl)
      rw [Text.toList_joinWith_cons sep c (List.cons_ne_nil d ds), List.flatten_cons]
      exact ⟨_, hls.append hbehind happart⟩

/-- Whether a fixed text is a conjunct. -/
def isConjunct (text : String) (values : List String) : Bool :=
  isPiece 0 text 0 values && text.toList.head?.any (!Text.isBlank ·) &&
    text.toList.getLast?.any (!Text.isBlank ·)

theorem conjuncts_fixed {text : String} (h : isConjunct text vs = true) :
    Conjuncts names [text] vs := by
  simp only [isConjunct, Bool.and_eq_true, Option.any_eq_true, Bool.not_eq_true'] at h
  obtain ⟨⟨hpiece, a, hhead, ha⟩, b, hlast, hb⟩ := h
  obtain ⟨rest, hrest⟩ := List.head?_eq_some_iff.mp hhead
  obtain ⟨front, hfront⟩ := List.getLast?_eq_some_iff.mp hlast
  exact .single (.ofFixed hpiece) ⟨a, rest, hrest, ha⟩ ⟨front, b, hfront, hb⟩

/-- What stands behind a fixed text is compared with it in one conjunct. -/
theorem conjuncts_compared {front text : String} (hfront : isPiece 0 front 0 [] = true)
    (hopens : Opens front.toList) (happart : endsInWord (lexed front) = false)
    (htext : Piece names 0 text.toList 0 vs ls) (hends : Ends text.toList) :
    Conjuncts names [front ++ text] vs := by
  have hall := (Piece.ofFixed hfront).append htext (Or.inl happart)
  rw [List.nil_append, ← String.toList_append] at hall
  refine .single hall ?_ ?_
  · rw [String.toList_append]
    exact hopens.append text.toList
  · rw [String.toList_append]
    exact hends.append front.toList

/-! ## Conjuncts of the options -/

theorem conjuncts_project (o : Options) : Conjuncts names [o.projectConjunct] [o.project] :=
  conjuncts_compared (by decide) ⟨'_', _, rfl, rfl⟩ (by decide) (piece_textLiteral names 0 o.project)
    (ends_textLiteral o.project)

theorem conjuncts_bound (names : List String) {operator : String} {bound : Option Time.DateTime}
    {cs : List String}
    (hfront : isPiece 0 ("_timestamp " ++ operator ++ " ") 0 [] = true)
    (happart : endsInWord (lexed ("_timestamp " ++ operator ++ " ")) = false)
    (h : boundConjunct operator bound = .ok cs) :
    Conjuncts names cs (bound.toList.flatMap timeValues) := by
  cases bound with
  | none =>
    cases h
    exact .nil
  | some t =>
    cases hliteral : Sql.timeLiteral t with
    | error e =>
      rw [boundConjunct, hliteral] at h
      cases h
    | ok text =>
      rw [boundConjunct, hliteral] at h
      cases h
      obtain ⟨⟨ls, hls⟩, hends⟩ := piece_timeLiteral hliteral names
      rw [Option.toList_some, List.flatMap_singleton]
      refine conjuncts_compared hfront ?_ happart hls hends
      rw [String.toList_append, String.toList_append]
      exact (Opens.append ⟨'_', _, rfl, rfl⟩ _).append _

theorem conjuncts_type (o : Options) : Conjuncts names o.typeConjuncts o.typeValues := by
  unfold Options.typeConjuncts Options.typeValues
  cases o.eventType with
  | none => exact .nil
  | some s =>
    by_cases hs : s = ""
    · simp only [hs, if_true]
      exact .nil
    · simp only [hs, if_false]
      exact conjuncts_compared (by decide) ⟨'_', _, rfl, rfl⟩ (by decide)
        (piece_textLiteral names 0 s) (ends_textLiteral s)

theorem conjuncts_status {o : Options} {cs : List String} (h : o.statusConjuncts = .ok cs) :
    Conjuncts names cs (statusValues o.status) := by
  rw [Options.statusConjuncts] at h
  split at h
  · rename_i hnull
    cases h
    cases hstatus : o.status with
    | null => exact .nil
    | _ => exact absurd hnull (by simp [hstatus, Json.isNull])
  · unfold statusConjunct at h
    unfold statusValues
    by_cases herror : o.status.isText "error" = true
    · simp only [herror, if_true] at h ⊢
      cases h
      exact conjuncts_fixed (by decide)
    · by_cases hsuccess : o.status.isText "success" = true
      · simp only [herror, hsuccess, if_true] at h ⊢
        cases h
        exact conjuncts_fixed (by decide)
      · simp only [herror, hsuccess] at h ⊢
        cases hstatus : o.status with
        | int code =>
          rw [hstatus] at h
          cases h
          obtain ⟨ls, hls⟩ := piece_numeral names 0 (isNumeralChar_integer code)
          exact conjuncts_compared (by decide) ⟨'_', _, rfl, rfl⟩ (by decide) hls
            (ends_numeral (integer_ne_nil code) (isNumeralChar_integer code))
        | _ =>
          rw [hstatus] at h
          cases h

/-- The conjuncts of the options are conjuncts for a reader, the project's first. -/
theorem conjuncts_options (names : List String) {o : Options} {cs : List String}
    (h : o.conjuncts = .ok cs) :
    Conjuncts names cs o.values ∧ ∃ rest, cs = o.projectConjunct :: rest := by
  obtain ⟨lower, hlower, h⟩ := bind_eq_ok h
  obtain ⟨upper, hupper, h⟩ := bind_eq_ok h
  obtain ⟨status, hstatus, h⟩ := bind_eq_ok h
  cases h
  refine ⟨?_, _, rfl⟩
  have hbehind := (conjuncts_bound names (by decide) (by decide) hlower).append
    ((conjuncts_bound names (by decide) (by decide) hupper).append
      ((conjuncts_type o).append (conjuncts_status hstatus)))
  have hall := (conjuncts_project o).append hbehind
  simpa only [Options.values, List.append_assoc, List.cons_append, List.nil_append] using hall

/-! ## Conjuncts of the filters -/

/-- A list of values that all have a literal. -/
theorem pieces_of_mapM {items : List Json} {texts : List String}
    (h : items.mapM literal = .ok texts) :
    List.Forall₂ (fun c vs => ∃ ls, Piece names d c.toList d vs ls) texts
      (items.map literalValues) := by
  induction items generalizing texts with
  | nil =>
    cases h
    exact .nil
  | cons item items ih =>
    rw [List.mapM_cons] at h
    obtain ⟨text, htext, h⟩ := bind_eq_ok h
    obtain ⟨more, hmore, h⟩ := bind_eq_ok h
    cases h
    exact .cons (piece_literal htext names d).1 (ih hmore)

theorem conjuncts_membership {name column text : String} {value : Json}
    (hcolumn : Sql.column name = .ok column) (hname : name ∈ names)
    (h : Condition.compileMembership column value = .ok text) :
    Conjuncts names [text] ((membershipItems value).flatMap literalValues) := by
  unfold Condition.compileMembership at h
  split at h
  · rename_i hitems
    cases h
    rw [hitems]
    exact conjuncts_fixed (by decide)
  · obtain ⟨texts, htexts, h⟩ := bind_eq_ok h
    cases h
    obtain ⟨cs, hcs⟩ := piece_column hcolumn hname 0
    obtain ⟨ls, hls⟩ : ∃ ls, Piece names 1 (Text.joinWith ", " texts).toList 1 _ ls :=
      exists_piece_joinWith (by decide) rfl (by decide) (pieces_of_mapM htexts)
    have hopen : Piece names 0 " IN (".toList 1 [] (lexed " IN (") := .ofFixed (by decide)
    have hclose : Piece names 1 ")".toList 0 [] (lexed ")") := .ofFixed (by decide)
    have hall := hcs.append (hopen.append (hls.append hclose (Or.inr rfl)) (Or.inl rfl)) (Or.inr rfl)
    have htext : (column ++ " IN (" ++ Text.joinWith ", " texts ++ ")").toList
        = column.toList ++ (" IN (".toList ++ ((Text.joinWith ", " texts).toList ++ ")".toList)) := by
      simp only [String.toList_append, List.append_assoc]
    rw [← htext, List.nil_append, List.nil_append, List.append_nil, ← List.flatMap_def] at hall
    refine .single hall ?_ ?_
    · simp only [String.toList_append, List.append_assoc]
      exact (opens_column hcolumn).append _
    · rw [String.toList_append]
      exact Ends.append ⟨[], ')', rfl, rfl⟩ _

theorem piece_symbol (op : Operator) (names : List String) :
    Piece names 0 op.symbol.toList 0 [] (lexed op.symbol) := by
  refine .ofFixed ?_
  cases op <;> decide

theorem membershipItems_of_scalar {v : Json} (h : v.isContainer = false) :
    membershipItems v = [v] := by
  cases v <;> first | rfl | exact absurd h (by simp [Json.isContainer])

theorem conjuncts_comparison {name column text : String} {op : Operator} {value : Json}
    (hcolumn : Sql.column name = .ok column) (hname : name ∈ names)
    (h : Condition.compileComparison column op value = .ok text) :
    Conjuncts names [text] ((membershipItems value).flatMap literalValues) := by
  unfold Condition.compileComparison at h
  split at h
  · cases h
  · rename_i hscalar
    obtain ⟨literal, hliteral, h⟩ := bind_eq_ok h
    cases h
    rw [membershipItems_of_scalar (by simpa using hscalar), List.flatMap_singleton]
    obtain ⟨cs, hcs⟩ := piece_column hcolumn hname 0
    obtain ⟨⟨ls, hls⟩, hends⟩ := piece_literal hliteral names 0
    have hblank : Piece names 0 " ".toList 0 [] (lexed " ") := .ofFixed (by decide)
    have hall := hcs.append (hblank.append ((piece_symbol op names).append
      (hblank.append hls (Or.inl rfl)) (Or.inr rfl)) (Or.inl rfl)) (Or.inr rfl)
    have htext : (column ++ " " ++ op.symbol ++ " " ++ literal).toList = column.toList ++
        (" ".toList ++ (op.symbol.toList ++ (" ".toList ++ literal.toList))) := by
      simp only [String.toList_append, List.append_assoc]
    rw [← htext, List.nil_append, List.nil_append, List.nil_append, List.nil_append] at hall
    refine .single hall ?_ ?_
    · simp only [String.toList_append, List.append_assoc]
      exact (opens_column hcolumn).append _
    · rw [String.toList_append]
      exact hends.append _

/-- A condition compiles to one conjunct, and its literals stand for the values of the condition. -/
theorem conjuncts_compile {c : Condition} {text : String} (h : c.compile = .ok text)
    (hname : c.field ∈ names) : Conjuncts names [text] c.values := by
  unfold Condition.compile at h
  split at h
  · cases h
  · obtain ⟨column, hcolumn, h⟩ := bind_eq_ok h
    split at h
    · exact conjuncts_membership hcolumn hname h
    · exact conjuncts_comparison hcolumn hname h

theorem conjuncts_accepted (filters : List Condition) (hnames : ∀ c ∈ filters, c.field ∈ names) :
    Conjuncts names (acceptedConjuncts filters)
      ((filters.filter Condition.compiles).flatMap Condition.values) := by
  induction filters with
  | nil => exact .nil
  | cons c filters ih =>
    have hmore := ih fun x hx => hnames x (List.mem_cons_of_mem c hx)
    cases hc : c.compile with
    | error flaw =>
      have hcompiles : c.compiles = false := by rw [Condition.compiles, hc]; rfl
      rw [acceptedConjuncts, List.filterMap_cons, hc, List.filter_cons_of_neg (by simp [hcompiles])]
      exact hmore
    | ok text =>
      have hcompiles : c.compiles = true := by rw [Condition.compiles, hc]; rfl
      rw [acceptedConjuncts, List.filterMap_cons, hc, List.filter_cons_of_pos hcompiles,
        List.flatMap_cons]
      exact (conjuncts_compile hc (hnames c List.mem_cons_self)).append hmore

/-- **The conjuncts of a read query are conjuncts for a reader**, the project's first, and their
literals stand for the project, the options and the values of the conditions that compile. -/
theorem conjuncts_query {o : Options} {filters : List Condition} {cs : List String}
    (h : conjuncts o filters = .ok cs) (hnames : ∀ c ∈ filters, c.field ∈ names) :
    Conjuncts names cs (queryValues o filters) ∧ ∃ rest, cs = o.projectConjunct :: rest := by
  obtain ⟨own, hown, h⟩ := bind_eq_ok h
  cases h
  obtain ⟨hconjuncts, rest, rfl⟩ := conjuncts_options names hown
  exact ⟨hconjuncts.append (conjuncts_accepted filters hnames), _, rfl⟩

end Telemetry.Query
