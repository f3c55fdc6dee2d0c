import Telemetry.Proofs.Sql.Conditions
import Telemetry.Proofs.Text.Pieces
import Telemetry.Sql.Literal

/-!
# Pieces of queries

What a reader finds in the pieces that queries are put together from. A piece begins at some depth
of parentheses and ends at another, no keyword that gives a query its shape stands in it outside of
parentheses, its literals stand for known values, and what is no literal is part of a fixed
vocabulary, a number, or the path of a field.

Main statements: a text's literal is one literal that stands for the text (`piece_textLiteral`),
and so for every value (`piece_literal`); the path of a field is made of words and quoted
identifiers only (`piece_column`).
-/

namespace Telemetry.Sql

/-! ## Vocabulary -/

/-- The fixed words of queries. -/
def vocabulary : List String := [
  "SELECT", "AS", "FROM", "events", "WHERE", "AND", "OR", "IN", "LIKE", "ILIKE", "IS", "NOT",
  "NULL", "GROUP", "ORDER", "BY", "ASC", "DESC", "LIMIT", "OFFSET", "true", "false",
  "toString", "toDateTime64", "count", "countIf", "round", "avg", "quantile", "CAST",
  "_id", "_project_id", "_timestamp", "_event_type", "_status_code", "_outcome", "event",
  "event.duration_ms", "event.error.type", "event.error.code", "event.trace_id",
  "event.request_id", "id", "timestamp", "event_type", "payload", "status_code", "outcome",
  "group_key", "total", "errors", "error_rate", "avg_duration_ms", "p95_duration_ms",
  "p50", "p90", "p95", "p99", "error_type", "error_code"]

/-- The marks of queries. -/
def marks : List Char := [' ', ',', '=', '!', '<', '>', '*', '/', '+', '-']

/-- A character of a number that belongs to a word. -/
def isNumberChar (c : Char) : Bool := Text.isDigit c || c == '.' || c == 'e'

/-- A lexeme that a fixed part of a query or a value can consist of. -/
def Lexeme.isFixed : Lexeme → Bool
  | .literal _ | .opening | .closing => true
  | .name _ => false
  | .word cs => cs.all isNumberChar || vocabulary.any fun w => w.toList == cs
  | .mark c => marks.contains c

/-- A lexeme that is fixed, or part of the path of one of some fields. -/
inductive Lexeme.Known (names : List String) (l : Lexeme) : Prop
  | fixed (h : l.isFixed = true)
  | field {name path : String} {ls : List Lexeme} (hname : name ∈ names)
    (hcolumn : column name = .ok path) (hscan : lexemes? path.toList = some ls) (hmem : l ∈ ls)

/-! ## Pieces -/

/-- A reader that is `d` parentheses deep finds these lexemes in a text and is `e` deep behind it.
The literals among them stand for `values`. -/
structure Reading (names : List String) (d : Nat) (cs : List Char) (e : Nat)
    (values : List String) (ls : List Lexeme) : Prop where
  scanned : lexemes? cs = some ls
  depth : depthAfter? d ls = some e
  valued : ls.filterMap Lexeme.value? = values
  known : ∀ l ∈ ls, l.Known names

/-- A text in which no keyword stands outside of parentheses that gives a query its shape. -/
structure Piece (names : List String) (d : Nat) (cs : List Char) (e : Nat) (values : List String)
    (ls : List Lexeme) : Prop extends Reading names d cs e values ls where
  quiet : ∀ x ∈ nested d ls, isReserved x = false

variable {names : List String} {d e f : Nat} {a b : List Char} {vs ws : List String}
  {ls ms : List Lexeme}

theorem Reading.append (ha : Reading names d a e vs ls) (hb : Reading names e b f ws ms)
    (h : Apart ls ms) : Reading names d (a ++ b) f (vs ++ ws) (ls ++ ms) where
  scanned := scan_append ha.scanned hb.scanned h
  depth := depthAfter?_append ha.depth hb.depth
  valued := by rw [List.filterMap_append, ha.valued, hb.valued]
  known := by
    intro l hl
    rcases List.mem_append.mp hl with hl | hl
    · exact ha.known l hl
    · exact hb.known l hl

theorem Piece.append (ha : Piece names d a e vs ls) (hb : Piece names e b f ws ms)
    (h : Apart ls ms) : Piece names d (a ++ b) f (vs ++ ws) (ls ++ ms) where
  toReading := ha.toReading.append hb.toReading h
  quiet := by
    intro x hx
    rw [nested_append ha.depth, List.mem_append] at hx
    rcases hx with hx | hx
    · exact ha.quiet x hx
    · exact hb.quiet x hx

/-- The lexemes of a fixed text. -/
def lexed (text : String) : List Lexeme := (lexemes? text.toList).getD []

/-- Whether a fixed text can be read so. -/
def isReading (d : Nat) (text : String) (e : Nat) (values : List String) : Bool :=
  (lexemes? text.toList).isSome && depthAfter? d (lexed text) == some e &&
    (lexed text).filterMap Lexeme.value? == values && (lexed text).all Lexeme.isFixed

/-- Whether a fixed text is a piece. -/
def isPiece (d : Nat) (text : String) (e : Nat) (values : List String) : Bool :=
  isReading d text e values && (nested d (lexed text)).all fun x => !isReserved x

theorem Reading.ofFixed {text : String} (h : isReading d text e vs = true) :
    Reading names d text.toList e vs (lexed text) := by
  simp only [isReading, Bool.and_eq_true, beq_iff_eq, List.all_eq_true] at h
  obtain ⟨⟨⟨hscan, hdepth⟩, hvalues⟩, hfixed⟩ := h
  obtain ⟨ls, hls⟩ := Option.isSome_iff_exists.mp hscan
  have hlexed : lexemes? text.toList = some (lexed text) := by rw [lexed, hls, Option.getD_some]
  exact ⟨hlexed, hdepth, hvalues, fun l hl => .fixed (hfixed l hl)⟩

theorem Piece.ofFixed {text : String} (h : isPiece d text e vs = true) :
    Piece names d text.toList e vs (lexed text) := by
  obtain ⟨hreading, hquiet⟩ := Bool.and_eq_true_iff.mp h
  refine ⟨.ofFixed hreading, fun x hx => ?_⟩
  simpa using List.all_eq_true.mp hquiet x hx

/-- A piece is a piece inside of parentheses as well. -/
theorem Piece.lift (h : Piece names d a e vs ls) (k : Nat) :
    Piece names (k + d) a (k + e) vs ls := by
  obtain ⟨hdepth, hnested⟩ := depthAfter?_add h.depth k
  rw [Nat.add_comm k d, Nat.add_comm k e]
  refine ⟨⟨h.scanned, hdepth, h.valued, h.known⟩, fun x hx => ?_⟩
  rw [hnested] at hx
  obtain ⟨y, hy, rfl⟩ := List.mem_map.mp hx
  cases k with
  | zero => exact h.quiet y hy
  | succ k => exact isReserved_of_pos (by omega) y.2

/-- Lexemes that are no parentheses leave the depth as it is. -/
theorem depthAfter?_flat (h : ∀ l ∈ ls, l ≠ .opening ∧ l ≠ .closing) (d : Nat) :
    depthAfter? d ls = some d ∧ nested d ls = ls.map fun l => (d, l) := by
  induction ls with
  | nil => exact ⟨rfl, rfl⟩
  | cons l ls ih =>
    obtain ⟨hdepth, hnested⟩ := ih fun m hm => h m (List.mem_cons_of_mem l hm)
    have hl : l.depthAfter? d = some d := by
      obtain ⟨ho, hc⟩ := h l List.mem_cons_self
      cases l <;> first | rfl | exact absurd rfl ho | exact absurd rfl hc
    constructor
    · rw [depthAfter?, hl]
      exact hdepth
    · simp only [nested, hl, Option.getD_some, Nat.min_self, hnested, List.map_cons]

/-- A piece without parentheses. -/
theorem Piece.flat (hscan : lexemes? a = some ls)
    (hflat : ∀ l ∈ ls, l ≠ .opening ∧ l ≠ .closing) (hquiet : ∀ l ∈ ls, isReserved (d, l) = false)
    (hvalues : ls.filterMap Lexeme.value? = vs) (hknown : ∀ l ∈ ls, l.Known names) :
    Piece names d a d vs ls where
  scanned := hscan
  depth := (depthAfter?_flat hflat d).1
  quiet := by
    intro x hx
    rw [(depthAfter?_flat hflat d).2] at hx
    obtain ⟨l, hl, rfl⟩ := List.mem_map.mp hx
    exact hquiet l hl
  valued := hvalues
  known := hknown

/-! ## Literals of texts -/

/-- A backslash in front of backslashes and quotes is taken away again. -/
theorem unescape_escapeChars (cs : List Char) : unescape (escapeChars cs) = cs := by
  induction cs with
  | nil => rfl
  | cons c rest ih =>
    rw [escapeChars]
    split
    · rw [unescape, ih]
    · rename_i h
      rw [unescape, ih]
      intro d more hc
      exact absurd (Or.inl hc) h

/-- No text ends its own literal. -/
theorem scan_escapeChars (cs read : List Char) :
    scan (.literal read) (escapeChars cs ++ ['\'']) = some [.literal (read ++ escapeChars cs)] := by
  -- `read` is generalized: a reader in the middle of a literal holds what it has read of it.
  induction cs generalizing read with
  | nil => rw [escapeChars, List.nil_append, List.append_nil]; rfl
  | cons c rest ih =>
    rw [escapeChars]
    split
    · rw [List.cons_append, List.cons_append, scan, if_neg (by decide), if_pos rfl, scan, ih]
      simp
    · rename_i h
      obtain ⟨hb, hq⟩ := not_or.mp h
      rw [List.cons_append, scan, if_neg hq, if_neg hb, ih]
      simp

theorem toList_textLiteral (s : String) :
    (textLiteral s).toList = '\'' :: (escapeChars s.toList ++ ['\'']) := by
  simp [textLiteral]

/-- **The literal of a text is one literal, and it stands for the text.** -/
theorem piece_textLiteral (names : List String) (d : Nat) (s : String) :
    Piece names d (textLiteral s).toList d [s] [.literal (escapeChars s.toList)] := by
  refine .flat ?_ ?_ ?_ ?_ ?_
  · rw [toList_textLiteral]
    exact scan_escapeChars s.toList []
  · simp
  · exact fun l hl => isReserved_of_not_isWord (by rw [List.mem_singleton.mp hl]; rfl)
  · simp [Lexeme.value?, unescape_escapeChars]
  · exact fun l hl => .fixed (by rw [List.mem_singleton.mp hl]; rfl)

/-- The literal of a text is one literal. -/
theorem lexemes?_textLiteral (s : String) :
    lexemes? (textLiteral s).toList = some [.literal (escapeChars s.toList)] :=
  (piece_textLiteral [] 0 s).scanned

theorem ends_textLiteral (s : String) : Ends (textLiteral s).toList :=
  ⟨'\'' :: escapeChars s.toList, '\'', toList_textLiteral s, rfl⟩

/-! ## Numbers -/

/-- A character of the text of a number. -/
def isNumeralChar (c : Char) : Bool := isNumberChar c || c == '+' || c == '-'

/-- A lexeme of the text of a number. -/
def Lexeme.isNumeral : Lexeme → Bool
  | .word cs => cs.all isNumberChar
  | .mark c => c == '+' || c == '-'
  | _ => false

theorem isFieldChar_of_isNumberChar {c : Char} (h : isNumberChar c = true) :
    isFieldChar c = true := by
  simp only [isNumberChar, isFieldChar, Bool.or_eq_true, beq_iff_eq] at h ⊢
  rcases h with (h | h) | h
  · exact Or.inl (Or.inl (Or.inr h))
  · exact Or.inr h
  · exact Or.inl (Or.inl (Or.inl (by rw [h]; decide)))

theorem lowerChar_of_isNumberChar {c : Char} (h : isNumberChar c = true) :
    Text.lowerChar c = c := by
  unfold Text.lowerChar
  refine if_neg fun hc => ?_
  simp only [isNumberChar, Text.isDigit, Bool.or_eq_true, Bool.and_eq_true, decide_eq_true_eq,
    beq_iff_eq] at h
  rcases h with (h | h) | h
  · exact absurd (Char.le_trans hc.1 h.2) (by decide)
  · exact absurd (h ▸ hc) (by decide)
  · exact absurd (h ▸ hc) (by decide)

theorem isNumeral_prepend {c : Char} (hc : isNumeralChar c = true)
    (h : ∀ l ∈ ls, l.isNumeral = true) : ∀ l ∈ prepend c ls, l.isNumeral = true := by
  by_cases hn : isNumberChar c = true
  · have hword : ∀ cs : List Char, cs.all isNumberChar = true →
        (Lexeme.word (c :: cs)).isNumeral = true := fun cs hcs => by
      rw [Lexeme.isNumeral, List.all_cons, hn, hcs, Bool.and_self]
    rw [prepend, if_pos (isFieldChar_of_isNumberChar hn)]
    unfold glue
    split
    · rename_i cs more
      intro l hl
      rcases List.mem_cons.mp hl with rfl | hl
      · exact hword cs (h (.word cs) List.mem_cons_self)
      · exact h l (List.mem_cons_of_mem _ hl)
    · intro l hl
      rcases List.mem_cons.mp hl with rfl | hl
      · exact hword [] rfl
      · exact h l hl
  · simp only [isNumeralChar, Bool.or_eq_true, beq_iff_eq, Bool.not_eq_true] at hc hn
    have hsign : c = '+' ∨ c = '-' := by simpa [hn] using hc
    have hmark : prepend c ls = .mark c :: ls := by
      rcases hsign with rfl | rfl <;> rfl
    intro l hl
    rw [hmark] at hl
    rcases List.mem_cons.mp hl with rfl | hl
    · rcases hsign with rfl | rfl <;> rfl
    · exact h l hl

theorem exists_scan_numeral {cs : List Char} (h : ∀ c ∈ cs, isNumeralChar c = true) :
    ∃ ls, lexemes? cs = some ls ∧ ∀ l ∈ ls, l.isNumeral = true := by
  induction cs with
  | nil => exact ⟨[], rfl, fun l hl => absurd hl List.not_mem_nil⟩
  | cons c rest ih =>
    -- No character of a number opens a quote, so it is put in front of what has been read.
    obtain ⟨ls, hs, hl⟩ := ih fun x hx => h x (List.mem_cons_of_mem c hx)
    have hc := h c List.mem_cons_self
    refine ⟨prepend c ls, lexemes?_cons ?_ ?_ hs, isNumeral_prepend hc hl⟩
    · rintro rfl
      exact absurd hc (by decide)
    · rintro rfl
      exact absurd hc (by decide)

theorem isReserved_of_isNumeral {l : Lexeme} (h : l.isNumeral = true) (d : Nat) :
    isReserved (d, l) = false := by
  cases l with
  | word cs =>
    have hall : ∀ keyword ∈ reserved, keyword.toList.all isNumberChar = false := by decide
    have hcs : cs.all isNumberChar = true := h
    have hlower : cs.map Text.lowerChar = cs :=
      (List.map_congr_left fun c hc => lowerChar_of_isNumberChar (List.all_eq_true.mp hcs c hc)).trans
        (List.map_id cs)
    refine isReserved_word fun keyword hk he => ?_
    rw [hlower] at he
    rw [he, hall keyword hk] at hcs
    exact Bool.false_ne_true hcs
  | mark c => exact isReserved_of_not_isWord rfl
  | _ => exact absurd h Bool.false_ne_true

/-- The text of a number has no literal in it and nothing else that a query could take up. -/
theorem piece_numeral (names : List String) (d : Nat) {cs : List Char}
    (h : ∀ c ∈ cs, isNumeralChar c = true) : ∃ ls, Piece names d cs d [] ls := by
  obtain ⟨ls, hs, hl⟩ := exists_scan_numeral h
  refine ⟨ls, .flat hs ?_ (fun l hm => isReserved_of_isNumeral (hl l hm) d) ?_ ?_⟩
  · intro l hm
    constructor <;> rintro rfl <;> exact absurd (hl _ hm) Bool.false_ne_true
  · refine List.filterMap_eq_nil_iff.mpr fun l hm => ?_
    cases l <;> first | rfl | exact absurd (hl _ hm) Bool.false_ne_true
  · intro l hm
    refine .fixed ?_
    have hn := hl l hm
    cases l with
    | word cs =>
      rw [Lexeme.isFixed]
      rw [Lexeme.isNumeral] at hn
      rw [hn, Bool.true_or]
    | mark c =>
      simp only [Lexeme.isNumeral, Bool.or_eq_true, beq_iff_eq] at hn
      rcases hn with rfl | rfl <;> decide
    | _ => exact absurd hn Bool.false_ne_true

theorem isBlank_of_isNumeralChar {c : Char} (h : isNumeralChar c = true) :
    Text.isBlank c = false := by
  simp only [isNumeralChar, isNumberChar, Text.isDigit, Bool.or_eq_true, Bool.and_eq_true,
    decide_eq_true_eq, beq_iff_eq] at h
  rcases h with (((⟨hlow, hhigh⟩ | rfl) | rfl) | rfl) | rfl
  · have hl : 48 ≤ c.toNat := hlow
    have hh : c.toNat ≤ 57 := hhigh
    simp only [Text.isBlank, Text.isWhite, Bool.or_eq_false_iff, Bool.and_eq_false_iff,
      beq_eq_false_iff_ne, decide_eq_false_iff_not]
    omega
  all_goals decide

theorem ends_numeral {cs : List Char} (hne : cs ≠ []) (h : ∀ c ∈ cs, isNumeralChar c = true) :
    Ends cs :=
  ⟨cs.dropLast, cs.getLast hne, (List.dropLast_concat_getLast hne).symm,
    isBlank_of_isNumeralChar (h _ (List.getLast_mem hne))⟩

theorem isNumeralChar_decimal {n : Nat} : ∀ c ∈ Text.decimal n, isNumeralChar c = true := by
  intro c hc
  have hd : c.isDigit = true := Nat.isDigit_of_mem_toDigits (by decide) (by decide) hc
  have ht : Text.isDigit c = true := by simpa [Text.isDigit, Char.isDigit, Char.le_def] using hd
  simp [isNumeralChar, isNumberChar, ht]

theorem isNumeralChar_integer (i : Int) :
    ∀ c ∈ (Text.integer i).toList, isNumeralChar c = true := by
  intro c hc
  rw [Text.integer] at hc
  split at hc
  · rw [String.toList_ofList, List.mem_cons] at hc
    rcases hc with rfl | hc
    · rfl
    · exact isNumeralChar_decimal c hc
  · rw [String.toList_ofList] at hc
    exact isNumeralChar_decimal c hc

theorem integer_ne_nil (i : Int) : (Text.integer i).toList ≠ [] := by
  rw [Text.integer]
  split
  · rw [String.toList_ofList]
    exact List.cons_ne_nil _ _
  · rw [String.toList_ofList]
    exact Nat.toDigits_ne_nil

theorem isNumeralChar_positional {digits : List Char} (h : ∀ c ∈ digits, isNumeralChar c = true)
    (point : Int) : ∀ c ∈ Double.positional digits point, isNumeralChar c = true := by
  intro c hc
  have hzeros : ∀ n : Nat, c ∈ List.replicate n '0' → isNumeralChar c = true := by
    intro n hn
    rw [List.eq_of_mem_replicate hn]
    rfl
  rw [Double.positional] at hc
  split at hc
  · simp only [List.mem_cons, List.mem_append] at hc
    rcases hc with rfl | rfl | hc | hc
    · rfl
    · rfl
    · exact hzeros _ hc
    · exact h c hc
  · split at hc
    · simp only [List.mem_append, List.mem_cons, List.not_mem_nil, or_false] at hc
      rcases hc with (hc | hc) | rfl | rfl
      · exact h c hc
      · exact hzeros _ hc
      · rfl
      · rfl
    · simp only [List.mem_append, List.mem_cons] at hc
      rcases hc with hc | rfl | hc
      · exact h c (List.mem_of_mem_take hc)
      · rfl
      · exact h c (List.mem_of_mem_drop hc)

theorem isNumeralChar_scientific {digits : List Char} (h : ∀ c ∈ digits, isNumeralChar c = true)
    (point : Int) : ∀ c ∈ Double.scientific digits point, isNumeralChar c = true := by
  intro c hc
  simp only [Double.scientific, List.mem_append, List.mem_cons] at hc
  rcases hc with hc | rfl | rfl | hc
  · split at hc
    · exact absurd hc List.not_mem_nil
    · exact h c hc
    · simp only [List.mem_cons] at hc
      rcases hc with rfl | rfl | hc
      · exact h c List.mem_cons_self
      · rfl
      · exact h c (List.mem_cons_of_mem _ hc)
  · rfl
  · split <;> rfl
  · split at hc
    · rcases List.mem_cons.mp hc with rfl | hc
      · rfl
      · exact isNumeralChar_decimal c hc
    · exact isNumeralChar_decimal c hc

theorem isNumeralChar_unitsText (units : Nat) :
    ∀ c ∈ Double.unitsText units, isNumeralChar c = true := by
  have hdigits : ∀ c ∈ ((Text.decimal (Double.shortest units).digits).reverse.dropWhile
      (· == '0')).reverse, isNumeralChar c = true := by
    intro c hc
    have hm := List.dropWhile_subset _ (List.mem_reverse.mp hc)
    exact isNumeralChar_decimal c (List.mem_reverse.mp hm)
  intro c hc
  simp only [Double.unitsText] at hc
  split at hc
  · exact isNumeralChar_positional hdigits _ c hc
  · exact isNumeralChar_scientific hdigits _ c hc

theorem positional_ne_nil (digits : List Char) (point : Int) :
    Double.positional digits point ≠ [] := by
  rw [Double.positional]
  split
  · exact List.cons_ne_nil _ _
  · split
    · simp
    · simp

/-- The text of a finite number is made of digits, points, signs and the letter of the exponent. -/
theorem isNumeralChar_text {x : Double} (h : x.isFinite = true) :
    x.text.toList ≠ [] ∧ ∀ c ∈ x.text.toList, isNumeralChar c = true := by
  cases x with
  | nan => exact absurd h Bool.false_ne_true
  | infinite negative => exact absurd h Bool.false_ne_true
  | finite negative units hr =>
    have hzero : ∀ c ∈ ['0', '.', '0'], isNumeralChar c = true :=
      List.all_eq_true.mp (by decide)
    have hunits : ∀ c ∈ (if units = 0 then ['0', '.', '0'] else Double.unitsText units),
        isNumeralChar c = true := by
      intro c hc
      split at hc
      · exact hzero c hc
      · exact isNumeralChar_unitsText units c hc
    have hne : (if units = 0 then ['0', '.', '0'] else Double.unitsText units) ≠ [] := by
      split
      · exact List.cons_ne_nil _ _
      · simp only [Double.unitsText]
        split
        · exact positional_ne_nil _ _
        · simp [Double.scientific]
    simp only [Double.text, String.toList_ofList]
    split
    · refine ⟨List.cons_ne_nil _ _, fun c hc => ?_⟩
      rcases List.mem_cons.mp hc with rfl | hc
      · rfl
      · exact hunits c hc
    · exact ⟨hne, hunits⟩

/-! ## Paths of fields -/

theorem isFieldChar_ne_quote {c : Char} (h : isFieldChar c = true) : c ≠ '\'' ∧ c ≠ '\x60' := by
  constructor
  all_goals
    rintro rfl
    exact absurd h (by decide)

/-- Characters of a word are put in front of what follows as one word. -/
theorem lexemes?_word {w rest : List Char} (hw : ∀ c ∈ w, isFieldChar c = true)
    (h : lexemes? rest = some ls) : lexemes? (w ++ rest) = some (w.foldr glue ls) := by
  induction w with
  | nil => exact h
  | cons c w ih =>
    have hc := hw c List.mem_cons_self
    obtain ⟨hq, hn⟩ := isFieldChar_ne_quote hc
    rw [List.cons_append,
      lexemes?_cons hq hn (ih fun x hx => hw x (List.mem_cons_of_mem c hx)), prepend, if_pos hc]
    rfl

/-- A lexeme of the path of a field: a word with a character that no keyword has, or a quoted
identifier. -/
def Lexeme.isPathPart : Lexeme → Bool
  | .word cs => cs.contains '.' || cs.contains '_'
  | .name _ => true
  | _ => false

theorem isReserved_of_isPathPart {l : Lexeme} (h : l.isPathPart = true) (d : Nat) :
    isReserved (d, l) = false := by
  cases l with
  | word cs =>
    have hfree : ∀ keyword ∈ reserved, '.' ∉ keyword.toList ∧ '_' ∉ keyword.toList := by decide
    have hcs : '.' ∈ cs ∨ '_' ∈ cs := by simpa [Lexeme.isPathPart] using h
    refine isReserved_word fun keyword hk he => ?_
    obtain ⟨hdot, hunder⟩ := hfree keyword hk
    rcases hcs with hm | hm
    · exact hdot (he ▸ List.mem_map.mpr ⟨'.', hm, rfl⟩)
    · exact hunder (he ▸ List.mem_map.mpr ⟨'_', hm, rfl⟩)
  | name raw => exact isReserved_of_not_isWord rfl
  | _ => exact absurd h Bool.false_ne_true

theorem exists_word (h : startsWithWord ls = true) : ∃ cs more, ls = .word cs :: more := by
  cases ls with
  | nil => cases h
  | cons l more => cases l <;> first | exact ⟨_, more, rfl⟩ | cases h

theorem foldr_glue_of_word {w cs : List Char} {more : List Lexeme} :
    w.foldr glue (.word cs :: more) = .word (w ++ cs) :: more := by
  induction w with
  | nil => rfl
  | cons c w ih => rw [List.foldr_cons, ih, glue, List.cons_append]

theorem foldr_glue_of_apart {w : List Char} (hw : w ≠ []) (h : startsWithWord ls = false) :
    w.foldr glue ls = .word w :: ls := by
  induction w with
  | nil => exact absurd rfl hw
  | cons c w ih =>
    rw [List.foldr_cons]
    by_cases hne : w = []
    · rw [hne, List.foldr_nil, glue_of_apart h]
    · rw [ih hne, glue]

/-- The characters of a word in front of parts of a path are a part of a path, if one of them is in
no keyword. -/
theorem isPathPart_foldr_glue {w : List Char} (hdot : '.' ∈ w)
    (h : ∀ l ∈ ls, l.isPathPart = true) : ∀ l ∈ w.foldr glue ls, l.isPathPart = true := by
  have hword : ∀ cs : List Char, (Lexeme.word (w ++ cs)).isPathPart = true := fun cs => by
    simp [Lexeme.isPathPart, hdot]
  intro l hl
  -- In front of a word the characters become part of it; otherwise they are a word of their own.
  by_cases hs : startsWithWord ls = true
  · obtain ⟨cs, more, rfl⟩ := exists_word hs
    rw [foldr_glue_of_word] at hl
    rcases List.mem_cons.mp hl with rfl | hl
    · exact hword cs
    · exact h l (List.mem_cons_of_mem _ hl)
  · rw [foldr_glue_of_apart (List.ne_nil_of_mem hdot) (by simpa using hs)] at hl
    rcases List.mem_cons.mp hl with rfl | hl
    · simpa using hword []
    · exact h l hl

theorem scan_name (cs rest read : List Char) (h : '\x60' ∉ cs) :
    scan (.name read) (cs ++ '\x60' :: rest) = (lexemes? rest).map (.name (read ++ cs) :: ·) := by
  induction cs generalizing read with
  | nil => rw [List.nil_append, List.append_nil, scan, if_pos rfl]
  | cons c cs ih =>
    obtain ⟨hc, hcs⟩ := not_or.mp (fun hm => h (List.mem_cons.mpr hm))
    rw [List.cons_append, scan, if_neg (Ne.symm hc), ih _ hcs, List.append_assoc]
    rfl

/-- A segment's identifier with a dot in front: a word, or a dot and a quoted identifier. -/
theorem lexemes?_segment {segment rest : List Char} (hne : segment ≠ [])
    (hchars : ∀ c ∈ segment, isFieldChar c = true) (hrest : lexemes? rest = some ls)
    (hparts : ∀ l ∈ ls, l.isPathPart = true) :
    ∃ ms, lexemes? ('.' :: ((segmentIdentifier segment).toList ++ rest)) = some ms ∧
      startsWithWord ms = true ∧ ∀ l ∈ ms, l.isPathPart = true := by
  obtain ⟨c, more, rfl⟩ := List.exists_cons_of_ne_nil hne
  rw [segmentIdentifier]
  split
  · have hquoted : lexemes? (("\x60" ++ String.ofList (c :: more) ++ "\x60").toList ++ rest)
        = some (.name (c :: more) :: ls) := by
      have hname := scan_name (c :: more) rest [] fun hm =>
        (isFieldChar_ne_quote (hchars _ hm)).2 rfl
      rw [hrest] at hname
      simpa [scan] using hname
    refine ⟨.word ['.'] :: .name (c :: more) :: ls, ?_, rfl, ?_⟩
    · exact lexemes?_cons (by decide) (by decide) hquoted
    · intro l hl
      rcases List.mem_cons.mp hl with rfl | hl
      · rfl
      · rcases List.mem_cons.mp hl with rfl | hl
        · rfl
        · exact hparts l hl
  · have hword : ∀ x ∈ '.' :: c :: more, isFieldChar x = true := by
      intro x hx
      rcases List.mem_cons.mp hx with rfl | hx
      · decide
      · exact hchars x hx
    refine ⟨_, by rw [String.toList_ofList]; exact lexemes?_word hword hrest, ?_,
      isPathPart_foldr_glue List.mem_cons_self hparts⟩
    by_cases hs : startsWithWord ls = true
    · obtain ⟨cs, ms, rfl⟩ := exists_word hs
      rw [foldr_glue_of_word]
      rfl
    · rw [foldr_glue_of_apart (List.cons_ne_nil _ _) (by simpa using hs)]
      rfl

/-- The segments of a path with a dot in front of each. -/
theorem lexemes?_segments (segments : List (List Char)) (hne : segments ≠ [])
    (h : ∀ s ∈ segments, s ≠ [] ∧ ∀ c ∈ s, isFieldChar c = true) :
    ∃ ms, lexemes? ('.' :: (Text.joinWith "." (segments.map segmentIdentifier)).toList) = some ms ∧
      startsWithWord ms = true ∧ ∀ l ∈ ms, l.isPathPart = true := by
  induction segments with
  | nil => exact absurd rfl hne
  | cons s more ih =>
    obtain ⟨hs, hchars⟩ := h s List.mem_cons_self
    cases more with
    | nil =>
      have hlast := lexemes?_segment hs hchars (show lexemes? [] = some [] from rfl)
        fun l hl => absurd hl List.not_mem_nil
      rwa [List.append_nil] at hlast
    | cons t more =>
      obtain ⟨ls, hls, -, hparts⟩ :=
        ih (List.cons_ne_nil t more) fun x hx => h x (List.mem_cons_of_mem s hx)
      have hjoin : (Text.joinWith "." ((s :: t :: more).map segmentIdentifier)).toList
          = (segmentIdentifier s).toList
            ++ '.' :: (Text.joinWith "." ((t :: more).map segmentIdentifier)).toList := by
        rw [List.map_cons, Text.toList_joinWith_cons "." _ (by simp)]
        rfl
      rw [hjoin]
      exact lexemes?_segment hs hchars hls hparts

/-- The path of a field is one word, or starts with one, and holds no keyword and no literal. -/
theorem exists_scan_column {name path : String} (h : column name = .ok path) :
    ∃ ls, lexemes? path.toList = some ls ∧ (∀ l ∈ ls, l.isPathPart = true) ∧
      Opens path.toList := by
  rw [column] at h
  split at h
  · rename_i hname
    simp only [isFieldName, Bool.and_eq_true, List.all_eq_true, Bool.not_eq_true',
      List.isEmpty_eq_false_iff] at hname
    obtain ⟨hchars, hsegments⟩ := hname
    split at h
    · rename_i hhead
      cases h
      obtain ⟨rest, hname⟩ := List.head?_eq_some_iff.mp hhead
      refine ⟨[.word name.toList], ?_, ?_, ⟨'_', rest, hname, rfl⟩⟩
      · have hword := lexemes?_word hchars (show lexemes? [] = some [] from rfl)
        rwa [List.append_nil, foldr_glue_of_apart (by rw [hname]; exact List.cons_ne_nil _ _) rfl]
          at hword
      · intro l hl
        rw [List.mem_singleton.mp hl, Lexeme.isPathPart, hname]
        simp
    · cases h
      obtain ⟨ls, hls, hstart, hparts⟩ := lexemes?_segments (fieldSegments name)
        (Text.splitAt_ne_nil '.' name.toList)
        fun s hs => ⟨hsegments s hs, fun c hc => hchars c (Text.mem_of_mem_splitAt hs c hc)⟩
      have hpath : (payloadColumn ++ "." ++
          Text.joinWith "." ((fieldSegments name).map segmentIdentifier)).toList
          = payloadColumn.toList
            ++ '.' :: (Text.joinWith "." ((fieldSegments name).map segmentIdentifier)).toList := by
        simp
      rw [hpath]
      refine ⟨_, lexemes?_word (List.all_eq_true.mp (by decide)) hls, ?_, ⟨'e', _, rfl, rfl⟩⟩
      obtain ⟨cs, more, rfl⟩ := exists_word hstart
      intro l hl
      rw [foldr_glue_of_word] at hl
      rcases List.mem_cons.mp hl with rfl | hl
      · have hcs := hparts (.word cs) List.mem_cons_self
        simp only [Lexeme.isPathPart, List.contains_eq_mem, List.mem_append, Bool.or_eq_true,
          decide_eq_true_eq] at hcs ⊢
        rcases hcs with hcs | hcs
        · exact Or.inl (Or.inr hcs)
        · exact Or.inr (Or.inr hcs)
      · exact hparts l (List.mem_cons_of_mem _ hl)
  · exact absurd h (by simp)

/-- **The path of a field holds words and quoted identifiers only.** -/
theorem piece_column {name path : String} (h : column name = .ok path) (hname : name ∈ names)
    (d : Nat) : ∃ ls, Piece names d path.toList d [] ls := by
  obtain ⟨ls, hscan, hparts, -⟩ := exists_scan_column h
  refine ⟨ls, .flat hscan ?_ (fun l hl => isReserved_of_isPathPart (hparts l hl) d) ?_
    fun l hl => .field hname h hscan hl⟩
  · intro l hl
    constructor <;> rintro rfl <;> exact absurd (hparts _ hl) Bool.false_ne_true
  · refine List.filterMap_eq_nil_iff.mpr fun l hl => ?_
    cases l <;> first | rfl | exact absurd (hparts _ hl) Bool.false_ne_true

theorem opens_column {name path : String} (h : column name = .ok path) : Opens path.toList := by
  obtain ⟨ls, -, -, hopens⟩ := exists_scan_column h
  exact hopens

/-! ## Literals of values -/

/-- The texts that the literal of a value stands for. -/
def literalValues : Json → List String
  | .str s => [s]
  | _ => []

/-- **The literal of a value is one literal that stands for it if it is a text, and else a number
or a truth value.** -/
theorem piece_literal {v : Json} {text : String} (h : literal v = .ok text) (names : List String)
    (d : Nat) : (∃ ls, Piece names d text.toList d (literalValues v) ls) ∧ Ends text.toList := by
  cases v with
  | bool value =>
    cases h
    cases value
    · have hfalse : Piece names 0 "false".toList 0 [] (lexed "false") := .ofFixed (by decide)
      exact ⟨⟨_, hfalse.lift d⟩, ⟨"fals".toList, 'e', rfl, rfl⟩⟩
    · have htrue : Piece names 0 "true".toList 0 [] (lexed "true") := .ofFixed (by decide)
      exact ⟨⟨_, htrue.lift d⟩, ⟨"tru".toList, 'e', rfl, rfl⟩⟩
  | int i =>
    cases h
    exact ⟨piece_numeral names d (isNumeralChar_integer i),
      ends_numeral (integer_ne_nil i) (isNumeralChar_integer i)⟩
  | float x =>
    rw [literal] at h
    split at h
    · rename_i hx
      cases h
      obtain ⟨hne, hchars⟩ := isNumeralChar_text hx
      exact ⟨piece_numeral names d hchars, ends_numeral hne hchars⟩
    · exact absurd h (by simp)
  | str s =>
    cases h
    exact ⟨⟨_, piece_textLiteral names d s⟩, ends_textLiteral s⟩
  | _ => exact absurd h (by simp [literal])

/-- The texts in the literal of an instant: the instant and its zone. -/
def timeValues (t : Time.DateTime) : List String :=
  match t.toUtc? with
  | some utc => [utc.columnText, "UTC"]
  | none => []

theorem piece_timeLiteral {t : Time.DateTime} {text : String} (h : timeLiteral t = .ok text)
    (names : List String) :
    (∃ ls, Piece names 0 text.toList 0 (timeValues t) ls) ∧ Ends text.toList := by
  rw [timeLiteral] at h
  split at h
  · rename_i utc hutc
    cases h
    have hopen : Piece names 0 "toDateTime64(".toList 1 [] (lexed "toDateTime64(") :=
      .ofFixed (by decide)
    have hclose : Piece names 1 ", 3, 'UTC')".toList 0 ["UTC"] (lexed ", 3, 'UTC')") :=
      .ofFixed (by decide)
    have hall := (hopen.append (piece_textLiteral names 1 utc.columnText) (Or.inr rfl)).append
      hclose (Or.inr rfl)
    rw [timeValues, hutc, String.toList_append, String.toList_append]
    exact ⟨⟨_, hall⟩, Ends.append ⟨", 3, 'UTC'".toList, ')', rfl, rfl⟩ _⟩
  · exact absurd h (by simp)

/-! ## Conjuncts -/

/-- Texts that are conjuncts of a query, with the values of the literals in all of them. -/
inductive Conjuncts (names : List String) : List String → List String → Prop
  | nil : Conjuncts names [] []
  | cons {c : String} {cs vs ws : List String} {ls : List Lexeme}
    (hpiece : Piece names 0 c.toList 0 vs ls) (hopens : Opens c.toList) (hends : Ends c.toList)
    (hrest : Conjuncts names cs ws) : Conjuncts names (c :: cs) (vs ++ ws)

theorem Conjuncts.single {c : String} (hpiece : Piece names 0 c.toList 0 vs ls)
    (hopens : Opens c.toList) (hends : Ends c.toList) : Conjuncts names [c] vs := by
  have h := Conjuncts.cons hpiece hopens hends .nil
  rwa [List.append_nil] at h

theorem Conjuncts.append {cs ds : List String} (hc : Conjuncts names cs vs)
    (hd : Conjuncts names ds ws) : Conjuncts names (cs ++ ds) (vs ++ ws) := by
  induction hc with
  | nil => exact hd
  | cons hpiece hopens hends _ ih =>
    rw [List.cons_append, List.append_assoc]
    exact .cons hpiece hopens hends ih

/-- Conjuncts are read as such where they are joined by `AND`. -/
theorem Conjuncts.reading {cs : List String} (h : Conjuncts names cs vs) :
    ∃ lss, List.Forall₂ Conjunct cs lss ∧
      Reading names 0 (Text.joinWith " AND " cs).toList 0 vs (joined lss) := by
  induction h with
  | nil => exact ⟨[], .nil, rfl, rfl, rfl, fun l hl => absurd hl List.not_mem_nil⟩
  | @cons c cs vs ws ls hpiece hopens hends hrest ih =>
    obtain ⟨lss, hconjuncts, hreading⟩ := ih
    have hc : Conjunct c ls := ⟨hpiece.scanned, hpiece.depth, hpiece.quiet, hopens, hends⟩
    refine ⟨ls :: lss, .cons hc hconjuncts, ?_⟩
    cases hconjuncts with
    | nil =>
      cases hrest with
      | nil =>
        rw [List.append_nil]
        exact hpiece.toReading
    | @cons d ms ds mss hd hmore =>
      have hand : Reading names 0 " AND ".toList 0 [] andLexemes := .ofFixed (by decide)
      have hall := hpiece.toReading.append (hand.append hreading (Or.inl rfl)) (Or.inr rfl)
      rw [Text.toList_joinWith_cons " AND " c (List.cons_ne_nil d ds)]
      exact hall

end Telemetry.Sql
