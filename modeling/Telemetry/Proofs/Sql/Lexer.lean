import Telemetry.Sql.Field
import Telemetry.Text.Blank

/-!
# Reading the text of a query

A reader of queries that knows nothing of how their texts are made. It cuts a text into lexemes:
literals between single quotes, in which a backslash keeps the character behind it, identifiers
between backquotes, words, parentheses and single marks. From the lexemes it takes the condition of
the query, and cuts that at every `AND` that stands outside quotes and parentheses.

Main statements: a text is read piece by piece (`scan_append`), and no character is lost
(`chars_of_scan`).
-/

namespace Telemetry.Sql

/-! ## Lexemes -/

/-- A lexeme of a query. -/
inductive Lexeme
  /-- A literal, as it is written between its quotes. -/
  | literal (raw : List Char)
  /-- An identifier between backquotes. -/
  | name (raw : List Char)
  /-- A keyword, a number or a path of identifiers: the dots of a path belong to the word. -/
  | word (cs : List Char)
  | opening
  | closing
  /-- Any other character. -/
  | mark (c : Char)
deriving DecidableEq, Repr

namespace Lexeme

/-- The characters of a lexeme. -/
def chars : Lexeme → List Char
  | .literal raw => '\'' :: (raw ++ ['\''])
  | .name raw => '\x60' :: (raw ++ ['\x60'])
  | .word cs => cs
  | .opening => ['(']
  | .closing => [')']
  | .mark c => [c]

/-- Whether a lexeme is a word. -/
def isWord : Lexeme → Bool
  | .word _ => true
  | _ => false

end Lexeme

/-- What a literal stands for: a backslash keeps the character behind it. -/
def unescape : List Char → List Char
  | [] => []
  | '\\' :: c :: rest => c :: unescape rest
  | c :: rest => c :: unescape rest

/-- What a lexeme stands for, if it is a literal. -/
def Lexeme.value? : Lexeme → Option String
  | .literal raw => some (String.ofList (unescape raw))
  | _ => none

/-! ## Scanning -/

/-- Where a reader stands, with what it has read of a literal or an identifier. -/
inductive Place
  | outside
  | literal (read : List Char)
  /-- In a literal, behind a backslash. -/
  | escape (read : List Char)
  | name (read : List Char)

/-- What has been read of the lexeme in which a reader stands. -/
def Place.chars : Place → List Char
  | .outside => []
  | .literal read => '\'' :: read
  | .escape read => '\'' :: read
  | .name read => '\x60' :: read

/-- The lexeme of a character that is part of no word. -/
def Lexeme.ofMark (c : Char) : Lexeme :=
  if c = '(' then .opening else if c = ')' then .closing else .mark c

/-- Puts a character of a word in front of the lexemes behind it. -/
def glue (c : Char) : List Lexeme → List Lexeme
  | .word cs :: more => .word (c :: cs) :: more
  | ls => .word [c] :: ls

/-- Puts a character outside quotes in front of the lexemes behind it. -/
def prepend (c : Char) (ls : List Lexeme) : List Lexeme :=
  if isFieldChar c then glue c ls else .ofMark c :: ls

/-- The lexemes of a text; none if a literal or an identifier is not closed. -/
def scan : Place → List Char → Option (List Lexeme)
  | .outside, [] => some []
  | _, [] => none
  | .outside, c :: rest =>
    if c = '\'' then scan (.literal []) rest
    else if c = '\x60' then scan (.name []) rest
    else (scan .outside rest).map (prepend c)
  | .literal read, c :: rest =>
    if c = '\'' then (scan .outside rest).map (.literal read :: ·)
    else if c = '\\' then scan (.escape (read ++ [c])) rest
    else scan (.literal (read ++ [c])) rest
  | .escape read, c :: rest => scan (.literal (read ++ [c])) rest
  | .name read, c :: rest =>
    if c = '\x60' then (scan .outside rest).map (.name read :: ·)
    else scan (.name (read ++ [c])) rest

/-- The lexemes of a text that stands by itself. -/
abbrev lexemes? (cs : List Char) : Option (List Lexeme) := scan .outside cs

/-! ## Reading piece by piece -/

/-- Whether some lexemes end in a word. -/
def endsInWord (ls : List Lexeme) : Bool := ls.getLast?.any Lexeme.isWord

/-- Whether some lexemes start with a word. -/
def startsWithWord (ls : List Lexeme) : Bool := ls.head?.any Lexeme.isWord

/-- No word is cut in two where the second text is put behind the first. -/
def Apart (ls ms : List Lexeme) : Prop := endsInWord ls = false ∨ startsWithWord ms = false

theorem endsInWord_cons {ls : List Lexeme} (h : ls ≠ []) (l : Lexeme) :
    endsInWord (l :: ls) = endsInWord ls := by
  cases ls with
  | nil => exact absurd rfl h
  | cons m ls => rw [endsInWord, List.getLast?_cons_cons, endsInWord]

theorem endsInWord_glue {c : Char} {ls : List Lexeme} (h : ls ≠ []) :
    endsInWord (glue c ls) = endsInWord ls := by
  cases ls with
  | nil => exact absurd rfl h
  | cons l ls =>
    cases l with
    | word cs =>
      cases ls with
      | nil => rfl
      | cons m ls =>
        rw [glue, endsInWord_cons (List.cons_ne_nil m ls), endsInWord_cons (List.cons_ne_nil m ls)]
    | _ => exact endsInWord_cons (List.cons_ne_nil _ _) _

theorem endsInWord_prepend {c : Char} {ls : List Lexeme} (h : ls ≠ []) :
    endsInWord (prepend c ls) = endsInWord ls := by
  unfold prepend
  split
  · exact endsInWord_glue h
  · exact endsInWord_cons h _

theorem glue_append {c : Char} {ls : List Lexeme} (h : ls ≠ []) (ms : List Lexeme) :
    glue c (ls ++ ms) = glue c ls ++ ms := by
  cases ls with
  | nil => exact absurd rfl h
  | cons l ls => cases l <;> rfl

theorem glue_of_apart {c : Char} {ms : List Lexeme} (h : startsWithWord ms = false) :
    glue c ms = .word [c] :: ms := by
  cases ms with
  | nil => rfl
  | cons m ms => cases m <;> first | rfl | exact absurd h (by simp [startsWithWord, Lexeme.isWord])

theorem prepend_append {c : Char} {ls ms : List Lexeme} (h : Apart (prepend c ls) ms) :
    prepend c (ls ++ ms) = prepend c ls ++ ms := by
  unfold prepend at h ⊢
  split
  · rename_i hc
    rw [if_pos hc] at h
    cases ls with
    | cons l ls => exact glue_append (List.cons_ne_nil l ls) ms
    | nil => exact glue_of_apart (h.resolve_left (by simp [glue, endsInWord, Lexeme.isWord]))
  · rfl

theorem Apart.of_cons {l : Lexeme} {ls ms : List Lexeme} (h : Apart (l :: ls) ms) :
    Apart ls ms := by
  by_cases hls : ls = []
  · exact Or.inl (by rw [hls]; rfl)
  · rwa [Apart, endsInWord_cons hls] at h

theorem Apart.of_prepend {c : Char} {ls ms : List Lexeme} (h : Apart (prepend c ls) ms) :
    Apart ls ms := by
  by_cases hls : ls = []
  · exact Or.inl (by rw [hls]; rfl)
  · rwa [Apart, endsInWord_prepend hls] at h

/-- A text is read piece by piece, as long as no word is cut in two. -/
theorem scan_append {p : Place} {a b : List Char} {ls ms : List Lexeme}
    (ha : scan p a = some ls) (hb : lexemes? b = some ms) (h : Apart ls ms) :
    scan p (a ++ b) = some (ls ++ ms) := by
  -- On the first text, for a reader at any place: inside quotes the second text is not reached, and
  -- `Apart` says that no word runs on from the first into it.
  induction a generalizing p ls with
  | nil =>
    cases p with
    | outside =>
      cases ha
      exact hb
    | _ => cases ha
  | cons c rest ih =>
    rw [List.cons_append]
    cases p with
    | outside =>
      rw [scan] at ha ⊢
      by_cases hq : c = '\''
      · rw [if_pos hq] at ha ⊢
        exact ih ha h
      · rw [if_neg hq] at ha ⊢
        by_cases hn : c = '\x60'
        · rw [if_pos hn] at ha ⊢
          exact ih ha h
        · rw [if_neg hn] at ha ⊢
          obtain ⟨ls', hr, rfl⟩ := Option.map_eq_some_iff.mp ha
          rw [ih hr h.of_prepend, Option.map_some, prepend_append h]
    | literal read =>
      rw [scan] at ha ⊢
      by_cases hq : c = '\''
      · rw [if_pos hq] at ha ⊢
        obtain ⟨ls', hr, rfl⟩ := Option.map_eq_some_iff.mp ha
        rw [ih hr h.of_cons]
        rfl
      · rw [if_neg hq] at ha ⊢
        by_cases hb : c = '\\'
        · rw [if_pos hb] at ha ⊢
          exact ih ha h
        · rw [if_neg hb] at ha ⊢
          exact ih ha h
    | escape read => exact ih (p := .literal (read ++ [c])) ha h
    | name read =>
      rw [scan] at ha ⊢
      by_cases hn : c = '\x60'
      · rw [if_pos hn] at ha ⊢
        obtain ⟨ls', hr, rfl⟩ := Option.map_eq_some_iff.mp ha
        rw [ih hr h.of_cons]
        rfl
      · rw [if_neg hn] at ha ⊢
        exact ih ha h

theorem lexemes?_cons {c : Char} {rest : List Char} {ls : List Lexeme} (hq : c ≠ '\'')
    (hn : c ≠ '\x60') (h : lexemes? rest = some ls) :
    lexemes? (c :: rest) = some (prepend c ls) := by
  rw [lexemes?, scan, if_neg hq, if_neg hn]
  exact Option.map_eq_some_iff.mpr ⟨ls, h, rfl⟩

/-! ## No character is lost -/

theorem flatMap_chars_prepend (c : Char) (ls : List Lexeme) :
    (prepend c ls).flatMap Lexeme.chars = c :: ls.flatMap Lexeme.chars := by
  unfold prepend
  split
  · unfold glue
    split <;> rfl
  · unfold Lexeme.ofMark
    split
    · rename_i hc
      rw [hc]
      rfl
    · split
      · rename_i hc
        rw [hc]
        rfl
      · rfl

/-- The lexemes of a text are all of it. -/
theorem chars_of_scan {p : Place} {cs : List Char} {ls : List Lexeme} (h : scan p cs = some ls) :
    ls.flatMap Lexeme.chars = p.chars ++ cs := by
  induction cs generalizing p ls with
  | nil => cases p <;> cases h <;> rfl
  | cons c rest ih =>
    cases p with
    | outside =>
      rw [scan] at h
      split at h
      · rename_i hc
        rw [ih h, hc]
        rfl
      · split at h
        · rename_i hc
          rw [ih h, hc]
          rfl
        · obtain ⟨ls', hr, rfl⟩ := Option.map_eq_some_iff.mp h
          rw [flatMap_chars_prepend, ih hr]
          rfl
    | literal read =>
      rw [scan] at h
      split at h
      · rename_i hc
        obtain ⟨ls', hr, rfl⟩ := Option.map_eq_some_iff.mp h
        rw [List.flatMap_cons, ih hr, hc]
        simp [Lexeme.chars, Place.chars]
      · split at h <;> rw [ih h] <;> simp [Place.chars]
    | escape read =>
      rw [scan] at h
      rw [ih h]
      simp [Place.chars]
    | name read =>
      rw [scan] at h
      split at h
      · rename_i hc
        obtain ⟨ls', hr, rfl⟩ := Option.map_eq_some_iff.mp h
        rw [List.flatMap_cons, ih hr, hc]
        simp [Lexeme.chars, Place.chars]
      · rw [ih h]
        simp [Place.chars]

end Telemetry.Sql
