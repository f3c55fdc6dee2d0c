import Mathlib.Data.List.Forall2
import Telemetry.Proofs.Sql.Lexer

/-!
# The conditions of a query

What a reader takes from the lexemes of a query: how deep in parentheses each of them stands, which
of them make up the `WHERE` part, and how that part falls apart at every `AND` outside of
parentheses. Keywords count in any case of their letters.

Main statement: conditions that are joined by `AND` are read back as they were
(`conditions_join`).
-/

namespace Telemetry.Sql

/-! ## Parentheses -/

/-- How many parentheses are open behind a lexeme; none if it closes one that is not open. -/
def Lexeme.depthAfter? (d : Nat) : Lexeme → Option Nat
  | .opening => some (d + 1)
  | .closing => if d = 0 then none else some (d - 1)
  | _ => some d

/-- How many parentheses are open behind some lexemes. -/
def depthAfter? : Nat → List Lexeme → Option Nat
  | d, [] => some d
  | d, l :: rest => l.depthAfter? d >>= fun e => depthAfter? e rest

/-- The lexemes with the number of parentheses around each of them. -/
def nested : Nat → List Lexeme → List (Nat × Lexeme)
  | _, [] => []
  | d, l :: rest =>
    let e := (l.depthAfter? d).getD 0
    (min d e, l) :: nested e rest

theorem depthAfter?_cons {d e : Nat} {l : Lexeme} {ls : List Lexeme}
    (h : depthAfter? d (l :: ls) = some e) :
    ∃ m, l.depthAfter? d = some m ∧ depthAfter? m ls = some e :=
  Option.bind_eq_some_iff.mp h

theorem depthAfter?_append {d e f : Nat} {ls ms : List Lexeme} (hl : depthAfter? d ls = some e)
    (hm : depthAfter? e ms = some f) : depthAfter? d (ls ++ ms) = some f := by
  induction ls generalizing d with
  | nil =>
    cases hl
    exact hm
  | cons l ls ih =>
    obtain ⟨m, hd, hr⟩ := depthAfter?_cons hl
    rw [List.cons_append, depthAfter?, hd]
    exact ih hr

theorem nested_append {d e : Nat} {ls : List Lexeme} (h : depthAfter? d ls = some e)
    (ms : List Lexeme) : nested d (ls ++ ms) = nested d ls ++ nested e ms := by
  -- Without `h` this fails: behind a parenthesis too many `nested` starts again at zero.
  induction ls generalizing d with
  | nil =>
    cases h
    rfl
  | cons l ls ih =>
    obtain ⟨m, hd, hr⟩ := depthAfter?_cons h
    simp only [List.cons_append, nested, hd, Option.getD_some, ih hr]

theorem Lexeme.depthAfter?_add {d e : Nat} {l : Lexeme} (h : l.depthAfter? d = some e) (k : Nat) :
    l.depthAfter? (d + k) = some (e + k) := by
  cases l with
  | opening =>
    cases h
    exact congrArg some (by omega)
  | closing =>
    rw [depthAfter?] at h ⊢
    split at h
    · cases h
    · cases h
      rw [if_neg (by omega)]
      exact congrArg some (by omega)
  | _ =>
    cases h
    rfl

/-- Inside of more parentheses everything stands deeper by as many. -/
theorem depthAfter?_add {d e : Nat} {ls : List Lexeme} (h : depthAfter? d ls = some e) (k : Nat) :
    depthAfter? (d + k) ls = some (e + k) ∧
      nested (d + k) ls = (nested d ls).map fun x => (x.1 + k, x.2) := by
  induction ls generalizing d with
  | nil =>
    cases h
    exact ⟨rfl, rfl⟩
  | cons l ls ih =>
    obtain ⟨m, hd, hr⟩ := depthAfter?_cons h
    have hk : l.depthAfter? (d + k) = some (m + k) := Lexeme.depthAfter?_add hd k
    obtain ⟨hdepth, hnested⟩ := ih hr
    constructor
    · rw [depthAfter?, hk]
      exact hdepth
    · simp only [nested, hd, hk, Option.getD_some, hnested, List.map_cons, Nat.add_min_add_right]

theorem map_snd_nested (d : Nat) (ls : List Lexeme) : (nested d ls).map Prod.snd = ls := by
  induction ls generalizing d with
  | nil => rfl
  | cons l ls ih => rw [nested, List.map_cons, ih]

/-! ## Keywords -/

/-- Whether a lexeme is a keyword outside of parentheses. -/
def isKeyword (keyword : String) : Nat × Lexeme → Bool
  | (0, .word cs) => cs.map Text.lowerChar == keyword.toList
  | _ => false

/-- The keywords that end the condition of a query. -/
def clauses : List String := ["group", "having", "order", "limit", "settings", "format", "union"]

/-- Whether a lexeme ends the condition of a query. -/
def isClause (x : Nat × Lexeme) : Bool := clauses.any fun keyword => isKeyword keyword x

/-- The keywords that give a query its shape. -/
def reserved : List String := "where" :: "and" :: "or" :: clauses

/-- Whether a lexeme is one of the keywords that give a query its shape. -/
def isReserved (x : Nat × Lexeme) : Bool := reserved.any fun keyword => isKeyword keyword x

theorem isKeyword_eq_false {x : Nat × Lexeme} (h : isReserved x = false) {keyword : String}
    (hk : keyword ∈ reserved) : isKeyword keyword x = false := by
  simpa using List.any_eq_false.mp h keyword hk

theorem isClause_eq_false {x : Nat × Lexeme} (h : isReserved x = false) : isClause x = false := by
  refine List.any_eq_false.mpr fun keyword hk => ?_
  simp [isKeyword_eq_false h (show keyword ∈ reserved by simp [reserved, hk])]

/-- Inside of parentheses nothing is a keyword. -/
theorem isReserved_of_pos {d : Nat} (h : 0 < d) (l : Lexeme) : isReserved (d, l) = false := by
  cases d with
  | zero => exact absurd h (Nat.lt_irrefl 0)
  | succ d => exact List.any_eq_false.mpr fun keyword _ => Bool.false_ne_true

/-- A word is no keyword if no keyword is made of its characters. -/
theorem isReserved_word {d : Nat} {cs : List Char}
    (h : ∀ keyword ∈ reserved, cs.map Text.lowerChar ≠ keyword.toList) :
    isReserved (d, .word cs) = false := by
  refine List.any_eq_false.mpr fun keyword hk => ?_
  cases d with
  | zero => simpa [isKeyword] using h keyword hk
  | succ d => exact Bool.false_ne_true

theorem isReserved_of_not_isWord {d : Nat} {l : Lexeme} (h : l.isWord = false) :
    isReserved (d, l) = false := by
  refine List.any_eq_false.mpr fun keyword _ => ?_
  cases d with
  | zero => cases l <;> first | exact Bool.false_ne_true | exact absurd h Bool.noConfusion
  | succ d => exact Bool.false_ne_true

/-! ## Conditions -/

/-- The lexemes between the keyword `WHERE` and the next clause. -/
def wherePart (xs : List (Nat × Lexeme)) : List (Nat × Lexeme) :=
  ((xs.dropWhile fun x => !isKeyword "where" x).drop 1).takeWhile fun x => !isClause x

/-- The text of some lexemes without the blanks around it. -/
def spelled (xs : List (Nat × Lexeme)) : String :=
  String.ofList (Text.strip (xs.flatMap fun x => x.2.chars))

/-- The conditions between the keywords `AND`. -/
def conditions (xs : List (Nat × Lexeme)) : List String :=
  (xs.splitOnP (isKeyword "and")).map spelled

/-! ## Texts without blanks at their ends -/

/-- A text starts with a character that is no blank. -/
def Opens (cs : List Char) : Prop := ∃ c rest, cs = c :: rest ∧ Text.isBlank c = false

/-- A text ends in a character that is no blank. -/
def Ends (cs : List Char) : Prop := ∃ front c, cs = front ++ [c] ∧ Text.isBlank c = false

theorem Opens.append {cs : List Char} (h : Opens cs) (ds : List Char) : Opens (cs ++ ds) := by
  obtain ⟨c, rest, rfl, hc⟩ := h
  exact ⟨c, rest ++ ds, rfl, hc⟩

theorem Ends.append {ds : List Char} (h : Ends ds) (cs : List Char) : Ends (cs ++ ds) := by
  obtain ⟨front, c, rfl, hc⟩ := h
  exact ⟨cs ++ front, c, (List.append_assoc cs front [c]).symm, hc⟩

theorem Ends.reverse {cs : List Char} (h : Ends cs) : Opens cs.reverse := by
  obtain ⟨front, c, rfl, hc⟩ := h
  exact ⟨c, front.reverse, List.reverse_concat, hc⟩

theorem dropWhile_blanks {cs : List Char} (h : Opens cs) (n : Nat) :
    (List.replicate n ' ' ++ cs).dropWhile Text.isBlank = cs := by
  obtain ⟨c, rest, rfl, hc⟩ := h
  induction n with
  | zero => rw [List.replicate_zero, List.nil_append, List.dropWhile_cons_of_neg (by simp [hc])]
  | succ n ih =>
    rw [List.replicate_succ, List.cons_append, List.dropWhile_cons_of_pos (by decide), ih]

theorem strip_blanks {cs : List Char} (ho : Opens cs) (he : Ends cs) (n k : Nat) :
    Text.strip (List.replicate n ' ' ++ cs ++ List.replicate k ' ') = cs := by
  unfold Text.strip Text.dropEnds
  rw [List.append_assoc, dropWhile_blanks (ho.append _), List.reverse_append, List.reverse_replicate,
    dropWhile_blanks he.reverse, List.reverse_reverse]

/-! ## Reading conditions back -/

/-- Blanks outside of parentheses. -/
def blanks (n : Nat) : List (Nat × Lexeme) := List.replicate n (0, .mark ' ')

theorem flatMap_chars_blanks (n : Nat) :
    (blanks n).flatMap (fun x => x.2.chars) = List.replicate n ' ' := by
  induction n with
  | zero => rfl
  | succ n ih =>
    rw [blanks, List.replicate_succ, List.flatMap_cons]
    exact congrArg (' ' :: ·) ih

theorem flatMap_chars_nested {cs : List Char} {ls : List Lexeme} (h : lexemes? cs = some ls)
    (d : Nat) : (nested d ls).flatMap (fun x => x.2.chars) = cs := by
  have hmap : (nested d ls).flatMap (fun x => x.2.chars) = ls.flatMap Lexeme.chars := by
    rw [← List.flatMap_map Prod.snd Lexeme.chars, map_snd_nested]
  rw [hmap, chars_of_scan h]
  rfl

theorem isReserved_of_mem_blanks {n : Nat} {x : Nat × Lexeme} (h : x ∈ blanks n) :
    isReserved x = false := by
  rw [List.eq_of_mem_replicate h]
  rfl

/-- A text that a reader takes for one conjunct. -/
structure Conjunct (c : String) (ls : List Lexeme) : Prop where
  scanned : lexemes? c.toList = some ls
  balanced : depthAfter? 0 ls = some 0
  quiet : ∀ x ∈ nested 0 ls, isReserved x = false
  opens : Opens c.toList
  ends : Ends c.toList

theorem Conjunct.spelled {c : String} {ls : List Lexeme} (h : Conjunct c ls) (n k : Nat) :
    spelled (blanks n ++ nested 0 ls ++ blanks k) = c := by
  unfold Sql.spelled
  rw [List.flatMap_append, List.flatMap_append, flatMap_chars_blanks, flatMap_chars_blanks,
    flatMap_chars_nested h.scanned, strip_blanks h.opens h.ends, String.ofList_toList]

theorem Conjunct.isKeyword_and {c : String} {ls : List Lexeme} (h : Conjunct c ls) (n k : Nat) :
    ∀ x ∈ blanks n ++ nested 0 ls ++ blanks k, isKeyword "and" x = false := by
  intro x hx
  refine isKeyword_eq_false ?_ (by decide : "and" ∈ reserved)
  rcases List.mem_append.mp hx with hx | hx
  · rcases List.mem_append.mp hx with hx | hx
    · exact isReserved_of_mem_blanks hx
    · exact h.quiet x hx
  · exact isReserved_of_mem_blanks hx

/-- The keyword between two conditions, with a blank on each side. -/
def andLexemes : List Lexeme := [.mark ' ', .word "AND".toList, .mark ' ']

theorem isReserved_andLexemes :
    ∀ x ∈ nested 0 andLexemes, isReserved x = true → isKeyword "and" x = true := by
  decide

theorem conditions_single {c : String} {ls : List Lexeme} (h : Conjunct c ls) (n k : Nat) :
    conditions (blanks n ++ nested 0 ls ++ blanks k) = [c] := by
  unfold conditions
  rw [List.splitOnP_eq_singleton (h.isKeyword_and n k), List.map_singleton, h.spelled]

theorem conditions_cons {c : String} {ls : List Lexeme} (h : Conjunct c ls) (n : Nat)
    (xs : List (Nat × Lexeme)) :
    conditions (blanks n ++ nested 0 ls ++ nested 0 andLexemes ++ xs)
      = c :: conditions (blanks 1 ++ xs) := by
  have hand : nested 0 andLexemes = blanks 1 ++ (0, .word "AND".toList) :: blanks 1 := rfl
  unfold conditions
  rw [hand, ← List.append_assoc, List.append_assoc _ _ xs, List.cons_append,
    List.splitOnP_append_cons_of_forall_mem (h.isKeyword_and n 1) _ rfl, List.map_cons, h.spelled]

/-- The lexemes of conditions that are joined by `AND`. -/
def joined : List (List Lexeme) → List Lexeme
  | [] => []
  | [ls] => ls
  | ls :: more => ls ++ (andLexemes ++ joined more)

theorem nested_joined_cons {c : String} {ls ms : List Lexeme} {mss : List (List Lexeme)}
    (hc : Conjunct c ls) :
    nested 0 (joined (ls :: ms :: mss))
      = nested 0 ls ++ nested 0 andLexemes ++ nested 0 (joined (ms :: mss)) := by
  rw [joined, nested_append hc.balanced, nested_append (e := 0) rfl, List.append_assoc]
  exact fun h => List.cons_ne_nil _ _ h

/-- Between joined conditions there is no keyword but `AND`. -/
theorem isReserved_joined {cs : List String} {lss : List (List Lexeme)}
    (h : List.Forall₂ Conjunct cs lss) :
    ∀ x ∈ nested 0 (joined lss), isReserved x = true → isKeyword "and" x = true := by
  induction h with
  | nil => exact fun x hx => absurd hx List.not_mem_nil
  | @cons c ls cs lss hc hrest ih =>
    intro x hx hr
    have hquiet : x ∉ nested 0 ls := fun hm => by simp [hc.quiet x hm] at hr
    cases hrest with
    | nil => exact absurd hx hquiet
    | cons hd hmore =>
      -- The keyword can only be the one that joins the first condition to the others.
      rw [nested_joined_cons hc, List.mem_append, List.mem_append] at hx
      rcases hx with (hx | hx) | hx
      · exact absurd hx hquiet
      · exact isReserved_andLexemes x hx hr
      · exact ih x hx hr

theorem isKeyword_joined {cs : List String} {lss : List (List Lexeme)}
    (h : List.Forall₂ Conjunct cs lss) {keyword : String} (hk : keyword ∈ reserved)
    (hne : keyword.toList ≠ "and".toList) :
    ∀ x ∈ nested 0 (joined lss), isKeyword keyword x = false := by
  intro x hx
  cases hkeyword : isKeyword keyword x with
  | false => rfl
  | true =>
    have hand := isReserved_joined h x hx (List.any_eq_true.mpr ⟨keyword, hk, hkeyword⟩)
    match x with
    | (0, .word cs) => exact absurd ((beq_iff_eq.mp hkeyword).symm.trans (beq_iff_eq.mp hand)) hne

theorem isClause_joined {cs : List String} {lss : List (List Lexeme)}
    (h : List.Forall₂ Conjunct cs lss) : ∀ x ∈ nested 0 (joined lss), isClause x = false := by
  have hclauses : ∀ keyword ∈ clauses, keyword ∈ reserved ∧ keyword.toList ≠ "and".toList := by
    decide
  intro x hx
  refine List.any_eq_false.mpr fun keyword hk => ?_
  obtain ⟨hreserved, hne⟩ := hclauses keyword hk
  simp [isKeyword_joined h hreserved hne x hx]

/-- **Conditions that are joined by `AND` are read back as they were.** -/
theorem conditions_join {cs : List String} {lss : List (List Lexeme)}
    (h : List.Forall₂ Conjunct cs lss) (hne : cs ≠ []) (n k : Nat) :
    conditions (blanks n ++ nested 0 (joined lss) ++ blanks k) = cs := by
  -- The number of blanks in front is generalized, since each `AND` leaves one to the next condition.
  induction h generalizing n with
  | nil => exact absurd rfl hne
  | @cons c ls cs lss hc hrest ih =>
    cases hrest with
    | nil => exact conditions_single hc n k
    | cons hd hmore =>
      rw [nested_joined_cons hc, ← List.append_assoc, ← List.append_assoc, List.append_assoc _ _
        (blanks k), conditions_cons hc, ← List.append_assoc, ih (List.cons_ne_nil _ _)]

/-! ## Whole queries -/

/-- The keyword in front of the conditions, with a blank on each side. -/
def whereLexemes : List Lexeme := [.mark ' ', .word "WHERE".toList, .mark ' ']

/-- The clause behind the conditions: nothing, or a blank and what begins with a clause's keyword. -/
inductive Clause : Nat → List Lexeme → Prop
  | nothing : Clause 0 []
  | clause {cs : List Char} {rest : List Lexeme} (h : isClause (0, .word cs) = true) :
    Clause 1 (.mark ' ' :: .word cs :: rest)

/-- The conditions of a query stand between its first `WHERE` and the next clause. -/
theorem wherePart_query {front body tail : List Lexeme} {k : Nat}
    (hfront : depthAfter? 0 front = some 0) (hquiet : ∀ x ∈ nested 0 front, isReserved x = false)
    (hbody : depthAfter? 0 body = some 0) (hclause : ∀ x ∈ nested 0 body, isClause x = false)
    (htail : Clause k tail) :
    wherePart (nested 0 (front ++ (whereLexemes ++ (body ++ tail))))
      = blanks 1 ++ nested 0 body ++ blanks k := by
  have hwhere : ∀ x ∈ nested 0 front ++ blanks 1, (!isKeyword "where" x) = true := by
    intro x hx
    have hr : isReserved x = false := by
      rcases List.mem_append.mp hx with hx | hx
      · exact hquiet x hx
      · exact isReserved_of_mem_blanks hx
    simp [isKeyword_eq_false hr (by decide : "where" ∈ reserved)]
  have hkept : ∀ x ∈ blanks 1 ++ nested 0 body, (!isClause x) = true := by
    intro x hx
    rcases List.mem_append.mp hx with hx | hx
    · simp [isClause_eq_false (isReserved_of_mem_blanks hx)]
    · simp [hclause x hx]
  have hsplit : nested 0 (front ++ (whereLexemes ++ (body ++ tail)))
      = (nested 0 front ++ blanks 1) ++ (0, .word "WHERE".toList)
        :: ((blanks 1 ++ nested 0 body) ++ nested 0 tail) := by
    rw [nested_append hfront, nested_append (e := 0) rfl, nested_append hbody]
    simp [whereLexemes, nested, blanks, Lexeme.depthAfter?]
  unfold wherePart
  rw [hsplit, List.dropWhile_append_of_pos hwhere, List.dropWhile_cons_of_neg (by decide),
    List.drop_one, List.tail_cons, List.takeWhile_append_of_pos hkept]
  cases htail with
  | nothing => rfl
  | @clause cs rest hc =>
    have hstop : (nested 0 (.mark ' ' :: .word cs :: rest)).takeWhile (fun x => !isClause x)
        = blanks 1 := by
      simp only [nested, Lexeme.depthAfter?, Option.getD_some, Nat.min_self]
      rw [List.takeWhile_cons_of_pos (by decide), List.takeWhile_cons_of_neg (by simp [hc])]
      rfl
    rw [hstop]

end Telemetry.Sql
