import Telemetry.Proofs.Json.Numbers
import Telemetry.Proofs.Json.Strings

/-!
# Reading values

Every text of a value is read as that value, as long as the value keeps to the limits; otherwise
reading fails. There is no third case in which something else is read.

Main statement: `Written.answers`.
-/

namespace Telemetry.Json

variable {α ε : Type} {p q : Prop}

/-! ## Conditional answers -/

/-- What is answered if a condition holds; nothing is answered if it does not. -/
structure Answers (p : Prop) (x : Except ε α) (a : α) : Prop where
  ok : p → x = .ok a
  error : ¬ p → ∃ e, x = .error e

namespace Answers

variable {β ε' : Type} {x : Except ε α} {y : Except ε' β} {a : α} {b : β}

theorem of_eq (hp : p) (h : x = .ok a) : Answers p x a := ⟨fun _ => h, fun hn => absurd hp hn⟩

theorem congr (h : Answers p x a) (hpq : p ↔ q) : Answers q x a :=
  ⟨fun hq => h.ok (hpq.mpr hq), fun hq => h.error fun hp => hq (hpq.mp hp)⟩

/-- A step that goes on with what was answered and passes failures on. -/
theorem through (h : Answers p x a) (hok : x = .ok a → y = .ok b)
    (herror : ∀ e, x = .error e → ∃ e', y = .error e') : Answers p y b := by
  refine ⟨fun hp => hok (h.ok hp), fun hp => ?_⟩
  obtain ⟨e, he⟩ := h.error hp
  exact herror e he

/-- The same, where a second condition decides how it goes on. -/
theorem andThen (h : Answers p x a) (hok : x = .ok a → Answers q y b)
    (herror : ∀ e, x = .error e → ∃ e', y = .error e') : Answers (p ∧ q) y b := by
  refine ⟨fun hpq => (hok (h.ok hpq.1)).ok hpq.2, fun hpq => ?_⟩
  by_cases hp : p
  · exact (hok (h.ok hp)).error fun hq => hpq ⟨hp, hq⟩
  · obtain ⟨e, he⟩ := h.error hp
    exact herror e he

/-- A condition that was met holds. -/
theorem of_ok {b : α} (h : Answers p x a) (hx : x = .ok b) : p ∧ a = b := by
  by_cases hp : p
  · exact ⟨hp, Except.ok.inj ((h.ok hp).symm.trans hx)⟩
  · obtain ⟨e, he⟩ := h.error hp
    exact nomatch he.symm.trans hx

end Answers

/-! ## Blanks -/

variable {cs gap rest w : List Char}

theorem Gap.isSpace (hgap : Gap gap) : ∀ c ∈ gap, Json.isSpace c = true := by
  intro c hc
  rcases hgap c hc with rfl | rfl | rfl <;> rfl

theorem skipSpace_gap (hgap : Gap gap) (cs : List Char) :
    skipSpace (gap ++ cs) = skipSpace cs :=
  List.dropWhile_append_of_pos hgap.isSpace

theorem skipSpace_cons {c : Char} (hc : isSpace c = false) (cs : List Char) :
    skipSpace (c :: cs) = c :: cs :=
  List.dropWhile_cons_of_neg (by simp [hc])

theorem skipSpace_length_le (cs : List Char) : (skipSpace cs).length ≤ cs.length :=
  (List.dropWhile_sublist isSpace).length_le

/-- Less is left behind a character that is no blank, which is what the fuel counts. -/
theorem skipSpace_length_lt {c : Char} (hc : isSpace c = false) (front cs : List Char) :
    (skipSpace cs).length < (skipSpace (front ++ c :: cs)).length := by
  have hle := skipSpace_length_le cs
  induction front with
  | nil =>
    rw [List.nil_append, skipSpace_cons hc]
    exact Nat.lt_succ_of_le hle
  | cons d front ih =>
    cases hd : isSpace d with
    | true =>
      have hskip : skipSpace (d :: front ++ c :: cs) = skipSpace (front ++ c :: cs) :=
        List.dropWhile_cons_of_pos hd
      rw [hskip]
      exact ih
    | false =>
      rw [List.cons_append, skipSpace_cons hd, List.length_cons, List.length_append,
        List.length_cons]
      omega

theorem stops_of_gap (hgap : Gap gap) : Stops gap := by
  rintro c rest rfl
  exact Or.inl (hgap.isSpace c List.mem_cons_self)

theorem stops_gap (hgap : Gap gap) {c : Char} (hc : IsDelimiter c) (cs : List Char) :
    Stops (gap ++ c :: cs) := by
  intro d more h
  cases gap with
  | nil =>
    obtain ⟨rfl, -⟩ := List.cons.inj h
    exact Or.inr hc
  | cons e gap =>
    obtain ⟨rfl, -⟩ := List.cons.inj h
    exact Or.inl (hgap.isSpace e List.mem_cons_self)

/-! ## First characters -/

/-- A character that may stand first in a value. -/
def IsFirst (c : Char) : Prop := isSpace c = false ∧ c ≠ ']' ∧ c ≠ '}'

instance (c : Char) : Decidable (IsFirst c) :=
  inferInstanceAs (Decidable (isSpace c = false ∧ c ≠ ']' ∧ c ≠ '}'))

theorem isFirst_digit {c : Char} (hc : Text.isDigit c = true) : IsFirst c := by
  obtain ⟨k, hk, rfl⟩ := exists_of_isDigit hc
  unfold IsFirst
  revert k
  decide

/-- A number starts with a digit, or with a minus sign and a digit. -/
theorem Number.text_head (n : Number) (rest : List Char) :
    ∃ c more, Text.isDigit c = true ∧
      (n.text ++ rest = c :: more ∨ n.text ++ rest = '-' :: c :: more) := by
  obtain ⟨c, more, hbody, hc⟩ := n.body_head rest
  refine ⟨c, more, hc, ?_⟩
  unfold Number.text
  split
  · exact Or.inr (congrArg ('-' :: ·) hbody)
  · exact Or.inl hbody

theorem Written.head {v : Json} (h : Written v w) (rest : List Char) :
    ∃ c more, w ++ rest = c :: more ∧ IsFirst c := by
  have hnumber (n : Number) : ∃ c more, n.text ++ rest = c :: more ∧ IsFirst c := by
    obtain ⟨c, more, hc, htext | htext⟩ := n.text_head rest
    · exact ⟨c, more, htext, isFirst_digit hc⟩
    · exact ⟨'-', c :: more, htext, by decide⟩
  cases h with
  | integer n _ => exact hnumber n
  | decimal n _ _ => exact hnumber n
  | _ => exact ⟨_, _, rfl, by decide⟩

/-- Blanks in front of a value are skipped. -/
theorem Written.skipSpace {v : Json} (h : Written v w) (hgap : Gap gap) (rest : List Char) :
    Json.skipSpace (gap ++ (w ++ rest)) = w ++ rest := by
  obtain ⟨c, more, hcs, hc⟩ := h.head rest
  rw [skipSpace_gap hgap, hcs, skipSpace_cons hc.1]

/-! ## Values without parts -/

theorem isDigit_ne {a c : Char} (hc : Text.isDigit c = true) (ha : Text.isDigit a = false) :
    a ≠ c := by
  rintro rfl
  rw [hc] at ha
  exact nomatch ha

theorem scalar_digit {c : Char} (hc : Text.isDigit c = true) (cs : List Char) :
    scalar (c :: cs) = number (c :: cs) := by
  have hne (a : Char) (ha : Text.isDigit a = false := by decide) : a ≠ c := isDigit_ne hc ha
  simp [scalar, afterWord?, hne 'n', hne 't', hne 'f', hne 'N', hne 'I', hne '-']

theorem scalar_minus {c : Char} (hc : Text.isDigit c = true) (cs : List Char) :
    scalar ('-' :: c :: cs) = number ('-' :: c :: cs) := by
  have hne : 'I' ≠ c := isDigit_ne hc (by decide)
  simp [scalar, afterWord?, hne]

/-- A number is tried as a number. -/
theorem scalar_text (n : Number) (rest : List Char) :
    scalar (n.text ++ rest) = number (n.text ++ rest) := by
  obtain ⟨c, more, hc, htext | htext⟩ := n.text_head rest
  · rw [htext, scalar_digit hc]
  · rw [htext, scalar_minus hc]

theorem value_scalar {c : Char} (hquote : c ≠ '"') (hbracket : c ≠ '[') (hbrace : c ≠ '{')
    (depth : Nat) (cs : List Char) : value (depth + 1) (c :: cs) = scalar (c :: cs) := by
  rw [value]
  all_goals simp [hquote, hbracket, hbrace]

theorem value_text (depth : Nat) (n : Number) (hrest : Stops rest) :
    value (depth + 1) (n.text ++ rest) = n.reading rest := by
  have hscalar : value (depth + 1) (n.text ++ rest) = scalar (n.text ++ rest) := by
    obtain ⟨c, more, hc, htext | htext⟩ := n.text_head rest
    · rw [htext]
      exact value_scalar (isDigit_ne hc (by decide)).symm (isDigit_ne hc (by decide)).symm
        (isDigit_ne hc (by decide)).symm depth more
    · rw [htext]
      exact value_scalar (by decide) (by decide) (by decide) depth (c :: more)
  rw [hscalar, scalar_text, n.number_text hrest]

theorem Number.natAbs_integer (n : Number) : n.integer.natAbs = Text.decimalValue n.whole := by
  unfold integer
  split <;> simp

theorem value_integer (depth : Nat) {n : Number} (h : n.IsInteger) (hrest : Stops rest) :
    Answers (Fits (depth + 1) (.int n.integer)) (value (depth + 1) (n.text ++ rest))
      (.int n.integer, rest) := by
  have hlength : n.whole.length ≤ maxIntegerDigits ↔ Fits (depth + 1) (.int n.integer) := by
    unfold Fits
    rw [n.natAbs_integer]
    exact n.isWhole.length_le_iff (by decide)
  rw [value_text depth n hrest]
  unfold Number.reading
  rw [h.1, h.2]
  refine Answers.congr ⟨fun hle => ?_, fun hlong => ?_⟩ hlength
  · exact if_neg (Nat.not_lt.mpr hle)
  · exact ⟨_, if_pos (Nat.lt_of_not_le hlong)⟩

theorem value_decimal (depth : Nat) {n : Number} (h : ¬ n.IsInteger) {x : Double}
    (hx : Numeral.readDouble? (String.ofList n.text) = some x) (hrest : Stops rest) :
    value (depth + 1) (n.text ++ rest) = .ok (.float x, rest) := by
  have hparts : ¬ (n.fraction.isNone && n.exponent.isNone) = true := by
    rw [Bool.and_eq_true, Option.isNone_iff_eq_none, Option.isNone_iff_eq_none]
    exact h
  have hdouble : n.double = x := Option.some.inj ((readDouble?_text n).symm.trans hx)
  rw [value_text depth n hrest, Number.reading, if_neg hparts, hdouble]

theorem value_null (depth : Nat) (rest : List Char) :
    value (depth + 1) ("null".toList ++ rest) = .ok (.null, rest) := rfl

theorem value_true (depth : Nat) (rest : List Char) :
    value (depth + 1) ("true".toList ++ rest) = .ok (.bool true, rest) := rfl

theorem value_false (depth : Nat) (rest : List Char) :
    value (depth + 1) ("false".toList ++ rest) = .ok (.bool false, rest) := rfl

theorem value_string (depth : Nat) {s : List Char} (h : WrittenChars s w) (rest : List Char) :
    value (depth + 1) ('"' :: (w ++ '"' :: rest)) = .ok (.str (String.ofList s), rest) := by
  rw [value, string_written h]

/-! ## Arrays -/

section Items

variable {parse : List Char → Reading Json} {fuel : Nat} {v : Json} {vs : List Json}
  {after next : List Char}

theorem items_last (hv : Answers p (parse cs) (v, after)) (hafter : skipSpace after = ']' :: rest) :
    Answers p (items parse (fuel + 1) cs) ([v], rest) := by
  refine hv.through (fun hok => ?_) fun e he => ⟨e, by rw [items, he]⟩
  rw [items, hok]
  dsimp only
  rw [hafter]
  rfl

theorem items_more (hv : Answers p (parse cs) (v, after)) (hafter : skipSpace after = ',' :: next)
    (hvs : Answers q (items parse fuel (skipSpace next)) (vs, rest)) :
    Answers (p ∧ q) (items parse (fuel + 1) cs) (v :: vs, rest) := by
  refine hv.andThen (fun hok => ?_) fun e he => ⟨e, by rw [items, he]⟩
  rw [items, hok]
  dsimp only
  rw [hafter]
  exact hvs.through (fun hmore => by simp only [hmore]) fun e he => ⟨e, by simp only [he]⟩

theorem value_array {depth : Nat} {c : Char} {more : List Char} (hskip : skipSpace cs = c :: more)
    (hc : c ≠ ']')
    (h : Answers p (items (value depth) ((c :: more).length + 1) (c :: more)) (vs, rest)) :
    Answers p (value (depth + 1) ('[' :: cs)) (.arr vs, rest) := by
  rw [value, hskip]
  split
  · rename_i heq
    exact absurd (List.cons.inj heq).1 hc
  · exact h.through (fun hok => by rw [hok]) fun e he => ⟨e, by rw [he]⟩

end Items

/-! ## Objects -/

section Members

variable {parse : List Char → Reading Json} {fuel : Nat} {name : String} {v : Json} {fs : Object}
  {afterName after next : List Char}

theorem members_last (hname : fieldName cs = .ok (name, afterName))
    (hv : Answers p (parse afterName) (v, after)) (hafter : skipSpace after = '}' :: rest) :
    Answers p (members parse (fuel + 1) cs) ([(name, v)], rest) := by
  rw [members, hname]
  refine hv.through (fun hok => ?_) fun e he => ⟨e, by dsimp only; rw [he]⟩
  dsimp only
  rw [hok]
  dsimp only
  rw [hafter]
  rfl

theorem members_more (hname : fieldName cs = .ok (name, afterName))
    (hv : Answers p (parse afterName) (v, after)) (hafter : skipSpace after = ',' :: next)
    (hfs : Answers q (members parse fuel (skipSpace next)) (fs, rest)) :
    Answers (p ∧ q) (members parse (fuel + 1) cs) ((name, v) :: fs, rest) := by
  rw [members, hname]
  refine hv.andThen (fun hok => ?_) fun e he => ⟨e, by dsimp only; rw [he]⟩
  dsimp only
  rw [hok]
  dsimp only
  rw [hafter]
  exact hfs.through (fun hmore => by simp only [hmore]) fun e he => ⟨e, by simp only [he]⟩

theorem value_object {depth : Nat} {c : Char} {more : List Char} (hskip : skipSpace cs = c :: more)
    (hc : c ≠ '}')
    (h : Answers p (members (value depth) ((c :: more).length + 1) (c :: more)) (fs, rest)) :
    Answers p (value (depth + 1) ('{' :: cs)) (.obj (Assoc.ofList fs), rest) := by
  rw [value, hskip]
  split
  · rename_i heq
    exact absurd (List.cons.inj heq).1 hc
  · exact h.through (fun hok => by rw [hok]) fun e he => ⟨e, by rw [he]⟩

theorem fieldName_text {name key before afterName beforeValue : List Char} (hbefore : Gap before)
    (hname : WrittenChars name key) (hafterName : Gap afterName) (hbeforeValue : Gap beforeValue)
    (hv : Written v w) (rest : List Char) :
    fieldName (skipSpace (before ++
        '"' :: (key ++ '"' :: (afterName ++ ':' :: (beforeValue ++ (w ++ rest))))))
      = .ok (String.ofList name, w ++ rest) := by
  rw [skipSpace_gap hbefore, skipSpace_cons (by decide), fieldName, string_written hname]
  dsimp only
  rw [skipSpace_gap hafterName, skipSpace_cons (by decide)]
  exact congrArg (fun more => Except.ok (String.ofList name, more)) (hv.skipSpace hbeforeValue rest)

end Members

/-! ## All values -/

theorem WrittenItems.head {vs : List Json} (h : WrittenItems vs w) (rest : List Char) :
    ∃ c more, skipSpace (w ++ rest) = c :: more ∧ IsFirst c := by
  have hfirst {v : Json} {before u : List Char} (hbefore : Gap before) (hv : Written v u)
      (tail : List Char) : ∃ c more, skipSpace (before ++ (u ++ tail)) = c :: more ∧ IsFirst c := by
    rw [hv.skipSpace hbefore]
    exact hv.head tail
  cases h with
  | last hbefore hv _ =>
    rw [List.append_assoc, List.append_assoc]
    exact hfirst hbefore hv _
  | more hbefore hv _ _ =>
    rw [List.append_assoc, List.append_assoc]
    exact hfirst hbefore hv _

theorem WrittenField.head {f : String × Json} (h : WrittenField f w) (rest : List Char) :
    ∃ more, skipSpace (w ++ rest) = '"' :: more := by
  cases h with
  | field hbefore _ _ _ _ _ =>
    rw [List.append_assoc, skipSpace_gap hbefore]
    exact ⟨_, skipSpace_cons (by decide) _⟩

theorem WrittenFields.head {fs : Object} (h : WrittenFields fs w) (rest : List Char) :
    ∃ more, skipSpace (w ++ rest) = '"' :: more := by
  cases h with
  | last hf => exact hf.head rest
  | more hf _ =>
    rw [List.append_assoc]
    exact hf.head _

/-
The induction is on the derivation of the text. The depth goes down where values are nested, the fuel
with every item of a list; all that is asked of it is that it exceeds what is left to be read.
-/
mutual

/-- **Every text of a value is read as that value if the value keeps to the limits, and is refused
otherwise.** -/
theorem Written.answers {v : Json} {w : List Char} (h : Written v w) (depth : Nat)
    {rest : List Char} (hrest : Stops rest) :
    Answers (Fits depth v) (value depth (w ++ rest)) (v, rest) := by
  cases depth with
  | zero => exact ⟨fun hfits => hfits.elim, fun _ => ⟨_, rfl⟩⟩
  | succ depth =>
    match h with
    | .null => exact .of_eq trivial (value_null depth rest)
    | .yes => exact .of_eq trivial (value_true depth rest)
    | .no => exact .of_eq trivial (value_false depth rest)
    | .integer n hn => exact value_integer depth hn hrest
    | .decimal n hn hx => exact .of_eq trivial (value_decimal depth hn hx hrest)
    | .string hs =>
      rw [List.cons_append, List.append_assoc]
      exact .of_eq trivial (value_string depth hs rest)
    | .emptyArray hgap =>
      rw [List.cons_append, List.append_assoc]
      refine .of_eq (fun _ hv => nomatch hv) ?_
      rw [value, skipSpace_gap hgap]
      rfl
    | .array hvs =>
      obtain ⟨c, more, hskip, hc⟩ := hvs.head (']' :: rest)
      have hread := hvs.answers depth _ rest (Nat.lt_succ_self _)
      rw [hskip] at hread
      rw [List.cons_append, List.append_assoc]
      exact value_array hskip hc.2.1 hread
    | .emptyObject hgap =>
      rw [List.cons_append, List.append_assoc]
      refine .of_eq (fun _ hf => nomatch hf) ?_
      rw [value, skipSpace_gap hgap]
      rfl
    | .object hnames hfs =>
      obtain ⟨more, hskip⟩ := hfs.head ('}' :: rest)
      have hread := hfs.answers depth _ rest (Nat.lt_succ_self _)
      rw [hskip] at hread
      have hobject := value_object hskip (by decide) hread
      rw [Assoc.ofList_of_nodup hnames] at hobject
      rw [List.cons_append, List.append_assoc]
      exact hobject

theorem WrittenItems.answers {vs : List Json} {w : List Char} (h : WrittenItems vs w)
    (depth fuel : Nat) (rest : List Char) (hfuel : (skipSpace (w ++ ']' :: rest)).length < fuel) :
    Answers (∀ v ∈ vs, Fits depth v) (items (value depth) fuel (skipSpace (w ++ ']' :: rest)))
      (vs, rest) := by
  obtain ⟨fuel, rfl⟩ := Nat.exists_eq_add_of_lt (Nat.zero_lt_of_lt hfuel)
  rw [Nat.zero_add] at hfuel ⊢
  match h with
  | .last hbefore hv hafter =>
    have hread := hv.answers depth (stops_gap hafter (.inr (.inl rfl)) rest)
    rw [List.append_assoc, List.append_assoc, hv.skipSpace hbefore]
    refine (items_last hread (skipSpace_gap hafter _)).congr ?_
    rw [List.forall_mem_singleton]
  | @WrittenItems.more _ _ before w after u hbefore hv hafter hvs =>
    have hread := hv.answers depth (stops_gap hafter (.inl rfl) (u ++ ']' :: rest))
    have hshorter := skipSpace_length_lt (c := ',') rfl (before ++ (w ++ after)) (u ++ ']' :: rest)
    simp only [List.append_assoc, List.cons_append] at hshorter hfuel ⊢
    have hmore :=
      hvs.answers depth fuel rest (Nat.lt_of_lt_of_le hshorter (Nat.le_of_lt_succ hfuel))
    rw [hv.skipSpace hbefore]
    refine (items_more hread (skipSpace_gap hafter _) hmore).congr ?_
    rw [List.forall_mem_cons]

theorem WrittenField.answers {f : String × Json} {w : List Char} (h : WrittenField f w)
    (depth : Nat) {c : Char} (hc : IsDelimiter c) (rest : List Char) :
    ∃ afterName after, fieldName (skipSpace (w ++ c :: rest)) = .ok (f.1, afterName) ∧
      Answers (Fits depth f.2) (value depth afterName) (f.2, after) ∧
      skipSpace after = c :: rest := by
  match h with
  | @WrittenField.field _ _ _ _ _ _ u after hbefore hname hafterName hbeforeValue hv hafter =>
    have hvalue := hv.answers depth (stops_gap hafter hc rest)
    refine ⟨u ++ (after ++ c :: rest), after ++ c :: rest, ?_, hvalue, ?_⟩
    · have hread := fieldName_text hbefore hname hafterName hbeforeValue hv (after ++ c :: rest)
      simp only [List.append_assoc, List.cons_append] at hread ⊢
      exact hread
    · rw [skipSpace_gap hafter, skipSpace_cons]
      rcases hc with rfl | rfl | rfl <;> rfl

theorem WrittenFields.answers {fs : Object} {w : List Char} (h : WrittenFields fs w)
    (depth fuel : Nat) (rest : List Char) (hfuel : (skipSpace (w ++ '}' :: rest)).length < fuel) :
    Answers (∀ f ∈ fs, Fits depth f.2) (members (value depth) fuel (skipSpace (w ++ '}' :: rest)))
      (fs, rest) := by
  obtain ⟨fuel, rfl⟩ := Nat.exists_eq_add_of_lt (Nat.zero_lt_of_lt hfuel)
  rw [Nat.zero_add] at hfuel ⊢
  match h with
  | .last hf =>
    obtain ⟨afterName, after, hname, hread, hafter⟩ := hf.answers depth (.inr (.inr rfl)) rest
    refine (members_last hname hread hafter).congr ?_
    rw [List.forall_mem_singleton]
  | @WrittenFields.more _ _ w u hf hfs =>
    obtain ⟨afterName, after, hname, hread, hafter⟩ :=
      hf.answers depth (.inl rfl) (u ++ '}' :: rest)
    rw [List.append_assoc] at hfuel ⊢
    have hshorter := skipSpace_length_lt (c := ',') rfl w (u ++ '}' :: rest)
    have hmore :=
      hfs.answers depth fuel rest (Nat.lt_of_lt_of_le hshorter (Nat.le_of_lt_succ hfuel))
    refine (members_more hname hread hafter hmore).congr ?_
    rw [List.forall_mem_cons]

end

end Telemetry.Json
