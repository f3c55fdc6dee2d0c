import Telemetry.Proofs.Json.Reading

/-!
# Texts that go on

What was read from a text is read from every text that it begins. A number or a word could grow when
the text goes on, so there what comes next must stop it; strings, arrays and objects are closed by
their own last character.

Main statement: `object_append`.
-/

namespace Telemetry.Json

/-! ## Parts of a text -/

/-- Nothing is read from an empty text, and whatever is read is read in the same way if the text
goes on behind it. -/
structure GoesOn (parse : List Char → Reading Json) : Prop where
  nil : ∀ r, parse [] ≠ .ok r
  append : ∀ {cs rest more : List Char} {v : Json}, parse cs = .ok (v, rest) →
    Stops (rest ++ more) → parse (cs ++ more) = .ok (v, rest ++ more)

variable {cs rest more : List Char}

theorem Stops.of_append (h : Stops (rest ++ more)) : Stops rest := by
  rintro c cs rfl
  exact h c (cs ++ more) rfl

theorem skipSpace_append (h : skipSpace cs ≠ []) (more : List Char) :
    skipSpace (cs ++ more) = skipSpace cs ++ more := by
  unfold skipSpace at h ⊢
  rw [List.dropWhile_append, if_neg (by rwa [List.isEmpty_iff])]

theorem skipSpace_append_cons {c : Char} (h : skipSpace cs = c :: rest) (more : List Char) :
    skipSpace (cs ++ more) = c :: (rest ++ more) := by
  rw [skipSpace_append (by simp [h]), h, List.cons_append]

/-- Blanks and a character that closes or separates stop whatever stands before them. -/
theorem stops_of_skipSpace {c : Char} (h : skipSpace cs = c :: rest)
    (hc : IsDelimiter c) : Stops cs := by
  rintro d tail rfl
  cases hd : isSpace d with
  | true => exact Or.inl rfl
  | false =>
    rw [skipSpace_cons hd] at h
    exact Or.inr ((List.cons.inj h).1 ▸ hc)

/-! ## Strings -/

theorem consUnit_eq_ok {n : Nat} {r : Reading (List Nat)} {units : List Nat}
    (h : consUnit n r = .ok (units, rest)) : ∃ tail, units = n :: tail ∧ r = .ok (tail, rest) := by
  unfold consUnit at h
  split at h
  · cases h
    exact ⟨_, rfl, rfl⟩
  · cases h

theorem shortEscape_of_escaped? {e c : Char} (h : escaped? e = some c) : ShortEscape e c := by
  unfold escaped? at h
  split at h
  · rename_i hself
    cases h
    rcases hself with rfl | rfl | rfl
    · exact .quote
    · exact .backslash
    · exact .slash
  · repeat' split at h
    all_goals
      cases h
      try subst_vars
    · exact .backspace
    · exact .formFeed
    · exact .lineFeed
    · exact .carriageReturn
    · exact .tab

theorem stringUnits_append {opening : Nat} {units : List Nat}
    (h : stringUnits opening cs = .ok (units, rest)) (left : Nat) (more : List Char) :
    stringUnits left (cs ++ more) = .ok (units, rest ++ more) := by
  fun_induction stringUnits opening cs generalizing units with
  | case1 => cases h
  | case2 tail =>
    cases h
    rfl
  | case3 => cases h
  | case4 => cases h
  | case5 a b c d e tail n hunit ih =>
    obtain ⟨others, rfl, htail⟩ := consUnit_eq_ok h
    have hrest := ih htail
    simp only [List.cons_append] at hrest
    simp only [List.cons_append, stringUnits, hunit, hrest]
    rfl
  | case6 => cases h
  | case7 e tail _ _ c hescaped ih =>
    obtain ⟨others, rfl, htail⟩ := consUnit_eq_ok h
    rw [List.cons_append, List.cons_append, stringUnits_short (shortEscape_of_escaped? hescaped),
      ih htail]
    rfl
  | case8 => cases h
  | case9 => cases h
  | case10 c tail hquote hend hunit hu hescape hlow ih =>
    obtain ⟨others, rfl, htail⟩ := consUnit_eq_ok h
    have hbackslash : c ≠ '\\' := by
      intro hc
      cases tail with
      | nil => exact hend hc rfl
      | cons e tail => exact hescape e tail hc rfl
    rw [List.cons_append, stringUnits_raw (Nat.not_lt.mp hlow) hquote hbackslash, ih htail]
    rfl

theorem string_append {opening : Nat} {s : String} (h : string opening cs = .ok (s, rest))
    (left : Nat) (more : List Char) : string left (cs ++ more) = .ok (s, rest ++ more) := by
  unfold string at h
  split at h
  · rename_i units tail hunits
    cases h
    rw [string, stringUnits_append hunits left more]
  · cases h

/-! ## Words and numbers -/

theorem afterWord?_eq_some {word : List Char} (h : afterWord? word cs = some rest) :
    cs = word ++ rest := by
  induction word generalizing cs with
  | nil => exact Option.some.inj h
  | cons w word ih =>
    cases cs with
    | nil => cases h
    | cons c cs =>
      rw [afterWord?] at h
      split at h
      · rename_i hw
        rw [hw, ih h, List.cons_append]
      · cases h

theorem number_append {v : Json} (h : number cs = .ok (v, rest)) (hstops : Stops (rest ++ more)) :
    ∃ n : Number, cs = n.text ++ rest ∧ number (cs ++ more) = .ok (v, rest ++ more) := by
  obtain ⟨n, rfl⟩ := text_of_number h
  refine ⟨n, rfl, ?_⟩
  rw [n.number_text hstops.of_append] at h
  rw [List.append_assoc, n.number_text hstops]
  unfold Number.reading at h ⊢
  split at h
  · rename_i hparts
    split at h
    · cases h
    · rename_i hlength
      cases h
      rw [if_pos hparts, if_neg hlength]
  · rename_i hparts
    cases h
    rw [if_neg hparts]

theorem scalar_append {v : Json} (h : scalar cs = .ok (v, rest)) (hstops : Stops (rest ++ more)) :
    scalar (cs ++ more) = .ok (v, rest ++ more) := by
  unfold scalar at h
  repeat' split at h
  all_goals try
    rename_i hword
    cases h
    rw [afterWord?_eq_some hword]
    rfl
  obtain ⟨n, rfl, hnumber⟩ := number_append h hstops
  rw [List.append_assoc, scalar_text, ← List.append_assoc, hnumber]

/-! ## Arrays and objects -/

section Nested

variable {parse : List Char → Reading Json} {fuel fuel' : Nat}

/-- A value that a comma or a closing bracket follows is read in a longer text too, and the same
follows it there. -/
theorem GoesOn.next (hparse : GoesOn parse) {v : Json} {after : List Char} {c : Char}
    (hv : parse cs = .ok (v, after)) (hafter : skipSpace after = c :: rest)
    (hc : IsDelimiter c) (more : List Char) :
    parse (cs ++ more) = .ok (v, after ++ more) ∧ skipSpace (after ++ more) = c :: (rest ++ more) :=
  have hnext := skipSpace_append_cons hafter more
  ⟨hparse.append hv (stops_of_skipSpace hnext hc), hnext⟩

theorem items_nil (hparse : GoesOn parse) (r : List Json × List Char) :
    items parse fuel [] ≠ .ok r := by
  intro h
  cases fuel with
  | zero => cases h
  | succ fuel =>
    rw [items] at h
    split at h
    · cases h
    · rename_i hv
      exact hparse.nil _ hv

/-- The induction is on the fuel of the shorter text; the longer one may have more of it. -/
theorem items_append (hparse : GoesOn parse) {vs : List Json}
    (h : items parse fuel cs = .ok (vs, rest)) (hfuel : fuel ≤ fuel') (more : List Char) :
    items parse fuel' (cs ++ more) = .ok (vs, rest ++ more) := by
  induction fuel generalizing fuel' cs vs with
  | zero => cases h
  | succ fuel ih =>
    obtain ⟨fuel', rfl⟩ := Nat.exists_eq_add_one_of_ne_zero (Nat.ne_zero_of_lt hfuel)
    rw [items] at h
    split at h
    · cases h
    rename_i v after hv
    split at h
    · rename_i tail hafter
      cases h
      obtain ⟨hread, hnext⟩ := hparse.next hv hafter (.inr (.inl rfl)) more
      exact (items_last (.of_eq trivial hread) hnext).ok trivial
    · rename_i tail hafter
      split at h
      · cases h
      rename_i others left hothers
      cases h
      have hne : skipSpace tail ≠ [] := by
        intro hnil
        rw [hnil] at hothers
        exact items_nil hparse _ hothers
      have hmore := ih hothers (Nat.le_of_succ_le_succ hfuel)
      rw [← skipSpace_append hne] at hmore
      obtain ⟨hread, hnext⟩ := hparse.next hv hafter (.inl rfl) more
      exact (items_more (.of_eq trivial hread) hnext (.of_eq trivial hmore)).ok ⟨trivial, trivial⟩
    · cases h

theorem fieldName_append {name : String} (h : fieldName cs = .ok (name, rest)) (hne : rest ≠ [])
    (more : List Char) : fieldName (cs ++ more) = .ok (name, rest ++ more) := by
  unfold fieldName at h
  split at h
  · split at h
    · cases h
    · rename_i name' afterName hname
      split at h
      · rename_i afterColon hcolon
        cases h
        rw [List.cons_append, fieldName, string_append hname]
        dsimp only
        rw [skipSpace_append_cons hcolon]
        exact congrArg (fun left => Except.ok (name, left)) (skipSpace_append hne more)
      · cases h
  · cases h

theorem members_nil (r : List (String × Json) × List Char) : members parse fuel [] ≠ .ok r := by
  intro h
  cases fuel <;> cases h

theorem members_append (hparse : GoesOn parse) {fs : Object}
    (h : members parse fuel cs = .ok (fs, rest)) (hfuel : fuel ≤ fuel') (more : List Char) :
    members parse fuel' (cs ++ more) = .ok (fs, rest ++ more) := by
  induction fuel generalizing fuel' cs fs with
  | zero => cases h
  | succ fuel ih =>
    obtain ⟨fuel', rfl⟩ := Nat.exists_eq_add_one_of_ne_zero (Nat.ne_zero_of_lt hfuel)
    rw [members] at h
    split at h
    · cases h
    rename_i name afterName hname
    split at h
    · cases h
    rename_i v after hv
    have hafterName : afterName ≠ [] := by
      rintro rfl
      exact hparse.nil _ hv
    have hname' := fieldName_append hname hafterName more
    split at h
    · rename_i tail hafter
      cases h
      obtain ⟨hread, hnext⟩ := hparse.next hv hafter (.inr (.inr rfl)) more
      exact (members_last hname' (.of_eq trivial hread) hnext).ok trivial
    · rename_i tail hafter
      split at h
      · cases h
      rename_i others left hothers
      cases h
      have hne : skipSpace tail ≠ [] := by
        intro hnil
        rw [hnil] at hothers
        exact members_nil _ hothers
      have hmore := ih hothers (Nat.le_of_succ_le_succ hfuel)
      rw [← skipSpace_append hne] at hmore
      obtain ⟨hread, hnext⟩ := hparse.next hv hafter (.inl rfl) more
      exact (members_more hname' (.of_eq trivial hread) hnext (.of_eq trivial hmore)).ok
        ⟨trivial, trivial⟩
    · cases h

end Nested

/-! ## Values -/

/-- A longer text is read with more fuel. -/
theorem fuel_le (c : Char) (tail more : List Char) :
    (c :: tail).length + 1 ≤ (c :: (tail ++ more)).length + 1 := by
  simp only [List.length_cons, List.length_append]
  omega

theorem value_string_append {depth : Nat} {v : Json}
    (h : value (depth + 1) ('"' :: cs) = .ok (v, rest)) (more : List Char) :
    value (depth + 1) ('"' :: (cs ++ more)) = .ok (v, rest ++ more) := by
  rw [value] at h
  split at h
  · cases h
  · rename_i s left hs
    cases h
    rw [value, string_append hs]

theorem value_array_append {depth : Nat} (hparse : GoesOn (value depth)) {v : Json}
    (h : value (depth + 1) ('[' :: cs) = .ok (v, rest)) (more : List Char) :
    value (depth + 1) ('[' :: (cs ++ more)) = .ok (v, rest ++ more) := by
  rw [value] at h
  split at h
  · rename_i tail hskip
    cases h
    rw [value, skipSpace_append_cons hskip]
    rfl
  · rename_i hclose
    split at h
    · cases h
    rename_i vs left hvs
    cases h
    have hne : skipSpace cs ≠ [] := by
      intro hnil
      rw [hnil] at hvs
      exact items_nil hparse _ hvs
    obtain ⟨c, tail, hskip⟩ := List.exists_cons_of_ne_nil hne
    have hc : c ≠ ']' := by
      rintro rfl
      exact hclose tail hskip
    rw [hskip] at hvs
    have hread := items_append hparse hvs (fuel_le c tail more) more
    exact (value_array (skipSpace_append_cons hskip more) hc (.of_eq trivial hread)).ok trivial

theorem value_object_append {depth : Nat} (hparse : GoesOn (value depth)) {v : Json}
    (h : value (depth + 1) ('{' :: cs) = .ok (v, rest)) (more : List Char) :
    value (depth + 1) ('{' :: (cs ++ more)) = .ok (v, rest ++ more) := by
  rw [value] at h
  split at h
  · rename_i tail hskip
    cases h
    rw [value, skipSpace_append_cons hskip]
    rfl
  · rename_i hclose
    split at h
    · cases h
    rename_i fs left hfs
    cases h
    have hne : skipSpace cs ≠ [] := by
      intro hnil
      rw [hnil] at hfs
      exact members_nil _ hfs
    obtain ⟨c, tail, hskip⟩ := List.exists_cons_of_ne_nil hne
    have hc : c ≠ '}' := by
      rintro rfl
      exact hclose tail hskip
    rw [hskip] at hfs
    have hread := members_append hparse hfs (fuel_le c tail more) more
    exact (value_object (skipSpace_append_cons hskip more) hc (.of_eq trivial hread)).ok trivial

theorem scalar_nil (r : Json × List Char) : scalar [] ≠ .ok r := nofun

/-- Whatever is nested in a value is read one level deeper, so the induction is on the depth. -/
theorem goesOn_value (depth : Nat) : GoesOn (value depth) := by
  induction depth with
  | zero =>
    refine ⟨?_, ?_⟩
    · intro r h
      cases h
    · intro cs rest more v h
      cases h
  | succ depth ih =>
    refine ⟨scalar_nil, @fun cs rest more v h hstops => ?_⟩
    cases cs with
    | nil => exact absurd h (scalar_nil _)
    | cons c cs =>
      by_cases hquote : c = '"'
      · subst hquote
        exact value_string_append h more
      by_cases hbracket : c = '['
      · subst hbracket
        exact value_array_append ih h more
      by_cases hbrace : c = '{'
      · subst hbrace
        exact value_object_append ih h more
      rw [value_scalar hquote hbracket hbrace] at h
      rw [List.cons_append, value_scalar hquote hbracket hbrace]
      exact scalar_append h hstops

/-- **An object that was read is read from every text that goes on behind it**, and what follows is
left. -/
theorem object_append {depth : Nat} {v : Json} (h : value depth ('{' :: cs) = .ok (v, rest))
    (more : List Char) : value depth ('{' :: (cs ++ more)) = .ok (v, rest ++ more) := by
  cases depth with
  | zero => cases h
  | succ depth => exact value_object_append (goesOn_value depth) h more

end Telemetry.Json
