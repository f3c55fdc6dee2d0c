/-!
# File name patterns

Patterns with `*` (any text), `?` (any one character) and bracketed sets, matched against a
whole text. In a set, `!` in front means any other character, two characters with a hyphen
between them mean the range, and a closing bracket in first place stands for itself. A bracket
that is never closed stands for itself.
-/

namespace Telemetry.Text.Glob

/-- A run of characters in a set. It is empty when the first is above the last. -/
structure Range where
  first : Char
  last : Char
deriving DecidableEq, Repr

/-- One part of a pattern. -/
inductive Part
  | anyText
  | anyChar
  | exactly (c : Char)
  | oneOf (negated : Bool) (ranges : List Range)
deriving DecidableEq, Repr

/-- The ranges a set's text stands for. A hyphen at either end stands for itself. -/
def ranges : List Char → List Range
  | a :: '-' :: b :: rest => ⟨a, b⟩ :: ranges rest
  | a :: rest => ⟨a, a⟩ :: ranges rest
  | [] => []

/-- The text of a set up to its closing bracket, and what follows the bracket. -/
def closeSet (cs : List Char) : Option (List Char × List Char) :=
  match cs.dropWhile (· != ']') with
  | [] => none
  | _ :: rest => some (cs.takeWhile (· != ']'), rest)

/-- The set of some ranges. Empty ranges are left out first, and an exclamation mark that then
comes first negates the set as well. -/
def setOf (negated : Bool) (members : List Range) : Part :=
  match negated, members.filter (fun r => r.first ≤ r.last) with
  | false, ⟨'!', last⟩ :: rest =>
    .oneOf true (if last = '!' then rest else ⟨'-', '-'⟩ :: ⟨last, last⟩ :: rest)
  | _, kept => .oneOf negated kept

/-- The part after an opening bracket and the pattern behind it, if the bracket is closed. -/
def readSet (cs : List Char) : Option (Part × List Char) :=
  let (negated, body) := match cs with
    | '!' :: rest => (true, rest)
    | _ => (false, cs)
  match body with
  | ']' :: rest => (closeSet rest).map fun (inside, after) =>
      (setOf negated (ranges (']' :: inside)), after)
  | _ => (closeSet body).map fun (inside, after) => (setOf negated (ranges inside), after)

/-- Dropping a leading piece does not lengthen. -/
theorem closeSet_length {cs inside after : List Char} (h : closeSet cs = some (inside, after)) :
    after.length < cs.length + 1 := by
  unfold closeSet at h
  have hle : (cs.dropWhile (· != ']')).length ≤ cs.length :=
    (List.dropWhile_sublist _).length_le
  split at h
  · cases h
  · next heq =>
    rw [heq, List.length_cons] at hle
    cases h
    omega

/-- What follows a set is shorter than what follows its opening bracket. -/
theorem readSet_length {cs after : List Char} {part : Part} (h : readSet cs = some (part, after)) :
    after.length < cs.length + 1 := by
  unfold readSet at h
  split at h
  rename_i negated body heq
  have hb : body.length ≤ cs.length := by
    split at heq <;> cases heq <;> simp
  split at h
  · obtain ⟨⟨inside, rest⟩, hc, he⟩ := Option.map_eq_some_iff.1 h
    cases he
    have := closeSet_length hc
    simp only [List.length_cons] at hb
    omega
  · obtain ⟨⟨inside, rest⟩, hc, he⟩ := Option.map_eq_some_iff.1 h
    cases he
    have := closeSet_length hc
    omega

/-- The parts of a pattern. -/
def parts : List Char → List Part
  | [] => []
  | '*' :: rest => .anyText :: parts rest
  | '?' :: rest => .anyChar :: parts rest
  | '[' :: rest =>
    match _h : readSet rest with
    | some (part, after) => part :: parts after
    | none => .exactly '[' :: parts rest
  | c :: rest => .exactly c :: parts rest
termination_by cs => cs.length
decreasing_by
  all_goals simp only [List.length_cons]
  all_goals first | omega | exact readSet_length _h

/-- Whether one character fits a part that stands for one character. -/
def Part.admits (c : Char) : Part → Bool
  | .anyText => false
  | .anyChar => true
  | .exactly d => c == d
  | .oneOf negated ranges => ranges.any (fun r => r.first ≤ c && c ≤ r.last) != negated

/-- Whether a whole text fits the parts. -/
def fits : List Part → List Char → Bool
  | [], cs => cs.isEmpty
  | .anyText :: more, [] => fits more []
  | .anyText :: more, c :: rest => fits more (c :: rest) || fits (.anyText :: more) rest
  | part :: more, c :: rest => part.admits c && fits more rest
  | _ :: _, [] => false
termination_by parts cs => (parts.length, cs.length)

/-- Whether a text fits a pattern. -/
def matchesPattern (pattern text : String) : Bool :=
  fits (parts pattern.toList) text.toList

end Telemetry.Text.Glob
