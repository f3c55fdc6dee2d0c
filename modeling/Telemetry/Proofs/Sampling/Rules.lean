import Telemetry.Proofs.Items
import Telemetry.Proofs.Number.Places
import Telemetry.Sampling.Policy

/-!
# The rules of sampling

A policy asks of an event, one after the other, whether it is an error, was slow, has a path or has
a user that is always kept. The first yes keeps the event. Only if every rule says no does the share
decide, by a point that the event has through its trace id or by chance.

Main statements: `Policy.matches_iff`, which says what the rules take, and `keeps_cases`.
-/

namespace Telemetry

/-! ## Pieces of texts -/

theorem Text.occursIn_iff {part cs : List Char} : occursIn part cs = true ↔ part <:+: cs := by
  induction cs with
  | nil => simp [occursIn, List.isEmpty_iff]
  | cons c rest ih =>
    rw [occursIn, Bool.or_eq_true, List.isPrefixOf_iff_prefix, ih, List.infix_cons_iff]

namespace Sampling

variable {policy : Policy} {draw : Double} {event : Json.Object} {kept : Bool}

/-! ## One rule after the other -/

/-- The first yes among some answers is the decision; without one, what comes last decides. -/
def firstYes (answers : List (Except Fault Bool)) (last : Except Fault Bool) : Except Fault Bool :=
  answers.foldr (fun answer rest => do if ← answer then return true else rest) last

section FirstYes

variable {answer last : Except Fault Bool} {answers : List (Except Fault Bool)}

theorem firstYes_cons : firstYes (answer :: answers) last =
    (do if ← answer then return true else firstYes answers last) := rfl

theorem firstYes_no : firstYes (.ok false :: answers) last = firstYes answers last := rfl

theorem firstYes_of_no (h : ∀ answer ∈ answers, answer = .ok false) :
    firstYes answers last = last := by
  induction answers with
  | nil => rfl
  | cons answer rest ih =>
    rw [h answer List.mem_cons_self, firstYes_no]
    exact ih fun answer hmem => h answer (List.mem_cons_of_mem _ hmem)

/-- A decision comes from a yes, or from what comes last where every answer is a no. -/
theorem firstYes_cases (h : firstYes answers last = .ok kept) :
    (kept = true ∧ .ok true ∈ answers) ∨
      ((∀ answer ∈ answers, answer = .ok false) ∧ last = .ok kept) := by
  induction answers with
  | nil => exact .inr ⟨fun _ hmem => absurd hmem List.not_mem_nil, h⟩
  | cons answer rest ih =>
    obtain ⟨yes, hanswer, h⟩ := bind_eq_ok h
    cases yes with
    | true => exact .inl ⟨(Except.ok.inj h).symm, hanswer ▸ List.mem_cons_self⟩
    | false =>
      rcases ih h with ⟨hkept, hmem⟩ | ⟨hno, hlast⟩
      · exact .inl ⟨hkept, List.mem_cons_of_mem _ hmem⟩
      · exact .inr ⟨List.forall_mem_cons.mpr ⟨hanswer, hno⟩, hlast⟩

/-- Where everything is answered there is a decision. -/
theorem exists_firstYes (h : ∀ answer ∈ answers, ∃ yes, answer = .ok yes)
    (hlast : ∃ kept, last = .ok kept) : ∃ kept, firstYes answers last = .ok kept := by
  induction answers with
  | nil => exact hlast
  | cons answer rest ih =>
    obtain ⟨yes, rfl⟩ := h answer List.mem_cons_self
    cases yes with
    | true => exact ⟨true, rfl⟩
    | false => exact ih fun answer hmem => h answer (List.mem_cons_of_mem _ hmem)

end FirstYes

/-- What the rules of a policy answer for an event, in order. -/
def Policy.answers (policy : Policy) (event : Json.Object) : List (Except Fault Bool) :=
  [if policy.keepErrors then isError event else .ok false, isSlow policy event,
    .ok (hasKeptPath policy event), hasKeptUser policy event]

theorem keeps_eq (policy : Policy) (draw : Double) (event : Json.Object) :
    keeps policy draw event = firstYes (policy.answers event) (inShare policy draw event) := by
  unfold keeps Policy.answers
  simp only [firstYes_cons]
  cases policy.keepErrors <;> cases hasKeptPath policy event <;> rfl

/-! ## What the rules take -/

/-- A policy always keeps an event: it says that it is an error or has the status of one, it took
longer than the threshold, its path contains a path that is kept, or its user is kept. -/
inductive Policy.Matches (policy : Policy) (event : Json.Object) : Prop
  | outcome (on : policy.keepErrors = true) (h : Json.get "outcome" event = .str "error")
  | status {x : Double} {place : Place} (on : policy.keepErrors = true)
    (hx : numberOfValue (Json.get "status_code" event) = .ok (some x))
    (hplace : x.place? = some place) (h : Place.ofInt 400 ≤ place)
  | slow {x : Double} {bound place : Place}
    (hx : numberOfValue (Json.get "duration_ms" event) = .ok (some x))
    (hplace : x.place? = some place) (hbound : policy.slowThreshold.place? = some bound)
    (h : bound < place)
  | path {path part : String} (hpath : Json.get "path" event = .str path)
    (hpart : part ∈ policy.keepPaths) (h : part.toList <:+: path.toList)
  | user {name : String} (hnull : (Json.get "user_id" event).isNull = false)
    (hempty : (Json.get "user_id" event).isText "" = false)
    (hname : (Json.get "user_id" event).shown = .ok name) (h : name ∈ policy.keepUsers)

theorem isText_iff {v : Json} {s : String} : v.isText s = true ↔ v = .str s := by
  cases v <;> simp [Json.isText]

/-- A number that has been read has a place. -/
theorem exists_place {v : Json} {x : Double} (h : numberOfValue v = .ok (some x)) :
    ∃ place, x.place? = some place := by
  refine Double.exists_place? ?_
  cases v with
  | int i =>
    rw [numberOfValue] at h
    split at h
    · rename_i hfinite
      obtain rfl := Option.some.inj (Except.ok.inj h)
      exact Double.isNan_of_isFinite hfinite
    · cases h
  | float y =>
    rw [numberOfValue, Except.ok.injEq] at h
    cases hnan : y.isNan with
    | true => rw [hnan] at h; cases h
    | false =>
      rw [hnan] at h
      obtain rfl := Option.some.inj h
      exact hnan
  | _ => cases h

/-- Above a threshold is what has its place above that of the threshold. -/
theorem above_iff {x : Double} {v : Json} : above x v = .ok true ↔
    ∃ place bound, x.place? = some place ∧ v.place? = some bound ∧ bound < place := by
  cases v with
  | bool b => simp [above, Json.place?, Double.compareInt?_gt_iff]
  | int i => simp [above, Json.place?, Double.compareInt?_gt_iff]
  | float y =>
    simp only [above, Json.place?, Except.ok.injEq, Double.lt_iff]
    constructor
    · rintro ⟨bound, place, hbound, hplace, h⟩
      exact ⟨place, bound, hplace, hbound, h⟩
    · rintro ⟨place, bound, hplace, hbound, h⟩
      exact ⟨bound, place, hbound, hplace, h⟩
  | _ => simp [above, Json.place?]

theorem isError_iff : isError event = .ok true ↔ Json.get "outcome" event = .str "error" ∨
    ∃ x place, numberOfValue (Json.get "status_code" event) = .ok (some x) ∧
      x.place? = some place ∧ Place.ofInt 400 ≤ place := by
  unfold isError
  split
  · rename_i houtcome
    simp [isText_iff.mp houtcome]
  · rename_i houtcome
    rw [isText_iff] at houtcome
    cases hnumber : numberOfValue (Json.get "status_code" event) with
    | error fault => simp [houtcome, bind, Except.bind]
    | ok number =>
      cases number with
      | none => simp [houtcome, bind, Except.bind, pure, Except.pure]
      | some x =>
        obtain ⟨place, hplace⟩ := exists_place hnumber
        have hat : x.compareInt? 400 ≠ some .lt ↔ Place.ofInt 400 ≤ place := by
          rw [Ne, Double.compareInt?_lt_iff, hplace]
          simp
        simp [houtcome, bind, Except.bind, pure, Except.pure, hplace, ← hat]

theorem isSlow_iff : isSlow policy event = .ok true ↔
    ∃ x place bound, numberOfValue (Json.get "duration_ms" event) = .ok (some x) ∧
      x.place? = some place ∧ policy.slowThreshold.place? = some bound ∧ bound < place := by
  unfold isSlow
  cases numberOfValue (Json.get "duration_ms" event) with
  | error fault => simp [bind, Except.bind]
  | ok number =>
    cases number with
    | none => simp [bind, Except.bind, pure, Except.pure]
    | some x => simp [bind, Except.bind, above_iff]

theorem hasKeptPath_iff : hasKeptPath policy event = true ↔
    ∃ path, Json.get "path" event = .str path ∧
      ∃ part ∈ policy.keepPaths, part.toList <:+: path.toList := by
  unfold hasKeptPath
  split
  · rename_i path hpath
    simp [hpath, Text.occursIn_iff]
  · rename_i hno
    simp only [Bool.false_eq_true, false_iff]
    rintro ⟨path, hpath, -⟩
    exact hno path hpath

theorem hasKeptUser_iff : hasKeptUser policy event = .ok true ↔
    (Json.get "user_id" event).isNull = false ∧ (Json.get "user_id" event).isText "" = false ∧
      ∃ name, (Json.get "user_id" event).shown = .ok name ∧ name ∈ policy.keepUsers := by
  unfold hasKeptUser
  dsimp only
  split
  · rename_i hnone
    rw [Bool.or_eq_true] at hnone
    rcases hnone with h | h <;> simp [h]
  · rename_i hsome
    rw [Bool.or_eq_true, not_or, Bool.not_eq_true, Bool.not_eq_true] at hsome
    cases (Json.get "user_id" event).shown with
    | error fault => simp [bind, Except.bind]
    | ok name => simp [hsome, bind, Except.bind, pure, Except.pure]

/-- **What the rules take**: one of them says yes. -/
theorem Policy.matches_iff : policy.Matches event ↔ .ok true ∈ policy.answers event := by
  have herror : (.ok true = if policy.keepErrors then isError event else .ok false) ↔
      policy.keepErrors = true ∧ isError event = .ok true := by
    cases policy.keepErrors <;> simp [eq_comm]
  have hmem : .ok true ∈ policy.answers event ↔
      (policy.keepErrors = true ∧ isError event = .ok true) ∨ isSlow policy event = .ok true ∨
        hasKeptPath policy event = true ∨ hasKeptUser policy event = .ok true := by
    unfold answers
    simp only [List.mem_cons, List.not_mem_nil, or_false, herror, Except.ok.injEq,
      eq_comm (a := Except.ok true)]
  rw [hmem, isError_iff, isSlow_iff, hasKeptPath_iff, hasKeptUser_iff]
  constructor
  · rintro (⟨on, h⟩ | ⟨on, hx, hplace, h⟩ | ⟨hx, hplace, hbound, h⟩ | ⟨hpath, hpart, h⟩ |
      ⟨hnull, hempty, hname, h⟩)
    · exact .inl ⟨on, .inl h⟩
    · exact .inl ⟨on, .inr ⟨_, _, hx, hplace, h⟩⟩
    · exact .inr (.inl ⟨_, _, _, hx, hplace, hbound, h⟩)
    · exact .inr (.inr (.inl ⟨_, hpath, _, hpart, h⟩))
    · exact .inr (.inr (.inr ⟨hnull, hempty, _, hname, h⟩))
  · rintro (⟨on, h | ⟨x, place, hx, hplace, h⟩⟩ | ⟨x, place, bound, hx, hplace, hbound, h⟩ |
      ⟨path, hpath, part, hpart, h⟩ | ⟨hnull, hempty, name, hname, h⟩)
    · exact .outcome on h
    · exact .status on hx hplace h
    · exact .slow hx hplace hbound h
    · exact .path hpath hpart h
    · exact .user hnull hempty hname h

/-! ## The share -/

/-- The point of an event: that of its trace id, or what is drawn if it has none. -/
def pointOf (draw : Double) (event : Json.Object) : Except Fault Double :=
  let traceId := Json.get "trace_id" event
  if traceId.isTruthy then traceId.shown.map traceBucket else .ok draw

/-- An event is in the share if its point is below the rate. -/
theorem inShare_eq (policy : Policy) (draw : Double) (event : Json.Object) :
    inShare policy draw event = (pointOf draw event).map fun point => point.lt policy.rate := by
  unfold inShare pointOf
  dsimp only
  split
  · cases (Json.get "trace_id" event).shown <;> rfl
  · rfl

/-! ## Decisions -/

/-- An event is normal for a policy if every rule says no. -/
def Policy.IsNormal (policy : Policy) (event : Json.Object) : Prop :=
  ∀ answer ∈ policy.answers event, answer = .ok false

/-- A normal event is kept if its point is below the rate. -/
theorem Policy.IsNormal.keeps_eq (h : policy.IsNormal event) (draw : Double) :
    keeps policy draw event = (pointOf draw event).map fun point => point.lt policy.rate := by
  rw [Sampling.keeps_eq, firstYes_of_no h, inShare_eq]

theorem Policy.IsNormal.not_matches (h : policy.IsNormal event) : ¬ policy.Matches event := by
  intro hmatches
  cases h _ (Policy.matches_iff.mp hmatches)

/-- **Where a decision comes from**: a rule takes the event, or the event is normal and its point
decides. -/
theorem keeps_cases (h : keeps policy draw event = .ok kept) :
    (kept = true ∧ policy.Matches event) ∨ (policy.IsNormal event ∧
      ∃ point, pointOf draw event = .ok point ∧ point.lt policy.rate = kept) := by
  rw [keeps_eq] at h
  rcases firstYes_cases h with ⟨hkept, hmem⟩ | ⟨hnormal, hlast⟩
  · exact .inl ⟨hkept, Policy.matches_iff.mpr hmem⟩
  · rw [inShare_eq] at hlast
    exact .inr ⟨hnormal, map_eq_ok hlast⟩

/-- A result that can be read off. -/
theorem ok_of_toOption {α : Type} {result : Except Fault α} {a : α}
    (h : result.toOption = some a) : result = .ok a := by
  cases result with
  | error fault => cases h
  | ok b => exact congrArg _ (Option.some.inj h)

end Sampling

end Telemetry
