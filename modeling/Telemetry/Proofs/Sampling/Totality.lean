import Telemetry.Capture.Middleware
import Telemetry.Proofs.Event.Columns
import Telemetry.Proofs.Sampling.Errors

/-!
# Decisions that fail

A decision reads two numbers and two texts of an event, and the name of what is sent takes two more
texts. Whatever can be read as JSON has a text. A number is read as a double, and an integer that no
double can stand for ends the decision with an error, although a value that is no number at all is
passed over. These integers are the only thing between an event and its decision.

Main statement: `finalizes_iff`.
-/

namespace Telemetry

/-! ## Texts -/

namespace Json

/-- A value has a text. -/
def HasText (v : Json) : Prop := ∃ text, v.shown = .ok text

theorem displayFlaw?_eq_none {depth : Nat} {v : Json} (h : Fits depth v) :
    v.displayFlaw? depth = none := by
  induction depth generalizing v with
  | zero => exact h.elim
  | succ depth ih =>
    cases v with
    | int i => exact if_pos h
    | arr items => exact List.findSome?_eq_none_iff.mpr fun item hmem => ih (h item hmem)
    | obj fields => exact List.findSome?_eq_none_iff.mpr fun field hmem => ih (h field hmem)
    | _ => rfl

theorem fits_of_falsy {v : Json} (h : v.isTruthy = false) (depth : Nat) : Fits (depth + 1) v := by
  cases v with
  | int i =>
    obtain rfl : i = 0 := by simpa [isTruthy] using h
    show Int.natAbs 0 < Nat.pow 10 maxIntegerDigits
    decide +kernel
  | arr items =>
    obtain rfl : items = [] := by simpa [isTruthy] using h
    exact List.forall_mem_nil _
  | obj fields =>
    obtain rfl : fields = [] := by simpa [isTruthy] using h
    exact List.forall_mem_nil _
  | _ => trivial

theorem Fits.hasText {v : Json} (h : Fits maxDepth v) : v.HasText :=
  ⟨v.display, by rw [shown, displayFlaw?_eq_none h]⟩

end Json

namespace Sampling

variable {policy : Policy} {draw : Double} {event : Json.Object} {v : Json}

/-- The values at some names have texts. -/
def HasTexts (names : List String) (event : Json.Object) : Prop :=
  ∀ name ∈ names, (Json.get name event).HasText

theorem hasTexts_pair {a b : String} :
    HasTexts [a, b] event ↔ (Json.get a event).HasText ∧ (Json.get b event).HasText := by
  simp [HasTexts]

/-! ## Numbers -/

/-- If a value is an integer, doubles can stand for it. -/
def FitsDouble (v : Json) : Prop := ∀ i, v = .int i → i.natAbs < Double.overflow

theorem exists_number_iff : (∃ number, numberOfValue v = .ok number) ↔ FitsDouble v := by
  cases v with
  | int i =>
    rw [numberOfValue_int]
    constructor
    · rintro ⟨number, h⟩ i' hi'
      obtain rfl := Json.int.inj hi'
      split at h
      · rename_i hfinite
        exact (Double.isFinite_ofInt i).mp hfinite
      · cases h
    · intro h
      exact ⟨_, if_pos ((Double.isFinite_ofInt i).mpr (h i rfl))⟩
  | float x => exact iff_of_true ⟨_, rfl⟩ nofun
  | _ => exact iff_of_true ⟨none, rfl⟩ nofun

/-- The numbers of an event can be read: doubles can stand for its duration and, unless its outcome
settles it, for its status code. -/
structure InRange (event : Json.Object) : Prop where
  status : Json.get "outcome" event = .str "error" ∨ FitsDouble (Json.get "status_code" event)
  duration : FitsDouble (Json.get "duration_ms" event)

/-! ## Rules that answer -/

theorem exists_isError_iff : (∃ yes, isError event = .ok yes) ↔
    Json.get "outcome" event = .str "error" ∨ FitsDouble (Json.get "status_code" event) := by
  cases hout : (Json.get "outcome" event).isText "error" with
  | true => exact iff_of_true ⟨true, if_pos hout⟩ (.inl (isText_iff.mp hout))
  | false =>
    rw [← isText_iff, hout, ← exists_number_iff]
    constructor
    · rintro ⟨yes, h⟩
      rw [isError, hout] at h
      obtain ⟨number, hnumber, -⟩ := bind_eq_ok h
      exact .inr ⟨number, hnumber⟩
    · rintro (h | ⟨number, hnumber⟩)
      · cases h
      · exact ⟨_, isError_of_number hout hnumber⟩

theorem exists_above {x : Double} (h : v.IsNumber) : ∃ yes, above x v = .ok yes := by
  cases v with
  | bool b => exact ⟨_, rfl⟩
  | int i => exact ⟨_, rfl⟩
  | float y => exact ⟨_, rfl⟩
  | _ => exact h.elim

theorem exists_isSlow_iff (h : policy.slowThreshold.IsNumber) :
    (∃ yes, isSlow policy event = .ok yes) ↔ FitsDouble (Json.get "duration_ms" event) := by
  rw [← exists_number_iff]
  constructor
  · rintro ⟨yes, hslow⟩
    obtain ⟨number, hnumber, -⟩ := bind_eq_ok hslow
    exact ⟨number, hnumber⟩
  · rintro ⟨number, hnumber⟩
    rw [isSlow, hnumber]
    cases number with
    | none => exact ⟨false, rfl⟩
    | some x => exact exists_above h

theorem exists_hasKeptUser_iff (policy : Policy) :
    (∃ yes, hasKeptUser policy event = .ok yes) ↔ (Json.get "user_id" event).HasText := by
  unfold hasKeptUser
  dsimp only
  split
  · rename_i hnone
    refine iff_of_true ⟨false, rfl⟩ ?_
    rw [Bool.or_eq_true] at hnone
    rcases hnone with hnull | hempty
    · cases hvalue : Json.get "user_id" event with
      | null => exact ⟨"None", rfl⟩
      | _ => rw [hvalue] at hnull; cases hnull
    · rw [isText_iff.mp hempty]
      exact ⟨"", rfl⟩
  · exact exists_bind_eq_ok_iff

/-- When every rule of a policy has an answer. -/
theorem answers_iff (h : policy.slowThreshold.IsNumber) :
    (∀ answer ∈ policy.answers event, ∃ yes, answer = .ok yes) ↔
      (policy.keepErrors = true → Json.get "outcome" event = .str "error" ∨
        FitsDouble (Json.get "status_code" event)) ∧
      FitsDouble (Json.get "duration_ms" event) ∧ (Json.get "user_id" event).HasText := by
  have herror : (∃ yes, (if policy.keepErrors then isError event else .ok false) = .ok yes) ↔
      (policy.keepErrors = true → ∃ yes, isError event = .ok yes) := by
    cases policy.keepErrors <;> simp
  rw [← exists_isError_iff, ← herror, ← exists_isSlow_iff h,
    ← exists_hasKeptUser_iff policy]
  simp [Policy.answers]

theorem exists_pointOf_iff :
    (∃ point, pointOf draw event = .ok point) ↔ (Json.get "trace_id" event).HasText := by
  unfold pointOf
  dsimp only
  split
  · exact exists_bind_eq_ok_iff
  · rename_i hfalsy
    exact iff_of_true ⟨draw, rfl⟩ (Json.fits_of_falsy (Bool.not_eq_true _ ▸ hfalsy) _).hasText

/-! ## Decisions -/

theorem valid_sparse (keepErrors : Bool) : (sparse keepErrors).Valid := by
  have hzero : rateOfValue (.int 0) = .ok .zero := ok_of_toOption (by decide +kernel)
  exact Policy.valid_of_rate hzero trivial

/-- **When every policy comes to a decision**: the numbers of the event can be read, and its user
and its trace id have texts. -/
theorem decided_iff (event : Json.Object) :
    (∀ policy : Policy, policy.Valid → ∀ draw, ∃ kept, keeps policy draw event = .ok kept) ↔
      InRange event ∧ HasTexts ["user_id", "trace_id"] event := by
  constructor
  · intro h
    have hstatus : ∃ yes, isError event = .ok yes := by
      obtain ⟨kept, hkept⟩ := h _ (valid_sparse true) .zero
      rw [keeps_eq] at hkept
      obtain ⟨yes, hyes, -⟩ := bind_eq_ok hkept
      exact ⟨yes, hyes⟩
    -- A policy that takes nothing by a rule asks every rule, and the share after them.
    obtain ⟨kept, hkept⟩ := h _ (valid_sparse false) .zero
    rcases keeps_cases hkept with ⟨-, hmatches⟩ | ⟨hnormal, point, hpoint, -⟩
    · exact absurd (isError_of_matches_sparse hmatches).1 Bool.false_ne_true
    · obtain ⟨-, hduration, huser⟩ := (answers_iff (valid_sparse false).threshold).mp
        fun answer hmem => ⟨false, hnormal answer hmem⟩
      exact ⟨⟨exists_isError_iff.mp hstatus, hduration⟩,
        hasTexts_pair.mpr ⟨huser, exists_pointOf_iff.mp ⟨point, hpoint⟩⟩⟩
  · rintro ⟨hrange, htexts⟩ policy hvalid draw
    obtain ⟨huser, htrace⟩ := hasTexts_pair.mp htexts
    rw [keeps_eq]
    refine exists_firstYes ?_ ?_
    · exact (answers_iff hvalid.threshold).mpr ⟨fun _ => hrange.status, hrange.duration, huser⟩
    · obtain ⟨point, hpoint⟩ := exists_pointOf_iff.mpr htrace
      exact ⟨_, by rw [inShare_eq, hpoint]; rfl⟩

/-! ## Finalization -/

open Capture (Config finalize)

/-- The name of an event that is sent. -/
def nameOf (event : Json.Object) : Except Fault String := do
  let method ← (Json.get "method" event).shown
  let path ← (Json.get "path" event).shown
  return method ++ " " ++ path

theorem exists_nameOf_iff :
    (∃ name, nameOf event = .ok name) ↔ HasTexts ["method", "path"] event := by
  rw [hasTexts_pair]
  constructor
  · rintro ⟨name, h⟩
    obtain ⟨method, hmethod, h⟩ := bind_eq_ok h
    obtain ⟨path, hpath, -⟩ := bind_eq_ok h
    exact ⟨⟨method, hmethod⟩, path, hpath⟩
  · rintro ⟨⟨method, hmethod⟩, path, hpath⟩
    rw [nameOf, hmethod, hpath]
    exact ⟨_, rfl⟩

section Finalization

variable {config : Config} {w : World}

theorem finalize_of_dropped (h : keeps config.policy w.draw event = .ok false) :
    finalize config w event = .ok none := by
  rw [finalize, h]
  rfl

/-- What is kept is sent under its name. -/
theorem finalize_of_kept (h : keeps config.policy w.draw event = .ok true) :
    finalize config w event = (nameOf event).map fun name => some ⟨name, .obj event,
      (Event.readTimestamp? (Json.get "timestamp" event)).getD w.utcNow⟩ := by
  rw [finalize, h, nameOf]
  cases (Json.get "method" event).shown with
  | error fault => rfl
  | ok method => cases (Json.get "path" event).shown <;> rfl

/-- An event is finalized if it is decided on and, where it is kept, has a name. -/
theorem exists_finalize_iff : (∃ ready, finalize config w event = .ok ready) ↔
    ∃ kept, keeps config.policy w.draw event = .ok kept ∧
      (kept = true → HasTexts ["method", "path"] event) := by
  cases hkeeps : keeps config.policy w.draw event with
  | error fault => simp [finalize, hkeeps, bind, Except.bind]
  | ok kept =>
    cases kept with
    | false => exact iff_of_true ⟨none, finalize_of_dropped hkeeps⟩ ⟨false, rfl, nofun⟩
    | true =>
      rw [finalize_of_kept hkeeps, ← exists_nameOf_iff]
      constructor
      · rintro ⟨ready, h⟩
        obtain ⟨name, hname, -⟩ := map_eq_ok h
        exact ⟨true, rfl, fun _ => ⟨name, hname⟩⟩
      · rintro ⟨_, hkept, hname⟩
        obtain ⟨name, hname⟩ := hname (Except.ok.inj hkept).symm
        exact ⟨_, by rw [hname]; rfl⟩

/-- An event that is kept is sent if it has a name. -/
theorem exists_sent_iff (h : keeps config.policy w.draw event = .ok true) :
    (∃ e, finalize config w event = .ok (some e) ∧ e.properties = .obj event) ↔
      HasTexts ["method", "path"] event := by
  rw [finalize_of_kept h, ← exists_nameOf_iff]
  constructor
  · rintro ⟨e, he, -⟩
    obtain ⟨name, hname, -⟩ := map_eq_ok he
    exact ⟨name, hname⟩
  · rintro ⟨name, hname⟩
    exact ⟨_, by rw [hname]; rfl, rfl⟩

end Finalization

/-- Whatever can be read as JSON has texts. -/
theorem hasTexts_of_fits (h : Json.Fits Json.maxDepth (.obj event)) (names : List String) :
    HasTexts names event := by
  have hfields : ∀ field ∈ event, Json.Fits 999 field.2 := h
  intro name _
  exact (Json.Fits.succ (Event.fits_get hfields name)).hasText

theorem valid_default : Policy.default.Valid := by
  have hone : rateOfValue (.int 1) = .ok Policy.default.rate := ok_of_toOption (by decide +kernel)
  exact Policy.valid_of_rate hone trivial

/-- **When an event is decided on and finalized**, whatever the policy says and whatever is drawn:
its numbers can be read, and what is shown of it has a text. What has been read as JSON has texts,
so that only a status code or a duration that no double can stand for makes it fail. -/
theorem finalizes_iff (event : Json.Object) :
    ((∀ policy : Policy, policy.Valid → ∀ draw, ∃ kept, keeps policy draw event = .ok kept) ↔
      InRange event ∧ HasTexts ["user_id", "trace_id"] event) ∧
    ((∀ config : Config, config.policy.Valid → ∀ w, ∃ ready, finalize config w event = .ok ready) ↔
      InRange event ∧ HasTexts ["user_id", "trace_id", "method", "path"] event) ∧
    (Json.Fits Json.maxDepth (.obj event) → ∀ names, HasTexts names event) := by
  have hsplit : HasTexts ["user_id", "trace_id", "method", "path"] event ↔
      HasTexts ["user_id", "trace_id"] event ∧ HasTexts ["method", "path"] event := by
    simp [HasTexts, and_assoc]
  refine ⟨decided_iff event, ?_, hasTexts_of_fits⟩
  rw [hsplit, ← and_assoc, ← decided_iff]
  constructor
  · intro h
    have hconfig (policy : Policy) (hvalid : policy.Valid) (draw : Double) :
        ∃ kept, keeps policy draw event = .ok kept ∧
          (kept = true → HasTexts ["method", "path"] event) :=
      exists_finalize_iff.mp (h ⟨"", "", none, [], policy⟩ hvalid ⟨default, .zero, draw, 0⟩)
    refine ⟨fun policy hvalid draw => ?_, ?_⟩
    · obtain ⟨kept, hkept, -⟩ := hconfig policy hvalid draw
      exact ⟨kept, hkept⟩
    · -- The policy that keeps everything asks for the name.
      obtain ⟨kept, hkept, htexts⟩ := hconfig .default valid_default .zero
      have hone : Policy.default.rate = .ofInt 1 := by rw [Policy.default]
      exact htexts (kept_of_rate_one inUnit_zero hkept hone)
  · rintro ⟨hdecided, htexts⟩ config hvalid w
    obtain ⟨kept, hkept⟩ := hdecided config.policy hvalid w.draw
    exact exists_finalize_iff.mpr ⟨kept, hkept, fun _ => htexts⟩

/-- An event whose status code is as long as those that doubles can stand for. -/
def large : Json.Object :=
  [("status_code", .int (10 ^ 308)), ("duration_ms", .int 7), ("user_id", .int 7),
    ("trace_id", .bool true), ("path", .arr [.null])]

theorem finalizes_large :
    Json.Fits Json.maxDepth (.obj large) ∧
    (∀ policy : Policy, policy.Valid → ∀ draw, ∃ kept, keeps policy draw large = .ok kept) ∧
    ∀ config : Config, config.policy.Valid → ∀ w, ∃ ready, finalize config w large = .ok ready := by
  have hfits : Json.Fits Json.maxDepth (.obj large) := by
    have hcode : (10 ^ 308 : Int).natAbs < Nat.pow 10 Json.maxIntegerDigits := by decide +kernel
    have hseven : (7 : Int).natAbs < Nat.pow 10 Json.maxIntegerDigits := by decide +kernel
    show ∀ field ∈ large, Json.Fits 999 field.2
    simp only [large, List.forall_mem_cons]
    exact ⟨hcode, hseven, hseven, trivial, List.forall_mem_singleton.mpr trivial,
      List.forall_mem_nil _⟩
  have hrange : InRange large := by
    refine ⟨.inr fun i hi => ?_, fun i hi => ?_⟩
    · cases hi
      decide +kernel
    · cases hi
      decide +kernel
  obtain ⟨hdecided, hfinalized, htexts⟩ := finalizes_iff large
  exact ⟨hfits, hdecided.mpr ⟨hrange, htexts hfits _⟩, hfinalized.mpr ⟨hrange, htexts hfits _⟩⟩

/-- An event with a status code that is too large. -/
def tooLarge : Json.Object := [("status_code", .int (10 ^ 400)), ("trace_id", .str "t")]

/-- It can be read as JSON, and the policy that keeps everything fails on it. -/
theorem tooLarge_fails :
    Json.Fits Json.maxDepth (.obj tooLarge) ∧ Policy.default.Valid ∧
    (∀ draw, keeps .default draw tooLarge = .error .outOfRange) ∧
    ∀ config : Config, config.policy = .default →
      ∀ w, finalize config w tooLarge = .error .outOfRange := by
  have hfits : Json.Fits Json.maxDepth (.obj tooLarge) := by
    have hcode : (10 ^ 400 : Int).natAbs < Nat.pow 10 Json.maxIntegerDigits := by decide +kernel
    show ∀ field ∈ tooLarge, Json.Fits 999 field.2
    simp only [tooLarge, List.forall_mem_cons]
    exact ⟨hcode, trivial, List.forall_mem_nil _⟩
  have hinfinite : ¬ (Double.ofInt (10 ^ 400)).isFinite = true := by
    rw [Double.isFinite_ofInt]
    decide +kernel
  have hnumber : numberOfValue (.int (10 ^ 400)) = .error .outOfRange := by
    rw [numberOfValue_int, if_neg hinfinite]
  have herror : isError tooLarge = .error .outOfRange := by
    show (numberOfValue (.int (10 ^ 400)) >>= _) = _
    rw [hnumber]
    rfl
  have hkeeps (draw : Double) : keeps .default draw tooLarge = .error .outOfRange := by
    show (isError tooLarge >>= _) = _
    rw [herror]
    rfl
  refine ⟨hfits, valid_default, hkeeps, fun config hpolicy w => ?_⟩
  rw [finalize, hpolicy, hkeeps]
  rfl

end Sampling

end Telemetry
