import Telemetry.Proofs.Json.Limits
import Telemetry.Proofs.Json.Writing
import Telemetry.Proofs.Text.Utf8

/-!
# Objects that are sent and read back

An object with finite numbers and distinct names is written in UTF-8 and read back as itself, as
long as it keeps to the limits.

Main statement: `parseBytes_render`.
-/

namespace Telemetry.Json

variable {w : List Char} {fields : Object}

/-- A text of a value and nothing else is read as the value if the value keeps to the limits. -/
theorem parseChars_written {v : Json} (h : Written v w) :
    Answers (Fits maxDepth v) (parseChars w) v := by
  have hread := h.answers maxDepth stops_nil
  have hskip := h.skipSpace gap_nil []
  rw [List.append_nil] at hread hskip
  rw [List.nil_append] at hskip
  rw [parseChars, hskip]
  refine hread.through (fun hok => ?_) fun e he => ⟨_, by rw [he]⟩
  rw [hok]
  rfl

/-- The text of an object starts with a brace, and a quote or another brace comes next. -/
theorem exists_object_start (style : Style) (fields : Object) :
    ∃ c rest, (c = '"' ∨ c = '}') ∧ (Json.obj fields).write style = '{' :: c :: rest := by
  cases fields with
  | nil => exact ⟨'}', [], .inr rfl, rfl⟩
  | cons f rest =>
    obtain ⟨name, v⟩ := f
    cases rest with
    | nil => exact ⟨'"', _, .inl rfl, rfl⟩
    | cons next rest => exact ⟨'"', _, .inl rfl, rfl⟩

/-- Whatever characters an object holds, its text is taken for UTF-8. -/
theorem decodeBytes?_render (style : Style) (fields : Object) :
    decodeBytes? (Text.encodeUtf8 ((Json.obj fields).render style))
      = some ((Json.obj fields).write style) := by
  have hstart : ∀ b ∈ (Text.encodeUtf8 ((Json.obj fields).render style)).take 2, IsAscii b := by
    obtain ⟨c, rest, hc, htext⟩ := exists_object_start style fields
    rw [render, htext, Text.encodeUtf8, String.toList_ofList]
    rcases hc with rfl | rfl <;> exact isAscii_of_all rfl
  rw [decodeBytes?_utf8 hstart, Text.decodeUtf8?_encodeUtf8, render, String.toList_ofList]

/-- **An object is read back from its bytes.** -/
theorem parseBytes_render (hnames : (Json.obj fields).NamesDistinct)
    (hfinite : (Json.obj fields).allFinite = true) (hfits : Fits maxDepth (.obj fields)) :
    parseBytes (Text.encodeUtf8 ((Json.obj fields).render .compactRaw)) = .ok (.obj fields) := by
  have hread := (parseChars_written (written_write false _ hnames hfinite)).ok hfits
  rw [parseBytes, decodeBytes?_render]
  exact congrArg (Except.mapError BytesError.unreadable) hread

end Telemetry.Json
