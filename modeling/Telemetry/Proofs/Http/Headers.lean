import Telemetry.Http.Message

/-!
# Headers in bytes

The names and values of headers are bytes on the wire, and texts of which each character is one byte
in a request. No byte is lost on the way, in either direction.

Main statement: `RawRequest.header?_eq_some`.
-/

namespace Telemetry

/-! ## Bytes as characters -/

namespace Text

theorem toNat_ofNat_byte {n : Nat} (h : n < 256) : (Char.ofNat n).toNat = n := by
  have hvalid : n.isValidChar := .inl (by omega)
  rw [Char.ofNat, dif_pos hvalid]
  rfl

/-- Bytes come back from their text. -/
@[simp] theorem encodeLatin1_decodeLatin1 (bytes : List UInt8) :
    encodeLatin1 (decodeLatin1 bytes) = bytes := by
  have hbyte (b : UInt8) : (Char.ofNat b.toNat).toNat = b.toNat := toNat_ofNat_byte b.toNat_lt
  rw [encodeLatin1, decodeLatin1, String.toList_ofList, List.map_map]
  refine List.map_id'' (fun b => ?_) bytes
  rw [Function.comp_apply, hbyte, if_pos b.toNat_lt, UInt8.ofNat_toNat]

/-- A text comes back from its bytes if each of its characters is one. -/
theorem decodeLatin1_encodeLatin1 {s : String} (h : ∀ c ∈ s.toList, c.toNat < 256) :
    decodeLatin1 (encodeLatin1 s) = s := by
  have hchar : ∀ c ∈ s.toList,
      Char.ofNat (if c.toNat < 0x100 then UInt8.ofNat c.toNat else 63).toNat = c := by
    intro c hc
    rw [if_pos (h c hc), UInt8.toNat_ofNat_of_lt' (h c hc), Char.ofNat_toNat]
  calc decodeLatin1 (encodeLatin1 s)
      = String.ofList (s.toList.map fun c => c) := by
        rw [encodeLatin1, decodeLatin1, List.map_map]
        exact congrArg String.ofList (List.map_congr_left hchar)
    _ = s := by rw [List.map_id', String.ofList_toList]

theorem decodeLatin1_eq_empty {bytes : List UInt8} : decodeLatin1 bytes = "" ↔ bytes = [] := by
  constructor
  · intro h
    rw [← encodeLatin1_decodeLatin1 bytes, h]
    rfl
  · rintro rfl
    rfl

end Text

namespace Http

/-! ## Requests -/

/-- A plain request as it arrives, with its headers in bytes. -/
structure RawRequest where
  verb : String
  path : String
  query : String
  headers : List (List UInt8 × List UInt8)

/-- The request as an application sees it. -/
def RawRequest.request (r : RawRequest) : Request :=
  ⟨true, r.verb, r.path, r.query,
    r.headers.map fun (name, value) => (Text.decodeLatin1 name, Text.decodeLatin1 value)⟩

/-- The first of some headers with a name, in whatever case it is written, has a value. -/
inductive FirstValue (name : String) : List (List UInt8 × List UInt8) → List UInt8 → Prop
  | here {written value : List UInt8} {rest : List (List UInt8 × List UInt8)}
      (hname : Text.lower (Text.decodeLatin1 written) = name) :
      FirstValue name ((written, value) :: rest) value
  | later {written other value : List UInt8} {rest : List (List UInt8 × List UInt8)}
      (hname : Text.lower (Text.decodeLatin1 written) ≠ name) (hrest : FirstValue name rest value) :
      FirstValue name ((written, other) :: rest) value

/-- **A header is found by its first value**, byte for byte. -/
theorem RawRequest.header?_eq_some {r : RawRequest} {name text : String} :
    r.request.header? name = some text ↔
      ∃ value, FirstValue name r.headers value ∧ Text.decodeLatin1 value = text := by
  obtain ⟨verb, path, query, headers⟩ := r
  show ((headers.map _).find? _).map _ = some text ↔ _
  -- Both sides go through the headers in order and stop at the first with the name.
  induction headers with
  | nil =>
    refine iff_of_false (fun h => nomatch h) ?_
    rintro ⟨value, hvalue, -⟩
    cases hvalue
  | cons header rest ih =>
    obtain ⟨written, other⟩ := header
    rw [List.map_cons, List.find?_cons]
    by_cases hname : Text.lower (Text.decodeLatin1 written) = name
    · rw [beq_iff_eq.mpr hname]
      constructor
      · intro h
        exact ⟨other, .here hname, Option.some.inj h⟩
      · rintro ⟨value, hvalue, rfl⟩
        cases hvalue with
        | here => rfl
        | later hother => exact absurd hname hother
    · rw [beq_eq_false_iff_ne.mpr hname]
      refine ih.trans ⟨?_, ?_⟩
      · rintro ⟨value, hvalue, htext⟩
        exact ⟨value, .later hname hvalue, htext⟩
      · rintro ⟨value, hvalue, htext⟩
        cases hvalue with
        | here hthis => exact absurd hthis hname
        | later _ hrest => exact ⟨value, hrest, htext⟩

end Http

end Telemetry
