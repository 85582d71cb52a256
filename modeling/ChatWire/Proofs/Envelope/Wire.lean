import ChatWire.Envelope.Basic
import ChatWire.Proofs.Json.Reading

/-! Envelopes on their way. What is written into a frame is what comes out of it, and of what comes in nothing is
lost but what is shorter than a header. -/

namespace ChatWire.Envelope

open Json (Origin renderInOrder)
open Json.Lexical (escapedBytes)

/-- Whether there is such an envelope: its numbers fit, and its data is a value, without floats and not too deep. -/
structure Fit (e : Envelope) : Prop where
  tag : e.tag < UInt8.size
  code : isInt64 e.errorCode
  integral : e.data.isIntegral
  ordered : e.data.isOrdered
  depth : e.data.depth ≤ 126

variable {e : Envelope}

theorem Fit.isIntegral_fields (h : e.Fit) : (Json.obj e.fields).isIntegral := by
  have htag : (Json.nat e.tag).isIntegral := by
    have htag : e.tag < 256 := h.tag
    apply Json.isIntegral_int
    rw [isInt64_iff, leastInt64, greatestInt64]
    omega
  have hcode := Json.isIntegral_int h.code
  have hrest : Json.fieldsIntegral [("encrypt", .nat e.tag), ("error_code", .int e.errorCode),
      ("error_message", .str e.errorMessage), ("data", e.data)] := by
    simp only [Json.fieldsIntegral, htag, hcode, h.integral, Bool.and_self]
    rfl
  rw [Json.isIntegral, fields]
  cases e.key with
  | none => exact hrest
  | some k =>
    rw [Option.toList_some, List.map_singleton, List.singleton_append, Json.fieldsIntegral, hrest]
    rfl

open Json.Reading in
/-- The fields are read one by one as they are written. -/
theorem Fit.parse_render (h : e.Fit) : parse (Text.toBytes e.render) = .ok e := by
  rw [parse, render, renderInOrder, Json.Reading.parse_render _ h.isIntegral_fields, reading, Json.maxLevels,
    record_obj]
  obtain ⟨key, tag, code, message, data⟩ := e
  have htag : nat8 (.text 126) ((Json.nat tag).draftAs escapedBytes) = .ok tag := by
    have htag : tag < 256 := h.tag
    have hread : integer 0 255 (.text 126) (.number (.ok (.int tag))) = .ok (tag : Int) :=
      integer_number (by omega) _
    exact congrArg (Int.toNat <$> ·) hread
  have hcode : int64 (.text 126) ((Json.int code).draftAs escapedBytes) = .ok code :=
    integer_number (isInt64_iff.1 h.code) _
  have hdata : value (.text 126) (data.draftAs escapedBytes) = .ok data := Json.read_draftAs _ h.ordered h.depth
  cases key with
  | none =>
    rw [fields, Option.toList_none, List.map_nil, List.nil_append, fromMembers_field rfl rfl htag,
      fromMembers_field rfl rfl hcode, fromMembers_field (a := some message) rfl rfl rfl,
      fromMembers_field rfl rfl hdata]
    rfl
  | some k =>
    rw [fields, Option.toList_some, List.map_singleton, List.singleton_append,
      fromMembers_field (a := some k) rfl rfl rfl, fromMembers_field rfl rfl htag,
      fromMembers_field rfl rfl hcode, fromMembers_field (a := some message) rfl rfl rfl,
      fromMembers_field rfl rfl hdata]
    rfl

/-- A frame comes in as it went out, under any header, and so does the envelope in it. Only what is shorter than a
header is no frame, and any other bytes are those of the frame that they are taken for. -/
theorem frames_bring_envelopes (header : Header) (h : e.Fit) :
    (Frame.decode? (e.toFrame header).encode = some (e.toFrame header) ∧
        parse (e.toFrame header).body = .ok e) ∧
      ∀ b : Bytes, (Frame.decode? b = none ↔ b.length < 4) ∧ ∀ f, Frame.decode? b = some f → f.encode = b :=
  ⟨⟨Frame.decode?_encode _, h.parse_render⟩, fun _ =>
    ⟨Frame.decode?_eq_none_iff, fun _ hf => Frame.encode_of_decode? hf⟩⟩

/-- a key, an error in other letters, and nested data -/
theorem frames_bring_envelopes_keyed :
    let e : Envelope := ⟨some "k\"\\", 255, -9223372036854775808, "日本\n",
      .obj [("a", .arr [.null, .int 18446744073709551615]), ("b", .obj [])]⟩
    e.Fit ∧ Frame.decode? (e.toFrame ⟨255, 65535, 0⟩).encode = some (e.toFrame ⟨255, 65535, 0⟩) ∧
      parse (e.toFrame ⟨255, 65535, 0⟩).body = .ok e := by
  intro e
  have hfit : e.Fit := ⟨by decide, by decide, by decide, by decide, by decide⟩
  exact ⟨hfit, (frames_bring_envelopes ⟨255, 65535, 0⟩ hfit).1⟩

end ChatWire.Envelope
