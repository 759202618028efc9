import Script.Proofs.Builtin.Run
import Script.Proofs.Text.Utf8

/-!
# Texts as bytes and back

Turning a text into bytes or a byte array and decoding that gives the text again, and bytes are
decoded only if there is a text that they come from (`Builtin.utf8_round_trip`).
-/

namespace Script.Builtin

open Script.Action

variable {heap : Heap} {value : Value} {bytes : List UInt8}

/-- The text that is decoded from what a function makes of a text. -/
def recode (function : BuiltinFunction) (s : String) : Action Value := do
  let encoded ← compute function [.str s]
  callMethod encoded "decode" []

/-- The length of what a function makes of a text. -/
def encodedLength (function : BuiltinFunction) (s : String) : Action Value := do
  let encoded ← compute function [.str s]
  callMethod encoded "len" []

/-- The bytes of a value are decoded to a text that is encoded to them, or refused because there is
no such text. -/
inductive Decodes (heap : Heap) (value : Value) (bytes : List UInt8) : Prop where
  | text (s : String) (hdecoded : callMethod value "decode" [] heap = .ok (.str s, heap))
      (hencoded : compute .bytes [.str s] heap = .ok (.bytes bytes, heap))
  | refused (message : String)
      (hdecoded : callMethod value "decode" [] heap =
        .error (.raised .unicodeDecodeError message))
      (hencoded : ∀ s, compute .bytes [.str s] heap ≠ .ok (.bytes bytes, heap))

theorem compute_bytes_run (heap : Heap) (s : String) :
    compute .bytes [.str s] heap = .ok (.bytes (Text.Utf8.encode s.toList), heap) :=
  rfl

theorem check_encoding_run (heap : Heap) : checkEncoding "utf-8" heap = .ok ((), heap) :=
  rfl

/-- Bytes and byte arrays share the method that decodes. -/
theorem call_decode_run (h : heap.bytes? value = some bytes) :
    callMethod value "decode" [] heap = bytesDecode bytes (.str "utf-8") heap := by
  have hmethod : method? heap value "decode" =
      some ⟨0, 1, fun items => bytesDecode bytes (items.headD (.str "utf-8"))⟩ := by
    unfold Heap.bytes? at h
    split at h <;> cases h <;> rfl
  exact call_method_run hmethod ⟨Nat.le_refl 0, Nat.zero_le 1⟩

theorem decode_run {text : List Char} (h : heap.bytes? value = some bytes)
    (hdecode : Text.Utf8.decode bytes = .ok text) :
    callMethod value "decode" [] heap = .ok (.str (String.ofList text), heap) := by
  rw [call_decode_run h, bytesDecode]
  simp only [requireText, pure_bind]
  rw [bind_run (check_encoding_run heap), hdecode]
  rfl

theorem decode_refused_run {error : Text.Utf8.DecodeError} (h : heap.bytes? value = some bytes)
    (hdecode : Text.Utf8.decode bytes = .error error) :
    callMethod value "decode" [] heap = .error (.raised .unicodeDecodeError error.message) := by
  rw [call_decode_run h, bytesDecode]
  simp only [requireText, pure_bind]
  rw [bind_run (check_encoding_run heap), hdecode]
  rfl

theorem recode_bytes_run (heap : Heap) (s : String) : heap.Returns (recode .bytes s) (.str s) := by
  have hdecode := Text.Utf8.decode_encode s.toList
  refine ⟨heap, ?_⟩
  rw [recode, bind_run (compute_bytes_run heap s), decode_run rfl hdecode, String.ofList_toList]

theorem recode_bytearray_run (heap : Heap) (s : String) :
    heap.Returns (recode .bytearray s) (.str s) := by
  have hdecode := Text.Utf8.decode_encode s.toList
  let after : Heap :=
    { heap with bytearrays := heap.bytearrays.push (Text.Utf8.encode s.toList) }
  have hencoded : compute .bytearray [.str s] heap =
      .ok (.bytearray heap.bytearrays.next, after) := rfl
  have hbytes : after.bytes? (.bytearray heap.bytearrays.next) =
      some (Text.Utf8.encode s.toList) := by
    show some ((heap.bytearrays.push _).get heap.bytearrays.next) = _
    rw [Store.get_push, if_pos rfl]
  refine ⟨after, ?_⟩
  rw [recode, bind_run hencoded, decode_run hbytes hdecode, String.ofList_toList]

theorem decodes_of_bytes (h : heap.bytes? value = some bytes) : Decodes heap value bytes := by
  cases hdecode : Text.Utf8.decode bytes with
  | ok text =>
      refine .text (String.ofList text) (decode_run h hdecode) ?_
      rw [compute_bytes_run, String.toList_ofList, Text.Utf8.decode_eq_ok_iff.mp hdecode]
  | error error =>
      refine .refused error.message (decode_refused_run h hdecode) fun s hencoded => ?_
      rw [compute_bytes_run] at hencoded
      have hbytes : Text.Utf8.encode s.toList = bytes := by
        injection hencoded with hpair
        injection hpair with hvalue
        injection hvalue
      cases hdecode.symm.trans (Text.Utf8.decode_eq_ok_iff.mpr hbytes)

/-- A text that is turned into bytes or into a byte array and back is the same text, and it is as
long as its bytes. Some bytes, be they a bytes value or those of a byte array, are decoded to the
text that they come from, and refused with a `UnicodeDecodeError` if they come from none. -/
theorem utf8_round_trip (heap : Heap) :
    (∀ s : String, heap.Returns (recode .bytes s) (.str s) ∧
      heap.Returns (recode .bytearray s) (.str s) ∧
      ∃ length : Nat, heap.Returns (callMethod (.str s) "len" []) (.int length) ∧
        heap.Returns (encodedLength .bytes s) (.int length)) ∧
    (∀ bytes : List UInt8, Decodes heap (.bytes bytes) bytes) ∧
    ∀ id : ByteArrayId, Decodes heap (.bytearray id) (heap.bytearray id) := by
  refine ⟨fun s => ⟨recode_bytes_run heap s, recode_bytearray_run heap s, s.utf8ByteSize,
    ⟨heap, rfl⟩, heap, ?_⟩, fun bytes => decodes_of_bytes rfl, fun id => decodes_of_bytes rfl⟩
  have hlength : (Text.Utf8.encode s.toList).length = s.utf8ByteSize := by
    rw [Text.Utf8.length_encode, String.ofList_toList]
  rw [encodedLength, bind_run (compute_bytes_run heap s), ← hlength]
  rfl

end Script.Builtin
