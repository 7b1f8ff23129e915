import WireSchema.Proofs.Deserialize
import WireSchema.Proofs.Serialize

/-! What is serialized is deserialized. -/

namespace WireSchema.Envelope

theorem frames_encoding {type : WireType} {value : type.Value}
    (encodable : type.Encodable (type.content value)) (rest : List UInt8) :
    Frames type (type.encoding value ++ rest) (type.layout 0 (type.content value)) rest
      (type.content value) where
  parts := List.append_assoc _ _ _
  denotes := type.denotes_layout 0 (type.content value) encodable

/-- A value that is within the 32-bit limits survives being written and read back, in any buffer
that has room for its encoding, into any target that can hold it, and in front of any bytes. The
room may be told by `encodedSize`, which answers whenever a word can hold the length. -/
theorem deserialize_serialize (type : WireType) (value target : type.Value)
    (buffer rest : List UInt8) (encodable : type.Encodable (type.content value))
    (room : (type.encoding value).length ≤ buffer.length ∨
      ∃ size, encodedSize type value = .ok size ∧ size ≤ buffer.length)
    (fits : type.CanHold target (type.content value)) :
    ∃ n written, n = (type.encoding value).length ∧
      encodedSize type value = (if n < wordLimit then .ok n else .panic) ∧
      serialize type value buffer = (.ok n, written) ∧
      (deserialize type (written.take n ++ rest) target).result = .ok () ∧
      type.content (deserialize type (written.take n ++ rest) target).target =
        type.content value ∧
      (deserialize type (written.take n ++ rest) target).reader = ⟨n - 4, rest⟩ := by
  have room : (type.encoding value).length ≤ buffer.length := by
    rcases room with room | ⟨size, measured, room⟩
    · exact room
    · obtain ⟨-, rfl, -⟩ := encodedSize_eq_ok.mp measured
      exact room
  refine ⟨_, _, rfl, encodedSize_of_encodable encodable, serialize_of_le encodable room, ?_⟩
  rw [List.take_left' rfl]
  have consumed : (type.encoding value).length - 4 =
      (type.layout 0 (type.content value)).length := by
    rw [WireType.encoding, List.length_append]
    exact Nat.add_sub_cancel_left 4 _
  have yields : (deserialize type (type.encoding value ++ rest) target).Yields type.content
      (type.content value) ⟨(type.encoding value).length - 4, rest⟩ :=
    deserialize_yields.mpr ⟨_, frames_encoding encodable rest, consumed, fits⟩
  exact ⟨yields.1, yields.2.2, yields.2.1⟩

def sampleTarget : sampleType.Value :=
  (false, "", .exclusive [] [.exclusive [(1 : UInt16)] [(1 : UInt16)], .shared []], ())

theorem deserialize_serialize_sample :
    sampleType.Encodable (sampleType.content sample) ∧ encodedSize sampleType sample = .ok 32 ∧
    sampleType.CanHold sampleTarget (sampleType.content sample) ∧
    ∃ n written, n = (sampleType.encoding sample).length ∧
      serialize sampleType sample (List.replicate 40 255) = (.ok n, written) ∧
      (deserialize sampleType (written.take n ++ [9]) sampleTarget).result = .ok () ∧
      sampleType.content (deserialize sampleType (written.take n ++ [9]) sampleTarget).target =
        sampleType.content sample ∧
      (deserialize sampleType (written.take n ++ [9]) sampleTarget).reader = ⟨n - 4, [9]⟩ := by
  have length : (sampleType.encoding sample).length = 32 := congrArg List.length encoding_sample
  have measured : encodedSize sampleType sample = .ok 32 :=
    encodedSize_eq_ok.mpr ⟨encodable_sample, length.symm, by decide⟩
  have fits : sampleType.CanHold sampleTarget (sampleType.content sample) := by
    decide
  obtain ⟨n, written, whole, -, restored⟩ :=
    deserialize_serialize sampleType sample sampleTarget (List.replicate 40 255) [9]
      encodable_sample (.inr ⟨32, measured, by decide⟩) fits
  exact ⟨encodable_sample, measured, fits, n, written, whole, restored⟩

end WireSchema.Envelope
