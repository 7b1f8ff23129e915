import Mathlib.Tactic
import WireSchema.Scalar

/-! Which value a little-endian word stands for, said without reading it. -/

namespace WireSchema

theorem ofLittleEndian_lt (bytes : List UInt8) : ofLittleEndian bytes < byteRange bytes.length := by
  induction bytes with
  | nil => exact Nat.one_pos
  | cons byte rest ih =>
    have low := byte.toNat_lt
    simp only [ofLittleEndian, List.length_cons, byteRange]
    omega

namespace Scalar

theorem width_isPowerOfTwo (kind : Scalar) : kind.width.isPowerOfTwo := by
  cases kind with
  | bool | char | int8 | uint8 => exact ⟨0, rfl⟩
  | int16 | uint16 => exact ⟨1, rfl⟩
  | int32 | uint32 | float32 => exact ⟨2, rfl⟩
  | int64 | uint64 | float64 => exact ⟨3, rfl⟩

theorem width_le (kind : Scalar) : kind.width ≤ 8 := by
  cases kind <;> decide

/-- The value that the bytes of a little-endian word stand for. A truth value is true for every
word but zero; every other value has one word only. -/
def Denotes : (kind : Scalar) → List UInt8 → kind.Carrier → Prop
  | .bool, word, value => value = true ↔ ofLittleEndian word ≠ 0
  | kind, word, value => kind.toWord value = ofLittleEndian word

theorem toWord_ofWord {kind : Scalar} (number : kind ≠ .bool) {n : Nat}
    (small : n < byteRange kind.width) : kind.toWord (kind.ofWord n) = n := by
  cases kind with
  | bool => exact (number rfl).elim
  | char | uint8 => exact UInt8.toNat_ofNat_of_lt small
  | uint16 => exact UInt16.toNat_ofNat_of_lt small
  | uint32 | float32 => exact UInt32.toNat_ofNat_of_lt small
  | uint64 | float64 => exact UInt64.toNat_ofNat_of_lt small
  | int8 => exact UInt8.toNat_ofNat_of_lt small
  | int16 => exact UInt16.toNat_ofNat_of_lt small
  | int32 => exact UInt32.toNat_ofNat_of_lt small
  | int64 => exact UInt64.toNat_ofNat_of_lt small

theorem denotes_of_ne {kind : Scalar} (number : kind ≠ .bool) (word : List UInt8)
    (value : kind.Carrier) :
    kind.Denotes word value ↔ kind.toWord value = ofLittleEndian word := by
  cases kind with
  | bool => exact (number rfl).elim
  | _ => exact Iff.rfl

/-- A word denotes exactly the value that is read from it. -/
theorem denotes_iff {kind : Scalar} {word : List UInt8} (length : word.length = kind.width)
    (value : kind.Carrier) : kind.Denotes word value ↔ kind.ofBytes word = value := by
  by_cases truth : kind = .bool
  · subst truth
    have meaning (n : Nat) (b : Bool) : (b = true ↔ n ≠ 0) ↔ (n != 0) = b := by
      cases b <;> simp
    exact meaning (ofLittleEndian word) value
  · have small : ofLittleEndian word < byteRange kind.width := length ▸ ofLittleEndian_lt word
    rw [denotes_of_ne truth, ofBytes]
    constructor
    · intro same
      rw [← same, ofWord_toWord]
    · intro same
      rw [← same]
      exact toWord_ofWord truth small

theorem denotes_bytes (kind : Scalar) (value : kind.Carrier) :
    kind.Denotes (kind.bytes value) value :=
  (denotes_iff (length_bytes kind value) value).mpr (ofBytes_bytes kind value)

end Scalar

end WireSchema
