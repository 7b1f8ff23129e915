/-! The fixed-width values of the wire and their alignment; a floating-point number is its bits. -/

namespace WireSchema

inductive Scalar where
  | bool
  | char
  | int8
  | uint8
  | int16
  | uint16
  | int32
  | uint32
  | int64
  | uint64
  | float32
  | float64
  deriving DecidableEq, Repr

def byteRange : (width : Nat) → Nat
  | 0 => 1
  | width + 1 => 256 * byteRange width

def littleEndian : (width : Nat) → (n : Nat) → List UInt8
  | 0, _ => []
  | width + 1, n => .ofNat n :: littleEndian width (n / 256)

def ofLittleEndian : List UInt8 → Nat
  | [] => 0
  | byte :: rest => byte.toNat + 256 * ofLittleEndian rest

@[simp] theorem length_littleEndian (width n : Nat) : (littleEndian width n).length = width := by
  induction width generalizing n with
  | zero => rfl
  | succ width ih => simp [littleEndian, ih]

theorem ofLittleEndian_littleEndian (width n : Nat) (h : n < byteRange width) :
    ofLittleEndian (littleEndian width n) = n := by
  induction width generalizing n with
  | zero => exact (Nat.lt_one_iff.mp h).symm
  | succ width ih =>
    have hn : n / 256 < byteRange width := by
      rw [byteRange] at h
      omega
    simp only [littleEndian, ofLittleEndian, ih _ hn, UInt8.toNat_ofNat']
    omega

namespace Scalar

def name : Scalar → String
  | .bool => "bool"
  | .char => "char"
  | .int8 => "int8"
  | .uint8 => "uint8"
  | .int16 => "int16"
  | .uint16 => "uint16"
  | .int32 => "int32"
  | .uint32 => "uint32"
  | .int64 => "int64"
  | .uint64 => "uint64"
  | .float32 => "float32"
  | .float64 => "float64"

def width : Scalar → Nat
  | .bool | .char | .int8 | .uint8 => 1
  | .int16 | .uint16 => 2
  | .int32 | .uint32 | .float32 => 4
  | .int64 | .uint64 | .float64 => 8

def Carrier : Scalar → Type
  | .bool => Bool
  | .char => UInt8
  | .int8 => Int8
  | .uint8 => UInt8
  | .int16 => Int16
  | .uint16 => UInt16
  | .int32 => Int32
  | .uint32 => UInt32
  | .int64 => Int64
  | .uint64 => UInt64
  | .float32 => UInt32
  | .float64 => UInt64

def toWord : (kind : Scalar) → kind.Carrier → Nat
  | .bool, b => Bool.toNat b
  | .char, n => UInt8.toNat n
  | .int8, n => (Int8.toUInt8 n).toNat
  | .uint8, n => UInt8.toNat n
  | .int16, n => (Int16.toUInt16 n).toNat
  | .uint16, n => UInt16.toNat n
  | .int32, n => (Int32.toUInt32 n).toNat
  | .uint32, n => UInt32.toNat n
  | .int64, n => (Int64.toUInt64 n).toNat
  | .uint64, n => UInt64.toNat n
  | .float32, bits => UInt32.toNat bits
  | .float64, bits => UInt64.toNat bits

/-- Reads a word back; any word but zero is `true`. -/
def ofWord : (kind : Scalar) → Nat → kind.Carrier
  | .bool, n => n != 0
  | .char, n => UInt8.ofNat n
  | .int8, n => (UInt8.ofNat n).toInt8
  | .uint8, n => UInt8.ofNat n
  | .int16, n => (UInt16.ofNat n).toInt16
  | .uint16, n => UInt16.ofNat n
  | .int32, n => (UInt32.ofNat n).toInt32
  | .uint32, n => UInt32.ofNat n
  | .int64, n => (UInt64.ofNat n).toInt64
  | .uint64, n => UInt64.ofNat n
  | .float32, n => UInt32.ofNat n
  | .float64, n => UInt64.ofNat n

def default (kind : Scalar) : kind.Carrier := kind.ofWord 0

def bytes (kind : Scalar) (value : kind.Carrier) : List UInt8 :=
  littleEndian kind.width (kind.toWord value)

def ofBytes (kind : Scalar) (bytes : List UInt8) : kind.Carrier :=
  kind.ofWord (ofLittleEndian bytes)

@[simp] theorem length_bytes (kind : Scalar) (value : kind.Carrier) :
    (kind.bytes value).length = kind.width := length_littleEndian ..

theorem toWord_lt (kind : Scalar) (value : kind.Carrier) :
    kind.toWord value < byteRange kind.width := by
  cases kind with
  | bool => revert value; show ∀ b : Bool, b.toNat < 256; decide
  | char => exact UInt8.toNat_lt value
  | int8 => exact UInt8.toNat_lt _
  | uint8 => exact UInt8.toNat_lt value
  | int16 => exact UInt16.toNat_lt _
  | uint16 => exact UInt16.toNat_lt value
  | int32 => exact UInt32.toNat_lt _
  | uint32 => exact UInt32.toNat_lt value
  | int64 => exact UInt64.toNat_lt _
  | uint64 => exact UInt64.toNat_lt value
  | float32 => exact UInt32.toNat_lt value
  | float64 => exact UInt64.toNat_lt value

theorem ofWord_toWord (kind : Scalar) (value : kind.Carrier) :
    kind.ofWord (kind.toWord value) = value := by
  cases kind with
  | bool => revert value; show ∀ b : Bool, (b.toNat != 0) = b; decide
  | char => exact UInt8.ofNat_toNat
  | uint8 => exact UInt8.ofNat_toNat
  | uint16 => exact UInt16.ofNat_toNat
  | uint32 => exact UInt32.ofNat_toNat
  | uint64 => exact UInt64.ofNat_toNat
  | float32 => exact UInt32.ofNat_toNat
  | float64 => exact UInt64.ofNat_toNat
  | int8 =>
    show (UInt8.ofNat (Int8.toUInt8 value).toNat).toInt8 = value
    rw [UInt8.ofNat_toNat]
    rfl
  | int16 =>
    show (UInt16.ofNat (Int16.toUInt16 value).toNat).toInt16 = value
    rw [UInt16.ofNat_toNat]
    rfl
  | int32 =>
    show (UInt32.ofNat (Int32.toUInt32 value).toNat).toInt32 = value
    rw [UInt32.ofNat_toNat]
    rfl
  | int64 =>
    show (UInt64.ofNat (Int64.toUInt64 value).toNat).toInt64 = value
    rw [UInt64.ofNat_toNat]
    rfl

theorem ofBytes_bytes (kind : Scalar) (value : kind.Carrier) :
    kind.ofBytes (kind.bytes value) = value := by
  rw [ofBytes, bytes, ofLittleEndian_littleEndian _ _ (kind.toWord_lt value), ofWord_toWord]

/-- Equality of two bit patterns as floating-point numbers with `mantissa` fraction bits and
`exponent` exponent bits: a NaN equals nothing, and the two zeros are equal. -/
def sameFloat (mantissa exponent : Nat) (a b : Nat) : Bool :=
  let magnitude (bits : Nat) := bits % (1 <<< (mantissa + exponent))
  let infinity := ((1 <<< exponent) - 1) <<< mantissa
  decide (magnitude a ≤ infinity) && decide (magnitude b ≤ infinity) &&
    (a == b || (magnitude a == 0 && magnitude b == 0))

def same (kind : Scalar) (a b : kind.Carrier) : Bool :=
  match kind with
  | .float32 => sameFloat 23 8 (toWord .float32 a) (toWord .float32 b)
  | .float64 => sameFloat 52 11 (toWord .float64 a) (toWord .float64 b)
  | kind => kind.toWord a == kind.toWord b

end Scalar

def wordLimit : Nat := 0x10000000000000000

def halfWordLimit : Nat := 0x100000000

/-- Bytes to skip at `offset` so that the low bits masked by `alignment - 1` become zero, if the
sum with the mask fits a word. For a power of two this is the least step to the next multiple. -/
def padding (offset alignment : UInt64) : Option UInt64 :=
  if alignment ≤ 1 then some 0
  else
    let mask := alignment - 1
    if offset.toNat + mask.toNat < wordLimit then some (((offset + mask) &&& ~~~mask) - offset)
    else none

/-- The same step for numbers, whose sums fit always. It serves offsets into memory, which end so
far below `wordLimit` that no width of the wire carries them there. -/
def paddingAt (offset alignment : Nat) : Nat :=
  let mask := alignment - 1
  let raised := offset + mask
  raised - (raised &&& mask) - offset

end WireSchema
