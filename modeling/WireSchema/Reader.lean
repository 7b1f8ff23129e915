import WireSchema.Error
import WireSchema.Scalar

/-! Reading values off a byte string. A read that lacks bytes takes nothing. -/

namespace WireSchema

structure Reader where
  position : Nat
  unread : List UInt8
  deriving DecidableEq, Repr

abbrev Read := EStateM CodecError Reader

def answered {σ α : Type} : EStateM.Result CodecError σ α → EStateM.Result Halt σ α
  | .ok value s => .ok value s
  | .error e s => .error (.answered e) s

def utf8? (bytes : List UInt8) : Option String := String.fromUTF8? ⟨bytes.toArray⟩

namespace Reader

def ofBytes (bytes : List UInt8) : Reader := ⟨0, bytes⟩

def remaining (r : Reader) : Nat := r.unread.length

def isEmpty (r : Reader) : Bool := r.unread.isEmpty

def take (alignment size : Nat) : Read (List UInt8) := fun r =>
  let pad := paddingAt r.position alignment
  let needed := min (pad + size) (wordLimit - 1)
  if r.remaining < needed then .error (.decodeUnderflow r.position needed r.remaining) r
  else
    .ok ((r.unread.drop pad).take size) ⟨r.position + pad + size, r.unread.drop (pad + size)⟩

def skip (alignment : Nat) : Read Unit := do
  let _ ← take alignment 0

/-- Unlike a width, an alignment of the caller's may carry any position out of the word. -/
def align (alignment : Nat) : EStateM Halt Reader Unit := fun r =>
  if (padding (.ofNat r.position) (.ofNat alignment)).isNone then .error .panic r
  else answered (skip alignment r)

def scalar (kind : Scalar) : Read kind.Carrier := do
  let bytes ← take kind.width kind.width
  pure (kind.ofBytes bytes)

def raw (size : Nat) : Read (List UInt8) := take 1 size

def word : Read Nat := do
  let bytes ← take 4 4
  pure (ofLittleEndian bytes)

/-- A number of elements of at least `minSize` bytes each. A number that cannot fit into what is
left is refused, with the offset of the number itself. -/
def count (minSize : Nat) : Read Nat := do
  let offset := (← get).position
  let n ← word
  let left := (← get).remaining
  let needed := min (n * minSize) (wordLimit - 1)
  if left < needed then throw (.decodeUnderflow offset needed left)
  pure n

/-- Text between a length and a NUL; the length counts the NUL, and zero is the empty text. -/
def string : Read String := do
  let length ← word
  if length = 0 then pure ""
  else
    let bytes ← take 1 length
    if bytes.getLast? != some 0 then throw (.invalidData .unterminatedString)
    match utf8? bytes.dropLast with
    | some text => pure text
    | none => throw (.invalidData .invalidUtf8)

end Reader

end WireSchema
