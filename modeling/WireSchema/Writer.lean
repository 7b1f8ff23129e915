import WireSchema.Error
import WireSchema.Scalar

/-! Appending values to a buffer of fixed size, or only measuring them. -/

namespace WireSchema

/-- Where bytes go: nowhere, when only their number is wanted, or into a buffer. -/
inductive Sink where
  | measure
  | buffer (bytes : List UInt8)
  deriving Repr

structure Writer where
  sink : Sink
  position : Nat
  deriving Repr

/-- A step of writing. A step that fails still answers the writer it leaves behind. -/
abbrev Write := EStateM Halt Writer

structure SequenceMark where
  offset : Nat
  deriving DecidableEq, Repr

def overwrite (bytes : List UInt8) (start : Nat) (piece : List UInt8) : List UInt8 :=
  bytes.take start ++ piece ++ bytes.drop (start + piece.length)

def zeros (n : Nat) : List UInt8 := .replicate n 0

namespace Writer

def ofBuffer (bytes : List UInt8) : Writer := ⟨.buffer bytes, 0⟩

def measuring : Writer := ⟨.measure, 0⟩

def isMeasuring (w : Writer) : Bool :=
  match w.sink with
  | .measure => true
  | .buffer _ => false

def buffer (w : Writer) : List UInt8 :=
  match w.sink with
  | .measure => []
  | .buffer bytes => bytes

def remaining (w : Writer) : Nat :=
  match w.sink with
  | .measure => wordLimit - 1
  | .buffer bytes => bytes.length - w.position

def fail {α : Type} (e : CodecError) : Write α := throw (.answered e)

/-- Room for padding and `size` bytes. Zeroes the padding and answers where the bytes start; the
position stays. -/
def reserve (alignment size : Nat) : Write Nat := fun w =>
  match w.sink with
  | .measure =>
    match padding (.ofNat w.position) (.ofNat alignment) with
    | none => .error .panic w
    | some pad =>
      if wordLimit ≤ pad.toNat + size then .error (.answered (.invalidData .lengthOverflow)) w
      else .ok (w.position + pad.toNat) w
  | .buffer bytes =>
    let pad := paddingAt w.position alignment
    let needed := pad + size
    if wordLimit ≤ needed then .error (.answered (.invalidData .lengthOverflow)) w
    else if bytes.length - w.position < needed then
      .error (.answered (.encodeOverflow w.position needed bytes.length)) w
    else
      .ok (w.position + pad) { w with sink := .buffer (overwrite bytes w.position (zeros pad)) }

def store (start : Nat) (piece : List UInt8) (w : Writer) : Writer :=
  match w.sink with
  | .measure => w
  | .buffer bytes => { w with sink := .buffer (overwrite bytes start piece) }

/-- Stores `piece` at `start` and goes on behind it. A measuring writer may come to the end of the
word there. -/
def place (start : Nat) (piece : List UInt8) : Write Unit := fun w =>
  match w.sink with
  | .measure =>
    if start + piece.length < wordLimit then .ok () { w with position := start + piece.length }
    else .error .panic w
  | .buffer bytes => .ok () ⟨.buffer (overwrite bytes start piece), start + piece.length⟩

def append (alignment : Nat) (piece : List UInt8) : Write Unit := do
  let start ← reserve alignment piece.length
  place start piece

/-- Unlike a width, an alignment of the caller's may carry any position out of the word. -/
def align (alignment : Nat) : Write Unit := fun w =>
  if (padding (.ofNat w.position) (.ofNat alignment)).isNone then .error .panic w
  else append alignment [] w

def scalar (kind : Scalar) (value : kind.Carrier) : Write Unit :=
  append kind.width (kind.bytes value)

def raw (bytes : List UInt8) : Write Unit := append 1 bytes

def countWord (count : Nat) : Write (List UInt8) :=
  if count < halfWordLimit then pure (littleEndian 4 count) else fail (.invalidData .countTooLarge)

def count (n : Nat) : Write Unit := do
  append 4 (← countWord n)

/-- The length with the final NUL, the bytes, the NUL, all checked for room at once. -/
def string (text : String) : Write Unit :=
  let bytes := text.toUTF8.toList
  if bytes.length + 1 < halfWordLimit then
    append 4 (littleEndian 4 (bytes.length + 1) ++ bytes ++ [0])
  else
    fail (.invalidData .stringTooLong)

def beginSequence : Write SequenceMark := do
  let start ← reserve 4 4
  place start (zeros 4)
  pure ⟨start⟩

def finishSequence (mark : SequenceMark) (count : Nat) : Write Unit := do
  let word ← countWord count
  let w ← get
  if w.isMeasuring then pure ()
  else if mark.offset + 4 ≤ w.position then set (store mark.offset word w)
  else fail (.invalidData .foreignMark)

end Writer

end WireSchema
