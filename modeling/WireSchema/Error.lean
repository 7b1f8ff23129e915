import WireSchema.Text

/-! What can go wrong on the wire. -/

namespace WireSchema

inductive Fault where
  | lengthOverflow
  | countTooLarge
  | stringTooLong
  | foreignMark
  | unterminatedString
  | invalidUtf8
  | stated (reason : String)
  deriving DecidableEq, Repr

def Fault.reason : Fault → String
  | .lengthOverflow => "encoded length overflows usize"
  | .countTooLarge => "element count exceeds u32::MAX"
  | .stringTooLong => "string length exceeds u32::MAX"
  | .foreignMark => "sequence mark does not belong to this writer"
  | .unterminatedString => "string is missing its NUL terminator"
  | .invalidUtf8 => "string is not valid UTF-8"
  | .stated reason => reason

inductive CodecError where
  | encodeOverflow (offset needed capacity : Nat)
  | decodeUnderflow (offset needed remaining : Nat)
  | headerMismatch (found : List UInt8)
  | sequenceCapacity (count capacity : Nat)
  | invalidData (fault : Fault)
  | identityMismatch
  deriving DecidableEq, Repr

namespace CodecError

def message : CodecError → String
  | .encodeOverflow offset needed capacity =>
    "encode overflow at offset " ++ toString offset ++ ": need " ++ toString needed ++
      " bytes, capacity " ++ toString capacity
  | .decodeUnderflow offset needed remaining =>
    "decode underflow at offset " ++ toString offset ++ ": need " ++ toString needed ++
      " bytes, " ++ toString remaining ++ " remaining"
  | .headerMismatch found =>
    "representation header mismatch: found [" ++ ", ".intercalate (found.map Text.hexByte) ++ "]"
  | .sequenceCapacity count capacity =>
    "sequence of " ++ toString count ++ " elements exceeds caller capacity " ++ toString capacity
  | .invalidData fault => "invalid data: " ++ fault.reason
  | .identityMismatch => "type identity mismatch"

def isCapacity : CodecError → Bool
  | .encodeOverflow .. | .sequenceCapacity .. => true
  | _ => false

end CodecError

/-- Why a step ends before its end. It panics where a sum that it does not check leaves the word. -/
inductive Halt where
  | answered (e : CodecError)
  | panic
  deriving DecidableEq, Repr

inductive Ending (α : Type) where
  | ok (value : α)
  | error (e : CodecError)
  | panic
  deriving DecidableEq, Repr

def Halt.ending {α : Type} : Halt → Ending α
  | .answered e => .error e
  | .panic => .panic

end WireSchema
