import WireSchema.WireType.Codec

/-! A payload behind its header; offsets and alignment start anew behind the header. -/

namespace WireSchema.Envelope

def header : List UInt8 := [0, 1, 0, 0]

def payload (bytes : List UInt8) : Except CodecError (List UInt8) :=
  if bytes.take 4 = header then .ok (bytes.drop 4)
  else .error (.headerMismatch (bytes.take 4 ++ zeros (4 - bytes.length)))

def encodedSize (type : WireType) (value : type.Value) : Ending Nat :=
  match type.encode value .measuring with
  | .ok _ w =>
    let size := header.length + w.position
    if size < wordLimit then .ok size else .panic
  | .error halt _ => halt.ending

/-- Writes header and value into `buffer`. Answers the number of bytes written, and the buffer as
it is left, also after a failure. -/
def serialize (type : WireType) (value : type.Value) (buffer : List UInt8) :
    Ending Nat × List UInt8 :=
  if buffer.length < header.length then
    (.error (.encodeOverflow 0 header.length buffer.length), buffer)
  else
    match type.encode value (.ofBuffer (buffer.drop header.length)) with
    | .ok _ w => (.ok (header.length + w.position), header ++ w.buffer)
    | .error halt w => (halt.ending, header ++ w.buffer)

def deserialize (type : WireType) (bytes : List UInt8) (target : type.Value) :
    Decoded type.Value :=
  match payload bytes with
  | .error e => ⟨target, .ofBytes [], .error e⟩
  | .ok payload => type.decodeInto target (.ofBytes payload)

end WireSchema.Envelope
