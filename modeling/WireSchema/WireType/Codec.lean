import WireSchema.Reader
import WireSchema.WireType
import WireSchema.Writer

/-! Writing values of any wire type, and reading them into targets. -/

namespace WireSchema

def encodeEach {α : Type} (encode : α → Write Unit) : List α → Write Unit
  | [] => pure ()
  | item :: rest => do
    encode item
    encodeEach encode rest

def Sequence.encode {α : Type} (encode : α → Write Unit) (s : Sequence α) : Write Unit := do
  Writer.count s.size
  encodeEach encode s.toList

mutual

def WireType.encode : (type : WireType) → type.Value → Write Unit
  | .scalar kind, value => Writer.scalar kind value
  | .string, text => Writer.string text
  | .array element _, items => encodeEach element.encode (Vector.toList items)
  | .sequence element, items => Sequence.encode element.encode items
  | .record _ _ fields, values => fields.encode values
  | .alias _ target, value => target.encode value

def Fields.encode : (fields : Fields) → fields.Value → Write Unit
  | .nil, () => pure ()
  | .cons _ type rest, (value, values) => do
    type.encode value
    rest.encode values

end

structure Decoded (α : Type) where
  target : α
  reader : Reader
  result : Except CodecError Unit

structure Filling (α : Type) where
  done : List α
  left : List α
  reader : Reader
  result : Except CodecError Unit

def replaceBy {α : Type} (read : Read α) (target : α) (r : Reader) : Decoded α :=
  match read r with
  | .ok value r => ⟨value, r, .ok ()⟩
  | .error e r => ⟨target, r, .error e⟩

def fillEach {α : Type} (decode : α → Reader → Decoded α) : List α → Reader → Filling α
  | [], r => ⟨[], [], r, .ok ()⟩
  | slot :: rest, r =>
    match decode slot r with
    | ⟨slot, r, .error e⟩ => ⟨[], slot :: rest, r, .error e⟩
    | ⟨slot, r, .ok ()⟩ =>
      let filling := fillEach decode rest r
      { filling with done := slot :: filling.done }

theorem length_fillEach {α : Type} (decode : α → Reader → Decoded α) (slots : List α)
    (r : Reader) :
    ((fillEach decode slots r).done ++ (fillEach decode slots r).left).length = slots.length := by
  induction slots generalizing r with
  | nil => rfl
  | cons slot rest ih =>
    rw [fillEach]
    split
    · simp
    · simpa using ih _

/-- Reads a count that at least fits what is left and the storage, then the elements. The length
follows the elements that were read in full. -/
def Sequence.decodeInto {α : Type} (minimumSize : Nat) (decode : α → Reader → Decoded α)
    (s : Sequence α) (r : Reader) : Decoded (Sequence α) :=
  match Reader.count minimumSize r with
  | .error e r => ⟨s, r, .error e⟩
  | .ok 0 r => ⟨s.clear, r, .ok ()⟩
  | .ok count r =>
    match s with
    | .shared _ => ⟨s, r, .error (.sequenceCapacity count s.capacity)⟩
    | .exclusive filled spare =>
      let slots := filled ++ spare
      if slots.length < count then ⟨s, r, .error (.sequenceCapacity count s.capacity)⟩
      else
        let filling := fillEach decode (slots.take count) r
        ⟨.exclusive filling.done (filling.left ++ slots.drop count), filling.reader,
          filling.result⟩

def decodeVectorInto {α : Type} {n : Nat} (decode : α → Reader → Decoded α) (items : Vector α n)
    (r : Reader) : Decoded (Vector α n) :=
  let filling := fillEach decode items.toList r
  have size : (filling.done ++ filling.left).toArray.size = n := by
    simpa using length_fillEach decode items.toList r
  ⟨⟨(filling.done ++ filling.left).toArray, size⟩, filling.reader, filling.result⟩

mutual

def WireType.decodeInto : (type : WireType) → type.Value → Reader → Decoded type.Value
  | .scalar kind, target, r => replaceBy (Reader.scalar kind) target r
  | .string, target, r => replaceBy Reader.string target r
  | .array element _, target, r => decodeVectorInto element.decodeInto target r
  | .sequence element, target, r =>
    Sequence.decodeInto element.minimumSize element.decodeInto target r
  | .record _ _ fields, target, r => fields.decodeInto target r
  | .alias _ aliased, target, r => aliased.decodeInto target r

def Fields.decodeInto : (fields : Fields) → fields.Value → Reader → Decoded fields.Value
  | .nil, (), r => ⟨(), r, .ok ()⟩
  | .cons _ type rest, (value, values), r =>
    match type.decodeInto value r with
    | ⟨value, r, .error e⟩ => ⟨(value, values), r, .error e⟩
    | ⟨value, r, .ok ()⟩ =>
      let decoded := rest.decodeInto values r
      ⟨(value, decoded.target), decoded.reader, decoded.result⟩

end

end WireSchema
